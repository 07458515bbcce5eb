import ArtifactSelection.Cache

/-!
What a cache holds. A serial number belongs to one key, a key that is published keeps its value, and
the size of a cache counts its keys as long as only new keys are published.
-/

namespace ArtifactSelection.Cache

variable {κ α : Type}

def keys (c : Cache κ α) : List κ := c.published.map Prod.fst

@[simp] theorem keys_empty : (empty : Cache κ α).keys = [] := rfl

@[simp] theorem keys_publish (c : Cache κ α) (k : κ) (a : α) :
    (c.publish k a).keys = k :: c.keys := rfl

@[simp] theorem length_keys (c : Cache κ α) : c.keys.length = c.size := by
  simp [keys, size]

theorem induction_on {motive : Cache κ α → Prop} (c : Cache κ α) (empty : motive empty)
    (publish : ∀ c k a, motive c → motive (c.publish k a)) : motive c := by
  obtain ⟨l⟩ := c
  induction l with
  | nil => exact empty
  | cons p l ih => exact publish ⟨l⟩ p.1 p.2 ih

variable [DecidableEq κ]

theorem serial_lt_size {c : Cache κ α} {k : κ} {s : Shared α} (h : c.get? k = some s) :
    s.serial < c.size := by
  induction c using induction_on with
  | empty => simp at h
  | publish c x a ih =>
    rw [get?_publish] at h
    rw [size_publish]
    split at h
    · obtain rfl := Option.some.inj h
      simp
    · have older := ih h
      omega

theorem key_of_serial {c : Cache κ α} {k x : κ} {s t : Shared α} (hk : c.get? k = some s)
    (hx : c.get? x = some t) (same : s.serial = t.serial) : k = x := by
  induction c using induction_on with
  | empty => simp at hk
  | publish c y a ih =>
    rw [get?_publish] at hk hx
    split at hk <;> split at hx
    · next hyk hyx => exact hyk.symm.trans hyx
    · have older := serial_lt_size hx
      obtain rfl := Option.some.inj hk
      simp only at same
      omega
    · have older := serial_lt_size hk
      obtain rfl := Option.some.inj hx
      simp only at same
      omega
    · exact ih hk hx

theorem mem_keys {c : Cache κ α} {k : κ} : k ∈ c.keys ↔ ∃ s, c.get? k = some s := by
  induction c using induction_on with
  | empty => simp
  | publish c x a ih =>
    rw [keys_publish, List.mem_cons, ih, get?_publish]
    by_cases h : x = k
    · simp [h]
    · simp [h, Ne.symm h]

theorem get?_publish_of_get? {c : Cache κ α} {k x : κ} {s : Shared α} (new : c.get? k = none)
    (h : c.get? x = some s) (a : α) : (c.publish k a).get? x = some s := by
  have different : k ≠ x := by
    rintro rfl
    simp [new] at h
  rw [get?_publish, if_neg different, h]

theorem nodup_keys_publish {c : Cache κ α} {k : κ} (new : c.get? k = none) (h : c.keys.Nodup)
    (a : α) : (c.publish k a).keys.Nodup := by
  rw [keys_publish, List.nodup_cons, mem_keys]
  exact ⟨by simp [new], h⟩

section GetOrBuild

variable {σ ε : Type} {c : Cache κ α} {k : κ} {build : σ → Except ε α × σ} {x y : σ}

theorem getOrBuild_of_get? {s : Shared α} (h : c.get? k = some s) :
    c.getOrBuild k build x = (.ok s, c, x) := by
  simp [getOrBuild, h]

theorem getOrBuild_of_ok {a : α} (new : c.get? k = none) (ok : build x = (.ok a, y)) :
    c.getOrBuild k build x = (.ok ⟨c.size, a⟩, c.publish k a, y) := by
  simp [getOrBuild, new, ok]

theorem getOrBuild_of_error {e : ε} (new : c.get? k = none) (fails : build x = (.error e, y)) :
    c.getOrBuild k build x = (.error e, c, y) := by
  simp [getOrBuild, new, fails]

theorem getOrBuild_cases (c : Cache κ α) (k : κ) (build : σ → Except ε α × σ) (x : σ) :
    (∃ s, c.get? k = some s ∧ c.getOrBuild k build x = (.ok s, c, x)) ∨
    (∃ a y, c.get? k = none ∧ build x = (.ok a, y) ∧
      c.getOrBuild k build x = (.ok ⟨c.size, a⟩, c.publish k a, y)) ∨
    ∃ e y, c.get? k = none ∧ build x = (.error e, y) ∧
      c.getOrBuild k build x = (.error e, c, y) := by
  cases found : c.get? k with
  | some s => exact .inl ⟨s, rfl, getOrBuild_of_get? found⟩
  | none =>
    match outcome : build x with
    | (.ok a, y) => exact .inr (.inl ⟨a, y, rfl, rfl, getOrBuild_of_ok found outcome⟩)
    | (.error e, y) => exact .inr (.inr ⟨e, y, rfl, rfl, getOrBuild_of_error found outcome⟩)

theorem get?_of_getOrBuild {s : Shared α} (h : (c.getOrBuild k build x).1 = .ok s) :
    (c.getOrBuild k build x).2.1.get? k = some s := by
  rcases c.getOrBuild_cases k build x with ⟨_, found, go⟩ | ⟨a, y, _, _, go⟩ | ⟨e, y, _, _, go⟩ <;>
    rw [go] at h ⊢
  · obtain rfl := Except.ok.inj h
    exact found
  · obtain rfl := Except.ok.inj h
    simp [get?_publish]
  · cases h

theorem get?_getOrBuild {z : κ} {s : Shared α} (h : c.get? z = some s) :
    (c.getOrBuild k build x).2.1.get? z = some s := by
  rcases c.getOrBuild_cases k build x with ⟨_, _, go⟩ | ⟨a, y, new, _, go⟩ | ⟨e, y, _, _, go⟩ <;>
    rw [go]
  · exact h
  · exact get?_publish_of_get? new h a
  · exact h

theorem error_of_getOrBuild {e : ε} (h : (c.getOrBuild k build x).1 = .error e) :
    (build x).1 = .error e := by
  rcases c.getOrBuild_cases k build x with ⟨_, _, go⟩ | ⟨a, y, _, _, go⟩ | ⟨e', y, _, fails, go⟩ <;>
    rw [go] at h
  · cases h
  · cases h
  · obtain rfl := Except.error.inj h
    rw [fails]

theorem nodup_keys_getOrBuild (h : c.keys.Nodup) : (c.getOrBuild k build x).2.1.keys.Nodup := by
  rcases c.getOrBuild_cases k build x with ⟨_, _, go⟩ | ⟨a, y, new, _, go⟩ | ⟨e, y, _, _, go⟩ <;>
    rw [go]
  · exact h
  · exact nodup_keys_publish new h a
  · exact h

end GetOrBuild

section GetOrInsert

variable {σ : Type} {c : Cache κ α} {k : κ} {build : σ → α × σ} {x : σ}

theorem getOrInsert_of_get? {s : Shared α} (h : c.get? k = some s) :
    c.getOrInsert k build x = (s, c, x) := by
  simp [getOrInsert, h]

theorem getOrInsert_of_new (new : c.get? k = none) :
    c.getOrInsert k build x =
      (⟨c.size, (build x).1⟩, c.publish k (build x).1, (build x).2) := by
  simp [getOrInsert, new]

theorem get?_of_getOrInsert :
    (c.getOrInsert k build x).2.1.get? k = some (c.getOrInsert k build x).1 := by
  cases found : c.get? k with
  | some s => rw [getOrInsert_of_get? found, found]
  | none => simp [getOrInsert_of_new found, get?_publish]

theorem get?_getOrInsert {z : κ} {s : Shared α} (h : c.get? z = some s) :
    (c.getOrInsert k build x).2.1.get? z = some s := by
  cases found : c.get? k with
  | some _ => rw [getOrInsert_of_get? found, h]
  | none =>
    rw [getOrInsert_of_new found]
    exact get?_publish_of_get? found h _

end GetOrInsert

end ArtifactSelection.Cache
