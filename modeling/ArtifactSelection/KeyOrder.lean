/-!
Lists in strictly increasing order of a text key, the shape shared by attribute containers and
variant sets. The view is `get?`; the two insertions differ only in who stays under a key that is
taken. Keys compare by code point, so the order never depends on a locale.
-/

namespace ArtifactSelection.KeyOrder

variable {α : Type} {key : α → String}

theorem eq_of_not_lt {s t : String} (h : ¬s < t) (h' : ¬t < s) : s = t :=
  String.le_antisymm (String.not_lt.1 h') (String.not_lt.1 h)

def get? (key : α → String) (k : String) (l : List α) : Option α :=
  l.find? (key · == k)

/-- Puts an entry at its place, unless its key is taken: the first entry under a key stays. -/
def insertIfNew (key : α → String) (a : α) : List α → List α
  | [] => [a]
  | b :: l =>
    if key a < key b then a :: b :: l
    else if key b < key a then b :: insertIfNew key a l
    else b :: l

def replace (key : α → String) (a : α) : List α → List α
  | [] => [a]
  | b :: l =>
    if key a < key b then a :: b :: l
    else if key b < key a then b :: replace key a l
    else a :: l

theorem mem_insertIfNew {a b : α} {l : List α} (h : b ∈ insertIfNew key a l) : b = a ∨ b ∈ l := by
  induction l with
  | nil => simpa [insertIfNew] using h
  | cons c l ih =>
    rw [insertIfNew] at h
    split at h
    · simpa using h
    · split at h
      · rcases List.mem_cons.1 h with rfl | h
        · simp
        · rcases ih h with rfl | h <;> simp [*]
      · exact .inr h

theorem mem_replace {a b : α} {l : List α} (h : b ∈ replace key a l) : b = a ∨ b ∈ l := by
  induction l with
  | nil => simpa [replace] using h
  | cons c l ih =>
    rw [replace] at h
    split at h
    · simpa using h
    · split at h
      · rcases List.mem_cons.1 h with rfl | h
        · simp
        · rcases ih h with rfl | h <;> simp [*]
      · rcases List.mem_cons.1 h with rfl | h <;> simp [*]

theorem pairwise_cons_cons {a b : α} {l : List α} (hab : key a < key b)
    (h : (b :: l).Pairwise (key · < key ·)) : (a :: b :: l).Pairwise (key · < key ·) := by
  refine List.pairwise_cons.2 ⟨fun c hc => ?_, h⟩
  rcases List.mem_cons.1 hc with rfl | hc
  · exact hab
  · exact String.lt_trans hab ((List.pairwise_cons.1 h).1 c hc)

theorem pairwise_insertIfNew {a : α} {l : List α} (h : l.Pairwise (key · < key ·)) :
    (insertIfNew key a l).Pairwise (key · < key ·) := by
  induction l with
  | nil => simp [insertIfNew]
  | cons b l ih =>
    rw [insertIfNew]
    split
    · next hab => exact pairwise_cons_cons hab h
    · split
      · next hba =>
        have ⟨hb, hl⟩ := List.pairwise_cons.1 h
        refine List.pairwise_cons.2 ⟨fun c hc => ?_, ih hl⟩
        rcases mem_insertIfNew hc with rfl | hc
        · exact hba
        · exact hb c hc
      · exact h

theorem pairwise_replace {a : α} {l : List α} (h : l.Pairwise (key · < key ·)) :
    (replace key a l).Pairwise (key · < key ·) := by
  induction l with
  | nil => simp [replace]
  | cons b l ih =>
    have ⟨hb, hl⟩ := List.pairwise_cons.1 h
    rw [replace]
    split
    · next hab => exact pairwise_cons_cons hab h
    · next hab =>
      split
      · next hba =>
        refine List.pairwise_cons.2 ⟨fun c hc => ?_, ih hl⟩
        rcases mem_replace hc with rfl | hc
        · exact hba
        · exact hb c hc
      · next hba =>
        exact List.pairwise_cons.2 ⟨fun c hc => eq_of_not_lt hab hba ▸ hb c hc, hl⟩

theorem get?_cons_of_lt {b : α} {l : List α} {k : String}
    (h : (b :: l).Pairwise (key · < key ·)) (hk : k < key b) : get? key k (b :: l) = none := by
  refine List.find?_eq_none.2 fun c hc => ?_
  have hkc : k < key c := by
    rcases List.mem_cons.1 hc with rfl | hc
    · exact hk
    · exact String.lt_trans hk ((List.pairwise_cons.1 h).1 c hc)
  simp only [beq_iff_eq]
  exact fun e => String.lt_irrefl k (e ▸ hkc)

theorem get?_insertIfNew {a : α} {l : List α} (h : l.Pairwise (key · < key ·)) (k : String) :
    get? key k (insertIfNew key a l) =
      (get? key k l).or (if key a = k then some a else none) := by
  induction l with
  | nil => by_cases hk : key a = k <;> simp [insertIfNew, get?, hk]
  | cons b l ih =>
    have ⟨_, hl⟩ := List.pairwise_cons.1 h
    rw [insertIfNew]
    split
    · next hab =>
      by_cases hk : key a = k
      · subst hk
        rw [get?_cons_of_lt h hab]
        simp [get?]
      · simp [get?, hk]
    · split
      · by_cases hb : key b = k
        · simp [get?, hb]
        · simpa [get?, hb] using ih hl
      · next hab hba =>
        have e := eq_of_not_lt hab hba
        by_cases hb : key b = k
        · simp [get?, hb]
        · have ha : key a ≠ k := e ▸ hb
          simp [get?, ha]

theorem get?_replace {a : α} {l : List α} (h : l.Pairwise (key · < key ·)) (k : String) :
    get? key k (replace key a l) = if key a = k then some a else get? key k l := by
  induction l with
  | nil => by_cases hk : key a = k <;> simp [replace, get?, hk]
  | cons b l ih =>
    have ⟨_, hl⟩ := List.pairwise_cons.1 h
    rw [replace]
    split
    · by_cases hk : key a = k <;> simp [get?, hk]
    · next hab =>
      split
      · next hba =>
        by_cases hb : key b = k
        · have ha : key a ≠ k := fun e => String.lt_irrefl k (by simp [hb, e] at hba)
          simp [get?, hb, ha]
        · simpa [get?, hb] using ih hl
      · next hba =>
        have e := eq_of_not_lt hab hba
        by_cases hk : key a = k
        · simp [get?, hk]
        · have hb : key b ≠ k := e ▸ hk
          simp [get?, hk, hb]

theorem get?_of_mem {a : α} {l : List α} (h : l.Pairwise (key · < key ·)) (ha : a ∈ l) :
    get? key (key a) l = some a := by
  induction l with
  | nil => simp at ha
  | cons b l ih =>
    have ⟨hb, hl⟩ := List.pairwise_cons.1 h
    rcases List.mem_cons.1 ha with rfl | ha
    · simp [get?]
    · have hne : key b ≠ key a := fun e => String.lt_irrefl _ (e ▸ hb a ha)
      simpa [get?, hne] using ih hl ha

theorem key_of_get? {a : α} {l : List α} {k : String} (h : get? key k l = some a) : key a = k := by
  simpa using List.find?_some h

theorem mem_of_get? {a : α} {l : List α} {k : String} (h : get? key k l = some a) : a ∈ l :=
  List.mem_of_find?_eq_some h

theorem get?_eq_some_iff {a : α} {l : List α} {k : String} (distinct : (l.map key).Nodup) :
    get? key k l = some a ↔ a ∈ l ∧ key a = k := by
  refine ⟨fun found => ⟨mem_of_get? found, key_of_get? found⟩, ?_⟩
  rintro ⟨ha, rfl⟩
  induction l with
  | nil => simp at ha
  | cons b l ih =>
    obtain ⟨new, distinct⟩ := List.nodup_cons.1 distinct
    rcases List.mem_cons.1 ha with rfl | ha
    · simp [get?]
    · have hne : key b ≠ key a := fun e => new (List.mem_map.2 ⟨a, ha, e.symm⟩)
      simpa [get?, hne] using ih distinct ha

theorem ext {l₁ l₂ : List α} (h₁ : l₁.Pairwise (key · < key ·)) (h₂ : l₂.Pairwise (key · < key ·))
    (h : ∀ k, get? key k l₁ = get? key k l₂) : l₁ = l₂ := by
  induction l₁ generalizing l₂ with
  | nil =>
    cases l₂ with
    | nil => rfl
    | cons b l₂ => exact absurd (h (key b)) (by simp [get?])
  | cons a l₁ ih =>
    cases l₂ with
    | nil => exact absurd (h (key a)) (by simp [get?])
    | cons b l₂ =>
      have ⟨ha, hl₁⟩ := List.pairwise_cons.1 h₁
      have ⟨hb, hl₂⟩ := List.pairwise_cons.1 h₂
      have hkey : key a = key b := by
        refine eq_of_not_lt (fun hab => ?_) (fun hba => ?_)
        · have := h (key a)
          rw [get?_cons_of_lt h₂ hab] at this
          simp [get?] at this
        · have := h (key b)
          rw [get?_cons_of_lt h₁ hba] at this
          simp [get?] at this
      have hab : a = b := by simpa [get?, hkey] using h (key b)
      subst hab
      refine congrArg (a :: ·) (ih hl₁ hl₂ fun k => ?_)
      by_cases hk : key a = k
      · subst hk
        have none_of {l : List α} (hl : ∀ c ∈ l, key a < key c) : get? key (key a) l = none :=
          List.find?_eq_none.2 fun c hc => by
            simp only [beq_iff_eq]
            exact fun e => String.lt_irrefl _ (e ▸ hl c hc)
        rw [none_of ha, none_of hb]
      · simpa [get?, hk] using h k

end ArtifactSelection.KeyOrder
