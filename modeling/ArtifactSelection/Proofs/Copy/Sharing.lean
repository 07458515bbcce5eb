import ArtifactSelection.Proofs.Session.Run
import Mathlib.Data.List.Basic

/-!
What a copy shares. A copy is one pass over the configurations and then over the graph variants,
with a table of the copies by id: what the table has is handed out again. So a copy holds one variant
for each id, made from the first variant of that id, and it holds none of the old variants.
-/

namespace ArtifactSelection

namespace Variant

def copyEach (copying : Nat) (f : Artifact → Artifact) :
    List Variant → Cache String Variant → List (Shared Variant) × Cache String Variant
  | [], table => ([], table)
  | v :: l, table =>
    let (copy, table, _) := table.getOrInsert v.id (fun _ => (.copied copying f v, ())) ()
    let (copies, table) := copyEach copying f l table
    (copy :: copies, table)

variable {k : Nat} {f : Artifact → Artifact} {x : String}

theorem copyEach_append (l l' : List Variant) (table : Cache String Variant) :
    copyEach k f (l ++ l') table =
      ((copyEach k f l table).1 ++ (copyEach k f l' (copyEach k f l table).2).1,
        (copyEach k f l' (copyEach k f l table).2).2) := by
  induction l generalizing table with
  | nil => rfl
  | cons v l ih => simp only [List.cons_append, copyEach, ih]

@[simp] theorem length_copyEach (l : List Variant) (table : Cache String Variant) :
    (copyEach k f l table).1.length = l.length := by
  induction l generalizing table with
  | nil => rfl
  | cons v l ih => simp [copyEach, ih]

theorem get?_copyEach_of_get? {l : List Variant} {table : Cache String Variant}
    {copy : Shared Variant} (h : table.get? x = some copy) :
    (copyEach k f l table).2.get? x = some copy := by
  induction l generalizing table with
  | nil => exact h
  | cons v l ih =>
    rw [copyEach]
    exact ih (Cache.get?_getOrInsert h)

theorem get?_copyEach (l : List Variant) (table : Cache String Variant) :
    (l.map fun v => (copyEach k f l table).2.get? v.id) = (copyEach k f l table).1.map some := by
  induction l generalizing table with
  | nil => rfl
  | cons v l ih =>
    rw [List.map_cons, copyEach, List.map_cons, ih]
    exact congrArg (List.cons · _) (get?_copyEach_of_get? Cache.get?_of_getOrInsert)

theorem value_get?_copyEach (l : List Variant) (table : Cache String Variant) :
    ((copyEach k f l table).2.get? x).map (·.value) =
      ((table.get? x).map (·.value)).or ((l.find? (·.id == x)).map (.copied k f)) := by
  induction l generalizing table with
  | nil => simp [copyEach]
  | cons v l ih =>
    rw [copyEach, ih]
    cases found : table.get? v.id with
    | some copy =>
      rw [Cache.getOrInsert_of_get? found]
      by_cases here : v.id = x
      · simp [← here, found]
      · rw [List.find?_cons_of_neg (by simpa using here)]
    | none =>
      rw [Cache.getOrInsert_of_new found]
      by_cases here : v.id = x
      · simp [← here, found, Cache.get?_publish]
      · rw [List.find?_cons_of_neg (by simpa using here), Cache.get?_publish, if_neg here]

end Variant

namespace Component

/-- The instances in a copy: one table for the configurations and then for the graph variants. -/
def copyShared (c : Component) (copying : Nat) (f : Artifact → Artifact) :
    List (Shared Variant) × Option (List (Shared Variant)) :=
  let (configurations, table) := Variant.copyEach copying f c.configurations .empty
  (configurations, c.graph.map fun l => (Variant.copyEach copying f l table).1)

def copyInstances (c : Component) (copying : Nat) (f : Artifact → Artifact) :
    List (Shared Variant) :=
  (c.copyShared copying f).1 ++ (c.copyShared copying f).2.getD []

variable {c : Component} {k : Nat} {f : Artifact → Artifact}

theorem variant?_copy_eq_copied (id : ComponentId) (x : String) :
    (c.copy k id f).variant? x = (c.variant? x).map (.copied k f) := by
  rw [variant?_copy]
  cases found : c.variant? x with
  | none => rfl
  | some u =>
    have own : c.variant? u.id = some u := by rw [id_of_variant? found, found]
    simp [copyVariant_of_variant? own]

theorem value_get?_copyEach_variants (x : String) :
    ((Variant.copyEach k f c.variants .empty).2.get? x).map (·.value) =
      (c.variant? x).map (.copied k f) := by
  simp [Variant.value_get?_copyEach, variant?]

theorem values_copyEach_variants :
    (Variant.copyEach k f c.variants .empty).1.map (·.value) =
      c.variants.map (c.copyVariant k f) := by
  refine List.map_injective_iff.2 (fun _ _ => Option.some.inj) ?_
  calc ((Variant.copyEach k f c.variants .empty).1.map (·.value)).map some
    _ = ((Variant.copyEach k f c.variants .empty).1.map some).map (Option.map (·.value)) := by
      simp
    _ = c.variants.map fun v => (c.variant? v.id).map (.copied k f) := by
      rw [← Variant.get?_copyEach, List.map_map]
      exact List.map_congr_left fun v _ => value_get?_copyEach_variants v.id
    _ = (c.variants.map (c.copyVariant k f)).map some := by
      rw [List.map_map]
      refine List.map_congr_left fun v hv => ?_
      obtain ⟨u, first⟩ := variant?_of_mem hv
      simp [first, copyVariant_of_variant? first]

theorem copyInstances_eq_copyEach :
    c.copyInstances k f = (Variant.copyEach k f c.variants .empty).1 := by
  rw [copyInstances, variants, Variant.copyEach_append]
  cases h : c.graph <;> simp [copyShared, h, Variant.copyEach]

theorem copy_eq_copyShared (id : ComponentId) :
    (c.copy k id f).configurations = (c.copyShared k f).1.map (·.value) ∧
      (c.copy k id f).graph = (c.copyShared k f).2.map (·.map (·.value)) := by
  -- Both lists as one, since the table of the first goes on into the second.
  have all : (c.copyShared k f).1.map (·.value) ++ ((c.copyShared k f).2.getD []).map (·.value) =
      (c.copy k id f).configurations ++ (c.copy k id f).graph.getD [] := by
    rw [← List.map_append, ← copyInstances, copyInstances_eq_copyEach, values_copyEach_variants,
      ← variants_copy c k id f]
    rfl
  have places : ((c.copyShared k f).1.map (·.value)).length =
      (c.copy k id f).configurations.length := by
    simp [copyShared, copy]
  obtain ⟨configurations, graph⟩ := List.append_inj all places
  refine ⟨configurations.symm, ?_⟩
  cases h : c.graph with
  | none => simp [copyShared, copy, h]
  | some l => simpa [copyShared, copy, h] using graph.symm

theorem get?_of_mem_copyEach {p : Shared Variant}
    (hp : p ∈ (Variant.copyEach k f c.variants .empty).1) :
    (Variant.copyEach k f c.variants .empty).2.get? p.value.id = some p := by
  have handed : some p ∈ (Variant.copyEach k f c.variants .empty).1.map some :=
    List.mem_map_of_mem hp
  rw [← Variant.get?_copyEach] at handed
  obtain ⟨v, _, kept⟩ := List.mem_map.1 handed
  have made := value_get?_copyEach_variants (k := k) (f := f) (c := c) v.id
  rw [kept, Option.map_some] at made
  obtain ⟨u, first, copy⟩ := Option.map_eq_some_iff.1 made.symm
  have same : p.value.id = v.id := by
    rw [← copy, Variant.id, Variant.label_copied]
    exact id_of_variant? first
  rw [same, kept]

/-- The pass hands out one instance for each id. -/
theorem serial_copyInstances_iff {p q : Shared Variant} (hp : p ∈ c.copyInstances k f)
    (hq : q ∈ c.copyInstances k f) : p.serial = q.serial ↔ p.value.id = q.value.id := by
  rw [copyInstances_eq_copyEach] at hp hq
  have kept := get?_of_mem_copyEach hp
  have kept' := get?_of_mem_copyEach hq
  refine ⟨Cache.key_of_serial kept kept', fun same => ?_⟩
  rw [same, kept'] at kept
  rw [Option.some.inj kept]

theorem key_copy_iff (family : Variant.Coherent c.ancestry) {id : ComponentId} {v w : Variant}
    (hv : v ∈ (c.copy k id f).variants) (hw : w ∈ (c.copy k id f).variants) :
    v.key = w.key ↔ v.id = w.id := by
  obtain ⟨u, first, rfl⟩ := first_of_mem_copy hv
  obtain ⟨u', first', rfl⟩ := first_of_mem_copy hw
  constructor
  · intro same
    obtain ⟨_, sources⟩ := VariantKey.copied.inj same
    rw [family.eq_of_key (mem_ancestry (mem_variants_of_variant? first))
      (mem_ancestry (mem_variants_of_variant? first')) sources]
  · intro same
    rw [same, first'] at first
    rw [Option.some.inj first]

/-- One component is a copy of another: the same ids in the same places, and behind each id one
variant, copied from the first one of that id. -/
structure SharedCopy (c d : Component) (copying : Nat) (f : Artifact → Artifact) : Prop where
  configurations : d.configurations.map (·.id) = c.configurations.map (·.id)
  graph : d.graph.map (·.map (·.id)) = c.graph.map (·.map (·.id))
  first : ∀ v ∈ d.variants, ∃ u, c.variant? v.id = some u ∧ v = .copied copying f u ∧
    v.name = u.name ∧ v.attributes = u.attributes
  shared : ∀ v ∈ d.variants, ∀ w ∈ d.variants, v.key = w.key ↔ v.id = w.id
  lookup : ∀ x, d.variant? x = (c.variant? x).map (.copied copying f)
  places : d.configurations = (c.copyShared copying f).1.map (·.value) ∧
    d.graph = (c.copyShared copying f).2.map (·.map (·.value))
  instances : ∀ p ∈ c.copyInstances copying f, ∀ q ∈ c.copyInstances copying f,
    p.serial = q.serial ↔ p.value.key = q.value.key

theorem sharedCopy_copy (family : Variant.Coherent c.ancestry) (id : ComponentId) :
    c.SharedCopy (c.copy k id f) k f where
  configurations := by simp [copy]
  graph := by simp [copy, Function.comp_def]
  first := by
    intro v hv
    obtain ⟨u, first, rfl⟩ := first_of_mem_copy hv
    exact ⟨u, first, rfl, rfl, rfl⟩
  shared := fun _ hv _ hw => key_copy_iff family hv hw
  lookup := variant?_copy_eq_copied id
  places := copy_eq_copyShared id
  instances := by
    intro p hp q hq
    have listed {p : Shared Variant} (hp : p ∈ c.copyInstances k f) :
        p.value ∈ (c.copy k id f).variants := by
      rw [variants_copy, ← values_copyEach_variants, ← copyInstances_eq_copyEach]
      exact List.mem_map_of_mem hp
    rw [serial_copyInstances_iff hp hq, key_copy_iff family (listed hp) (listed hq)]

end Component

namespace Session

theorem copy_of_desk? {s : Session} {i : Nat} {d : Desk} (desk : s.desks[i]? = some d)
    (id : ComponentId) (f : Artifact → Artifact) : s.copy i id f = s.withCopy d id f := by
  simp [copy, desk, Desk.copy, withCopy]

theorem Sound.coherent {s : Session} (sound : s.Sound) {d : Desk} (hd : d ∈ s.desks) :
    Variant.Coherent d.component.ancestry where
  source_mem := fun hv =>
    Component.ancestry_closed hv (List.mem_cons_of_mem _ (Variant.mem_ancestry_self _))
  eq_of_key := fun hv hw => sound.family.eq_of_key ⟨d, hd, hv⟩ ⟨d, hd, hw⟩

/-- A copy runs no strategy and prepares nothing, whatever is prepared of its source. It has the ids
of its source in their places, and each of its variants is copied from the first variant of that id;
two of them are one instance just when their ids are equal, and none is an older variant. -/
theorem copy_shares {c : Component} {n : Nat} (numbered : c.Numbered n)
    (settings : Option CacheSettings) (work : List Operation) {s : Session}
    (reached : (opened c settings n).run work = s) {i : Nat} {d : Desk}
    (desk : s.desks[i]? = some d) (id : ComponentId) (f : Artifact → Artifact) :
    let copy := d.component.copy s.copyings id f
    let t := s.copy i id f
    t.desks = s.desks ++ [{ component := copy }] ∧ copy.id = id ∧
    t.memory.runs = s.memory.runs ∧ t.memory.prepared = s.memory.prepared ∧
    (∀ v ∈ copy.variants, t.memory.isPrepared v = false) ∧
    (∀ v ∈ copy.variants, ∀ w ∈ s.ancestry, v.key ≠ w.key) ∧
    d.component.SharedCopy copy s.copyings f := by
  subst reached
  obtain ⟨sound, _⟩ := (sound_opened numbered settings).run work
  have original := mem_of_desk? desk
  intro copy t
  have made {v : Variant} (hv : v ∈ copy.variants) {w : Variant}
      (hw : w ∈ ((opened c settings n).run work).ancestry) : v.key ≠ w.key := by
    obtain ⟨u, _, rfl⟩ := Component.first_of_mem_copy hv
    exact (sound.fresh hw u.key).symm
  have session : t = withCopy _ d id f := copy_of_desk? desk id f
  rw [session]
  refine ⟨rfl, rfl, rfl, rfl, fun v hv => ?_, fun v hv w hw => made hv hw, ?_⟩
  · rw [Memory.isPrepared, Option.isSome_eq_false_iff, Option.isNone_iff_eq_none]
    refine Option.eq_none_iff_forall_ne_some.2 fun b kept => ?_
    obtain ⟨w, hw, same⟩ := sound.known kept
    exact made hv hw same.symm
  · exact Component.sharedCopy_copy (sound.coherent original) id

def repeatedSketch : Sketch where
  projectPath := ":lib"
  configurations := [{ name := "main", artifacts := [.jar "lib"] }, { name := "main" },
    { name := "test" }]
  graph := some ["test", "main", "test"]

/-- The copy of a component whose first configuration is prepared: the copies of both configurations
named alike are the one copy of the first, which is not prepared. -/
theorem copy_shares_repeated :
    let c := repeatedSketch.component 0
    let s := (opened c none 0).run [.prepare 0 0]
    let t := s.copy 0 (.project ":" ":copy") moved
    c.Numbered 0 ∧ ∃ first second test copy, c.configurations = [first, second, test] ∧
      s.memory.isPrepared first = true ∧ t.desks = s.desks ++ [{ component := copy }] ∧
      copy.configurations = [.copied 0 moved first, .copied 0 moved first, .copied 0 moved test] ∧
      copy.graph = some [.copied 0 moved test, .copied 0 moved first, .copied 0 moved test] ∧
      t.memory.isPrepared (.copied 0 moved first) = false ∧ c.SharedCopy copy 0 moved := by
  intro c s t
  have numbered := repeatedSketch.numbered_component 0 0
  obtain ⟨desks, _, _, _, unprepared, _, shared⟩ :=
    copy_shares numbered none [.prepare 0 0] (s := s) rfl (i := 0) rfl (.project ":" ":copy") moved
  exact ⟨numbered, _, _, _, _, rfl, rfl, desks, rfl, rfl,
    unprepared _ (List.mem_of_getElem? (i := 0) rfl), shared⟩

end Session

end ArtifactSelection
