import ArtifactSelection.Proofs.Descriptor.Lookup
import ArtifactSelection.Proofs.Session.History
import ArtifactSelection.Proofs.Variant.FirstWins
import Mathlib.Data.List.Perm.Lattice

/-!
The candidates of a described component. They are the physical variants of the listed configurations,
told apart by ids that are put together from names. A slash in a name can make two ids alike, and
then the variant that is listed later is lost; as long as no listed name goes on from another one
behind a slash, nothing is.
-/

namespace ArtifactSelection

namespace ConfigurationDeclaration

def physicals (c : ConfigurationDeclaration) (owner : ComponentId) : List PhysicalVariant :=
  match c.variants with
  | [] => [c.implicit owner]
  | v :: l => (v :: l).map (c.physical owner)

variable {c b : ConfigurationDeclaration} {owner : ComponentId}

theorem variantSet_eq (c : ConfigurationDeclaration) (owner : ComponentId) :
    c.variantSet owner = .ofList (c.physicals owner) := by
  unfold variantSet physicals
  cases c.variants <;> rfl

theorem id_of_mem_physicals {p : PhysicalVariant} (h : p ∈ c.physicals owner) :
    p.id = c.name ∨ ∃ v, p.id = variantId c.name v := by
  unfold physicals at h
  cases variants : c.variants with
  | nil =>
    simp only [variants, List.mem_singleton] at h
    exact .inl (by rw [h, implicit])
  | cons v l =>
    simp only [variants, List.mem_map] at h
    obtain ⟨w, _, rfl⟩ := h
    exact .inr ⟨w.name, rfl⟩

theorem variantId_inj {n v w : String} : variantId n v = variantId n w ↔ v = w := by
  simp [variantId, String.append_right_inj]

theorem nodup_ids_physicals (distinct : (c.variants.map (·.name)).Nodup) :
    ((c.physicals owner).map (·.id)).Nodup := by
  unfold physicals
  cases variants : c.variants with
  | nil => simp
  | cons v l =>
    rw [variants] at distinct
    have ids : ((v :: l).map (c.physical owner)).map (·.id) =
        ((v :: l).map (·.name)).map (variantId c.name) := by
      simp [physical]
    rw [ids]
    exact distinct.map fun _ _ => variantId_inj.1

/-- Where two ids of declared variants are alike, one configuration's name goes on from the other's
behind a slash. -/
theorem variantId_eq {n k v w : String} (same : variantId n v = variantId k w) :
    n = k ∨ (∃ r, n = variantId k r) ∨ ∃ r, k = variantId n r := by
  have chars : n.toList ++ '/' :: v.toList = k.toList ++ '/' :: w.toList := by
    simpa [variantId, ← String.toList_inj] using same
  have behind {s t : String} {a : Char} {l : List Char} (h : s.toList = t.toList ++ a :: l)
      (slash : a = '/') : s = variantId t (.ofList l) := by
    simp [variantId, ← String.toList_inj, h, slash]
  rcases List.append_eq_append_iff.1 chars with ⟨l, names, rest⟩ | ⟨l, names, rest⟩
  · cases l with
    | nil => exact .inl (String.toList_inj.1 (by simpa using names.symm))
    | cons a l => exact .inr (.inr ⟨_, behind names (List.cons.inj rest).1.symm⟩)
  · cases l with
    | nil => exact .inl (String.toList_inj.1 (by simpa using names))
    | cons a l => exact .inr (.inl ⟨_, behind names (List.cons.inj rest).1.symm⟩)

end ConfigurationDeclaration

namespace Descriptor

open ConfigurationDeclaration

/-- No name goes on from another one behind a slash. -/
def Separate (names : List String) : Prop := ∀ n ∈ names, ∀ k ∈ names, ∀ r, n ≠ variantId k r

theorem separate_of_plain {names : List String} (plain : ∀ n ∈ names, '/' ∉ n.toList) :
    Separate names := by
  rintro n hn k - r rfl
  exact plain _ hn (by simp [variantId])

theorem Separate.id_ne {names : List String} (separate : Separate names)
    {c b : ConfigurationDeclaration} (hc : c.name ∈ names) (hb : b.name ∈ names)
    (different : c.name ≠ b.name) {owner : ComponentId} {p q : PhysicalVariant}
    (hp : p ∈ c.physicals owner) (hq : q ∈ b.physicals owner) : p.id ≠ q.id := by
  intro same
  rcases id_of_mem_physicals hp with own | ⟨v, own⟩ <;>
    rcases id_of_mem_physicals hq with own' | ⟨w, own'⟩ <;> rw [own, own'] at same
  · exact different same
  · exact separate _ hc _ hb w same
  · exact separate _ hb _ hc v same.symm
  · rcases variantId_eq same with same | ⟨r, goesOn⟩ | ⟨r, goesOn⟩
    · exact different same
    · exact separate _ hc _ hb r goesOn
    · exact separate _ hb _ hc r goesOn

def picked (d : Descriptor) (names : List String) : List ConfigurationDeclaration :=
  names.filterMap fun n => d.configurations.find? (·.name == n)

theorem Consistent.mem_picked {d : Descriptor} (consistent : d.Consistent) {names : List String}
    {c : ConfigurationDeclaration} :
    c ∈ d.picked names ↔ c ∈ d.configurations ∧ c.name ∈ names := by
  rw [picked, List.mem_filterMap]
  constructor
  · rintro ⟨n, hn, found⟩
    obtain ⟨hc, rfl⟩ := consistent.find?_eq_some_iff.1 found
    exact ⟨hc, hn⟩
  · rintro ⟨hc, hn⟩
    exact ⟨c.name, hn, consistent.find?_eq_some_iff.2 ⟨hc, rfl⟩⟩

theorem numbered_toComponent (d : Descriptor) (number n : Nat) :
    (d.toComponent number).Numbered n := by
  refine Component.numbered_of_places number (fun v hv => ?_) n
  have listed := Component.mem_configurations_of_picked rfl hv
  obtain ⟨i, bound, rfl⟩ := List.mem_mapIdx.1 listed
  exact ⟨i, _, _, by simp [toComponent, variants, bound], rfl⟩

theorem unfailing_toComponent (d : Descriptor) (number : Nat) :
    ∀ v ∈ (d.toComponent number).variants, v.Unfailing := by
  intro v hv
  have listed := Component.mem_configurations_of_picked rfl hv
  obtain ⟨i, bound, rfl⟩ := List.mem_mapIdx.1 listed
  exact fun _ => ⟨_, rfl⟩

theorem settles_picked (d : Descriptor) (number : Nat) (names : List String) :
    List.Forall₂ Variant.Settles
      (names.filterMap fun n => (d.variants number).find? (·.name == n))
      ((d.picked names).map (·.configuration d.id)) := by
  have picks : List.Forall₂ (fun v c => ∃ o, v = c.variant d.id o)
      (names.filterMap fun n => (d.variants number).find? (·.name == n)) (d.picked names) := by
    refine List.rel_filterMap (R := Eq) ?_ (List.forall₂_same.2 fun _ _ => rfl)
    rintro n _ rfl
    refine rel_find? (d.forall₂_variants number).flip ?_
    rintro _ c ⟨o, rfl⟩
    rfl
  rw [List.forall₂_map_right_iff]
  refine picks.imp ?_
  rintro _ c ⟨o, rfl⟩
  exact c.settles_variant d.id o

/-- The candidates under an id are the first ones of that id among all that are listed. -/
theorem get?_join_picked (l : List ConfigurationDeclaration) (owner : ComponentId) (id : String) :
    (Component.join (l.map (·.configuration owner))).get? id =
      (l.flatMap (·.physicals owner)).find? (·.id == id) := by
  have each (c : ConfigurationDeclaration) :
      (c.configuration owner).variants.get? id = (c.physicals owner).find? (·.id == id) := by
    rw [← VariantSet.get?_ofList, ← variantSet_eq]
    rfl
  rw [Component.get?_join, List.find?_flatMap, List.findSome?_map]
  congr 1
  funext c
  exact each c

def listed (d : Descriptor) (names : List String) : List ConfigurationDeclaration :=
  d.configurations.filter (·.name ∈ names)

theorem Consistent.id_inj {d : Descriptor} (consistent : d.Consistent) {names : List String}
    (separate : Separate names) {c b : ConfigurationDeclaration} (hc : c ∈ d.listed names)
    (hb : b ∈ d.listed names) {p q : PhysicalVariant} (hp : p ∈ c.physicals d.id)
    (hq : q ∈ b.physicals d.id) (same : p.id = q.id) : c = b ∧ p = q := by
  simp only [listed, List.mem_filter, decide_eq_true_eq] at hc hb
  have name : c.name = b.name := Classical.byContradiction fun different =>
    separate.id_ne hc.2 hb.2 different hp hq same
  obtain rfl := List.inj_on_of_nodup_map consistent.configurations hc.1 hb.1 name
  exact ⟨rfl, List.inj_on_of_nodup_map (nodup_ids_physicals (consistent.variants c hc.1)) hp hq same⟩

theorem Consistent.nodup_listed {d : Descriptor} (consistent : d.Consistent) {names : List String}
    (separate : Separate names) : ((d.listed names).flatMap (·.physicals d.id)).Nodup := by
  refine List.nodup_flatMap.2 ⟨fun c hc => ?_, ?_⟩
  · have hc : c ∈ d.configurations := List.mem_of_mem_filter hc
    exact (nodup_ids_physicals (consistent.variants c hc)).of_map
  · have distinct : (d.listed names).Nodup := consistent.configurations.of_map.filter _
    refine distinct.imp_of_mem fun {c b} hc hb different p hp hq => ?_
    exact different (consistent.id_inj separate hc hb hp hq rfl).1

theorem Consistent.find?_picked {d : Descriptor} (consistent : d.Consistent) {names : List String}
    (separate : Separate names) {p : PhysicalVariant} :
    ((d.picked names).flatMap (·.physicals d.id)).find? (·.id == p.id) = some p ↔
      p ∈ (d.listed names).flatMap (·.physicals d.id) := by
  have same (q : PhysicalVariant) : q ∈ (d.picked names).flatMap (·.physicals d.id) ↔
      q ∈ (d.listed names).flatMap (·.physicals d.id) := by
    simp [consistent.mem_picked, listed]
  constructor
  · exact fun found => (same p).1 (List.mem_of_find?_eq_some found)
  · intro hp
    cases found : ((d.picked names).flatMap (·.physicals d.id)).find? (·.id == p.id) with
    | none => simpa using List.find?_eq_none.1 found p ((same p).2 hp)
    | some q =>
      have id : q.id = p.id := by simpa using List.find?_some found
      obtain ⟨c, hc, inC⟩ := List.mem_flatMap.1 hp
      obtain ⟨b, hb, inB⟩ := List.mem_flatMap.1 ((same q).1 (List.mem_of_find?_eq_some found))
      rw [(consistent.id_inj separate hb hc inB inC id).2]

/-- The candidates of a described component, at any time: under each id the first physical variant
that is listed. In a consistent descriptor whose listed names do not go on from one another behind a
slash, configurations have no id in common, and the candidates are all physical variants of the
listed configurations, each once. -/
theorem candidates_complete {d : Descriptor} (valid : d.validate = .ok ()) {names : List String}
    (graph : d.graphVariants = some names) (number n : Nat) (settings : Option CacheSettings)
    (work : List Operation) (own : Configuration) :
    let m := ((Session.opened (d.toComponent number) settings n).run work).memory
    ∃ set, ((d.toComponent number).candidates own m).1 = .ok set ∧
      (∀ id, set.get? id = ((d.picked names).flatMap (·.physicals d.id)).find? (·.id == id)) ∧
      (Separate names →
        (∀ c ∈ d.listed names, ∀ b ∈ d.listed names, c ≠ b → ∀ p ∈ c.physicals d.id,
          ∀ q ∈ b.physicals d.id, p.id ≠ q.id) ∧
        set.variants.Perm ((d.listed names).flatMap (·.physicals d.id))) := by
  intro m
  have consistent := validate_eq_ok_iff.1 valid
  have numbered := d.numbered_toComponent number n
  have sound := ((Session.sound_opened numbered settings).run work).1
  have family : ∀ v ∈ (d.toComponent number).graph.getD [],
      v ∈ ((Session.opened (d.toComponent number) settings n).run work).ancestry := fun v hv =>
    Session.mem_ancestry_run numbered settings work ((d.toComponent number).graph_subset_variants hv)
  have ready : ∀ v ∈ (d.toComponent number).graph.getD [], v.Ready m := fun v hv =>
    (d.unfailing_toComponent number v ((d.toComponent number).graph_subset_variants hv)).ready m
  obtain ⟨set, supply, offers⟩ := Component.offers_candidates sound.family family sound.right ready own
  have picks : (d.toComponent number).graph =
      some (names.filterMap fun n => (d.variants number).find? (·.name == n)) := by
    simp [toComponent, graph]
  obtain rfl := offers.unique (.joined picks (d.settles_picked number names))
  have first := get?_join_picked (d.picked names) d.id
  refine ⟨_, supply, first, fun separate => ⟨?_, ?_⟩⟩
  · intro c hc b hb different p hp q hq same
    exact different (consistent.id_inj separate hc hb hp hq same).1
  · refine (List.perm_ext_iff_of_nodup ?_ (consistent.nodup_listed separate)).2 fun p => ?_
    · exact (VariantSet.nodup_ids _).of_map
    · rw [VariantSet.mem_variants_iff, first]
      exact consistent.find?_picked separate

def plain : Descriptor where
  component := { group := "org.example", name := "lib", version := "1.0" }
  graphVariants := some ["runtime", "sources", "runtime"]
  configurations :=
    [{ name := "sources", artifacts := [{ name := "lib", classifier := some "sources" }] },
      { name := "runtime"
        variants := [{ name := "jar", artifacts := [{ name := "lib" }] },
          { name := "classes", artifacts := [{ name := "classes", type := "dir" }] }] }]

theorem candidates_complete_plain :
    plain.validate = .ok () ∧ Separate ["runtime", "sources", "runtime"] ∧
    ∃ set, ((plain.toComponent 0).candidates ⟨"", ∅, [], ∅⟩ ∅).1 = .ok set ∧ set.size = 3 ∧
      set.variants.Perm ((plain.listed ["runtime", "sources", "runtime"]).flatMap
        (·.physicals plain.id)) := by
  have valid : plain.validate = .ok () := rfl
  have separate : Separate ["runtime", "sources", "runtime"] := separate_of_plain (by decide)
  obtain ⟨set, supply, _, complete⟩ := candidates_complete valid rfl 0 0 none [] ⟨"", ∅, [], ∅⟩
  have all := (complete separate).2
  exact ⟨valid, separate, set, supply, all.length_eq, all⟩

def clashing : Descriptor where
  component := { group := "org.example", name := "lib", version := "1.0" }
  graphVariants := some ["a/b", "a"]
  configurations :=
    [{ name := "a/b", artifacts := [{ name := "first" }] },
      { name := "a", variants := [{ name := "b", artifacts := [{ name := "second" }] }] }]

/-- Both declarations are in order, and one of their variants is not among the candidates. -/
theorem candidates_incomplete :
    clashing.validate = .ok () ∧ clashing.graphVariants = some (clashing.configurations.map (·.name)) ∧
    ∃ set, ((clashing.toComponent 0).candidates ⟨"", ∅, [], ∅⟩ ∅).1 = .ok set ∧
      ∃ c ∈ clashing.configurations, ∃ p ∈ c.physicals clashing.id, p ∉ set.variants := by
  refine ⟨rfl, rfl, _, rfl, clashing.configurations[1], by decide, _, List.mem_cons_self, ?_⟩
  decide

end Descriptor

end ArtifactSelection
