import ArtifactSelection.Proofs.Session.Frame

/-!
The candidates of a selection, id by id. Where graph variants are enumerated, an id belongs to the
earliest of them that publishes it, and no other configuration counts. So a variant adds nothing
where it is listed again, and the order of the list matters only for ids that several variants
publish.
-/

namespace ArtifactSelection

namespace Variant

/-- The physical variant that the configuration of a variant has under an id, as far as the variant
can be prepared. -/
def publishes? (v : Variant) (m : Memory) (id : String) : Option PhysicalVariant :=
  (v.prepare m).1.toOption.bind (·.variants.get? id)

variable {U : Set Variant} {v : Variant} {l : List Variant} {m : Memory}

theorem findSome?_settled (family : Coherent U) (right : ∀ w ∈ U, m.Records w)
    {cs : List Configuration} (settled : List.Forall₂ Settles l cs) (sub : ∀ v ∈ l, v ∈ U)
    (ready : ∀ v ∈ l, v.Ready m) (id : String) :
    cs.findSome? (·.variants.get? id) = l.findSome? (·.publishes? m id) := by
  induction settled with
  | nil => rfl
  | @cons v c l cs first _ ih =>
    obtain ⟨hv, sub⟩ := List.forall_mem_cons.1 sub
    obtain ⟨now, ready⟩ := List.forall_mem_cons.1 ready
    have published : v.publishes? m id = c.variants.get? id := by
      rw [publishes?, now.answer_prepare family right hv first]
      rfl
    rw [List.findSome?_cons, List.findSome?_cons, published, ih sub ready]

variable {f : Variant → Option PhysicalVariant}

theorem findSome?_listed_again {before : List Variant} (hv : v ∈ before) (after : List Variant) :
    (before ++ v :: after).findSome? f = (before ++ after).findSome? f := by
  rw [List.findSome?_append, List.findSome?_append, List.findSome?_cons]
  cases first : before.findSome? f with
  | some p => rfl
  | none => rw [List.findSome?_eq_none_iff.1 first v hv]

theorem findSome?_perm (disjoint : ∀ v ∈ l, ∀ w ∈ l, v ≠ w → f v = none ∨ f w = none)
    {l' : List Variant} (perm : l'.Perm l) : l'.findSome? f = l.findSome? f := by
  cases first : l.findSome? f with
  | none =>
    rw [List.findSome?_eq_none_iff] at first ⊢
    exact fun v hv => first v (perm.mem_iff.1 hv)
  | some p =>
    obtain ⟨v, hv, published⟩ := List.exists_of_findSome?_eq_some first
    have some : (l'.findSome? f).isSome :=
      List.findSome?_isSome_iff.2 ⟨v, perm.mem_iff.2 hv, by rw [published]; rfl⟩
    obtain ⟨q, found⟩ := Option.isSome_iff_exists.1 some
    obtain ⟨w, hw, published'⟩ := List.exists_of_findSome?_eq_some found
    by_cases same : v = w
    · rw [found, ← published', ← same, published]
    · rcases disjoint v hv w (perm.mem_iff.1 hw) same with none | none
      · cases none.symm.trans published
      · cases none.symm.trans published'

end Variant

namespace Component

variable {U : Set Variant} {c : Component} {l : List Variant} {m : Memory}

theorem exists_candidates (family : Variant.Coherent U) (right : ∀ w ∈ U, m.Records w)
    (sub : ∀ v ∈ l, v ∈ U) (ready : ∀ v ∈ l, v.Ready m) :
    ∃ set : VariantSet, (∀ id, set.get? id = l.findSome? (·.publishes? m id)) ∧
      ∀ c : Component, c.graph = some l → ∀ own, (c.candidates own m).1 = .ok set := by
  obtain ⟨cs, all, settled⟩ := Variant.prepareAll_of_ready family sub right ready
  refine ⟨join cs, fun id => ?_, fun c graph own => ?_⟩
  · rw [get?_join, Variant.findSome?_settled family right settled sub ready]
  · rw [answer_candidates graph, all]
    rfl

theorem answer_of_published (family : Variant.Coherent U) (right : ∀ w ∈ U, m.Records w)
    (sub : ∀ v ∈ l, v ∈ U) (ready : ∀ v ∈ l, v.Ready m) (graph : c.graph = some l)
    {set : VariantSet} (published : ∀ id, set.get? id = l.findSome? (·.publishes? m id))
    (own : Configuration) : (c.candidates own m).1 = .ok set := by
  obtain ⟨set', published', answer⟩ := exists_candidates family right sub ready
  rw [answer c graph own, VariantSet.ext_get? fun id => (published' id).trans (published id).symm]

end Component

namespace Session

/-- Without an enumeration of graph variants the candidates are those of the configuration that is
given, and nothing is prepared. With one, whose variants can be prepared, they are in id order what
its variants publish, for each id as the earliest has it, whichever configuration is given. They stay
the same if a variant is listed again behind itself, and in any order if no two variants publish an
id. -/
theorem candidates_earliest {c : Component} {n : Nat} (numbered : c.Numbered n)
    (settings : Option CacheSettings) (work : List Operation) :
    let s := (opened c settings n).run work
    let m := s.memory
    ∀ d ∈ s.desks,
      (d.component.graph = none → ∀ own,
        (d.component.candidates own m).1 = .ok own.variants ∧
        (d.component.candidates own m).2.prepared = m.prepared ∧
        (d.component.candidates own m).2.runs = m.runs) ∧
      ∀ l, d.component.graph = some l → (∀ v ∈ l, v.Ready m) →
        ∃ set, (∀ own, (d.component.candidates own m).1 = .ok set) ∧
          (∀ id, set.contains id = true ↔ ∃ v ∈ l, (v.publishes? m id).isSome) ∧
          (∀ id p, set.get? id = some p ↔ ∃ before v after, l = before ++ v :: after ∧
            v.publishes? m id = some p ∧ ∀ w ∈ before, w.publishes? m id = none) ∧
          set.ids.Pairwise (· < ·) ∧
          (∀ before v after, l = before ++ after → v ∈ before → ∀ own,
            ({ d.component with graph := some (before ++ v :: after) }.candidates own m).1 =
              .ok set) ∧
          ((∀ v ∈ l, ∀ w ∈ l, v ≠ w → ∀ id,
              v.publishes? m id = none ∨ w.publishes? m id = none) →
            ∀ l', l'.Perm l → ∀ own,
              ({ d.component with graph := some l' }.candidates own m).1 = .ok set) := by
  intro s m d hd
  have sound : s.Sound := ((sound_opened numbered settings).run work).1
  refine ⟨fun none own => ?_, fun l graph ready => ?_⟩
  · rw [Component.candidates, none]
    exact ⟨rfl, rfl, rfl⟩
  have sub : ∀ v ∈ l, v ∈ s.ancestry := fun v hv =>
    mem_ancestry hd (d.component.graph_subset_variants (by rwa [graph]))
  obtain ⟨set, published, answer⟩ :=
    Component.exists_candidates sound.family sound.right sub ready
  -- What another list of the same variants publishes is again `set`, if it has the same first ones.
  have again {l' : List Variant} (members : ∀ v ∈ l', v ∈ l)
      (same : ∀ id, l'.findSome? (·.publishes? m id) = l.findSome? (·.publishes? m id))
      (own : Configuration) :
      ({ d.component with graph := some l' }.candidates own m).1 = .ok set :=
    Component.answer_of_published sound.family sound.right (fun v hv => sub v (members v hv))
      (fun v hv => ready v (members v hv)) rfl (fun id => (published id).trans (same id).symm) own
  refine ⟨set, answer d.component graph, fun id => ?_, fun id p => ?_, ?_, ?_, ?_⟩
  · rw [VariantSet.contains, published, List.findSome?_isSome_iff]
  · rw [published, List.findSome?_eq_some_iff]
  · exact List.pairwise_map.2 set.increasing
  · rintro before v after rfl hv
    refine again (fun w hw => ?_) fun id => Variant.findSome?_listed_again hv after
    rcases List.mem_append.1 hw with hw | hw
    · exact List.mem_append_left after hw
    · rcases List.mem_cons.1 hw with rfl | hw
      · exact List.mem_append_left after hv
      · exact List.mem_append_right before hw
  · intro disjoint l' perm
    exact again (fun v hv => perm.mem_iff.1 hv) fun id =>
      Variant.findSome?_perm (fun v hv w hw other => disjoint v hv w hw other id) perm

/-- Two graph variants publish `a/b`, and `own` is no graph variant. -/
def clashing : Sketch where
  projectPath := ":lib"
  configurations :=
    [{ name := "a/b", artifacts := [.jar "first"] },
      { name := "a"
        variants :=
          [{ name := "c", attributes := [], artifacts := [] },
            { name := "b", attributes := [], artifacts := [.jar "second"] }] },
      { name := "own", artifacts := [.jar "own"] }]
  graph := some ["a/b", "a"]

def clashingVariant (i : Fin 3) : Variant :=
  let c := clashing.configurations[i]
  .original ⟨0, i⟩ ⟨c.name, c.name, .ofList c.attributes⟩ (c.strategy clashing.id)

def clashingOwn : Configuration := clashing.configurations[2].configuration clashing.id

theorem steady_publishes_apart (id : String) :
    let m := ((opened (steady.component 0) none 0).run []).memory
    (steadyVariant 0).publishes? m id = none ∨ (steadyVariant 1).publishes? m id = none := by
  intro m
  by_cases same : "main/jvm" = id
  · subst same
    exact .inr rfl
  · refine .inl (List.find?_eq_none.2 fun p hp => ?_)
    obtain rfl := List.mem_singleton.1 hp
    exact fun hit => same (eq_of_beq hit)

/-- The clash is settled for `first`, and listing `a` again changes nothing; nor does it to list the
siblings the other way round. -/
theorem candidates_earliest_clashing :
    let m := ((opened (clashing.component 0) none 0).run []).memory
    let m' := ((opened (steady.component 0) none 0).run []).memory
    let l := [clashingVariant 0, clashingVariant 1]
    let l' := [steadyVariant 1, steadyVariant 0]
    (clashing.component 0).Numbered 0 ∧ (clashing.component 0).graph = some l ∧
    (∀ v ∈ l, v.Ready m) ∧
    (∃ set, (∀ own, ((clashing.component 0).candidates own m).1 = .ok set) ∧
      set.ids = ["a/b", "a/c"] ∧
      (set.get? "a/b").map (·.artifacts.map (·.name)) = some [.jar "first"] ∧
      ∀ own, ({ clashing.component 0 with graph := some (l ++ [clashingVariant 1]) }.candidates
        own m).1 = .ok set) ∧
    ∃ set, (∀ own, ((steady.component 0).candidates own m').1 = .ok set) ∧
      ∀ own, ({ steady.component 0 with graph := some l' }.candidates own m').1 = .ok set := by
  intro m m' l l'
  have numbered := clashing.numbered_component 0 0
  have ready : ∀ v ∈ l, v.Ready m := fun v hv =>
    (clashing.unfailing_component (by decide) 0 v (List.mem_append_right _ hv)).ready m
  obtain ⟨set, answer, _, earliest, _, again, _⟩ :=
    (candidates_earliest numbered none [] _ (List.mem_singleton_self _)).2 l rfl ready
  have first : set.get? "a/b" = some _ :=
    (earliest "a/b" _).2 ⟨[], clashingVariant 0, [clashingVariant 1], rfl, rfl, List.forall_mem_nil _⟩
  have ids : set.ids = ["a/b", "a/c"] := by
    obtain rfl := Except.ok.inj (answer clashingOwn)
    rfl
  have readySteady : ∀ v ∈ [steadyVariant 0, steadyVariant 1], v.Ready m' := fun v hv =>
    (steady.unfailing_component (by decide) 0 v (List.mem_append_right _ hv)).ready m'
  obtain ⟨set', answer', _, _, _, _, anyOrder⟩ :=
    (candidates_earliest (steady.numbered_component 0 0) none [] _
      (List.mem_singleton_self _)).2 _ rfl readySteady
  refine ⟨numbered, rfl, ready, ⟨set, answer, ids, by rw [first]; rfl, ?_⟩, set', answer', ?_⟩
  · exact again l (clashingVariant 1) [] rfl (by simp [l])
  · refine anyOrder (fun v hv w hw other id => ?_) l' (.swap _ _ [])
    rcases List.mem_pair.1 hv with rfl | rfl <;> rcases List.mem_pair.1 hw with rfl | rfl
    · exact absurd rfl other
    · exact steady_publishes_apart id
    · exact (steady_publishes_apart id).symm
    · exact absurd rfl other

end Session

end ArtifactSelection
