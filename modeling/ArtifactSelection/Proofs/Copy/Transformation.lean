import ArtifactSelection.Proofs.Selection.Parallel

/-!
Transforming all artifacts and selecting commute. A transformer does not touch ids, names and
attributes of physical variants, so it moves through sets, candidates and the choice among them; it
moves through exclusion when it keeps artifact names, and through the joint list of artifacts when
it makes no two identities one and no identity two.
-/

namespace ArtifactSelection

variable {f g : Artifact → Artifact}

namespace PhysicalVariant

theorem mapArtifacts_eq_self (same : ∀ a, f a = a) (v : PhysicalVariant) :
    v.mapArtifacts f = v := by
  simp only [mapArtifacts, List.map_id'' same]

theorem mapArtifacts_mapArtifacts (v : PhysicalVariant) :
    (v.mapArtifacts f).mapArtifacts g = v.mapArtifacts (g ∘ f) := by
  simp only [mapArtifacts, List.map_map]

end PhysicalVariant

namespace VariantSet

theorem variants_ofList {l : List PhysicalVariant} (increasing : l.Pairwise (·.id < ·.id)) :
    (ofList l).variants = l :=
  KeyOrder.ext (ofList l).increasing increasing fun x => get?_ofList l x

@[simp] theorem variants_mapArtifacts (s : VariantSet) :
    (s.mapArtifacts f).variants = s.variants.map (·.mapArtifacts f) :=
  variants_ofList (List.pairwise_map.2 s.increasing)

theorem get?_mapArtifacts (s : VariantSet) (x : String) :
    (s.mapArtifacts f).get? x = (s.get? x).map (·.mapArtifacts f) := by
  rw [mapArtifacts, get?_ofList, List.find?_map]
  rfl

theorem mapArtifacts_eq_self (same : ∀ a, f a = a) (s : VariantSet) : s.mapArtifacts f = s := by
  refine ext_get? fun x => ?_
  rw [get?_mapArtifacts, funext (PhysicalVariant.mapArtifacts_eq_self same), Option.map_id_fun']
  rfl

theorem mapArtifacts_mapArtifacts (s : VariantSet) :
    (s.mapArtifacts f).mapArtifacts g = s.mapArtifacts (g ∘ f) := by
  refine ext_get? fun x => ?_
  rw [get?_mapArtifacts, get?_mapArtifacts, get?_mapArtifacts, Option.map_map]
  exact congrArg (Option.map · _) (funext PhysicalVariant.mapArtifacts_mapArtifacts)

theorem mapArtifacts_ofList (l : List PhysicalVariant) :
    (ofList l).mapArtifacts f = ofList (l.map (·.mapArtifacts f)) := by
  refine ext_get? fun x => ?_
  rw [get?_mapArtifacts, get?_ofList, get?_ofList, List.find?_map]
  rfl

end VariantSet

namespace Configuration

theorem mapArtifacts_eq_self (same : ∀ a, f a = a) (c : Configuration) :
    c.mapArtifacts f = c := by
  simp only [mapArtifacts, List.map_id'' same, VariantSet.mapArtifacts_eq_self same]

theorem mapArtifacts_mapArtifacts (c : Configuration) :
    (c.mapArtifacts f).mapArtifacts g = c.mapArtifacts (g ∘ f) := by
  simp only [mapArtifacts, List.map_map, VariantSet.mapArtifacts_mapArtifacts]

end Configuration

theorem Component.join_mapArtifacts (l : List Configuration) :
    join (l.map (·.mapArtifacts f)) = (join l).mapArtifacts f := by
  rw [join, join, VariantSet.mapArtifacts_ofList, List.flatMap_map, List.map_flatMap]
  congr 2
  exact funext fun c => VariantSet.variants_mapArtifacts c.variants

namespace Artifact

/-- Two artifacts have one identity after the transformation just when they had one before. -/
def Separates (f : Artifact → Artifact) (l : List Artifact) : Prop :=
  ∀ a ∈ l, ∀ b ∈ l, (f a).id = (f b).id ↔ a.id = b.id

theorem distinct_sublist (l : List Artifact) : (distinct l).Sublist l := by
  induction l with
  | nil => exact .slnil
  | cons a l ih => exact (List.filter_sublist.trans ih).cons_cons a

theorem distinct_map {l : List Artifact} (apart : Separates f l) :
    distinct (l.map f) = (distinct l).map f := by
  induction l with
  | nil => rfl
  | cons a l ih =>
    have rest := ih fun b hb c hc =>
      apart b (List.mem_cons_of_mem a hb) c (List.mem_cons_of_mem a hc)
    rw [List.map_cons, distinct, distinct, rest, List.filter_map, List.map_cons]
    congr 2
    refine List.filter_congr fun b hb => ?_
    have listed : b ∈ a :: l := List.mem_cons_of_mem a ((distinct_sublist l).subset hb)
    have same := apart b listed a List.mem_cons_self
    have equal : ((f b).id == (f a).id) = (b.id == a.id) := by
      rw [Bool.eq_iff_iff, beq_iff_eq, beq_iff_eq]
      exact same
    exact congrArg not equal

end Artifact

def ResolvedVariant.mapArtifacts (f : Artifact → Artifact) (v : ResolvedVariant) :
    ResolvedVariant where
  variant := v.variant.mapArtifacts f
  attributes := v.attributes
  artifacts := v.artifacts.map f

namespace ResolvedSet

def mapArtifacts (f : Artifact → Artifact) (s : ResolvedSet) : ResolvedSet :=
  ⟨s.variants.map (·.mapArtifacts f)⟩

theorem artifacts_mapArtifacts {s : ResolvedSet}
    (apart : Artifact.Separates f (s.variants.flatMap (·.artifacts))) :
    (s.mapArtifacts f).artifacts = s.artifacts.map f := by
  rw [artifacts, artifacts, ← Artifact.distinct_map apart, mapArtifacts, List.flatMap_map,
    List.map_flatMap]
  rfl

end ResolvedSet

/-- A request in state `s`, and another one in state `s'` that differs from it by the transformer
and by the identity of the component. -/
structure SelectionRequest.Mirrors {σ : Type} (f : Artifact → Artifact) (r : SelectionRequest σ)
    (s : σ) (r' : SelectionRequest σ) (s' : σ) : Prop where
  coordinate : r'.component.coordinate = r.component.coordinate
  exclusion : r'.exclusion = r.exclusion
  overrides : r'.overrides = r.overrides
  declared : r'.declared = r.declared.mapArtifacts f
  candidates : ∃ c, (r.candidates s).1 = .ok c ∧ (r'.candidates s').1 = .ok (c.mapArtifacts f)

namespace SelectionRequest.Mirrors

variable {σ : Type} {r r' : SelectionRequest σ} {s s' : σ}

theorem resolved (mirrors : r.Mirrors f s r' s') (names : ∀ a, (f a).name = a.name)
    (l : List PhysicalVariant) :
    r'.resolved (l.map (·.mapArtifacts f)) = (r.resolved l).mapArtifacts f := by
  rw [SelectionRequest.resolved, SelectionRequest.resolved, ResolvedSet.mapArtifacts, List.map_map,
    List.map_map]
  congr 2
  funext v
  have kept : (v.artifacts.map f).filter
        (fun a => !r.exclusion.excludesArtifact r.component.coordinate a.name) =
      (v.artifacts.filter
        fun a => !r.exclusion.excludesArtifact r.component.coordinate a.name).map f := by
    rw [List.filter_map]
    congr 2
    exact funext fun a => by rw [Function.comp_apply, names]
  simp only [Function.comp_apply, ResolvedVariant.mapArtifacts, mirrors.coordinate,
    mirrors.exclusion, mirrors.overrides]
  rw [← kept]
  rfl

theorem parallels (mirrors : r.Mirrors f s r' s') :
    r.Parallels (fun v w => w = v.mapArtifacts f) s r' s' := by
  have transformed {t t' : VariantSet} (same : t' = t.mapArtifacts f) :
      List.Forall₂ (fun v w => w = v.mapArtifacts f) t.variants t'.variants := by
    rw [same, VariantSet.variants_mapArtifacts, List.forall₂_map_right_iff, List.forall₂_same]
    exact fun _ _ => rfl
  obtain ⟨c, supplied, supplied'⟩ := mirrors.candidates
  exact ⟨mirrors.coordinate, mirrors.exclusion, mirrors.overrides, transformed mirrors.declared,
    c, _, supplied, supplied', transformed rfl⟩

theorem answer (mirrors : r.Mirrors f s r' s') (names : ∀ a, (f a).name = a.name) (p : Policy) :
    (∃ x, (p.select r ∅ s).answer = .ok x ∧ (p.select r' ∅ s').answer = .ok (x.mapArtifacts f)) ∨
    ((p.select r ∅ s).answer =
        .error (.noMatchingVariant (toString r.component.id) (toString r.overrides)) ∧
      (p.select r' ∅ s').answer =
        .error (.noMatchingVariant (toString r'.component.id) (toString r.overrides))) := by
  have attributes {v w : PhysicalVariant} (same : w = v.mapArtifacts f) :
      w.attributes = v.attributes := by rw [same, PhysicalVariant.attributes_mapArtifacts]
  rw [Policy.answer_select, Policy.answer_select]
  rcases mirrors.parallels.choose attributes p with
    ⟨l, l', chosen, chosen', related⟩ | ⟨refused, refused'⟩
  · have places : l' = l.map (·.mapArtifacts f) := by
      simpa using map_eq_of_forall₂ (g := id) related id
    rw [chosen, chosen', places]
    exact .inl ⟨_, rfl, congrArg Except.ok (mirrors.resolved names l)⟩
  · rw [refused, refused']
    exact .inr ⟨rfl, rfl⟩

end SelectionRequest.Mirrors

end ArtifactSelection
