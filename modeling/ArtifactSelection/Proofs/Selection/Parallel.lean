import ArtifactSelection.Proofs.Selection.Outcome
import Mathlib.Data.List.Forall2

/-!
Selections side by side. Where two requests differ in no attribute, they are decided alike: either
variants in the same places are chosen for both, or both are refused. What else the variants differ in
is a relation between them, and the choice carries it along.
-/

namespace ArtifactSelection

section Related

variable {α β γ : Type} {R : α → β → Prop} {l : List α} {l' : List β}

theorem map_eq_of_forall₂ {f : α → γ} {g : β → γ} (related : List.Forall₂ R l l')
    (same : ∀ {a b}, R a b → g b = f a) : l'.map g = l.map f := by
  induction related with
  | nil => rfl
  | cons first _ ih => rw [List.map_cons, List.map_cons, same first, ih]

theorem forall₂_filter {p : α → Bool} {q : β → Bool} (related : List.Forall₂ R l l')
    (same : ∀ {a b}, R a b → q b = p a) : List.Forall₂ R (l.filter p) (l'.filter q) := by
  refine List.rel_filter ?_ related
  exact fun a b h => Bool.eq_iff_iff.1 (same h).symm

end Related

theorem ResolvedSet.artifacts_eq_of_forall₂ {s t : ResolvedSet}
    {R : ResolvedVariant → ResolvedVariant → Prop} (related : List.Forall₂ R s.variants t.variants)
    (same : ∀ {v w}, R v w → w.artifacts = v.artifacts) : t.artifacts = s.artifacts := by
  rw [artifacts, artifacts, List.flatMap_def, List.flatMap_def, map_eq_of_forall₂ related same]

variable {R : PhysicalVariant → PhysicalVariant → Prop}

theorem VariantSet.forall₂_bestMatches {c c' declared declared' : VariantSet}
    (attributes : ∀ {v w}, R v w → w.attributes = v.attributes)
    (candidates : List.Forall₂ R c.variants c'.variants)
    (fallback : List.Forall₂ R declared.variants declared'.variants) (overrides : Attributes) :
    List.Forall₂ R (c.bestMatches declared overrides) (c'.bestMatches declared' overrides) := by
  have fits {v w : PhysicalVariant} (h : R v w) : w.attributes.isCompatibleWith overrides =
      v.attributes.isCompatibleWith overrides := by rw [attributes h]
  have score {v w : PhysicalVariant} (h : R v w) : w.attributes.matchingKeys overrides =
      v.attributes.matchingKeys overrides := by rw [attributes h]
  have compatible := forall₂_filter candidates fits
  simp only [bestMatches, map_eq_of_forall₂ compatible score]
  split
  · exact forall₂_filter fallback fits
  · exact forall₂_filter compatible fun h => by rw [score h]

theorem Policy.forall₂_settle {σ : Type} {r r' : SelectionRequest σ} (p : Policy)
    (overrides : r'.overrides = r.overrides)
    (declared : List.Forall₂ R r.declared.variants r'.declared.variants)
    {l l' : List PhysicalVariant} (related : List.Forall₂ R l l') :
    (∃ k k', (p.settle r l).1 = .ok k ∧ (p.settle r' l').1 = .ok k' ∧ List.Forall₂ R k k') ∨
    ((p.settle r l).1 =
        .error (.noMatchingVariant (toString r.component.id) (toString r.overrides)) ∧
      (p.settle r' l').1 =
        .error (.noMatchingVariant (toString r'.component.id) (toString r.overrides))) := by
  rw [settle_eq, settle_eq, overrides]
  cases related with
  | cons first rest => exact .inl ⟨_, _, rfl, rfl, .cons first rest⟩
  | nil =>
    cases p.lenient with
    | true => exact .inl ⟨_, _, rfl, rfl, declared⟩
    | false => exact .inr ⟨rfl, rfl⟩

/-- A request in state `s` and one in state `s'`, about variants in the same places. -/
structure SelectionRequest.Parallels {σ : Type} (R : PhysicalVariant → PhysicalVariant → Prop)
    (r : SelectionRequest σ) (s : σ) (r' : SelectionRequest σ) (s' : σ) : Prop where
  coordinate : r'.component.coordinate = r.component.coordinate
  exclusion : r'.exclusion = r.exclusion
  overrides : r'.overrides = r.overrides
  declared : List.Forall₂ R r.declared.variants r'.declared.variants
  candidates : ∃ c c', (r.candidates s).1 = .ok c ∧ (r'.candidates s').1 = .ok c' ∧
    List.Forall₂ R c.variants c'.variants

namespace SelectionRequest.Parallels

variable {σ : Type} {r r' : SelectionRequest σ} {s s' : σ}

theorem choose (parallels : r.Parallels R s r' s')
    (attributes : ∀ {v w}, R v w → w.attributes = v.attributes) (p : Policy) :
    (∃ l l', (p.choose r s).1 = .ok l ∧ (p.choose r' s').1 = .ok l' ∧ List.Forall₂ R l l') ∨
    ((p.choose r s).1 =
        .error (.noMatchingVariant (toString r.component.id) (toString r.overrides)) ∧
      (p.choose r' s').1 =
        .error (.noMatchingVariant (toString r'.component.id) (toString r.overrides))) := by
  obtain ⟨c, c', supplied, supplied', related⟩ := parallels.candidates
  rw [Policy.chosen_eq, Policy.chosen_eq, parallels.coordinate, parallels.exclusion,
    parallels.overrides, supplied, supplied']
  split
  · exact .inl ⟨[], [], rfl, rfl, .nil⟩
  · split
    · exact .inl ⟨_, _, rfl, rfl, parallels.declared⟩
    · exact p.forall₂_settle parallels.overrides parallels.declared
        (VariantSet.forall₂_bestMatches attributes related parallels.declared r.overrides)

end SelectionRequest.Parallels

end ArtifactSelection
