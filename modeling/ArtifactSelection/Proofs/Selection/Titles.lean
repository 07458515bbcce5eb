import ArtifactSelection.Proofs.Component.Places
import ArtifactSelection.Proofs.Selection.Parallel

/-!
The display names of physical variants. No set, no offer and no selection looks at one, so variants
that differ in it alone stand in the same places of their sets, and a selection by a policy selects
the same ids and artifacts whichever of them it is given.
-/

namespace ArtifactSelection

structure PhysicalVariant.Retitled (v w : PhysicalVariant) : Prop where
  id : w.id = v.id
  attributes : w.attributes = v.attributes
  artifacts : w.artifacts = v.artifacts

/-- The same configuration, display names of physical variants aside. A configuration that is its own
physical variant keeps its display name. -/
structure Configuration.Retitled (c d : Configuration) : Prop where
  name : d.name = c.name
  attributes : d.attributes = c.attributes
  artifacts : d.artifacts = c.artifacts
  variants : List.Forall₂ PhysicalVariant.Retitled c.variants.variants d.variants.variants
  own : c.variants.ids = [c.name] → d = c

structure ResolvedVariant.Retitled (v w : ResolvedVariant) : Prop where
  variant : v.variant.Retitled w.variant
  attributes : w.attributes = v.attributes
  artifacts : w.artifacts = v.artifacts

namespace SelectionRequest.Parallels

variable {σ : Type} {r r' : SelectionRequest σ} {s s' : σ}

theorem retitled_resolved (parallels : r.Parallels PhysicalVariant.Retitled s r' s')
    {l l' : List PhysicalVariant} (related : List.Forall₂ PhysicalVariant.Retitled l l') :
    List.Forall₂ ResolvedVariant.Retitled (r.resolved l).variants (r'.resolved l').variants := by
  rw [resolved, resolved, List.forall₂_map_left_iff, List.forall₂_map_right_iff]
  refine related.imp fun v w same => ⟨same, ?_, ?_⟩
  · rw [same.attributes, parallels.overrides]
  · rw [same.artifacts, parallels.exclusion, parallels.coordinate]

/-- The answers are refusals for one reason, or they select the same variants in the same order, with
one list of artifacts between them. -/
theorem answer_retitled (parallels : r.Parallels PhysicalVariant.Retitled s r' s')
    (component : r'.component.id = r.component.id) (p : Policy) :
    (∃ set set', (p.select r ∅ s).answer = .ok set ∧ (p.select r' ∅ s').answer = .ok set' ∧
      List.Forall₂ ResolvedVariant.Retitled set.variants set'.variants ∧
      set'.artifacts = set.artifacts) ∨
    ∃ e, (p.select r ∅ s).answer = .error e ∧ (p.select r' ∅ s').answer = .error e := by
  rw [Policy.answer_select, Policy.answer_select]
  rcases parallels.choose (·.attributes) p with
    ⟨l, l', chosen, chosen', related⟩ | ⟨refused, refused'⟩
  · have alike := parallels.retitled_resolved related
    rw [chosen, chosen']
    exact .inl ⟨_, _, rfl, rfl, alike, ResolvedSet.artifacts_eq_of_forall₂ alike (·.artifacts)⟩
  · rw [refused, refused', component]
    exact .inr ⟨_, rfl, rfl⟩

end SelectionRequest.Parallels

end ArtifactSelection
