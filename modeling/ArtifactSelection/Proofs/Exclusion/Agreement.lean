import ArtifactSelection.Proofs.Selection.Outcome
import Mathlib.Data.Fintype.EquivFin

/-!
Modules and artifacts under one rule. Both are decided rule by rule, and they agree: a rule excludes
a module just when it excludes every artifact of it. What is left to artifact rules is a finite
number of names, so there is always an artifact that goes only where its module goes.
-/

namespace ArtifactSelection

namespace Exclusion

@[elab_as_elim]
theorem induction_on {motive : Exclusion → Prop} (e : Exclusion) (nothing : motive .nothing)
    (everything : motive .everything) (group : ∀ g, motive (.group g))
    (module : ∀ n, motive (.module n)) (moduleOf : ∀ g n, motive (.moduleOf g n))
    (artifact : ∀ n t x, motive (.artifact n t x))
    (anyOf : ∀ rules, (∀ r ∈ rules, motive r) → motive (.anyOf rules))
    (allOf : ∀ rules, (∀ r ∈ rules, motive r) → motive (.allOf rules)) : motive e :=
  @Exclusion.rec motive (fun l => ∀ r ∈ l, motive r) nothing everything group module moduleOf
    artifact anyOf allOf (List.forall_mem_nil _) (fun _ _ first rest =>
      List.forall_mem_cons.2 ⟨first, rest⟩) e

mutual

def artifactNames : Exclusion → List String
  | artifact n _ _ => [n]
  | anyOf rules => allArtifactNames rules
  | allOf rules => allArtifactNames rules
  | _ => []

def allArtifactNames : List Exclusion → List String
  | [] => []
  | e :: l => e.artifactNames ++ allArtifactNames l

end

theorem mem_allArtifactNames {l : List Exclusion} {e : Exclusion} (he : e ∈ l) {n : String}
    (hn : n ∈ e.artifactNames) : n ∈ allArtifactNames l := by
  induction l with
  | nil => cases he
  | cons r l ih =>
    rw [allArtifactNames, List.mem_append]
    rcases List.mem_cons.1 he with rfl | he
    · exact .inl hn
    · exact .inr (ih he)

variable {e : Exclusion} {m : ModuleCoordinate} {a : ArtifactName}

theorem excludesArtifact_of_excludesModule (whole : e.excludesModule m = true) :
    e.excludesArtifact m a = true := by
  induction e using induction_on with
  | artifact => simp [excludesModule] at whole
  | anyOf rules ih =>
    rw [excludesModule, anyExcludesModule_eq_any, List.any_eq_true] at whole
    rw [excludesArtifact, anyExcludesArtifact_eq_any, List.any_eq_true]
    obtain ⟨r, hr, excluded⟩ := whole
    exact ⟨r, hr, ih r hr excluded⟩
  | allOf rules ih =>
    rw [excludesModule, allExcludeModule_eq_all, Bool.and_eq_true, List.all_eq_true] at whole
    rw [excludesArtifact, allExcludeArtifact_eq_all, Bool.and_eq_true, List.all_eq_true]
    exact ⟨whole.1, fun r hr => ih r hr (whole.2 r hr)⟩
  | _ => exact whole

theorem excludesModule_of_unnamed (unnamed : a.name ∉ e.artifactNames)
    (excluded : e.excludesArtifact m a = true) : e.excludesModule m = true := by
  induction e using induction_on with
  | artifact n t x =>
    have other : a.name ≠ n := by simpa [artifactNames] using unnamed
    simp [excludesArtifact, other] at excluded
  | anyOf rules ih =>
    rw [excludesArtifact, anyExcludesArtifact_eq_any, List.any_eq_true] at excluded
    rw [excludesModule, anyExcludesModule_eq_any, List.any_eq_true]
    obtain ⟨r, hr, excluded⟩ := excluded
    exact ⟨r, hr, ih r hr (fun named => unnamed (mem_allArtifactNames hr named)) excluded⟩
  | allOf rules ih =>
    rw [excludesArtifact, allExcludeArtifact_eq_all, Bool.and_eq_true, List.all_eq_true] at excluded
    rw [excludesModule, allExcludeModule_eq_all, Bool.and_eq_true, List.all_eq_true]
    refine ⟨excluded.1, fun r hr => ih r hr (fun named => ?_) (excluded.2 r hr)⟩
    exact unnamed (mem_allArtifactNames hr named)
  | _ => exact excluded

theorem exists_unnamed (e : Exclusion) : ∃ n, n ∉ e.artifactNames := by
  obtain ⟨n, new⟩ := Infinite.exists_notMem_finset e.artifactNames.toFinset
  exact ⟨n, by simpa using new⟩

theorem excludesModule_iff : e.excludesModule m = true ↔ ∀ a, e.excludesArtifact m a = true := by
  constructor
  · exact fun whole a => excludesArtifact_of_excludesModule whole
  · intro each
    obtain ⟨n, new⟩ := e.exists_unnamed
    exact excludesModule_of_unnamed (a := .jar n) new (each _)

end Exclusion

theorem SelectionRequest.artifacts_resolved_of_excluded {σ : Type} {r : SelectionRequest σ}
    (whole : r.exclusion.excludesModule r.component.coordinate = true) (l : List PhysicalVariant) :
    (r.resolved l).artifacts = [] := by
  have none : (r.resolved l).variants.flatMap (·.artifacts) = [] := by
    simp [resolved, Exclusion.excludesArtifact_of_excludesModule whole]
  rw [ResolvedSet.artifacts, none, Artifact.distinct]

/-- A rule tree excludes a module just when it excludes every artifact that the module could have.
So a selection in an excluded module, which looks at no variant at all, leaves out no artifact that
would have stayed, whichever variants it had chosen. -/
theorem Exclusion.module_agrees_with_artifacts :
    (∀ (e : Exclusion) (m : ModuleCoordinate),
      e.excludesModule m = true ↔ ∀ a, e.excludesArtifact m a = true) ∧
    ∀ (σ : Type) (r : SelectionRequest σ),
      r.exclusion.excludesModule r.component.coordinate = true →
        ∀ (p : Policy) (scratch : Scratch) (s : σ),
          (p.select r scratch s).answer = .ok ∅ ∧
          ∀ l, (r.resolved l).artifacts = (∅ : ResolvedSet).artifacts := by
  refine ⟨fun e m => excludesModule_iff, fun σ r whole p scratch s => ⟨?_, ?_⟩⟩
  · simp only [Policy.select, Policy.choose, whole, if_true]
    rfl
  · exact SelectionRequest.artifacts_resolved_of_excluded whole

end ArtifactSelection
