import ArtifactSelection.Exclusion

/-!
Combining rules. A combination leaves out rules that exclude nothing, opens inner combinations, and
gives way to a rule that excludes everything; what comes out decides as the given rules do together.
Modules and artifacts are decided by the same three equations, so one argument serves both.
-/

namespace ArtifactSelection.Exclusion

/-- A query that takes a combination rule by rule. -/
structure Distributes (q : Exclusion → Bool) : Prop where
  nothing : q nothing = false
  everything : q everything = true
  anyOf : ∀ rules, q (anyOf rules) = rules.any q

theorem distributes_excludesModule (m : ModuleCoordinate) : Distributes (excludesModule m) where
  nothing := rfl
  everything := rfl
  anyOf := anyExcludesModule_eq_any m

theorem distributes_excludesArtifact (m : ModuleCoordinate) (a : ArtifactName) :
    Distributes (excludesArtifact m a) where
  nothing := rfl
  everything := rfl
  anyOf := anyExcludesArtifact_eq_any m a

namespace Distributes

variable {q : Exclusion → Bool}

theorem any_members? (distributes : Distributes q) (l : List Exclusion) :
    (members? l).elim true (·.any q) = l.any q := by
  fun_induction members? l with
  | case1 => rfl
  | case2 l ih => rw [ih, List.any_cons, distributes.nothing, Bool.false_or]
  | case3 l => rw [List.any_cons, distributes.everything, Bool.true_or, Option.elim_none]
  | case4 rules l ih =>
    rw [List.any_cons, distributes.anyOf, ← ih]
    cases members? l with
    | none => simp
    | some rest => simp
  | case5 e l _ _ _ ih =>
    rw [List.any_cons, ← ih]
    cases members? l with
    | none => simp
    | some rest => simp

theorem combine (distributes : Distributes q) (l : List Exclusion) :
    q (combine l) = l.any q := by
  rw [← distributes.any_members? l, Exclusion.combine]
  rcases members? l with _ | _ | ⟨e, _ | ⟨r, rules⟩⟩
  · exact distributes.everything
  · exact distributes.nothing
  · simp
  · exact distributes.anyOf _

theorem combine_pair (distributes : Distributes q) (s t : Exclusion) :
    q (Exclusion.combine [s, t]) = (q s || q t) := by
  rw [distributes.combine, List.any_cons, List.any_cons, List.any_nil, Bool.or_false]

end Distributes

/-- The rule that several rules are combined to excludes the modules and the artifacts that one of
them excludes, as `anyOf` over all of them would. -/
theorem combine_decides_as_anyOf (l : List Exclusion) (m : ModuleCoordinate) (a : ArtifactName) :
    ((combine l).excludesModule m = true ↔ ∃ e ∈ l, e.excludesModule m = true) ∧
    ((combine l).excludesArtifact m a = true ↔ ∃ e ∈ l, e.excludesArtifact m a = true) ∧
    (combine l).excludesModule m = (anyOf l).excludesModule m ∧
    (combine l).excludesArtifact m a = (anyOf l).excludesArtifact m a := by
  have modules := distributes_excludesModule m
  have artifacts := distributes_excludesArtifact m a
  refine ⟨?_, ?_, ?_, ?_⟩
  · rw [modules.combine, List.any_eq_true]
  · rw [artifacts.combine, List.any_eq_true]
  · rw [modules.combine, modules.anyOf]
  · rw [artifacts.combine, artifacts.anyOf]

/-- A single rule that is left over stands for the combination as it is, also when it was opened
out of an inner one and could be plainer itself. -/
example : combine [nothing, anyOf [anyOf [group "a"]], anyOf []] = anyOf [group "a"] := rfl

end ArtifactSelection.Exclusion
