import ArtifactSelection.Descriptor.Declaration
import Mathlib.Data.List.Nodup

/-!
What it means that a descriptor is in order. The checks go through the declarations one by one and
stop at the first problem; that there is none says that names are unique where they have to be, and
that graph variants are declared.
-/

namespace ArtifactSelection

namespace Descriptor

theorem repeated?_eq_none_iff {earlier l : List String} :
    repeated? earlier l = none ↔ l.Nodup ∧ ∀ n ∈ l, n ∉ earlier := by
  induction l generalizing earlier with
  | nil => simp [repeated?]
  | cons n l ih =>
    by_cases taken : n ∈ earlier
    · simp [repeated?, taken]
    · simp only [repeated?, taken, if_false, ih]
      grind

/-- Every name is unique where it is declared, and the graph variants are among the configurations. -/
structure Consistent (d : Descriptor) : Prop where
  configurations : (d.configurations.map (·.name)).Nodup
  variants : ∀ c ∈ d.configurations, (c.variants.map (·.name)).Nodup
  graph : ∀ n ∈ d.graphVariants.getD [], n ∈ d.configurations.map (·.name)

theorem repetition?_eq_none_iff {earlier : List String} {l : List ConfigurationDeclaration} :
    repetition? earlier l = none ↔ (l.map (·.name)).Nodup ∧ (∀ c ∈ l, c.name ∉ earlier) ∧
      ∀ c ∈ l, (c.variants.map (·.name)).Nodup := by
  induction l generalizing earlier with
  | nil => simp [repetition?]
  | cons c l ih =>
    by_cases taken : c.name ∈ earlier
    · simp [repetition?, taken]
    · have inside : repeated? [] (c.variants.map (·.name)) = none ↔
          (c.variants.map (·.name)).Nodup := by simp [repeated?_eq_none_iff]
      cases first : repeated? [] (c.variants.map (·.name)) with
      | some v => simp [repetition?, taken, first, ← inside]
      | none =>
        have distinct := inside.1 first
        simp only [repetition?, taken, if_false, first, ih]
        grind

theorem problem?_eq_none_iff {d : Descriptor} : d.problem? = none ↔ d.Consistent := by
  have graph : ((d.graphVariants.getD []).find? fun n =>
      !(d.configurations.map (·.name)).contains n) = none ↔
        ∀ n ∈ d.graphVariants.getD [], n ∈ d.configurations.map (·.name) := by
    simp
  rw [problem?, Option.or_eq_none_iff, Option.map_eq_none_iff, graph, repetition?_eq_none_iff]
  constructor
  · rintro ⟨⟨names, _, variants⟩, declared⟩
    exact ⟨names, variants, declared⟩
  · rintro ⟨names, variants, declared⟩
    exact ⟨⟨names, by simp, variants⟩, declared⟩

theorem validate_eq_ok_iff {d : Descriptor} : d.validate = .ok () ↔ d.Consistent := by
  rw [← problem?_eq_none_iff, validate]
  cases d.problem? <;> simp

theorem Consistent.find?_eq_some_iff {d : Descriptor} (consistent : d.Consistent) {n : String}
    {c : ConfigurationDeclaration} :
    d.configurations.find? (·.name == n) = some c ↔ c ∈ d.configurations ∧ c.name = n :=
  KeyOrder.get?_eq_some_iff consistent.configurations

end Descriptor

end ArtifactSelection
