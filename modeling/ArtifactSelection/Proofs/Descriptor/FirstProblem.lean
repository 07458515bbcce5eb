import ArtifactSelection.Proofs.Descriptor.Consistency

/-!
Which problem of a descriptor is reported. Of several it is the first: configurations count in their
order, the name of one before the names of its variants, and graph variants count last. What stands
before the reported place is in order, so there is only one problem that can be reported.
-/

namespace ArtifactSelection

namespace Descriptor

section Scan

variable {α β : Type} (check : List String → α → Option β) (key : α → String)

def firstAlong : List String → List α → Option β
  | _, [] => none
  | earlier, a :: l => (check earlier a).or (firstAlong (key a :: earlier) l)

variable {check key}

theorem firstAlong_eq_some_iff {earlier : List String} {l : List α} {b : β} :
    firstAlong check key earlier l = some b ↔ ∃ before a after, l = before ++ a :: after ∧
      firstAlong check key earlier before = none ∧
      check ((before.map key).reverse ++ earlier) a = some b := by
  induction l generalizing earlier with
  | nil => simp [firstAlong]
  | cons a l ih =>
    rw [firstAlong, Option.or_eq_some_iff, ih]
    constructor
    · rintro (here | ⟨clear, before, c, after, rfl, free, there⟩)
      · exact ⟨[], a, l, rfl, rfl, here⟩
      · exact ⟨a :: before, c, after, rfl, by rw [firstAlong, clear, free]; rfl, by simpa using there⟩
    · rintro ⟨before, c, after, split, free, there⟩
      cases before with
      | nil =>
        obtain ⟨rfl, rfl⟩ := List.cons.inj split
        exact .inl there
      | cons d before =>
        obtain ⟨rfl, rfl⟩ := List.cons.inj split
        rw [firstAlong, Option.or_eq_none_iff] at free
        exact .inr ⟨free.1, before, c, after, rfl, free.2, by simpa using there⟩

end Scan

def again (earlier : List String) (n : String) : Option String :=
  if n ∈ earlier then some n else none

def fault? (earlier : List String) (c : ConfigurationDeclaration) : Option Problem :=
  if c.name ∈ earlier then some (.repeatedConfiguration c.name)
  else (repeated? [] (c.variants.map (·.name))).map (.repeatedVariant · c.name)

theorem repeated?_eq_firstAlong (earlier l : List String) :
    repeated? earlier l = firstAlong again (·) earlier l := by
  induction l generalizing earlier with
  | nil => rfl
  | cons n l ih => by_cases taken : n ∈ earlier <;> simp [repeated?, firstAlong, again, taken, ih]

theorem repetition?_eq_firstAlong (earlier : List String) (l : List ConfigurationDeclaration) :
    repetition? earlier l = firstAlong fault? (·.name) earlier l := by
  induction l generalizing earlier with
  | nil => rfl
  | cons c l ih =>
    rw [repetition?, firstAlong, fault?, ih]
    split
    · rfl
    · cases repeated? [] (c.variants.map (·.name)) <;> rfl

/-- The first name of a list that stands there a second time. -/
def Repeats (l : List String) (n : String) : Prop :=
  ∃ before after, l = before ++ n :: after ∧ before.Nodup ∧ n ∈ before

theorem repeated?_eq_some_iff {l : List String} {n : String} :
    repeated? [] l = some n ↔ Repeats l n := by
  have clear (before : List String) : firstAlong again (·) [] before = none ↔ before.Nodup := by
    rw [← repeated?_eq_firstAlong, repeated?_eq_none_iff]
    simp
  simp [repeated?_eq_firstAlong, firstAlong_eq_some_iff, clear, again, Repeats]

structure Apart (l : List ConfigurationDeclaration) : Prop where
  names : (l.map (·.name)).Nodup
  variants : ∀ c ∈ l, (c.variants.map (·.name)).Nodup

theorem apart_iff {l : List ConfigurationDeclaration} : repetition? [] l = none ↔ Apart l := by
  rw [repetition?_eq_none_iff]
  constructor
  · rintro ⟨names, _, variants⟩
    exact ⟨names, variants⟩
  · rintro ⟨names, variants⟩
    exact ⟨names, by simp, variants⟩

/-- The first problem of a descriptor, everything before it being in order. -/
inductive Reports (d : Descriptor) : Problem → Prop
  | repeatedConfiguration {before after : List ConfigurationDeclaration}
      {c : ConfigurationDeclaration} :
      d.configurations = before ++ c :: after → Apart before → c.name ∈ before.map (·.name) →
      Reports d (.repeatedConfiguration c.name)
  | repeatedVariant {before after : List ConfigurationDeclaration} {c : ConfigurationDeclaration}
      {v : String} :
      d.configurations = before ++ c :: after → Apart before → c.name ∉ before.map (·.name) →
      Repeats (c.variants.map (·.name)) v → Reports d (.repeatedVariant v c.name)
  | unknownGraphVariant {before after : List String} {n : String} :
      Apart d.configurations → d.graphVariants = some (before ++ n :: after) →
      (∀ k ∈ before, k ∈ d.configurations.map (·.name)) → n ∉ d.configurations.map (·.name) →
      Reports d (.unknownGraphVariant n)

theorem repetition?_eq_some_iff {l : List ConfigurationDeclaration} {p : Problem} :
    repetition? [] l = some p ↔ ∃ before c after, l = before ++ c :: after ∧ Apart before ∧
      fault? (before.map (·.name)) c = some p := by
  have reversed (earlier : List String) (c : ConfigurationDeclaration) :
      fault? earlier.reverse c = fault? earlier c := by simp [fault?]
  simp only [repetition?_eq_firstAlong, firstAlong_eq_some_iff, List.append_nil, reversed]
  simp only [← repetition?_eq_firstAlong, apart_iff]

theorem fault?_eq_some_iff {earlier : List String} {c : ConfigurationDeclaration} {p : Problem} :
    fault? earlier c = some p ↔ c.name ∈ earlier ∧ p = .repeatedConfiguration c.name ∨
      c.name ∉ earlier ∧ ∃ v, Repeats (c.variants.map (·.name)) v ∧ p = .repeatedVariant v c.name := by
  rw [fault?]
  split
  · next taken => simp [taken, eq_comm]
  · next new =>
    rw [Option.map_eq_some_iff]
    simp only [repeated?_eq_some_iff, new, false_and, not_false_eq_true, true_and, false_or]
    exact exists_congr fun v => and_congr_right fun _ => eq_comm

theorem problem?_eq_some_iff {d : Descriptor} {p : Problem} :
    d.problem? = some p ↔ d.Reports p := by
  rw [problem?, Option.or_eq_some_iff, repetition?_eq_some_iff, apart_iff, Option.map_eq_some_iff]
  constructor
  · rintro (⟨before, c, after, split, apart, fault⟩ | ⟨apart, n, unknown, rfl⟩)
    · rcases fault?_eq_some_iff.1 fault with ⟨taken, rfl⟩ | ⟨new, v, repeats, rfl⟩
      · exact .repeatedConfiguration split apart taken
      · exact .repeatedVariant split apart new repeats
    · obtain ⟨missing, before, after, split, known⟩ := List.find?_eq_some_iff_append.1 unknown
      have names : d.graphVariants = some (before ++ n :: after) := by
        cases graph : d.graphVariants with
        | none => simp [graph] at split
        | some l => rw [← split, graph, Option.getD_some]
      exact .unknownGraphVariant apart names (by simpa using known) (by simpa using missing)
  · intro reports
    cases reports with
    | repeatedConfiguration split apart taken =>
      exact .inl ⟨_, _, _, split, apart, fault?_eq_some_iff.2 (.inl ⟨taken, rfl⟩)⟩
    | repeatedVariant split apart new repeats =>
      exact .inl ⟨_, _, _, split, apart, fault?_eq_some_iff.2 (.inr ⟨new, _, repeats, rfl⟩)⟩
    | @unknownGraphVariant before after n apart names known missing =>
      refine .inr ⟨apart, n, List.find?_eq_some_iff_append.2 ⟨?_, before, after, ?_, ?_⟩, rfl⟩
      · simpa using missing
      · rw [names, Option.getD_some]
      · simpa using known

theorem Reports.unique {d : Descriptor} {p q : Problem} (h : d.Reports p) (h' : d.Reports q) :
    p = q :=
  Option.some.inj ((problem?_eq_some_iff.2 h).symm.trans (problem?_eq_some_iff.2 h'))

/-- A descriptor is accepted just when it is consistent, and what is said of any other one is its
first problem. -/
theorem validate_reports_first (d : Descriptor) :
    (d.validate = .ok () ↔ d.Consistent) ∧
    (∀ f, d.validate = .error f ↔ ∃ p, d.Reports p ∧ f = .inconsistent (toString p)) ∧
    ∀ p q, d.Reports p → d.Reports q → p = q := by
  refine ⟨validate_eq_ok_iff, fun f => ?_, fun p q h h' => h.unique h'⟩
  simp only [← problem?_eq_some_iff, validate]
  cases d.problem? <;> simp [eq_comm]

def crowded : Descriptor where
  component := { group := "org.example", name := "lib", version := "1.0" }
  graphVariants := some ["docs"]
  configurations :=
    [{ name := "main", variants := [{ name := "jar" }, { name := "dir" }, { name := "jar" }] },
      { name := "main" }]

example : crowded.problem? = some (.repeatedVariant "jar" "main") := rfl

end Descriptor

end ArtifactSelection
