import ArtifactSelection.Proofs.Descriptor.Lookup
import ArtifactSelection.Proofs.Selection.Outcome
import ArtifactSelection.Session.Operation

/-!
Selections that no candidate is eligible for. The choice falls back on the declared variants of the
configuration, and those are candidates as a rule. Where they are, a strict policy refuses and a
lenient one takes them all. A configuration outside the graph variants may declare a variant that is
compatible although no candidate is; such variants are selected by either policy.
-/

namespace ArtifactSelection

namespace VariantSet

/-- No variant is compatible with the overrides. -/
def Refuses (s : VariantSet) (overrides : Attributes) : Prop :=
  ∀ v ∈ s.variants, ¬v.attributes.Admits overrides

instance (s : VariantSet) (overrides : Attributes) : Decidable (s.Refuses overrides) :=
  inferInstanceAs (Decidable (∀ v ∈ s.variants, ¬v.attributes.Admits overrides))

variable {s : VariantSet} {overrides : Attributes}

theorem Refuses.not_shares (refuses : s.Refuses overrides) : ¬s.Shares overrides := by
  rintro ⟨v, hv, fits, _⟩
  exact refuses v hv fits

theorem Picks.eq_nil_iff {l : List PhysicalVariant}
    (picks : s.Picks (fun v => v.attributes.Admits overrides) l) :
    l = [] ↔ s.Refuses overrides := by
  rw [List.eq_nil_iff_forall_not_mem]
  exact ⟨fun none v hv fits => none v ((picks.mem_iff v).2 ⟨hv, fits⟩),
    fun refuses v hv => refuses v ((picks.mem_iff v).1 hv).1 ((picks.mem_iff v).1 hv).2⟩

end VariantSet

theorem Component.candidates_of_no_graph {c : Component} (none : c.graph = none)
    (own : Configuration) (m : Memory) : (c.candidates own m).1 = .ok own.variants := by
  rw [candidates, none]

/-- When no candidate is compatible, it is the declared variants that count. If one of them is
compatible, either policy selects the compatible ones; otherwise, and so whenever the declared
variants are candidates, a strict policy refuses and a lenient one selects all of them. -/
theorem Handle.resolve_of_refused (h : Handle) {m : Memory} {e : Exclusion} {overrides : Attributes}
    (included : e.excludesModule h.component.coordinate = false)
    (present : overrides.isEmpty = false) {set : VariantSet}
    (supply : (h.candidates m).1 = .ok set) (refuses : set.Refuses overrides) :
    let declared := h.configuration.variants
    let r := h.request e overrides
    (declared.Refuses overrides →
      (h.resolve (Policy.select { lenient := false }) e overrides m).1 =
        .error (.noMatchingVariant (toString h.component.id) (toString overrides)) ∧
      (h.resolve (Policy.select { lenient := true }) e overrides m).1 =
        .ok (r.resolved declared.variants)) ∧
    (¬declared.Refuses overrides →
      ∃ l, l ≠ [] ∧ declared.Picks (fun v => v.attributes.Admits overrides) l ∧
        ∀ p, (h.resolve (Policy.select p) e overrides m).1 = .ok (r.resolved l)) ∧
    ((h.component.graph = none ∨ ∀ v ∈ declared.variants, v ∈ set.variants) →
      declared.Refuses overrides) := by
  intro declared r
  have picks : declared.Picks (fun v => v.attributes.Admits overrides)
      (set.bestMatches declared overrides) :=
    VariantSet.bestMatches_of_not_shares refuses.not_shares declared
  have settled (p : Policy) : (h.resolve p.select e overrides m).1 =
      (p.settle r (set.bestMatches declared overrides)).1.map r.resolved := by
    have answer := p.answer_of_candidates (r := r) (s := m) included present
    have supply : (r.candidates m).1 = .ok set := supply
    rw [supply] at answer
    exact answer
  refine ⟨fun none => ?_, fun some => ?_, fun among => ?_⟩
  · have empty := picks.eq_nil_iff.2 none
    rw [settled, settled, empty]
    exact ⟨rfl, rfl⟩
  · have nonempty : set.bestMatches declared overrides ≠ [] := fun empty =>
      some (picks.eq_nil_iff.1 empty)
    refine ⟨_, nonempty, picks, fun p => ?_⟩
    rw [settled, Policy.settle_eq, if_pos nonempty]
    rfl
  · rcases among with single | among
    · have own := Component.candidates_of_no_graph single h.configuration m
      obtain rfl := Except.ok.inj (own.symm.trans supply)
      exact refuses
    · exact fun v hv => refuses v (among v hv)

def strayApi : ConfigurationDeclaration where
  name := "api"
  attributes := .ofList [("usage", "api")]
  artifacts := [{ name := "api" }]

def strayDocs : ConfigurationDeclaration where
  name := "docs"
  variants :=
    [{ name := "html", artifacts := [{ name := "html" }] },
      { name := "notes", attributes := .ofList [("usage", "api")]
        artifacts := [{ name := "notes" }] }]

def stray : Descriptor where
  component := { group := "org.example", name := "lib", version := "1.0", project := some ":lib" }
  graphVariants := some ["api"]
  configurations := [strayApi, strayDocs]

def strayWork : List Operation :=
  [.ask 0 .artifacts (strayApi.variant stray.id ⟨0, 0⟩),
    .ask 0 .handle (strayDocs.variant stray.id ⟨0, 1⟩)]

def runtime : Attributes := .ofList [("usage", "runtime")]

theorem Handle.resolve_of_refused_stray :
    let s := (Session.opened (stray.toComponent 0) none 0).run strayWork
    ∃ h set, s.handle? 0 "api" = some h ∧ (h.candidates s.memory).1 = .ok set ∧
      set.Refuses runtime ∧ h.configuration.variants.Refuses runtime ∧
      (h.resolve (Policy.select { lenient := false }) .nothing runtime s.memory).1 =
        .error (.noMatchingVariant (toString h.component.id) (toString runtime)) ∧
      (h.resolve (Policy.select { lenient := true }) .nothing runtime s.memory).1 =
        .ok ((h.request .nothing runtime).resolved h.configuration.variants.variants) := by
  intro s
  refine ⟨_, _, rfl, rfl, by decide, by decide, ?_⟩
  refine (Handle.resolve_of_refused _ rfl rfl rfl (by decide)).1 (by decide)

/-- The handle for the documentation is not refused although no candidate is compatible, and a
lenient policy does not select all that its configuration declares. -/
theorem Handle.resolve_despite_refusal :
    let s := (Session.opened (stray.toComponent 0) none 0).run strayWork
    ∃ h set, s.handle? 0 "docs" = some h ∧ (h.candidates s.memory).1 = .ok set ∧
      set.Refuses runtime ∧
      (∃ answer, (h.resolve (Policy.select { lenient := false }) .nothing runtime s.memory).1 =
        .ok answer) ∧
      (h.resolve (Policy.select { lenient := true }) .nothing runtime s.memory).1 ≠
        .ok ((h.request .nothing runtime).resolved h.configuration.variants.variants) := by
  intro s
  refine ⟨_, _, rfl, rfl, by decide, ⟨_, rfl⟩, ?_⟩
  intro all
  have size := congrArg (fun r => r.toOption.map (·.variants.length)) all
  exact absurd size (by decide)

end ArtifactSelection
