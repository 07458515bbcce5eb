import ArtifactSelection.Proofs.Attributes.Overlay
import ArtifactSelection.Proofs.Selection.Eligibility
import ArtifactSelection.Proofs.Session.History

/-!
Selected variants and their own attributes. What is chosen for its attributes is compatible with the
overrides, so laying these over it changes no value that it has. The one choice that does not look at
attributes under overrides is the lenient one, when nothing is compatible; then every variant that is
chosen has a value replaced.
-/

namespace ArtifactSelection

namespace VariantSet

variable {candidates declared : VariantSet} {overrides : Attributes}

theorem admits_of_mem_bestMatches {v : PhysicalVariant}
    (hv : v ∈ candidates.bestMatches declared overrides) : v.attributes.Admits overrides := by
  by_cases shares : candidates.Shares overrides
  · exact (((bestMatches_of_shares shares declared).mem_iff v).1 hv).2.1
  · exact (((bestMatches_of_not_shares shares declared).mem_iff v).1 hv).2

theorem bestMatches_eq_nil_iff :
    candidates.bestMatches declared overrides = [] ↔
      ¬candidates.Shares overrides ∧ declared.Refuses overrides := by
  by_cases shares : candidates.Shares overrides
  · simp [shares, bestMatches_ne_nil shares declared]
  · simp [shares, (bestMatches_of_not_shares shares declared).eq_nil_iff]

end VariantSet

namespace ResolvedVariant

/-- Every attribute of the physical variant counts with the value that it has there. -/
def Retains (v : ResolvedVariant) : Prop :=
  ∀ k x, v.variant.attributes.get? k = some x → v.attributes.get? k = some x

end ResolvedVariant

namespace SelectionRequest

variable {σ : Type}

/-- A lenient policy finds nothing compatible and takes the declared variants: no compatible
candidate shares a value with the overrides, and no declared variant is compatible. -/
structure FallsBack (r : SelectionRequest σ) (p : Policy) (s : σ) : Prop where
  lenient : p.lenient = true
  included : r.exclusion.excludesModule r.component.coordinate = false
  present : r.overrides.isEmpty = false
  unmatched : ∃ c, (r.candidates s).1 = .ok c ∧ ¬c.Shares r.overrides
  refused : r.declared.Refuses r.overrides

theorem retains_of_admits (r : SelectionRequest σ) {l : List PhysicalVariant}
    (fit : ∀ v ∈ l, v.attributes.Admits r.overrides) :
    ∀ v ∈ (r.resolved l).variants, v.Retains := by
  intro v hv
  obtain ⟨w, hw, rfl⟩ := List.mem_map.1 hv
  exact Attributes.admits_iff_overlay.1 (fit w hw)

theorem not_retains_of_refuses (r : SelectionRequest σ) {s : VariantSet}
    (refused : s.Refuses r.overrides) :
    ∀ v ∈ (r.resolved s.variants).variants, ¬v.Retains := by
  intro v hv
  obtain ⟨w, hw, rfl⟩ := List.mem_map.1 hv
  exact fun retains => refused w hw (Attributes.admits_iff_overlay.2 retains)

end SelectionRequest

/-- What a policy chooses is compatible with the overrides, unless it falls back. -/
theorem Policy.admits_or_fallsBack {σ : Type} (p : Policy) (r : SelectionRequest σ) (s : σ)
    {l : List PhysicalVariant} (chosen : (p.choose r s).1 = .ok l) :
    (¬r.FallsBack p s ∧ ∀ v ∈ l, v.attributes.Admits r.overrides) ∨
      (r.FallsBack p s ∧ l = r.declared.variants) := by
  rw [chosen_eq] at chosen
  split at chosen
  · next excluded =>
    obtain rfl := Except.ok.inj chosen
    exact .inl ⟨fun falls => Bool.eq_false_iff.1 falls.included excluded, List.forall_mem_nil _⟩
  next included =>
  split at chosen
  · next empty =>
    refine .inl ⟨fun falls => Bool.eq_false_iff.1 falls.present empty, fun v _ k x y _ there => ?_⟩
    cases (Attributes.get?_of_isEmpty empty k).symm.trans there
  next present =>
  cases supply : (r.candidates s).1 with
  | error f => simp [supply, Except.bind] at chosen
  | ok c =>
    rw [supply] at chosen
    have settled : (p.settle r (c.bestMatches r.declared r.overrides)).1 = .ok l := chosen
    rw [settle_eq] at settled
    split at settled
    · next some =>
      obtain rfl := Except.ok.inj settled
      refine .inl ⟨fun falls => ?_, fun v hv => VariantSet.admits_of_mem_bestMatches hv⟩
      obtain ⟨c', supply', unshared⟩ := falls.unmatched
      obtain rfl := Except.ok.inj (supply.symm.trans supply')
      exact some (VariantSet.bestMatches_eq_nil_iff.2 ⟨unshared, falls.refused⟩)
    · next none =>
      split at settled
      · next lenient =>
        obtain ⟨unshared, refused⟩ := VariantSet.bestMatches_eq_nil_iff.1 (not_not.1 none)
        exact .inr ⟨⟨lenient, Bool.eq_false_iff.2 included, Bool.eq_false_iff.2 present,
          ⟨c, supply, unshared⟩, refused⟩, (Except.ok.inj settled).symm⟩
      · cases settled

/-- A selected variant has the overridden values on the keys that are overridden, and its own values
on the others. None of its own values is replaced, save in the lenient fallback, where every selected
variant has one replaced; a strict policy has no fallback. -/
theorem Handle.resolve_retains (h : Handle) (p : Policy) {e : Exclusion} {overrides : Attributes}
    {m : Memory} {set : ResolvedSet} (ok : (h.resolve p.select e overrides m).1 = .ok set) :
    (∀ v ∈ set.variants, ∀ k,
      v.attributes.get? k = (overrides.get? k).or (v.variant.attributes.get? k)) ∧
    (p.lenient = false → ∀ v ∈ set.variants, v.Retains) ∧
    (¬(h.request e overrides).FallsBack p m → ∀ v ∈ set.variants, v.Retains) ∧
    ((h.request e overrides).FallsBack p m →
      set.variants.map (·.variant) = h.configuration.variants.variants ∧
      ∀ v ∈ set.variants, ¬v.Retains) := by
  obtain ⟨l, chosen, rfl⟩ := resolve_eq_ok_iff.1 ok
  have kept (falls : ¬(h.request e overrides).FallsBack p m) :
      ∀ v ∈ ((h.request e overrides).resolved l).variants, v.Retains := by
    rcases p.admits_or_fallsBack _ m chosen with ⟨_, fit⟩ | ⟨fallen, _⟩
    · exact SelectionRequest.retains_of_admits _ fit
    · exact absurd fallen falls
  refine ⟨fun v hv k => ?_, fun strict => kept fun falls => ?_, kept, fun falls => ?_⟩
  · obtain ⟨w, _, rfl⟩ := List.mem_map.1 hv
    exact Attributes.get?_overlay _ _ k
  · exact Bool.eq_false_iff.1 strict falls.lenient
  · rcases p.admits_or_fallsBack _ m chosen with ⟨standing, _⟩ | ⟨_, rfl⟩
    · exact absurd falls standing
    · refine ⟨?_, SelectionRequest.not_retains_of_refuses _ falls.refused⟩
      rw [SelectionRequest.resolved, List.map_map]
      exact List.map_id _

def jsDocs : Attributes := .ofList [("target", "js"), ("usage", "docs")]

def wasm : Attributes := .ofList [("target", "wasm")]

/-- The sibling is selected as what it is, with a usage added; a lenient selection for `wasm` relabels
the declared variant, which is for `jvm`. -/
theorem Handle.resolve_retains_steady :
    let s := (Session.opened (Session.steady.component 0) none 0).run
      [.ask 0 .artifacts (Session.steadyVariant 0)]
    let main := Session.steadyHandle 0
    s.handle? 0 "main" = some main ∧
    ∃ set fallen,
      (main.resolve (Policy.select { lenient := false }) .nothing jsDocs s.memory).1 =
        .ok set ∧
      set.variants.map (·.variant.id) = ["test/js"] ∧ (∀ v ∈ set.variants, v.Retains) ∧
      (main.resolve (Policy.select { lenient := true }) .nothing wasm s.memory).1 =
        .ok fallen ∧
      (main.request .nothing wasm).FallsBack { lenient := true } s.memory ∧
      fallen.variants.map (·.variant.id) = ["main/jvm"] ∧ ∀ v ∈ fallen.variants, ¬v.Retains := by
  intro s main
  have refuses {set : VariantSet} (supply : (main.candidates s.memory).1 = .ok set) :
      set.Refuses wasm := by
    obtain rfl := Except.ok.inj supply
    decide
  have falls : (main.request .nothing wasm).FallsBack { lenient := true } s.memory :=
    ⟨rfl, rfl, rfl, ⟨_, rfl, (refuses rfl).not_shares⟩, by decide⟩
  obtain ⟨set, ok, ids⟩ : ∃ set,
      (main.resolve (Policy.select { lenient := false }) .nothing jsDocs s.memory).1 =
        .ok set ∧ set.variants.map (·.variant.id) = ["test/js"] := ⟨_, rfl, rfl⟩
  obtain ⟨fallen, ok', ids'⟩ : ∃ set,
      (main.resolve (Policy.select { lenient := true }) .nothing wasm s.memory).1 =
        .ok set ∧ set.variants.map (·.variant.id) = ["main/jvm"] := ⟨_, rfl, rfl⟩
  exact ⟨rfl, set, fallen, ok, ids, (main.resolve_retains _ ok).2.1 rfl, ok', falls, ids',
    ((main.resolve_retains _ ok').2.2.2 falls).2⟩

end ArtifactSelection
