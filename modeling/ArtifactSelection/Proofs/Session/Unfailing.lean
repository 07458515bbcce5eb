import ArtifactSelection.Proofs.Session.Frame

/-!
What can be refused where no strategy fails. Preparations and candidates always succeed then, so a
request is refused only for an id that the component does not know, a lookup only for a name that no
artifact has, and a selection by a policy only for want of a match.
-/

namespace ArtifactSelection

theorem Variant.prepareAll_of_unfailing {l : List Variant} (unfailing : ∀ v ∈ l, v.Unfailing)
    (m : Memory) : ∃ cs, (prepareAll l m).1 = .ok cs := by
  induction l generalizing m with
  | nil => exact ⟨[], rfl⟩
  | cons v l ih =>
    obtain ⟨first, unfailing⟩ := List.forall_mem_cons.1 unfailing
    obtain ⟨c, m', h⟩ := (first.ready m).prepares
    obtain ⟨cs, rest⟩ := ih unfailing m'
    refine ⟨c :: cs, ?_⟩
    rw [answer_prepareAll_cons, h.prepare_eq]
    simp [Except.bind, rest, Except.map]

theorem Component.candidates_of_unfailing {c : Component}
    (unfailing : ∀ v ∈ c.graph.getD [], v.Unfailing) (own : Configuration) (m : Memory) :
    ∃ set, (c.candidates own m).1 = .ok set := by
  cases graph : c.graph with
  | none => exact ⟨_, by rw [candidates, graph]⟩
  | some l =>
    rw [graph, Option.getD_some] at unfailing
    obtain ⟨cs, all⟩ := Variant.prepareAll_of_unfailing unfailing m
    refine ⟨join cs, ?_⟩
    rw [answer_candidates graph, all]
    rfl

theorem Desk.request_eq_error_iff {d : Desk} (unfailing : ∀ w ∈ d.component.variants, w.Unfailing)
    (v : Variant) (m : Memory) {f : Failure} :
    (d.request v m).1 = .error f ↔
      d.component.variant? v.id = none ∧ f = .unknownVariant (toString d.component.id) v.id := by
  have step := d.requests v m
  rcases outcome : d.request v m with ⟨answer, d', m'⟩
  rw [outcome] at step
  dsimp only at step
  cases step with
  | unknown none => simp [none, eq_comm]
  | reused known => simp [known]
  | published known => simp [known]
  | failed known _ fails =>
    exact absurd (unfailing _ (Component.mem_variants_of_variant? known)) fails.not_unfailing

namespace Handle

theorem lookup_eq_error_iff (h : Handle) (name : ArtifactName) {f : Failure} :
    h.lookup name = .error f ↔
      (∀ a ∈ h.artifacts, a.name ≠ name) ∧ f = .artifactNotFound h.variant.id (toString name) := by
  have absent : h.configuration.artifact? name = none ↔ ∀ a ∈ h.artifacts, a.name ≠ name := by
    simp [Configuration.artifact?, artifacts]
  rw [← absent, lookup]
  cases h.configuration.artifact? name <;> simp [eq_comm]

/-- Of the candidates, and of the declared variants where they count, none is selected. -/
structure Unmatched (h : Handle) (p : Policy) (e : Exclusion) (overrides : Attributes)
    (set : VariantSet) : Prop where
  strict : p.lenient = false
  included : e.excludesModule h.component.coordinate = false
  present : overrides.isEmpty = false
  none : set.bestMatches h.configuration.variants overrides = []

theorem resolve_eq_error_iff (h : Handle) {m : Memory} {set : VariantSet}
    (supply : (h.candidates m).1 = .ok set) (p : Policy) (e : Exclusion) (overrides : Attributes)
    {f : Failure} :
    (h.resolve p.select e overrides m).1 = .error f ↔ h.Unmatched p e overrides set ∧
      f = .noMatchingVariant (toString h.component.id) (toString overrides) := by
  have supply : ((h.request e overrides).candidates m).1 = .ok set := supply
  simp only [resolve, Policy.answer_select, Policy.chosen_eq, supply, Except.bind, Policy.settle_eq]
  constructor
  · intro fails
    split at fails
    · cases fails
    · next included =>
      split at fails
      · cases fails
      · next present =>
        split at fails
        · cases fails
        · next none =>
          split at fails
          · cases fails
          · next strict =>
            exact ⟨⟨Bool.eq_false_iff.2 strict, Bool.eq_false_iff.2 included,
              Bool.eq_false_iff.2 present, Classical.not_not.1 none⟩, (Except.error.inj fails).symm⟩
  · rintro ⟨⟨strict, included, present, none⟩, rfl⟩
    simp [request, strict, included, present, none, Except.map]

end Handle

namespace Session

/-- The refusals of a session in which no strategy fails. -/
inductive Declines (s : Session) : Operation → Failure → Prop
  | unknown {i : Nat} {d : Desk} (entry : Entry) {v : Variant} : s.desks[i]? = some d →
      d.component.variant? v.id = none →
      Declines s (.ask i entry v) (.unknownVariant (toString d.component.id) v.id)
  | absent {i : Nat} {x : String} {h : Handle} {name : ArtifactName} : s.handle? i x = some h →
      (∀ a ∈ h.artifacts, a.name ≠ name) →
      Declines s (.lookup i x name) (.artifactNotFound h.variant.id (toString name))
  | unmatched {i : Nat} {x : String} {h : Handle} {p : Policy} {e : Exclusion}
      {overrides : Attributes} {set : VariantSet} : s.handle? i x = some h →
      (h.candidates s.memory).1 = .ok set → h.Unmatched p e overrides set →
      Declines s (.resolve i x p.selector e overrides)
        (.noMatchingVariant (toString h.component.id) (toString overrides))

variable {s t : Session}

theorem unfailing_of_desk? (unfailing : ∀ v ∈ s.ancestry, v.Unfailing) {i : Nat} {d : Desk}
    (found : s.desks[i]? = some d) : ∀ v ∈ d.component.variants, v.Unfailing :=
  fun v hv => unfailing v (mem_ancestry (mem_of_desk? found) hv)

theorem Sound.supplies_of_unfailing (sound : s.Sound) (unfailing : ∀ v ∈ s.ancestry, v.Unfailing)
    {i : Nat} {x : String} {h : Handle} (given : s.handle? i x = some h) (m : Memory) :
    ∃ set, (h.candidates m).1 = .ok set := by
  obtain ⟨d, found, _⟩ := Option.bind_eq_some_iff.1 given
  refine Component.candidates_of_unfailing (fun v hv => ?_) h.configuration m
  rw [(sound.serves found given).component] at hv
  exact unfailing_of_desk? unfailing found v (d.component.graph_subset_variants hv)

theorem Declines.failure? (unfailing : ∀ v ∈ s.ancestry, v.Unfailing) {o : Operation} {f : Failure}
    (declines : s.Declines o f) : s.failure? o = some f := by
  cases declines with
  | @unknown i d entry v found none =>
    have fails := (d.request_eq_error_iff (unfailing_of_desk? unfailing found) v s.memory).2
      ⟨none, rfl⟩
    simp [Session.failure?, found, fails, refusal?]
  | @absent i x h name given none =>
    have fails := (h.lookup_eq_error_iff name).2 ⟨none, rfl⟩
    simp [Session.failure?, given, fails, refusal?]
  | @unmatched i x h p e overrides set given supply none =>
    have fails := (h.resolve_eq_error_iff supply p e overrides).2 ⟨none, rfl⟩
    simp [Session.failure?, Policy.selector, given, fails, refusal?]

/-- Where no strategy fails, these are the only refusals. -/
theorem Sound.failure?_eq_some_iff (sound : s.Sound) (unfailing : ∀ v ∈ s.ancestry, v.Unfailing)
    {o : Operation} (policy : o.ByPolicy) {f : Failure} :
    s.failure? o = some f ↔ s.Declines o f := by
  refine ⟨fun fails => ?_, fun declines => declines.failure? unfailing⟩
  cases o with
  | ask i entry v =>
    obtain ⟨d, found, fails⟩ := Option.bind_eq_some_iff.1 fails
    rw [Desk.ask_eq_request, refusal?_eq_some_iff,
      d.request_eq_error_iff (unfailing_of_desk? unfailing found)] at fails
    obtain ⟨none, rfl⟩ := fails
    exact .unknown entry found none
  | lookup i x name =>
    obtain ⟨h, given, fails⟩ := Option.bind_eq_some_iff.1 fails
    rw [refusal?_eq_some_iff, h.lookup_eq_error_iff] at fails
    obtain ⟨none, rfl⟩ := fails
    exact .absent given none
  | resolve i x selector e overrides =>
    obtain ⟨p, rfl⟩ := policy
    obtain ⟨h, given, fails⟩ := Option.bind_eq_some_iff.1 fails
    obtain ⟨set, supply⟩ := sound.supplies_of_unfailing unfailing given s.memory
    rw [refusal?_eq_some_iff] at fails
    obtain ⟨none, rfl⟩ := (h.resolve_eq_error_iff supply p e overrides).1 fails
    exact .unmatched given supply none
  | candidates i own =>
    obtain ⟨d, found, fails⟩ := Option.bind_eq_some_iff.1 fails
    rw [refusal?_eq_some_iff] at fails
    obtain ⟨set, supply⟩ := Component.candidates_of_unfailing (fun v hv =>
      unfailing_of_desk? unfailing found v (d.component.graph_subset_variants hv)) own s.memory
    cases supply.symm.trans fails
  | prepare i place =>
    obtain ⟨v, found, fails⟩ := Option.bind_eq_some_iff.1 fails
    obtain ⟨d, desk, here⟩ := Option.bind_eq_some_iff.1 found
    rw [refusal?_eq_some_iff] at fails
    obtain ⟨c, ready⟩ := (unfailing_of_desk? unfailing desk v (List.mem_of_getElem? here)).ready
      s.memory
    cases ready.symm.trans fails
  | copy => cases fails
  | reopen => cases fails

variable {P : Component → Prop}

theorem Performs.forall_component (copies : ∀ c k id f, P c → P (c.copy k id f))
    (step : s.Performs t) (all : ∀ d ∈ s.desks, P d.component) : ∀ d ∈ t.desks, P d.component := by
  cases step with
  | idle => exact all
  | @asked i d d' _ _ _ found step =>
    intro e he
    rcases List.mem_or_eq_of_mem_set he with earlier | rfl
    · exact all e earlier
    · rw [step.component]
      exact all d (mem_of_desk? found)
  | worked => exact all
  | copied id f hd =>
    exact List.forall_mem_append.2 ⟨all, List.forall_mem_singleton.2 (copies _ _ id f (all _ hd))⟩
  | @reopened d settings hd =>
    have same : P (Desk.opened d.component settings).component := all d hd
    exact List.forall_mem_append.2 ⟨all, List.forall_mem_singleton.2 same⟩

theorem Sound.forall_component_run (sound : s.Sound) (copies : ∀ c k id f, P c → P (c.copy k id f))
    (all : ∀ d ∈ s.desks, P d.component) (l : List Operation) :
    ∀ d ∈ (s.run l).desks, P d.component := by
  induction l generalizing s with
  | nil => exact all
  | cons o l ih =>
    have step := performs sound.faithful o
    exact ih (step.sound sound) (step.forall_component copies all)

end Session

end ArtifactSelection
