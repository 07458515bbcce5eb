import ArtifactSelection.Proofs.Copy.Simulation

/-!
Selections and what came before them. When no strategy ever fails, a memory decides which events a
selection leaves behind and nothing more: the handle of an id is the same in every history of a
component, and a selection with it has one answer.
-/

namespace ArtifactSelection

/-- Every attempt at the strategy behind the variant succeeds. -/
def Variant.Unfailing : Variant → Prop
  | original _ _ strategy => ∀ i, ∃ c, strategy i = .ok c
  | copied _ _ source => source.Unfailing

theorem Variant.Prepares.not_unfailing {v : Variant} {m m' : Memory} {e : Failure}
    (h : v.Prepares m (.error e) m') : ¬v.Unfailing := by
  generalize outcome : Except.error e = r at h
  induction h generalizing e with
  | @failed o l s m e _ fails =>
    intro unfailing
    obtain ⟨c, ok⟩ := unfailing (m.attempts o)
    cases ok.symm.trans fails
  | sourceFailed _ _ ih => exact ih rfl
  | _ => cases outcome

theorem Variant.Unfailing.ready {v : Variant} (unfailing : v.Unfailing) (m : Memory) :
    v.Ready m := by
  have outcome := v.prepares m
  cases answer : (v.prepare m).1 with
  | ok c => exact ⟨c, answer⟩
  | error e =>
    rw [answer] at outcome
    exact absurd unfailing outcome.not_unfailing

theorem Variant.Unfailing.of_ancestry {v w : Variant} (unfailing : v.Unfailing)
    (below : w ∈ v.ancestry) : w.Unfailing := by
  induction v with
  | original =>
    obtain rfl := List.mem_singleton.1 below
    exact unfailing
  | copied k f v ih =>
    rcases List.mem_cons.1 below with rfl | below
    · exact unfailing
    · exact ih unfailing below

theorem Sketch.unfailing_component {s : Sketch} (none : ∀ c ∈ s.configurations, c.failures = 0)
    (number : Nat) : ∀ v ∈ (s.component number).variants, v.Unfailing := by
  intro v hv
  obtain ⟨_, c, found, rfl⟩ := eq_original_of_mem hv
  intro i
  refine ⟨c.configuration s.id, ?_⟩
  simp [ConfigurationSketch.strategy, Strategy.after, none c (List.mem_of_getElem? found)]

theorem Handle.resolve_congr {h : Handle} {m m' : Memory}
    (supply : (h.candidates m).1 = (h.candidates m').1) (p : Policy) (e : Exclusion)
    (overrides : Attributes) :
    (h.resolve p.select e overrides m).1 = (h.resolve p.select e overrides m').1 := by
  have same : ((h.request e overrides).candidates m).1 =
      ((h.request e overrides).candidates m').1 := supply
  simp only [resolve, Policy.answer_select, Policy.chosen_eq, same]

theorem Handle.resolve_eq_ok_iff {h : Handle} {p : Policy} {e : Exclusion} {overrides : Attributes}
    {m : Memory} {set : ResolvedSet} :
    (h.resolve p.select e overrides m).1 = .ok set ↔
      ∃ l, (p.choose (h.request e overrides) m).1 = .ok l ∧
        (h.request e overrides).resolved l = set := by
  rw [resolve, p.answer_select]
  cases (p.choose (h.request e overrides) m).1 <;> simp [Except.map]

namespace Session

theorem Performs.unfailing {s t : Session} (step : s.Performs t)
    (unfailing : ∀ v ∈ s.ancestry, v.Unfailing) : ∀ v ∈ t.ancestry, v.Unfailing := by
  cases step with
  | idle => exact unfailing
  | asked found step =>
    rw [ancestry_eq_of_components (components_set found step.component)]
    exact unfailing
  | worked => exact unfailing
  | copied id f hd =>
    intro v hv
    rcases mem_ancestry_withCopy hd hv with ⟨w, hw, rfl⟩ | before
    · exact unfailing w hw
    · exact unfailing v before
  | @reopened d settings hd =>
    rw [ancestry_append]
    rintro v (hv | hv)
    · exact unfailing v hv
    · exact unfailing v ⟨d, hd, hv⟩

theorem unfailing_run {c : Component} {n : Nat} (numbered : c.Numbered n)
    (unfailing : ∀ v ∈ c.variants, v.Unfailing) (settings : Option CacheSettings)
    (l : List Operation) : ∀ v ∈ ((opened c settings n).run l).ancestry, v.Unfailing := by
  have family : ∀ v ∈ (opened c settings n).ancestry, v.Unfailing := by
    rintro v ⟨d, hd, u, hu, below⟩
    obtain rfl := List.mem_singleton.1 hd
    exact (unfailing u hu).of_ancestry below
  have sound := sound_opened numbered settings
  generalize opened c settings n = s at family sound
  induction l generalizing s with
  | nil => exact family
  | cons o l ih =>
    have step := performs sound.faithful o
    exact ih _ (step.unfailing family) (step.sound sound)

theorem mem_ancestry_run {c : Component} {n : Nat} (numbered : c.Numbered n)
    (settings : Option CacheSettings) (l : List Operation) {v : Variant} (hv : v ∈ c.variants) :
    v ∈ ((opened c settings n).run l).ancestry :=
  ((sound_opened numbered settings).run l).2.ancestry v
    (mem_ancestry (mem_of_desk? (i := 0) rfl) hv)

theorem answer_prepare_run {c : Component} {n : Nat} (numbered : c.Numbered n)
    (settings : Option CacheSettings) (l : List Operation) {v : Variant} (hv : v ∈ c.variants)
    (unfailing : v.Unfailing) {b : Configuration} (settles : v.Settles b) :
    (v.prepare ((opened c settings n).run l).memory).1 = .ok b := by
  have sound := ((sound_opened numbered settings).run l).1
  exact (unfailing.ready _).answer_prepare sound.family sound.right
    (mem_ancestry_run numbered settings l hv) settles

variable {a b : Session} {i j : Nat} {d e : Desk}

/-- Desks for one component give out one handle for an id, whatever was prepared first. -/
theorem Sound.handle_unique (soundA : a.Sound) (soundB : b.Sound) (here : a.desks[i]? = some d)
    (there : b.desks[j]? = some e) (same : e.component = d.component) {x : String} {h g : Handle}
    (given : a.handle? i x = some h) (given' : b.handle? j x = some g) : h = g := by
  have serves := soundA.serves here given
  have serves' := soundB.serves there given'
  have settles := soundA.settles_handle here given
  have settles' := soundB.settles_handle there given'
  have variant : h.variant = g.variant := by
    have own := serves'.own
    rw [same, serves.own] at own
    exact Option.some.inj own
  rw [variant] at settles
  have configuration := settles.unique settles'
  have component := serves.component.trans (same.symm.trans serves'.component.symm)
  cases h
  cases g
  simp_all

theorem Sound.supplies_unique (soundA : a.Sound) (soundB : b.Sound) (here : a.desks[i]? = some d)
    (there : b.desks[j]? = some e) (same : e.component = d.component) {h : Handle}
    (component : h.component = d.component)
    (readyA : ∀ v ∈ d.component.graph.getD [], v.Ready a.memory)
    (readyB : ∀ v ∈ d.component.graph.getD [], v.Ready b.memory) :
    (h.candidates a.memory).1 = (h.candidates b.memory).1 := by
  obtain ⟨set, supply, offers⟩ := soundA.supplies (mem_of_desk? here) component readyA
  obtain ⟨set', supply', offers'⟩ := soundB.supplies (mem_of_desk? there)
    (component.trans same.symm) (same.symm ▸ readyB)
  rw [supply, supply', offers.unique offers']

/-- Two histories of a component whose strategies never fail, free to differ in all that is asked
for, selected, prepared and copied, and two desks for one component in them. Each of its variants
can be asked for at both; a selection answers the same at both. -/
theorem select_independent {c : Component} {n : Nat} (numbered : c.Numbered n)
    (unfailing : ∀ v ∈ c.variants, v.Unfailing) (settings settings' : Option CacheSettings)
    (first second : List Operation) :
    let a := (opened c settings n).run first
    let b := (opened c settings' n).run second
    ∀ i j d e, a.desks[i]? = some d → b.desks[j]? = some e → e.component = d.component →
      (∀ w entry, (d.component.variant? w.id).isSome →
        (∃ h, (a.ask i entry w).handle? i w.id = some h) ∧
        ∃ g, (b.ask j entry w).handle? j w.id = some g) ∧
      ∀ x h g, a.handle? i x = some h → b.handle? j x = some g →
        ∀ p exclusion overrides,
          (h.resolve (Policy.select p) exclusion overrides a.memory).1 =
            (g.resolve p.select exclusion overrides b.memory).1 := by
  intro a b i j d e here there same
  have soundA := ((sound_opened numbered settings).run first).1
  have soundB := ((sound_opened numbered settings').run second).1
  have readyA : ∀ v ∈ d.component.variants, v.Ready a.memory := fun v hv =>
    (unfailing_run numbered unfailing settings first v (mem_ancestry (mem_of_desk? here) hv)).ready _
  have readyB : ∀ v ∈ e.component.variants, v.Ready b.memory := fun v hv =>
    (unfailing_run numbered unfailing settings' second v
      (mem_ancestry (mem_of_desk? there) hv)).ready _
  rw [same] at readyB
  refine ⟨fun w entry known => ?_, fun x h g given given' p exclusion overrides => ?_⟩
  · obtain ⟨v, own⟩ := Option.isSome_iff_exists.1 known
    have listed := Component.mem_variants_of_variant? own
    exact ⟨soundA.handle?_ask here own (readyA v listed) entry,
      soundB.handle?_ask there (same ▸ own) (readyB v listed) entry⟩
  · obtain rfl := soundA.handle_unique soundB here there same given given'
    refine h.resolve_congr ?_ p exclusion overrides
    exact soundA.supplies_unique soundB here there same (soundA.serves here given).component
      (fun v hv => readyA v (d.component.graph_subset_variants hv))
      fun v hv => readyB v (d.component.graph_subset_variants hv)

def steady : Sketch where
  projectPath := ":lib"
  configurations :=
    [{ name := "main"
       variants := [{ name := "jvm", attributes := [("target", "jvm")], artifacts := [.jar "jvm"] }] },
      { name := "test"
        variants :=
          [{ name := "js", attributes := [("target", "js")], artifacts := [.jar "js"] }] }]
  graph := some ["main", "test"]

def steadyVariant (i : Fin 2) : Variant :=
  let c := steady.configurations[i]
  .original ⟨0, i⟩ ⟨c.name, c.name, .ofList c.attributes⟩ (c.strategy steady.id)

def steadyHandle (i : Fin 2) : Handle where
  component := steady.component 0
  variant := steadyVariant i
  configuration := steady.configurations[i].configuration steady.id

def js : Attributes := .ofList [("target", "js")]

def busyWork : List Operation :=
  [.copy 0 (.project ":" ":copy") moved, .prepare 1 1, .ask 0 .artifacts (steadyVariant 1),
    .resolve 0 "test" (Policy.selector { lenient := true }) .nothing js,
    .ask 0 .handle (steadyVariant 0)]

theorem select_independent_steady :
    let a := (opened (steady.component 0) none 0).run [.ask 0 .artifacts (steadyVariant 0)]
    let b := (opened (steady.component 0) none 0).run busyWork
    (steady.component 0).Numbered 0 ∧ (∀ v ∈ (steady.component 0).variants, v.Unfailing) ∧
    ∃ h g, a.handle? 0 "main" = some h ∧ b.handle? 0 "main" = some g ∧
      (h.resolve (Policy.select {}) .nothing js a.memory).1 =
        (g.resolve (Policy.select {}) .nothing js b.memory).1 := by
  intro a b
  have numbered := steady.numbered_component 0 0
  have unfailing := steady.unfailing_component (by decide) 0
  obtain ⟨_, answers⟩ := select_independent numbered unfailing none none
    [.ask 0 .artifacts (steadyVariant 0)] busyWork 0 0 _ _ rfl rfl rfl
  exact ⟨numbered, unfailing, _, _, rfl, rfl, answers "main" _ _ rfl rfl {} .nothing js⟩

end Session

end ArtifactSelection
