import ArtifactSelection.Proofs.Session.Accounting
import ArtifactSelection.Proofs.Session.History

/-!
What an operation leaves alone. A request can put in one handle, that of the id it names, and keep
what its variant and the variants behind it are prepared to; candidates, and the selections that ask
for them, keep graph variants and no handle; a lookup, a copy and a selection that has nothing to
match keep nothing at all. So whatever is done with copies, a desk stays as it is, and what it
reports stays the same.
-/

namespace ArtifactSelection

namespace Handle

variable {e : Exclusion} {overrides : Attributes}

theorem reaches_resolve_policy (h : Handle) (p : Policy) (e : Exclusion) (overrides : Attributes)
    (m : Memory) :
    m.Reaches {v | v ∈ if e.excludesModule h.component.coordinate || overrides.isEmpty then []
      else h.component.graph.getD []} (h.resolve p.select e overrides m).2 := by
  have state := (p.state_select (h.request e overrides) ∅ m).trans
    (p.state_choose (h.request e overrides) m)
  suffices reached : m.Reaches _ (p.select (h.request e overrides) ∅ m).state from
    reached.noteAll _
  rw [state]
  change m.Reaches _ (if e.excludesModule h.component.coordinate || overrides.isEmpty then m
    else (h.candidates m).2)
  split
  · exact .refl m _
  · exact h.component.reaches_candidates h.configuration m

theorem resolve_of_idle (h : Handle) (p : Policy)
    (idle : (e.excludesModule h.component.coordinate || overrides.isEmpty) = true) (m m' : Memory) :
    (h.resolve p.select e overrides m).1 = (h.resolve p.select e overrides m').1 := by
  simp only [resolve, Policy.answer_select, Policy.chosen_eq, request]
  rcases Bool.or_eq_true_iff.1 idle with excluded | empty
  · rw [if_pos excluded, if_pos excluded]
  · rw [if_pos empty, if_pos empty]

theorem exists_candidates_of_resolve (h : Handle) (p : Policy) {m : Memory}
    (matching : (e.excludesModule h.component.coordinate || overrides.isEmpty) = false)
    {answer : ResolvedSet} (ok : (h.resolve p.select e overrides m).1 = .ok answer) :
    ∃ set, (h.candidates m).1 = .ok set := by
  obtain ⟨included, present⟩ := Bool.or_eq_false_iff.1 matching
  cases supply : (h.candidates m).1 with
  | ok set => exact ⟨set, rfl⟩
  | error f =>
    rw [h.resolve_of_error p included present supply] at ok
    cases ok

end Handle

namespace Operation

def desk : Operation → Nat
  | ask i _ _ | lookup i _ _ | resolve i _ _ _ _ | candidates i _ | prepare i _ | copy i _ _
  | reopen i _ => i

def ByPolicy : Operation → Prop
  | resolve _ _ selector _ _ => ∃ p : Policy, selector = p.selector
  | _ => True

end Operation

namespace Session

/-- What an operation may change: the handle of one id at one desk, and what is kept for some
variants, with those that they were copied from. -/
structure Footprint where
  handle : Option (Nat × String) := none
  variants : Set Variant := ∅

def variantsAt (s : Session) (i : Nat) (pick : Component → List Variant) : Set Variant :=
  {v | ∃ d, s.desks[i]? = some d ∧ v ∈ pick d.component}

def footprint (s : Session) : Operation → Footprint
  | .ask i _ v =>
    { handle := some (i, v.id), variants := s.variantsAt i fun c => (c.variant? v.id).toList }
  | .resolve i _ _ e overrides =>
    { variants := s.variantsAt i fun c =>
        if e.excludesModule c.coordinate || overrides.isEmpty then [] else c.graph.getD [] }
  | .candidates i _ => { variants := s.variantsAt i fun c => c.graph.getD [] }
  | .prepare i place => { variants := s.variantsAt i fun c => c.variants[place]?.toList }
  | .lookup _ _ _ | .copy _ _ _ | .reopen _ _ => {}

/-- Outside the footprint everything that was in one session is in another as it was. -/
structure AgreesOutside (s t : Session) (F : Footprint) : Prop where
  desk : ∀ {i : Nat} {d : Desk}, s.desks[i]? = some d → (∀ x, F.handle ≠ some (i, x)) →
    t.desks[i]? = some d
  handle : ∀ {i : Nat} {d : Desk} {x : String}, s.desks[i]? = some d → F.handle ≠ some (i, x) →
    ∃ d', t.desks[i]? = some d' ∧ d'.component = d.component ∧
      d'.handles.get? x = d.handles.get? x
  kept : ∀ {k}, (∀ v ∈ F.variants, ∀ w ∈ v.ancestry, w.key ≠ k) →
    t.memory.configuration? k = s.memory.configuration? k

namespace AgreesOutside

variable {s t : Session} {U : Set Variant}

theorem refl (s : Session) (F : Footprint) : s.AgreesOutside s F :=
  ⟨fun there _ => there, fun there _ => ⟨_, there, rfl, rfl⟩, fun _ => rfl⟩

theorem of_desks (desks : ∀ {i : Nat} {d : Desk}, s.desks[i]? = some d → t.desks[i]? = some d)
    (work : s.memory.Reaches U t.memory) : s.AgreesOutside t { variants := U } :=
  ⟨fun there _ => desks there, fun there _ => ⟨_, desks there, rfl, rfl⟩,
    fun apart => work.configuration?_of_ne apart⟩

end AgreesOutside

variable {s : Session} {i : Nat}

theorem agreesOutside_ask (s : Session) (i : Nat) (entry : Entry) (v : Variant) :
    s.AgreesOutside (s.ask i entry v) (s.footprint (.ask i entry v)) := by
  rw [ask]
  cases found : s.desks[i]? with
  | none => exact .refl s _
  | some d =>
    have step := d.requests v s.memory
    simp only [Desk.ask_eq_request]
    have bound : i < s.desks.length := (List.getElem?_eq_some_iff.1 found).1
    constructor
    · intro j e there other
      have elsewhere : i ≠ j := by
        rintro rfl
        exact other v.id rfl
      exact (List.getElem?_set_ne elsewhere).trans there
    · intro j e x there other
      by_cases here : i = j
      · subst here
        obtain rfl := Option.some.inj (found.symm.trans there)
        have otherId : x ≠ v.id := by
          rintro rfl
          exact other rfl
        exact ⟨_, List.getElem?_set_self bound, step.component, step.get?_of_ne otherId⟩
      · exact ⟨e, (List.getElem?_set_ne here).trans there, rfl, rfl⟩
    · intro k apart
      refine step.reaches.configuration?_of_ne fun own known => apart own ⟨d, found, ?_⟩
      exact Option.mem_toList.2 known

theorem unchanged_of_refused {entry : Entry} {v : Variant} {f : Failure}
    (refused : s.failure? (.ask i entry v) = some f) :
    (s.ask i entry v).desks = s.desks ∧
      ∀ k, (s.ask i entry v).memory.configuration? k = s.memory.configuration? k := by
  obtain ⟨d, found, fails⟩ := Option.bind_eq_some_iff.1 refused
  rw [Desk.ask_eq_request, refusal?_eq_some_iff] at fails
  have step := d.requests v s.memory
  rw [fails] at step
  obtain ⟨same, kept⟩ := step.unchanged_of_error
  have bound : i < s.desks.length := (List.getElem?_eq_some_iff.1 found).1
  have here : s.desks[i] = d := (List.getElem?_eq_some_iff.1 found).2
  constructor
  · simp only [ask, found, Desk.ask_eq_request, same]
    rw [← here, List.set_getElem_self]
  · intro k
    simpa [ask, found] using kept k

theorem agreesOutside_of_refused {entry : Entry} {v : Variant} {f : Failure}
    (refused : s.failure? (.ask i entry v) = some f) : s.AgreesOutside (s.ask i entry v) {} := by
  obtain ⟨desks, kept⟩ := unchanged_of_refused refused
  constructor
  · intro j e there _
    rw [desks, there]
  · intro j e x there _
    exact ⟨e, by rw [desks, there], rfl, rfl⟩
  · exact fun {k} _ => kept k

theorem agreesOutside_candidates (s : Session) (i : Nat) (own : Configuration) :
    s.AgreesOutside (s.candidates i own) (s.footprint (.candidates i own)) := by
  rw [candidates]
  cases found : s.desks[i]? with
  | none => exact .refl s _
  | some d =>
    refine .of_desks id ((d.component.reaches_candidates own s.memory).mono fun v hv => ?_)
    exact ⟨d, found, hv⟩

theorem agreesOutside_prepare (s : Session) (i place : Nat) :
    s.AgreesOutside (s.preparePlace i place) (s.footprint (.prepare i place)) := by
  rw [preparePlace]
  cases found : s.desks[i]?.bind (·.component.variants[place]?) with
  | none => exact .refl s _
  | some v =>
    obtain ⟨d, desk, here⟩ := Option.bind_eq_some_iff.1 found
    refine .of_desks id ((Memory.Reaches.refl s.memory _).prepare ?_)
    exact ⟨d, desk, Option.mem_toList.2 here⟩

theorem agreesOutside_resolve (faithful : ∀ d ∈ s.desks, d.Faithful s.memory) (i : Nat) (x : String)
    (p : Policy) (e : Exclusion) (overrides : Attributes) :
    s.AgreesOutside (s.resolve i x p.select e overrides)
      (s.footprint (.resolve i x p.selector e overrides)) := by
  rw [resolve]
  cases given : s.handle? i x with
  | none => exact .refl s _
  | some h =>
    obtain ⟨d, found, published⟩ := Option.bind_eq_some_iff.1 given
    obtain ⟨shared, held, rfl⟩ := Option.map_eq_some_iff.1 published
    have serves := faithful d (mem_of_desk? found) held
    refine .of_desks id ((shared.value.reaches_resolve_policy p e overrides s.memory).mono
      fun v hv => ⟨d, found, ?_⟩)
    rwa [← serves.component]

theorem agreesOutside_copy (s : Session) (i : Nat) (id : ComponentId) (f : Artifact → Artifact) :
    s.AgreesOutside (s.copy i id f) {} := by
  rw [copy]
  cases found : s.desks[i]? with
  | none => exact .refl s _
  | some d => exact .of_desks (fun there => desk?_append there _) ((Memory.Reaches.refl _ _).note _)

theorem agreesOutside_reopen (s : Session) (i : Nat) (settings : Option CacheSettings) :
    s.AgreesOutside (s.reopen i settings) {} := by
  rw [reopen]
  cases found : s.desks[i]? with
  | none => exact .refl s _
  | some d => exact .of_desks (fun there => desk?_append there _) (.refl _ _)

theorem agreesOutside_perform (faithful : ∀ d ∈ s.desks, d.Faithful s.memory) {o : Operation}
    (policy : o.ByPolicy) : s.AgreesOutside (s.perform o) (s.footprint o) := by
  cases o with
  | ask i entry v => exact agreesOutside_ask s i entry v
  | lookup => exact .refl s _
  | resolve i x selector e overrides =>
    obtain ⟨p, rfl⟩ := policy
    exact agreesOutside_resolve faithful i x p e overrides
  | candidates i own => exact agreesOutside_candidates s i own
  | prepare i place => exact agreesOutside_prepare s i place
  | copy i id f => exact agreesOutside_copy s i id f
  | reopen i settings => exact agreesOutside_reopen s i settings

theorem desk?_perform {o : Operation} (elsewhere : o.desk ≠ i) {d : Desk}
    (there : s.desks[i]? = some d) : (s.perform o).desks[i]? = some d := by
  cases o with
  | ask j entry v =>
    refine (agreesOutside_ask s j entry v).desk there fun x same => ?_
    cases same
    exact elsewhere rfl
  | lookup => exact there
  | resolve j x selector e overrides =>
    rw [perform, resolve]
    split <;> exact there
  | candidates j own => exact (agreesOutside_candidates s j own).desk there (by simp [footprint])
  | prepare j place => exact (agreesOutside_prepare s j place).desk there (by simp [footprint])
  | copy j id f => exact (agreesOutside_copy s j id f).desk there (by simp)
  | reopen j settings => exact (agreesOutside_reopen s j settings).desk there (by simp)

theorem desk?_run {l : List Operation} (elsewhere : ∀ o ∈ l, o.desk ≠ i) {d : Desk}
    (there : s.desks[i]? = some d) : (s.run l).desks[i]? = some d := by
  induction l generalizing s with
  | nil => exact there
  | cons o l ih =>
    exact ih (fun x hx => elsewhere x (List.mem_cons_of_mem o hx))
      (desk?_perform (elsewhere o List.mem_cons_self) there)

variable {c : Component} {own : Configuration} {set : VariantSet}

theorem Sound.ready_of_candidates (sound : s.Sound) (served : ∃ d ∈ s.desks, d.component = c)
    (supply : (c.candidates own s.memory).1 = .ok set) :
    ∀ v ∈ c.graph.getD [], v ∈ s.ancestry ∧ v.Ready s.memory := by
  obtain ⟨d, hd, rfl⟩ := served
  have held : ∀ v ∈ d.component.graph.getD [], v ∈ s.ancestry := fun v hv =>
    mem_ancestry hd (d.component.graph_subset_variants hv)
  have ready := Component.ready_of_candidates sound.family held sound.right supply
  exact fun v hv => ⟨held v hv, ready v hv⟩

theorem Sound.offers (sound : s.Sound) (served : ∃ d ∈ s.desks, d.component = c)
    (supply : (c.candidates own s.memory).1 = .ok set) : c.Offers own set := by
  have graph := sound.ready_of_candidates served supply
  obtain ⟨set', supply', offers⟩ := Component.offers_candidates sound.family
    (fun v hv => (graph v hv).1) sound.right (fun v hv => (graph v hv).2) own
  obtain rfl := Except.ok.inj (supply.symm.trans supply')
  exact offers

variable {h : Handle} {answer : ResolvedSet}

/-- A selection that found its artifacts finds the same ones later on. -/
theorem Sound.resolve_later {t : Session} (sound : s.Sound) (later : t.Sound) (grows : s.Grows t)
    {d : Desk} (found : s.desks[i]? = some d) (component : d.component = h.component) (p : Policy)
    (e : Exclusion) (overrides : Attributes)
    (ok : (h.resolve p.select e overrides s.memory).1 = .ok answer) :
    (h.resolve p.select e overrides t.memory).1 = .ok answer := by
  cases idle : e.excludesModule h.component.coordinate || overrides.isEmpty with
  | true => rwa [h.resolve_of_idle p idle t.memory s.memory]
  | false =>
    obtain ⟨set, supply⟩ := h.exists_candidates_of_resolve p idle ok
    have graph := sound.ready_of_candidates ⟨d, mem_of_desk? found, component⟩ supply
    rw [← component] at graph
    obtain ⟨d', found', same, _⟩ := grows.desks found
    have supplies := sound.supplies_unique later found found' same component.symm
      (fun v hv => (graph v hv).2) fun v hv => grows.ready later (graph v hv).1 (graph v hv).2
    rwa [h.resolve_congr supplies.symm p e overrides]

theorem Sound.resolve_unique {a b : Session} (soundA : a.Sound) (soundB : b.Sound)
    (servedA : ∃ d ∈ a.desks, d.component = h.component)
    (servedB : ∃ d ∈ b.desks, d.component = h.component) (p : Policy) (e : Exclusion)
    (overrides : Attributes) {answer' : ResolvedSet}
    (ok : (h.resolve p.select e overrides a.memory).1 = .ok answer)
    (ok' : (h.resolve p.select e overrides b.memory).1 = .ok answer') : answer' = answer := by
  have same : (h.resolve p.select e overrides b.memory).1 =
      (h.resolve p.select e overrides a.memory).1 := by
    cases idle : e.excludesModule h.component.coordinate || overrides.isEmpty with
    | true => exact h.resolve_of_idle p idle b.memory a.memory
    | false =>
      obtain ⟨set, supply⟩ := h.exists_candidates_of_resolve p idle ok
      obtain ⟨set', supply'⟩ := h.exists_candidates_of_resolve p idle ok'
      obtain rfl := (soundA.offers servedA supply).unique (soundB.offers servedB supply')
      exact h.resolve_congr (supply'.trans supply.symm) p e overrides
  exact Except.ok.inj (ok'.symm.trans (same.trans ok))

/-- Wherever work on a component and its copies has led, an operation changes what is in its
footprint at most, and a request that fails changes nothing. So work at other desks, those of copies
among them, leaves a desk as it is: its handles and their number, and what its selections find. What
the desk reports in times to come, handles, selections and candidates, does not tell of such work
either. -/
theorem run_frame {c : Component} {n : Nat} (numbered : c.Numbered n)
    (settings : Option CacheSettings) (work : List Operation) :
    let s := (opened c settings n).run work
    (∀ o, o.ByPolicy → s.AgreesOutside (s.perform o) (s.footprint o)) ∧
    (∀ i entry v f, s.failure? (.ask i entry v) = some f →
      s.AgreesOutside (s.perform (.ask i entry v)) {}) ∧
    ∀ i d elsewhere, s.desks[i]? = some d → (∀ o ∈ elsewhere, o.desk ≠ i) →
      let t := s.run elsewhere
      t.desks[i]? = some d ∧
      (∀ x h, s.handle? i x = some h → t.handle? i x = some h ∧
        ∀ p e overrides answer, (h.resolve (Policy.select p) e overrides s.memory).1 = .ok answer →
          (h.resolve p.select e overrides t.memory).1 = .ok answer) ∧
      ∀ first second,
        let a := s.run first
        let b := t.run second
        (∀ x h g, a.handle? i x = some h → b.handle? i x = some g → g = h ∧
          ∀ p e overrides l l', (h.resolve (Policy.select p) e overrides a.memory).1 = .ok l →
            (g.resolve p.select e overrides b.memory).1 = .ok l' → l' = l) ∧
        ∀ own set set', (d.component.candidates own a.memory).1 = .ok set →
          (d.component.candidates own b.memory).1 = .ok set' → set' = set := by
  intro s
  obtain ⟨sound, _⟩ := (sound_opened numbered settings).run work
  refine ⟨fun o policy => agreesOutside_perform sound.faithful policy,
    fun i entry v f refused => agreesOutside_of_refused refused, ?_⟩
  intro i d elsewhere found apart t
  obtain ⟨soundT, grows⟩ := sound.run elsewhere
  have there : t.desks[i]? = some d := desk?_run apart found
  refine ⟨there, fun x h given => ⟨grows.handle? given, fun p e overrides answer ok => ?_⟩, ?_⟩
  · exact sound.resolve_later soundT grows found (sound.serves found given).component.symm p e
      overrides ok
  · intro first second a b
    obtain ⟨soundA, growsA⟩ := sound.run first
    obtain ⟨soundB, growsB⟩ := soundT.run second
    obtain ⟨_, deskA, sameA, _⟩ := growsA.desks found
    obtain ⟨_, deskB, sameB, _⟩ := growsB.desks there
    have servedA : ∃ e ∈ a.desks, e.component = d.component := ⟨_, mem_of_desk? deskA, sameA⟩
    have servedB : ∃ e ∈ b.desks, e.component = d.component := ⟨_, mem_of_desk? deskB, sameB⟩
    refine ⟨fun x h g given given' => ?_, fun own set set' supply supply' => ?_⟩
    · obtain rfl := soundA.handle_unique soundB deskA deskB (sameB.trans sameA.symm) given given'
      have component := (soundA.serves deskA given).component.trans sameA
      refine ⟨rfl, fun p e overrides l l' ok ok' => ?_⟩
      rw [← component] at servedA servedB
      exact soundA.resolve_unique soundB servedA servedB p e overrides ok ok'
    · exact ((soundA.offers servedA supply).unique (soundB.offers servedB supply')).symm

/-- A copy is asked for twice, and the first request fails. -/
theorem run_frame_retried :
    let s := (opened (retriedSketch.component 0) none 0).run [.copy 0 (.project ":" ":copy") moved]
    let o := Operation.ask 1 .handle namesake
    (retriedSketch.component 0).Numbered 0 ∧
    (∃ f, s.failure? o = some f) ∧ s.AgreesOutside (s.perform o) {} ∧
    ∃ d, s.desks[0]? = some d ∧ (s.run [o, o]).desks[0]? = some d := by
  intro s o
  have numbered := retriedSketch.numbered_component 0 0
  obtain ⟨_, refused, elsewhere⟩ :=
    run_frame numbered none [.copy 0 (.project ":" ":copy") moved]
  refine ⟨numbered, ⟨_, rfl⟩, refused 1 .handle namesake _ rfl, _, rfl, ?_⟩
  exact (elsewhere 0 _ [o, o] rfl (by simp [o, Operation.desk])).1

end Session

end ArtifactSelection
