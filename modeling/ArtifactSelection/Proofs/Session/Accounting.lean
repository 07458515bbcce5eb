import ArtifactSelection.Proofs.Copy.Simulation
import ArtifactSelection.Proofs.Preparation.Debt

/-!
Failing selections, counted. Whoever asks for the candidates of a component pays for its graph
variants: a call fails at the first of them that owes a failure, and pays that one off. So as many
calls fail as there are failures owed, and none after that; no handle comes or goes on the way.
-/

namespace ArtifactSelection

namespace Memory

@[simp] theorem configuration?_noteAll (m : Memory) (l : List Event) (k : VariantKey) :
    (m.noteAll l).configuration? k = m.configuration? k := by
  induction l generalizing m with
  | nil => rfl
  | cons e l ih => exact ih (m.note e)

@[simp] theorem attempts_noteAll (m : Memory) (l : List Event) (o : Origin) :
    (m.noteAll l).attempts o = m.attempts o := by
  induction l generalizing m with
  | nil => rfl
  | cons e l ih => exact ih (m.note e)

end Memory

theorem Variant.Halts.noteAll {before : List Variant} {v : Variant} {m m' : Memory}
    (halts : Halts before v m m') (l : List Event) : Halts before v m (m'.noteAll l) := by
  obtain ⟨prepared, unchanged, failed, succeeded⟩ := halts
  constructor <;> simpa [Memory.isPrepared]

namespace Handle

variable {m : Memory} {e : Exclusion} {overrides : Attributes}

theorem memory_resolve (h : Handle) (p : Policy)
    (included : e.excludesModule h.component.coordinate = false)
    (present : overrides.isEmpty = false) :
    (h.resolve p.select e overrides m).2 =
      (h.candidates m).2.noteAll (p.select (h.request e overrides) ∅ m).events := by
  have state : (p.select (h.request e overrides) ∅ m).state = (h.candidates m).2 := by
    rw [p.state_select, p.state_choose]
    simp [request, included, present]
  rw [← state]
  rfl

theorem resolve_of_error (h : Handle) (p : Policy)
    (included : e.excludesModule h.component.coordinate = false)
    (present : overrides.isEmpty = false) {f : Failure} (fails : (h.candidates m).1 = .error f) :
    (h.resolve p.select e overrides m).1 = .error f := by
  have answer := p.answer_of_candidates (r := h.request e overrides) (s := m) included present
  rw [resolve, answer]
  simp [request, fails, Except.bind]

theorem resolve_of_ok (h : Handle) (p : Policy)
    (included : e.excludesModule h.component.coordinate = false)
    (present : overrides.isEmpty = false) {set : VariantSet} (supply : (h.candidates m).1 = .ok set)
    {f : Failure} (fails : (h.resolve p.select e overrides m).1 = .error f) :
    ∃ owner requested, f = .noMatchingVariant owner requested := by
  have answer := p.answer_of_candidates (r := h.request e overrides) (s := m) included present
  rw [resolve, answer] at fails
  simp only [request, supply, Except.bind, Policy.settle_eq] at fails
  split at fails
  · cases fails
  · split at fails
    · cases fails
    · exact ⟨_, _, (Except.error.inj fails).symm⟩

end Handle

def refusal? {α : Type} : Except Failure α → Option Failure
  | .ok _ => none
  | .error e => some e

theorem refusal?_eq_some_iff {α : Type} {r : Except Failure α} {e : Failure} :
    refusal? r = some e ↔ r = .error e := by
  cases r <;> simp [refusal?]

namespace Session

def failure? (s : Session) : Operation → Option Failure
  | .ask i entry v => s.desks[i]?.bind fun d => refusal? (d.ask entry v s.memory).1
  | .lookup i x name => (s.handle? i x).bind fun h => refusal? (h.lookup name)
  | .resolve i x selector e overrides =>
    (s.handle? i x).bind fun h =>
      refusal? (h.resolve selector.select e overrides s.memory).1
  | .candidates i own =>
    s.desks[i]?.bind fun d => refusal? (d.component.candidates own s.memory).1
  | .prepare i place =>
    (s.desks[i]?.bind (·.component.variants[place]?)).bind fun v =>
      refusal? (s.prepare v).1
  | .copy _ _ _ => none
  | .reopen _ _ => none

/-- The operation asks for the candidates of `c`, itself or through a selection by a policy. -/
inductive Asks (s : Session) (c : Component) : Operation → Prop
  | candidates {i : Nat} {d : Desk} (own : Configuration) :
      s.desks[i]? = some d → d.component = c → Asks s c (.candidates i own)
  | select {i : Nat} {d : Desk} {x : String} {h : Handle} {e : Exclusion} {overrides : Attributes}
      (p : Policy) : s.desks[i]? = some d → d.component = c → s.handle? i x = some h →
      e.excludesModule c.coordinate = false → overrides.isEmpty = false →
      Asks s c (.resolve i x p.selector e overrides)

namespace Asks

variable {s t : Session} {c : Component} {o : Operation}

theorem of_desks (asks : s.Asks c o) (same : t.desks = s.desks) : t.Asks c o := by
  cases asks with
  | candidates own found component => exact .candidates own (by rw [same, found]) component
  | @select _ d _ h _ _ p found component given included present =>
    refine .select (d := d) (h := h) p (by rw [same, found]) component ?_ included present
    rw [handle?, same]
    exact given

theorem exists_desk (asks : s.Asks c o) : ∃ d ∈ s.desks, d.component = c := by
  cases asks with
  | candidates _ found component => exact ⟨_, mem_of_desk? found, component⟩
  | select _ found component => exact ⟨_, mem_of_desk? found, component⟩

theorem effect (asks : s.Asks c o) (sound : s.Sound) :
    ∃ own events,
      s.perform o = { s with memory := (c.candidates own s.memory).2.noteAll events } ∧
      (∀ e, (c.candidates own s.memory).1 = .error e → s.failure? o = some e) ∧
      ∀ set, (c.candidates own s.memory).1 = .ok set →
        ∀ f, s.failure? o = some f → ∃ owner requested, f = .noMatchingVariant owner requested := by
  cases asks with
  | @candidates i d own found component =>
    subst component
    refine ⟨own, [], ?_, fun e fails => ?_, fun set supply f fails => ?_⟩
    · simp [perform, Session.candidates, found, Memory.noteAll]
    · simp [Session.failure?, found, fails, refusal?]
    · simp [Session.failure?, found, supply, refusal?] at fails
  | @select i d x h e overrides p found component given included present =>
    have serves := (sound.serves found given).component
    subst component
    rw [← serves] at included ⊢
    refine ⟨h.configuration, (p.select (h.request e overrides) ∅ s.memory).events, ?_,
      fun f fails => ?_, fun set supply f fails => ?_⟩
    · simp [perform, Session.resolve, given, Policy.selector, Handle.candidates,
        h.memory_resolve p included present]
    · simp [Session.failure?, given, Policy.selector, h.resolve_of_error p included present fails,
        refusal?]
    · simp only [Session.failure?, given, Policy.selector, Option.bind_some] at fails
      exact h.resolve_of_ok p included present supply (refusal?_eq_some_iff.1 fails)

end Asks

variable {s t : Session} {c : Component} {l : List Variant} {owed : Origin → Nat}

theorem Sound.attempts_of_kept (sound : s.Sound) (later : t.Sound) (grows : s.Grows t) {o : Origin}
    {b : Configuration} (kept : s.memory.configuration? (.original o) = some b) :
    t.memory.attempts o = s.memory.attempts o := by
  obtain ⟨v, hv, key⟩ := sound.known kept
  cases v with
  | copied => cases key
  | original o' label strategy =>
    obtain rfl := VariantKey.original.inj key
    obtain ⟨n, once, first⟩ := (sound.right _ hv).firstSuccess kept
    obtain ⟨i, once', first'⟩ :=
      (later.right _ (grows.ancestry _ hv)).firstSuccess (grows.memory.grows kept)
    rw [once, once', first.index_unique first']

theorem Sound.owes_later (sound : s.Sound) (later : t.Sound) (grows : s.Grows t) {v : Variant}
    (hv : v ∈ s.ancestry) (owes : v.Owes s.memory (owed v.origin)) :
    v.Owes t.memory (Variant.arrears s.memory t.memory owed v.origin) :=
  owes.later (sound.right _ (sound.family.root_mem hv))
    (later.right _ (grows.ancestry _ (sound.family.root_mem hv))) (grows.memory.attempts_le _)

/-- One call: it fails at the first variant that owes, or else nothing is owed. -/
theorem Sound.call (sound : s.Sound) (graph : c.graph = some l)
    (debt : ∀ v ∈ l, v.Owes s.memory (owed v.origin)) {o : Operation} (asks : s.Asks c o) :
    (s.perform o).desks = s.desks ∧
    (((∀ v ∈ l, owed v.origin = 0) ∧
        ∀ f, s.failure? o = some f → ∃ owner requested, f = .noMatchingVariant owner requested) ∨
      ∃ before v after cause, l = before ++ v :: after ∧ (∀ w ∈ before, owed w.origin = 0) ∧
        0 < owed v.origin ∧ s.failure? o = some (.preparationFailed v.id cause) ∧
        Variant.Halts before v s.memory (s.perform o).memory) := by
  obtain ⟨own, events, performed, refused, served⟩ := asks.effect sound
  obtain ⟨d, hd, component⟩ := asks.exists_desk
  have sub : ∀ v ∈ l, v ∈ s.ancestry := fun v hv =>
    mem_ancestry hd (d.component.graph_subset_variants (by rwa [component, graph]))
  refine ⟨by rw [performed], ?_⟩
  rcases Component.candidates_of_debt sound.family graph sub sound.right debt own with
    ⟨set, supply, clear⟩ | ⟨before, v, after, cause, split, clear, due, fails, halts⟩
  · exact .inl ⟨clear, served set supply⟩
  · refine .inr ⟨before, v, after, cause, split, clear, due, refused _ fails, ?_⟩
    rw [performed]
    exact halts.noteAll events

theorem Sound.call_pays (sound : s.Sound) (graph : c.graph = some l)
    (debt : ∀ v ∈ l, v.Owes s.memory (owed v.origin)) {o : Operation} (asks : s.Asks c o) :
    Variant.debt (Variant.arrears s.memory (s.perform o).memory owed) l =
      Variant.debt owed l - 1 := by
  rcases (sound.call graph debt asks).2 with
    ⟨clear, _⟩ | ⟨before, v, after, _, rfl, clear, due, _, halts⟩
  · have paid : ∀ v ∈ l,
        Variant.arrears s.memory (s.perform o).memory owed v.origin = 0 := fun v hv => by
      simp [Variant.arrears, clear v hv]
    rw [Variant.debt_eq_zero_iff.2 clear, Variant.debt_eq_zero_iff.2 paid]
  · exact Nat.eq_sub_of_add_eq (halts.debt_arrears clear due)

theorem Sound.calls_pay (sound : s.Sound) (graph : c.graph = some l)
    (debt : ∀ v ∈ l, v.Owes s.memory (owed v.origin)) {calls : List Operation}
    (asks : ∀ o ∈ calls, s.Asks c o) :
    (s.run calls).desks = s.desks ∧ ∃ left : Origin → Nat,
      (∀ v ∈ l, v.Owes (s.run calls).memory (left v.origin)) ∧
      Variant.debt left l = Variant.debt owed l - calls.length := by
  induction calls generalizing s owed with
  | nil => exact ⟨rfl, owed, debt, rfl⟩
  | cons o calls ih =>
    have asked := asks o List.mem_cons_self
    obtain ⟨same, _⟩ := sound.call graph debt asked
    have step := performs sound.faithful o
    have later := step.sound sound
    obtain ⟨d, hd, component⟩ := asked.exists_desk
    have debt' : ∀ v ∈ l, v.Owes (s.perform o).memory
        (Variant.arrears s.memory (s.perform o).memory owed v.origin) := fun v hv =>
      sound.owes_later later step.grows
        (mem_ancestry hd (d.component.graph_subset_variants (by rwa [component, graph])))
        (debt v hv)
    obtain ⟨same', left, owes, rest⟩ := ih later debt' fun x hx =>
      (asks x (List.mem_cons_of_mem o hx)).of_desks same
    refine ⟨same'.trans same, left, owes, ?_⟩
    rw [rest, sound.call_pays graph debt asked, List.length_cons]
    omega

/-- Calls in a row for the candidates of a component, from wherever its work has led. Of every
original behind its graph variants it is known how many more attempts fail. As many calls fail as
these are together, and after that a call fails for want of a match alone. Each of the failing calls
names the first variant that still owes a failure, makes one failing attempt, keeps what stands before
that variant, with what it was copied from, and changes nothing else that is kept. Originals that are
kept are left alone, and no call touches the desks. -/
theorem calls_account {c₀ : Component} {n : Nat} (numbered : c₀.Numbered n)
    (settings : Option CacheSettings) (work : List Operation) {s : Session}
    (reached : (opened c₀ settings n).run work = s) {c : Component} {l : List Variant}
    (graph : c.graph = some l) {owed : Origin → Nat}
    (debt : ∀ v ∈ l, v.Owes s.memory (owed v.origin)) {calls : List Operation}
    (asks : ∀ o ∈ calls, s.Asks c o) :
    ∀ k o, calls[k]? = some o →
      let t := s.run (calls.take k)
      let t' := t.perform o
      (k < Variant.debt owed l → ∃ before v after r cause, l = before ++ v :: after ∧
        (∀ w ∈ before, w.Owes t.memory 0) ∧ v.Owes t.memory (r + 1) ∧
        t.failure? o = some (.preparationFailed v.id cause) ∧
        Variant.Halts before v t.memory t'.memory) ∧
      (Variant.debt owed l ≤ k →
        ∀ f, t.failure? o = some f → ∃ owner requested, f = .noMatchingVariant owner requested) ∧
      (∀ x b, t.memory.configuration? (.original x) = some b →
        t'.memory.attempts x = t.memory.attempts x) ∧
      t'.desks = t.desks := by
  intro k o found t t'
  subst reached
  obtain ⟨sound, _⟩ := (sound_opened numbered settings).run work
  obtain ⟨soundT, _⟩ := sound.run (calls.take k)
  have bound : k < calls.length := (List.getElem?_eq_some_iff.1 found).1
  obtain ⟨desks, left, owes, rest⟩ := sound.calls_pay graph debt fun x hx =>
    asks x (List.mem_of_mem_take (i := k) hx)
  rw [List.length_take, Nat.min_eq_left (Nat.le_of_lt bound)] at rest
  have asked : t.Asks c o := (asks o (List.mem_of_getElem? found)).of_desks desks
  have step := performs soundT.faithful o
  obtain ⟨same, outcome⟩ := soundT.call graph owes asked
  refine ⟨fun early => ?_, fun late => ?_, fun x b kept => ?_, same⟩
  · rcases outcome with ⟨clear, _⟩ | ⟨before, v, after, cause, split, clear, due, failed, halts⟩
    · rw [Variant.debt_eq_zero_iff.2 clear] at rest
      omega
    · subst split
      obtain ⟨r, more⟩ := Nat.exists_eq_add_of_lt due
      have owed := owes v (by simp)
      rw [more, Nat.zero_add] at owed
      exact ⟨before, v, after, r, cause, rfl, fun w hw => clear w hw ▸ owes w (by simp [hw]), owed,
        failed, halts⟩
  · rcases outcome with ⟨_, served⟩ | ⟨before, v, after, _, split, _, due, _, _⟩
    · exact served
    · rw [Nat.sub_eq_zero_of_le late, Variant.debt_eq_zero_iff, split] at rest
      have nothing := rest v (by simp)
      omega
  · exact soundT.attempts_of_kept (step.sound soundT) step.grows kept

def trio : Sketch where
  projectPath := ":lib"
  configurations :=
    [{ name := "main", failures := 2 }, { name := "docs", artifacts := [.jar "docs"] },
      { name := "test", failures := 1 }]
  graph := some ["main", "docs", "test", "main"]

def trioVariant (i : Fin 3) : Variant :=
  let c := trio.configurations[i]
  .original ⟨0, i⟩ ⟨c.name, c.name, .ofList c.attributes⟩ (c.strategy trio.id)

def trioWork : List Operation := [.prepare 0 0, .ask 0 .artifacts (trioVariant 1)]

def trioOwed (o : Origin) : Nat := if o.place = 1 then 0 else 1

def bare : Configuration := ⟨"docs", ∅, [], ∅⟩

def trioCalls : List Operation :=
  [.candidates 0 bare,
    .resolve 0 "docs" (Policy.selector { lenient := true }) .nothing (.ofList [("usage", "docs")]),
    .candidates 0 bare]

theorem calls_account_trio :
    let s := (opened (trio.component 0) none 0).run trioWork
    let l := [trioVariant 0, trioVariant 1, trioVariant 2, trioVariant 0]
    (trio.component 0).Numbered 0 ∧ (trio.component 0).graph = some l ∧
    (∀ v ∈ l, v.Owes s.memory (trioOwed v.origin)) ∧
    (∀ o ∈ trioCalls, s.Asks (trio.component 0) o) ∧ Variant.debt trioOwed l = 2 ∧
    ∀ k o, trioCalls[k]? = some o →
      (k < 2 → ∃ id cause,
        (s.run (trioCalls.take k)).failure? o = some (.preparationFailed id cause)) ∧
      (2 ≤ k → ∀ f, (s.run (trioCalls.take k)).failure? o = some f →
        ∃ owner requested, f = .noMatchingVariant owner requested) := by
  intro s l
  have numbered := trio.numbered_component 0 0
  have graph : (trio.component 0).graph = some l := rfl
  have main : (trioVariant 0).Owes s.memory 1 := by
    refine .pending rfl (fun i hi => ?_) rfl
    obtain rfl := Nat.lt_one_iff.1 hi
    exact ⟨_, rfl⟩
  have docs : (trioVariant 1).Owes s.memory 0 := .settled rfl
  have test : (trioVariant 2).Owes s.memory 1 := by
    refine .pending rfl (fun i hi => ?_) rfl
    obtain rfl := Nat.lt_one_iff.1 hi
    exact ⟨_, rfl⟩
  have debt : ∀ v ∈ l, v.Owes s.memory (trioOwed v.origin) := by
    simp only [l, List.forall_mem_cons]
    exact ⟨main, docs, test, main, by simp⟩
  have asks : ∀ o ∈ trioCalls, s.Asks (trio.component 0) o := by
    simp only [trioCalls, List.forall_mem_cons]
    exact ⟨.candidates _ rfl rfl, .select _ rfl rfl rfl rfl rfl, .candidates _ rfl rfl, by simp⟩
  have total : Variant.debt trioOwed l = 2 := rfl
  refine ⟨numbered, graph, debt, asks, total, fun k o found => ?_⟩
  obtain ⟨fails, serves, _⟩ := calls_account numbered none trioWork rfl graph debt asks k o found
  rw [total] at fails serves
  refine ⟨fun early => ?_, serves⟩
  obtain ⟨_, v, _, _, cause, _, _, _, failed, _⟩ := fails early
  exact ⟨v.id, cause, failed⟩

/-- A graph variant that can be prepared before one that cannot yet. -/
def pair : Sketch where
  projectPath := ":lib"
  configurations := [{ name := "docs" }, { name := "test", failures := 1 }]
  graph := some ["docs", "test"]

/-- A failing call at a copy's desk keeps more than the listed variants before the failing one: what
they were copied from was prepared on the way. -/
theorem call_keeps_source :
    let s := (opened (pair.component 0) none 0).run [.copy 0 (.project ":" ":copy") moved]
    let o := Operation.candidates 1 bare
    let source := VariantKey.original ⟨0, 0⟩
    ∃ d v w cause, s.desks[1]? = some d ∧ d.component.graph = some [v, w] ∧
      v.Owes s.memory 0 ∧ w.Owes s.memory 1 ∧ v.key ≠ source ∧ w.key ≠ source ∧ v.id ≠ w.id ∧
      s.failure? o = some (.preparationFailed w.id cause) ∧
      s.memory.configuration? source = none ∧
      ((s.perform o).memory.configuration? source).isSome := by
  intro s o source
  refine ⟨_, _, _, _, rfl, rfl, ?_, ?_, ?_, ?_, ?_, rfl, rfl, rfl⟩
  · exact .pending rfl (fun i hi => absurd hi (Nat.not_lt_zero i)) rfl
  · refine .pending rfl (fun i hi => ?_) rfl
    obtain rfl := Nat.lt_one_iff.1 hi
    exact ⟨_, rfl⟩
  · decide
  · decide
  · decide

end Session

end ArtifactSelection
