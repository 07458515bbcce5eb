import ArtifactSelection.Proofs.Selection.Outcome
import ArtifactSelection.Proofs.Selection.Scratch

/-!
What a selection does to its scratch. It makes one call for each variant that it chose, in their
order, and none unless it succeeds. The ids of the chosen variants are distinct, so no call finds
what an earlier one of the same selection left: a variant comes as it stood in the scratch before,
or it is resolved under the overrides and the exclusion of this request.
-/

namespace ArtifactSelection

namespace SelectionRequest

variable {σ : Type}

/-- The call for a chosen variant. It is resolved under the overrides and the exclusion, and the
artifacts that are left out go into the events. -/
def call (r : SelectionRequest σ) (v : PhysicalVariant) : Scratch.Call (List Event) where
  variant := v
  resolve events :=
    (.under r.component.coordinate r.exclusion r.overrides v,
      events ++ ResolvedVariant.events r.component.coordinate r.exclusion v)

theorem serveAll_calls (r : SelectionRequest σ) (l : List PhysicalVariant) (scratch : Scratch)
    (events : List Event) :
    let served := Scratch.serveAll (l.map r.call) scratch events
    let resolved := scratch.resolveAll (.under r.component.coordinate r.exclusion r.overrides)
      (ResolvedVariant.events r.component.coordinate r.exclusion) l
    served.1.map (·.given) = resolved.1 ∧ served.2 = (resolved.2.1, events ++ resolved.2.2) := by
  induction l generalizing scratch events with
  | nil => exact ⟨rfl, by simp [Scratch.serveAll, Scratch.resolveAll]⟩
  | cons v l ih =>
    cases found : scratch.get? v.id with
    | some h =>
      obtain ⟨given, rest⟩ := ih scratch events
      rw [List.map_cons, Scratch.serveAll, Scratch.serve_of_get? found, Scratch.resolveAll,
        Cache.getOrInsert_of_get? found]
      exact ⟨congrArg (h :: ·) given, rest⟩
    | none =>
      obtain ⟨given, rest⟩ := ih (scratch.publish v.id
        (.under r.component.coordinate r.exclusion r.overrides v))
        (events ++ ResolvedVariant.events r.component.coordinate r.exclusion v)
      rw [List.map_cons, Scratch.serveAll, Scratch.serve_of_new found, Scratch.resolveAll,
        Cache.getOrInsert_of_new found]
      refine ⟨congrArg (_ :: ·) given, rest.trans ?_⟩
      rw [List.append_assoc]

/-- What the call for a chosen variant comes to, for a scratch that held `start`. -/
structure Resolves (r : SelectionRequest σ) (start : Scratch) (e : Scratch.Served (List Event)) :
    Prop where
  stored : ∀ h, start.get? e.id = some h → e.given = h ∧ e.runs = []
  fresh : start.get? e.id = none →
    e.given.value = .under r.component.coordinate r.exclusion r.overrides e.call.variant ∧
      e.runs = [.under r.component.coordinate r.exclusion r.overrides e.call.variant]

variable {r : SelectionRequest σ} {start : Scratch}

theorem resolves_of_follows {log : List (Scratch.Served (List Event))}
    {e : Scratch.Served (List Event)} (follows : e.Follows start log)
    (call : e.call = r.call e.call.variant) (unasked : ∀ e' ∈ log, e'.id ≠ e.id) :
    r.Resolves start e := by
  cases follows with
  | stored found idle =>
    refine ⟨fun h there => ⟨Option.some.inj (found.symm.trans there), idle⟩, fun new => ?_⟩
    cases found.symm.trans new
  | repeated _ earlier same => exact absurd same (unasked _ earlier)
  | first new _ x once given =>
    have under : (e.call.resolve x).1 =
        .under r.component.coordinate r.exclusion r.overrides e.call.variant := by rw [call]; rfl
    rw [under] at once given
    refine ⟨fun h there => ?_, fun _ => ⟨congrArg Shared.value given, once⟩⟩
    cases new.symm.trans there

theorem made_of_resolves {log : List (Scratch.Served (List Event))}
    (resolves : ∀ e ∈ log, r.Resolves start e) :
    Scratch.made log =
      ((log.map (·.call.variant)).filter fun v => !start.contains v.id).map fun v =>
        (v.id, .under r.component.coordinate r.exclusion r.overrides v) := by
  induction log with
  | nil => rfl
  | cons e log ih =>
    have first := resolves e List.mem_cons_self
    have rest := ih fun e' he' => resolves e' (List.mem_cons_of_mem e he')
    rw [Scratch.made, List.flatMap_cons, ← Scratch.made, rest]
    cases found : start.get? e.id with
    | some h =>
      have known : start.contains e.call.variant.id = true := Option.isSome_iff_exists.2 ⟨h, found⟩
      simp [(first.stored h found).2, known]
    | none =>
      have new : start.contains e.call.variant.id = false := Option.isSome_eq_false_iff.2
        (Option.isNone_iff_eq_none.2 found)
      simp [(first.fresh found).2, new, Scratch.Served.id]

section Calls

variable (r : SelectionRequest σ) (l : List PhysicalVariant) (start : Scratch) (events : List Event)

theorem variants_serveAll :
    (Scratch.serveAll (l.map r.call) start events).1.map (·.call.variant) = l := by
  have calls := congrArg (List.map Scratch.Call.variant)
    (Scratch.calls_serveAll (l.map r.call) start events)
  simpa [Function.comp_def, call] using calls

theorem agrees_serveAll :
    start.Agrees (Scratch.serveAll (l.map r.call) start events).1
      (Scratch.serveAll (l.map r.call) start events).2.1 :=
  (Scratch.agrees_self start).serveAll (l.map r.call) events

variable {l}

theorem nodup_serveAll (distinct : (l.map (·.id)).Nodup) :
    ((Scratch.serveAll (l.map r.call) start events).1.map (·.id)).Nodup := by
  rw [← r.variants_serveAll l start events, List.map_map] at distinct
  exact distinct

theorem resolves_serveAll (distinct : (l.map (·.id)).Nodup) :
    ∀ e ∈ (Scratch.serveAll (l.map r.call) start events).1, r.Resolves start e := by
  intro e he
  obtain ⟨before, after, split⟩ := List.append_of_mem he
  refine resolves_of_follows ((r.agrees_serveAll l start events).follows before e after split) ?_ ?_
  · have made : e.call ∈ l.map r.call := by
      rw [← Scratch.calls_serveAll (l.map r.call) start events]
      exact List.mem_map_of_mem he
    obtain ⟨v, _, same⟩ := List.mem_map.1 made
    rw [← same]
    rfl
  · have ids := r.nodup_serveAll start events distinct
    rw [split, List.map_append, List.map_cons] at ids
    intro e' he' same
    exact (List.nodup_append.1 ids).2.2 _ (List.mem_map_of_mem he') _ List.mem_cons_self same

end Calls

end SelectionRequest

/-- A selection together with its calls to the scratch. -/
structure SelectionRun (σ : Type) where
  answer : Except Failure (List (Scratch.Served (List Event)))
  scratch : Scratch
  state : σ
  events : List Event

/-- What is left of a run when its calls are forgotten, and with them the instances. -/
def SelectionRun.outcome {σ : Type} (run : SelectionRun σ) : SelectionOutcome σ where
  answer := run.answer.map fun log => ⟨log.map (·.given.value)⟩
  scratch := run.scratch
  state := run.state
  events := run.events

namespace Policy

variable {σ : Type}

def selectServed (p : Policy) (r : SelectionRequest σ) (scratch : Scratch) (s : σ) :
    SelectionRun σ :=
  match p.choose r s with
  | (.error e, events, s) => ⟨.error e, scratch, s, events⟩
  | (.ok l, events, s) =>
    let (log, scratch, later) := Scratch.serveAll (l.map r.call) scratch []
    ⟨.ok log, scratch, s, events ++ later⟩

section Run

variable {p : Policy} {r : SelectionRequest σ} {s s' : σ} {events : List Event}

theorem selectServed_of_error {e : Failure} (chosen : p.choose r s = (.error e, events, s'))
    (scratch : Scratch) : p.selectServed r scratch s = ⟨.error e, scratch, s', events⟩ := by
  rw [selectServed, chosen]

theorem selectServed_of_ok {l : List PhysicalVariant} (chosen : p.choose r s = (.ok l, events, s'))
    (scratch : Scratch) :
    let served := Scratch.serveAll (l.map r.call) scratch []
    p.selectServed r scratch s = ⟨.ok served.1, served.2.1, s', events ++ served.2.2⟩ := by
  rw [selectServed, chosen]

end Run

theorem outcome_selectServed (p : Policy) (r : SelectionRequest σ) (scratch : Scratch) (s : σ) :
    (p.selectServed r scratch s).outcome = p.select r scratch s := by
  match chosen : p.choose r s with
  | (.error e, events, s') => rw [selectServed_of_error chosen, select, chosen]; rfl
  | (.ok l, events, s') =>
    obtain ⟨given, rest⟩ := r.serveAll_calls l scratch []
    rw [selectServed_of_ok chosen, select, chosen, rest]
    simp only [← given, List.map_map]
    rfl

theorem answer_selectServed (p : Policy) (r : SelectionRequest σ) (scratch : Scratch) (s : σ) :
    (p.selectServed r scratch s).answer = (p.choose r s).1.map fun l =>
      (Scratch.serveAll (l.map r.call) scratch []).1 := by
  match chosen : p.choose r s with
  | (.error e, events, s') => rw [selectServed_of_error chosen]; rfl
  | (.ok l, events, s') => rw [selectServed_of_ok chosen]; rfl

theorem scratch_selectServed_of_error (p : Policy) (r : SelectionRequest σ) (scratch : Scratch)
    (s : σ) {e : Failure} (fails : (p.selectServed r scratch s).answer = .error e) :
    (p.selectServed r scratch s).scratch = scratch := by
  match chosen : p.choose r s with
  | (.error e', events, s') => rw [selectServed_of_error chosen]
  | (.ok l, events, s') =>
    rw [selectServed_of_ok chosen] at fails
    cases fails

/-- Whatever the scratch holds before a selection, where the selection succeeds, the chosen variants
whose ids are in it come as its very entries, and each of the others is resolved once. The scratch
then has these in addition; where the module is excluded or the selection fails it is as it was. Of
any calls to a scratch the same holds: the resolver of an id runs once at most, and what it made is
given to all calls for the id. -/
theorem select_through_scratch (p : Policy) (r : SelectionRequest σ) (start : Scratch) (s : σ) :
    let run := p.selectServed r start s
    run.outcome = p.select r start s ∧
    (∀ log, run.answer = .ok log →
      (p.choose r s).1 = .ok (log.map (·.call.variant)) ∧ (log.map (·.id)).Nodup ∧
      (∀ e ∈ log, r.Resolves start e ∧ run.scratch.get? e.id = some e.given) ∧
      start.Extends
        (((log.map (·.call.variant)).filter fun v => !start.contains v.id).map fun v =>
          (v.id, .under r.component.coordinate r.exclusion r.overrides v)) run.scratch) ∧
    (r.exclusion.excludesModule r.component.coordinate = true →
      run.answer = .ok [] ∧ run.scratch = start) ∧
    (r.exclusion.excludesModule r.component.coordinate = false → r.overrides.isEmpty = false →
      ∀ e, (r.candidates s).1 = .error e → run.answer = .error e) ∧
    (∀ e, run.answer = .error e → run.scratch = start) ∧
    ∀ (τ : Type) (calls : List (Scratch.Call τ)) (x : τ),
      let log := (Scratch.serveAll calls start x).1
      log.map (·.call) = calls ∧
      (∀ before (e : Scratch.Served τ) after, log = before ++ e :: after →
        e.Follows start before) ∧
      (∀ e ∈ log, ∀ e' ∈ log, (e.given.serial = e'.given.serial ↔ e.id = e'.id) ∧
        (e.id = e'.id → e.given = e'.given)) ∧
      ((Scratch.made log).map Prod.fst).Nodup ∧
      start.Extends (Scratch.made log) (Scratch.serveAll calls start x).2.1 := by
  intro run
  have answer : run.answer = _ := p.answer_selectServed r start s
  refine ⟨p.outcome_selectServed r start s, fun log ok => ?_, fun excluded => ?_,
    fun included present e fails => ?_, fun e => p.scratch_selectServed_of_error r start s,
    fun τ calls x => ?_⟩
  · match chosen : p.choose r s with
    | (.error e, events, s') =>
      rw [chosen] at answer
      cases answer.symm.trans ok
    | (.ok l, events, s') =>
      have served : run = _ := selectServed_of_ok chosen start
      have distinct := p.nodup_ids_choose r s (congrArg Prod.fst chosen)
      have agrees := r.agrees_serveAll l start []
      have resolves := r.resolves_serveAll start [] distinct
      rw [served] at ok ⊢
      obtain rfl := Except.ok.inj ok
      refine ⟨by rw [r.variants_serveAll], r.nodup_serveAll start [] distinct,
        fun e he => ⟨resolves e he, agrees.given e he⟩, ?_⟩
      rw [← SelectionRequest.made_of_resolves resolves]
      exact agrees.grown
  · have served : run = _ := selectServed_of_ok (by rw [choose, if_pos excluded]) start
    rw [served]
    exact ⟨rfl, rfl⟩
  · rw [answer, chosen_eq, if_neg (Bool.eq_false_iff.1 included),
      if_neg (Bool.eq_false_iff.1 present), fails]
    rfl
  · have agrees := (Scratch.agrees_self start).serveAll calls x
    rw [List.nil_append] at agrees
    refine ⟨Scratch.calls_serveAll calls start x, agrees.follows, fun e he e' he' => ?_,
      agrees.grown.nodup_added, agrees.grown⟩
    exact ⟨agrees.serial_eq_iff he he', agrees.given_eq he he'⟩

/-- Two variants are declared, and the exclusion spares none of their artifacts. One of them is in
the scratch with its artifact, and so it is selected. -/
example :
    let lib : Artifact := ⟨.project ":" ":lib", .jar "lib", none⟩
    let v (id : String) : PhysicalVariant := ⟨id, id, ∅, [lib]⟩
    let r : SelectionRequest Unit :=
      { component := ⟨⟨"org.example", "lib", "1.0"⟩, .project ":" ":lib", ∅, [], none⟩
        candidates := fun s => (.ok ∅, s)
        declared := .ofList [v "html", v "text"]
        exclusion := .artifact "lib" none none
        overrides := ∅ }
    let outcome := select {} r ⟨[("html", .ofVariant (v "html"))]⟩ ()
    outcome.answer = .ok ⟨[⟨v "html", ∅, [lib]⟩, ⟨v "text", ∅, []⟩]⟩ ∧
      outcome.scratch.keys = ["text", "html"] := ⟨rfl, rfl⟩

end Policy

end ArtifactSelection
