import ArtifactSelection.Command.Printing
import ArtifactSelection.Proofs.Command.Failure

/-!
Commands that print as they go come to what their answers say. Whatever can fail is behind them when
they print their first line, in either form, so a failed command has printed nothing; and up to there
they do not look at the form.
-/

namespace ArtifactSelection.Command

namespace Printing

def Prints (p : Printing Unit) (l : List String) : Prop :=
  ∀ c, ∃ m, p.run.run c = (.ok (), ⟨m, c.printed ++ String.join (l.map (· ++ "\n"))⟩)

theorem prints_line (s : String) : Prints (printLine s) [s] := by
  intro c
  refine ⟨c.memory, ?_⟩
  rw [List.map_singleton, String.join_cons, String.join_nil, String.append_empty]
  rfl

theorem prints_note (e : Event) : Prints (note e) [] := by
  intro c
  refine ⟨c.memory.note e, ?_⟩
  rw [List.map_nil, String.join_nil, String.append_empty]
  rfl

theorem Prints.then {p q : Printing Unit} {l l' : List String} (first : Prints p l)
    (second : Prints q l') : Prints (do p; q) (l ++ l') := by
  intro c
  obtain ⟨m, first⟩ := first c
  obtain ⟨m', second⟩ := second ⟨m, c.printed ++ String.join (l.map (· ++ "\n"))⟩
  refine ⟨m', ?_⟩
  rw [List.map_append, String.join_append, ← String.append_assoc, ← second]
  simp only [ExceptT.run_bind, StateT.run_bind, first]
  rfl

theorem prints_each {α : Type} {k : α → Printing Unit} {lines : α → List String}
    (each : ∀ a, Prints (k a) (lines a)) (l : List α) : Prints (l.forM k) (l.flatMap lines) := by
  induction l with
  | nil =>
    intro c
    refine ⟨c.memory, ?_⟩
    rw [List.flatMap_nil, List.map_nil, String.join_nil, String.append_empty]
    rfl
  | cons a l ih =>
    rw [List.flatMap_cons]
    exact (each a).then ih

theorem prints_lines {α : Type} (line : α → String) (l : List α) :
    Prints (l.forM fun a => printLine (line a)) (l.map line) := by
  rw [List.map_eq_flatMap]
  exact prints_each (fun a => prints_line (line a)) l

section Work

variable {α β : Type} {g : Memory → Except Failure α × Memory} {k : α → Printing β} {c : Console}
  {m : Memory}

theorem run_work : (work g).run.run c =
    ((g c.memory).1.mapError .failure, { c with memory := (g c.memory).2 }) := rfl

theorem run_work_error {e : Failure} (outcome : g c.memory = (.error e, m)) :
    (work g >>= k).run.run c = (.error (.failure e), { c with memory := m }) := by
  simp only [ExceptT.run_bind, StateT.run_bind, run_work, outcome]
  rfl

theorem run_work_ok {a : α} (outcome : g c.memory = (.ok a, m)) :
    (work g >>= k).run.run c = (k a).run.run { c with memory := m } := by
  simp only [ExceptT.run_bind, StateT.run_bind, run_work, outcome]
  rfl

end Work

end Printing

def Format.lines (f : Format) (r : Report) : List String :=
  match f with
  | .text => r.lines
  | .json => [r.value.document]

theorem Format.render_eq (f : Format) (r : Report) :
    f.render r = String.join ((f.lines r).map (· ++ "\n")) := by
  cases f with
  | text => rfl
  | json =>
    rw [lines, List.map_singleton, String.join_cons, String.join_nil, String.append_empty]
    rfl

def rendered (f : Format) (answer : Except Stop Report) : String :=
  (Outcome.mk answer []).output f

open Printing

/-- A command that comes to an answer, and that prints what is to be printed for it and nothing
else. -/
def Shows (p : Printing Unit) (f : Format) (answer : Memory → Except Stop Report) : Prop :=
  ∀ c, ∃ m, p.run.run c =
    ((answer c.memory).map fun _ => (), ⟨m, c.printed ++ rendered f (answer c.memory)⟩)

theorem shows_of_prints {p : Printing Unit} {f : Format} {r : Report} {l : List String}
    (prints : Prints p l) (lines : l = f.lines r) : Shows p f fun _ => .ok r := by
  intro c
  obtain ⟨m, prints⟩ := prints c
  refine ⟨m, ?_⟩
  rw [prints, lines, ← Format.render_eq]
  rfl

theorem shows_work {α : Type} {g : Memory → Except Failure α × Memory} {k : α → Printing Unit}
    {f : Format} {answer : Memory → Except Stop Report}
    {rest : α → Memory → Except Stop Report} (shows : ∀ a, Shows (k a) f (rest a))
    (fails : ∀ m e m', g m = (.error e, m') → answer m = .error (.failure e))
    (goes : ∀ m a m', g m = (.ok a, m') → answer m = rest a m') :
    Shows (work g >>= k) f answer := by
  intro c
  rcases outcome : g c.memory with ⟨e | a, m⟩
  · refine ⟨m, ?_⟩
    have nothing : rendered f (.error (.failure e)) = "" := rfl
    rw [run_work_error outcome, fails _ _ _ outcome, nothing, String.append_empty]
    rfl
  · obtain ⟨m', shows⟩ := shows a { c with memory := m }
    refine ⟨m', ?_⟩
    rw [run_work_ok outcome, goes _ _ _ outcome]
    exact shows

theorem shows_step {α : Type} {x : Except Failure α} {g : Memory → Memory}
    {k : α → Printing Unit} {f : Format} {rest : α → Memory → Except Stop Report}
    (shows : ∀ a, Shows (k a) f (rest a)) :
    Shows (work (fun m => (x, g m)) >>= k) f fun m =>
      (x.mapError .failure).bind fun a => rest a (g m) := by
  refine shows_work shows ?_ ?_
  · intro m e m' outcome
    obtain ⟨fails, rfl⟩ := Prod.mk.inj outcome
    rw [fails]
    rfl
  · intro m a m' outcome
    obtain ⟨goes, rfl⟩ := Prod.mk.inj outcome
    rw [goes]
    rfl

theorem shows_map {α : Type} {g : Memory → Except Failure α × Memory} {k : α → Printing Unit}
    {f : Format} {r : α → Report} (prints : ∀ a, Prints (k a) (f.lines (r a))) :
    Shows (work g >>= k) f fun m => ((g m).1.map r).mapError .failure := by
  refine shows_work (fun a => shows_of_prints (prints a) rfl) ?_ ?_
  · intro m e m' outcome
    rw [outcome]
    rfl
  · intro m a m' outcome
    rw [outcome]
    rfl

theorem shows_handle {context : Context} {entry : Entry} {a : Action} {k : Handle → Printing Unit}
    {f : Format} (shows : ∀ h, Shows (k h) f fun m => (a.report context h m).1.mapError .failure) :
    Shows (context.handle entry >>= k) f fun m => (a.perform context m).1.mapError .failure := by
  refine shows_work shows ?_ ?_
  · intro m e m' outcome
    rcases asked : context.desk.ask entry context.variant m with ⟨_ | _, _, _⟩
    · rw [asked] at outcome
      cases outcome
      rw [Desk.ask_eq_request] at asked
      rw [Action.perform_of_error asked]
      rfl
    · rw [asked] at outcome
      cases outcome
  · intro m h m' outcome
    rcases asked : context.desk.ask entry context.variant m with ⟨_ | _, _, _⟩
    · rw [asked] at outcome
      cases outcome
    · rw [asked] at outcome
      cases outcome
      rw [Desk.ask_eq_request] at asked
      rw [Action.perform_of_ok asked]

namespace Context

variable (context : Context) (f : Format)

theorem shows_printArtifacts :
    Shows (context.printArtifacts f) f fun m =>
      (Action.artifacts.perform context m).1.mapError .failure := by
  refine shows_handle fun h => ?_
  cases f with
  | json => exact shows_of_prints (prints_line _) rfl
  | text =>
    exact shows_of_prints ((prints_line _).then ((prints_lines _ _).then (prints_line _))) rfl

theorem shows_printLookup (o : LookupOptions) :
    Shows (context.printLookup o f) f fun m =>
      ((Action.lookup o).perform context m).1.mapError .failure := by
  refine shows_handle fun h => ?_
  refine shows_map (g := fun m => (h.lookup o.artifactName, m)) (r := .artifact) fun a => ?_
  cases f <;> exact prints_line _

theorem shows_printResolved (o : ResolveOptions) :
    Shows (context.printResolved o f) f fun m =>
      ((Action.resolve o).perform context m).1.mapError .failure := by
  refine shows_handle fun h => ?_
  simp only [Action.report_resolve]
  refine shows_map fun s => ?_
  cases f with
  | json => exact (prints_note _).then (prints_line _)
  | text =>
    have variants := prints_each (k := fun v : ResolvedVariant => do
        printLine (v.variant.displayName ++ " " ++ toString v.attributes)
        v.artifacts.forM fun a => printLine (Report.artifactLine a))
      (fun v => (prints_line _).then (prints_lines _ _)) s.variants
    exact variants.then ((prints_note _).then (prints_line _))

theorem shows_printCandidates :
    Shows (context.printCandidates f) f fun m =>
      (Action.variants.perform context m).1.mapError .failure := by
  refine shows_handle fun h => ?_
  simp only [Action.report_variants]
  refine shows_map fun s => ?_
  cases f with
  | json => exact prints_line _
  | text => exact (prints_line _).then ((prints_lines _ _).then (prints_line _))

theorem shows_print (a : Action) :
    Shows (context.print f a) f fun m => (a.perform context m).1.mapError .failure := by
  cases a with
  | artifacts => exact context.shows_printArtifacts f
  | lookup o => exact context.shows_printLookup f o
  | resolve o => exact context.shows_printResolved f o
  | variants => exact context.shows_printCandidates f

end Context

theorem shows_lift {α : Type} {x : Except Stop α} {k : α → Printing Unit} {f : Format}
    {rest : α → Memory → Except Stop Report} (shows : ∀ a, Shows (k a) f (rest a)) :
    Shows (liftM x >>= k) f fun m => x.bind fun a => rest a m := by
  intro c
  cases x with
  | ok a => exact shows a c
  | error stop =>
    refine ⟨c.memory, ?_⟩
    have nothing : rendered f (.error stop) = "" := rfl
    simp only [Except.bind, nothing, String.append_empty]
    rfl

namespace Invocation

variable (i : Invocation) (libraries : Libraries) (environment : Option String) (files : Files)

/-- A command that prints as it goes ends as the run that renders its report at the end, and has
printed the same. -/
theorem start_print :
    ∃ m, (i.print libraries environment files).start =
      ((i.run libraries environment files).answer.map fun _ => (),
        ⟨m, (i.run libraries environment files).output i.format⟩) := by
  let inForce := Settings.inForce libraries.toml files i.config environment
  have loaded (settings : Settings) :=
    shows_lift (x := Context.load libraries files settings i.target)
      fun context => context.shows_print i.format i.action
  obtain ⟨m, start⟩ := shows_step (x := inForce.1) (g := (·.noteAll inForce.2)) loaded {}
  have printed : (i.run libraries environment files).output i.format =
      "" ++ rendered i.format (i.run libraries environment files).answer := String.empty_append.symm
  refine ⟨m, start.trans ?_⟩
  rw [printed, answer_run]

end Invocation

end ArtifactSelection.Command
