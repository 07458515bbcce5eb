import ArtifactSelection.Command.Invocation
import ArtifactSelection.Command.Report
import ArtifactSelection.Desk
import ArtifactSelection.Libraries
import ArtifactSelection.Loading

/-!
Running a command. Settings are loaded first, then the form of output is checked, then the
descriptor is loaded, a desk is opened for its component as the settings say, and the variant is
found; only then does the command do its own work. What is printed is made at the very end, so a
command that fails prints nothing. The opening of the desk does not fail, but it may be where the
program breaks down.
-/

namespace ArtifactSelection.Command

inductive Stop where
  | failure (e : Failure)
  | breakdown (code : Nat)

def Stop.exitCode : Stop → Nat
  | failure _ => 1
  | breakdown code => code

structure Context where
  settings : Settings
  desk : Desk
  variant : Variant

/-- The descriptor of a file. A path that leads nowhere is told apart from a file that is no good. -/
def loadDescriptor (toml : String → Option Value) (files : Files) (path : String) :
    Except Failure Descriptor :=
  if files.leads path then
    (Descriptor.load toml files path).mapError
      (.within ("Failed to load component descriptor " ++ path))
  else .error (.plain ("Descriptor file " ++ path ++ " not found"))

def undeclared (t : Target) (c : Component) : Failure :=
  .plain
    ("Variant '" ++ t.variant ++ "' is not declared in " ++ t.descriptor ++ " (declared: " ++
      ", ".intercalate (c.configurations.map (·.name)) ++ ")")

def openDesk (libraries : Libraries) (c : Component) (settings : CacheSettings) :
    Except Stop Desk :=
  match libraries.breakdown? settings.layout with
  | some code => .error (.breakdown code)
  | none => .ok (.opened c (some settings))

def Context.load (libraries : Libraries) (files : Files) (settings : Settings) (t : Target) :
    Except Stop Context := do
  if (Format.ofText? t.format).isNone then
    throw (.failure (.plain ("Invalid format '" ++ t.format ++ "'. Valid formats are: text, json")))
  let d ← (loadDescriptor libraries.toml files t.descriptor).mapError .failure
  let desk ← openDesk libraries (d.toComponent 0) settings.cache
  match desk.component.configuration? t.variant with
  | some variant => return { settings, desk, variant }
  | none => throw (.failure (undeclared t desk.component))

def policy (settings : Settings) (o : ResolveOptions) : Policy where
  lenient := settings.selection.lenient || o.lenient

def Action.report (context : Context) (h : Handle) (m : Memory) :
    Action → Except Failure Report × Memory
  | .artifacts => (.ok (.artifacts context.variant.name h.component.id h.artifacts), m)
  | .lookup o => ((h.lookup o.artifactName).map .artifact, m)
  | .resolve o =>
    match h.resolve (policy context.settings o).select o.exclusion o.overrides m with
    | (.error e, m) => (.error e, m)
    | (.ok s, m) => (.ok (.resolved s), m.note s.listed)
  | .variants =>
    match h.candidates m with
    | (.error e, m) => (.error e, m)
    | (.ok s, m) => (.ok (.candidates context.variant.name h.component.graph.isSome s), m)

def Action.perform (context : Context) (a : Action) (m : Memory) :
    Except Failure Report × Memory :=
  match context.desk.request context.variant m with
  | (.error e, _, m) => (.error e, m)
  | (.ok shared, _, m) => a.report context shared.value m

structure Outcome where
  answer : Except Stop Report
  events : List Event

namespace Invocation

def run (i : Invocation) (libraries : Libraries) (environment : Option String) (files : Files) :
    Outcome :=
  match Settings.inForce libraries.toml files i.config environment with
  | (.error e, events) => ⟨.error (.failure e), events⟩
  | (.ok settings, events) =>
    match Context.load libraries files settings i.target with
    | .error stop => ⟨.error stop, events⟩
    | .ok context =>
      let (answer, m) := i.action.perform context ((∅ : Memory).noteAll events)
      ⟨answer.mapError .failure, m.takeEvents.1⟩

def format (i : Invocation) : Format := (Format.ofText? i.target.format).getD .text

end Invocation

namespace Outcome

def exitCode (o : Outcome) : Nat :=
  match o.answer with
  | .ok _ => 0
  | .error stop => stop.exitCode

def output (o : Outcome) (f : Format) : String :=
  match o.answer with
  | .ok r => f.render r
  | .error _ => ""

/-- What the program itself says on standard error. A breakdown is reported by no part of it. -/
def complaint (o : Outcome) : String :=
  match o.answer with
  | .error (.failure e) => e.diagnosis.lines
  | _ => ""

end Outcome

end ArtifactSelection.Command
