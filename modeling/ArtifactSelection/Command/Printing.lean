import ArtifactSelection.Command.Run

/-!
Commands that print as they go. Every line is out as soon as it is printed, so a command that failed
behind a line would leave it there. Each command has its text and its JSON document made separately,
in the order in which it gets to their parts.
-/

namespace ArtifactSelection.Command

structure Console where
  memory : Memory := ∅
  printed : String := ""

/-- A step of a command. What ends the command takes back nothing of what is printed. -/
abbrev Printing := ExceptT Stop (StateM Console)

namespace Printing

def start {α : Type} (p : Printing α) : Except Stop α × Console := p.run.run {}

def work {α : Type} (f : Memory → Except Failure α × Memory) : Printing α :=
  .mk fun c => ((f c.memory).1.mapError .failure, { c with memory := (f c.memory).2 })

def note (e : Event) : Printing Unit := work fun m => (.ok (), m.note e)

def printLine (s : String) : Printing Unit :=
  .mk fun c => (.ok (), { c with printed := c.printed ++ (s ++ "\n") })

def printDocument (v : Value) : Printing Unit := printLine v.document

end Printing

open Printing

namespace Context

def handle (context : Context) (entry : Entry) : Printing Handle :=
  work fun m =>
    match context.desk.ask entry context.variant m with
    | (.error e, _, m) => (.error e, m)
    | (.ok shared, _, m) => (.ok shared.value, m)

def printArtifacts (context : Context) (f : Format) : Printing Unit := do
  let h ← context.handle .artifacts
  match f with
  | .json => printDocument (.list (h.artifacts.map (·.report)))
  | .text =>
    printLine ("Artifacts of " ++ context.variant.name ++ " (" ++ toString h.component.id ++ ")")
    h.artifacts.forM fun a => printLine (Report.artifactLine a)
    printLine ("Total: " ++ toString h.artifacts.length ++ " artifact(s)")

def printLookup (context : Context) (o : LookupOptions) (f : Format) : Printing Unit := do
  let h ← context.handle .handle
  let a ← work fun m => (h.lookup o.artifactName, m)
  match f with
  | .json => printDocument a.report
  | .text => printLine (Report.artifactLine a)

/-- The list of all artifacts is made, which is an event, once it is wanted: for the document before
anything is printed, for the text behind the variants. -/
def printResolved (context : Context) (o : ResolveOptions) (f : Format) : Printing Unit := do
  let h ← context.handle .handle
  let s ← work (h.resolve (policy context.settings o).select o.exclusion o.overrides)
  match f with
  | .json =>
    let variants := s.variants.map fun v =>
      Value.table
        [("artifacts", .list (v.artifacts.map (·.report))), ("attributes", v.attributes.encode),
          ("id", .text v.variant.id), ("name", .text v.variant.displayName)]
    note s.listed
    printDocument
      (.table [("artifacts", .list (s.artifacts.map (·.report))), ("variants", .list variants)])
  | .text =>
    s.variants.forM fun v => do
      printLine (v.variant.displayName ++ " " ++ toString v.attributes)
      v.artifacts.forM fun a => printLine (Report.artifactLine a)
    note s.listed
    printLine ("Total: " ++ toString s.artifacts.length ++ " artifact(s)")

def printCandidates (context : Context) (f : Format) : Printing Unit := do
  let h ← context.handle .handle
  let s ← work h.candidates
  let fromGraph := h.component.graph.isSome
  match f with
  | .json =>
    let candidates := s.variants.map fun v =>
      Value.table
        [("artifacts", .integer v.artifacts.length), ("attributes", .text (toString v.attributes)),
          ("id", .text v.id), ("name", .text v.displayName)]
    printDocument (.table [("candidates", .list candidates), ("graph_traversal", .bool fromGraph)])
  | .text =>
    let scope := if fromGraph then "graph traversal variants" else "own variants"
    printLine ("Candidates for " ++ context.variant.name ++ " (" ++ scope ++ ")")
    s.variants.forM fun v => printLine ("  " ++ v.id ++ " " ++ toString v.attributes)
    printLine ("Total: " ++ toString s.size ++ " variant(s)")

def print (context : Context) (f : Format) : Action → Printing Unit
  | .artifacts => context.printArtifacts f
  | .lookup o => context.printLookup o f
  | .resolve o => context.printResolved o f
  | .variants => context.printCandidates f

end Context

def Invocation.print (i : Invocation) (libraries : Libraries) (environment : Option String)
    (files : Files) : Printing Unit := do
  let settings ← work fun m =>
    ((Settings.inForce libraries.toml files i.config environment).1,
      m.noteAll (Settings.inForce libraries.toml files i.config environment).2)
  let context ← liftM (Context.load libraries files settings i.target)
  context.print i.format i.action

end ArtifactSelection.Command
