import ArtifactSelection.Artifact
import ArtifactSelection.Attributes
import ArtifactSelection.Command.Grammar
import ArtifactSelection.Event
import ArtifactSelection.Text.Blank

/-!
What a command line asks for. The options common to all commands may stand before or behind the
command; the settings file is the one named last, and the one that the environment names only where
no option does. Rules of exclusion and overrides keep the order in which they are given.
-/

namespace ArtifactSelection.Command

structure Target where
  descriptor : String
  variant : String
  format : String
deriving DecidableEq, Repr

structure LookupOptions where
  artifact : String
  classifier : Option String := none
  type : String := "jar"
  extension : Option String := none
deriving DecidableEq, Repr

namespace LookupOptions

def artifactName (o : LookupOptions) : ArtifactName :=
  ⟨o.artifact, o.type, o.extension.getD o.type, o.classifier⟩

end LookupOptions

structure ResolveOptions where
  attributes : List (String × String) := []
  exclusions : List Exclusion := []
  excludedArtifacts : List String := []
  lenient : Bool := false

namespace ResolveOptions

def exclusion (o : ResolveOptions) : Exclusion :=
  .combine (o.exclusions ++ o.excludedArtifacts.map fun n => .artifact n none none)

def overrides (o : ResolveOptions) : Attributes := .ofList o.attributes

end ResolveOptions

inductive Action where
  | artifacts
  | lookup (options : LookupOptions)
  | resolve (options : ResolveOptions)
  | variants

structure Invocation where
  target : Target
  action : Action
  verbose : Bool := false
  quiet : Bool := false
  config : Option String := none

namespace Invocation

def level? (i : Invocation) : Option Level :=
  if i.verbose then some .debug else if i.quiet then none else some .warn

def shown (i : Invocation) (events : List Event) : List Event :=
  match i.level? with
  | none => []
  | some least => events.filter fun e => compare e.level least != .lt

end Invocation

/-- `key=value`, divided at the first `=`; blanks around key and value do not count, and there has
to be a key. -/
def attribute? (s : String) : Option (String × String) :=
  match s.toList.dropWhile (· != '=') with
  | [] => none
  | _ :: value =>
    let key := Text.trim (s.toList.takeWhile (· != '='))
    if key.isEmpty then none else some (.ofList key, .ofList (Text.trim value))

def attributeFault (s : String) : Option Usage :=
  match attribute? s with
  | some _ => none
  | none => some (.unfitValue s "--attribute <ATTRIBUTES>" ("expected key=value, got '" ++ s ++ "'"))

def exclusionFault (s : String) : Option Usage :=
  match Exclusion.read s with
  | .ok _ => none
  | .error told => some (.unfitValue s "--exclude <EXCLUDES>" told)

def pathFault (s : String) : Option Usage := if s.isEmpty then some .missingValue else none

def commonOptions : List OptionRule := [
  { name := "verbose", letter := some 'v', takes := .nothing },
  { name := "quiet", letter := some 'q', takes := .nothing },
  { name := "config", letter := some 'c', fault := pathFault },
  { name := "help", letter := some 'h', takes := .askHelp }]

def topGrammar : Grammar where
  options := commonOptions ++ [{ name := "version", letter := some 'V', takes := .askVersion }]
  commands := ["artifacts", "lookup", "resolve", "variants", "help"]
  exclusive := [("quiet", "verbose")]

def commandGrammar (options : List OptionRule) (required : List String) : Grammar where
  options := commonOptions ++
    [{ name := "variant" }, { name := "format", letter := some 'f' }] ++ options
  operand := some { name := "descriptor", fault := pathFault }
  required := ["descriptor", "variant"] ++ required
  exclusive := [("quiet", "verbose")]

def grammarOf (command : String) : Grammar :=
  match command with
  | "lookup" =>
    commandGrammar
      [{ name := "artifact" }, { name := "classifier" }, { name := "type" }, { name := "extension" }]
      ["artifact"]
  | "resolve" =>
    commandGrammar
      [{ name := "attribute", takes := .values, fault := attributeFault },
        { name := "exclude", takes := .values, fault := exclusionFault },
        { name := "exclude-artifact", takes := .values },
        { name := "lenient", takes := .nothing }]
      []
  | _ => commandGrammar [] []

def actionOf (command : String) (p : Progress) : Action :=
  match command with
  | "lookup" =>
    .lookup
      { artifact := (p.value? "artifact").getD ""
        classifier := p.value? "classifier"
        type := (p.value? "type").getD "jar"
        extension := p.value? "extension" }
  | "resolve" =>
    .resolve
      { attributes := (p.values "attribute").filterMap attribute?
        exclusions := (p.values "exclude").filterMap Exclusion.ofText?
        excludedArtifacts := p.values "exclude-artifact"
        lenient := p.isGiven "lenient" }
  | "artifacts" => .artifacts
  | _ => .variants

/-- The end of a level: what is pending is taken in, and a settings file that the environment names
has to be fit unless an option names one. -/
def close (environment : Option String) (p : Progress) : Except Usage Progress := do
  let p ← p.settle
  match environment, p.isGiven "config" with
  | some path, false =>
    match pathFault path with
    | some mistake => .error mistake
    | none => return p
  | _, _ => return p

def helpFor : List String → Usage
  | [] => .help
  | [command] => if topGrammar.commands.contains command then .help else .unknownCommand
  | _ => .unknownCommand

def readCommand (environment : Option String) (command : String) (arguments : List String) :
    Except Usage Progress := do
  if command == "help" then throw (helpFor arguments)
  let g := grammarOf command
  let (p, _) ← g.read arguments {}
  let p ← close environment p
  g.judge p
  return p

def Invocation.parse (environment : Option String) (arguments : List String) :
    Except Usage Invocation := do
  let (top, rest) ← topGrammar.read arguments {}
  match rest with
  | none =>
    let top ← close environment top
    throw (if top.given.isEmpty && environment.isNone then .nothingSaid else .missingCommand)
  | some (command, arguments) =>
    let p ← readCommand environment command arguments
    let top ← close environment top
    topGrammar.judge top
    return {
      target :=
        { descriptor := (p.value? "descriptor").getD ""
          variant := (p.value? "variant").getD ""
          format := (p.value? "format").getD "text" }
      action := actionOf command p
      verbose := top.isGiven "verbose" || p.isGiven "verbose"
      quiet := top.isGiven "quiet" || p.isGiven "quiet"
      config := (p.value? "config").or ((top.value? "config").or environment) }

end ArtifactSelection.Command
