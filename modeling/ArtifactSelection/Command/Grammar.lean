import ArtifactSelection.Command.Usage

/-!
Command lines by their grammar. A level of a command line has options, perhaps an operand, and
perhaps commands, the first of which hands the rest to a level of its own. An argument is read
against what has been read before; the value of an option is judged no sooner than by the next
option or operand, so a mistake in between comes first.
-/

namespace ArtifactSelection.Command

inductive Takes where
  | nothing
  | oneValue
  | values
  | askHelp
  | askVersion
deriving DecidableEq, Repr

structure OptionRule where
  name : String
  letter : Option Char := none
  takes : Takes := .oneValue
  fault : String → Option Usage := fun _ => none

namespace OptionRule

def takesValue (r : OptionRule) : Bool := r.takes == .oneValue || r.takes == .values

end OptionRule

structure Grammar where
  options : List OptionRule
  operand : Option OptionRule := none
  commands : List String := []
  required : List String := []
  exclusive : List (String × String) := []

structure Progress where
  given : List (String × String) := []
  pending : Option (OptionRule × Option String) := none
  operandRead : Bool := false
  /-- Behind `--` every argument is an operand. -/
  operandsOnly : Bool := false

namespace Progress

def isAwaiting (p : Progress) : Bool :=
  match p.pending with
  | some (_, none) => !p.operandsOnly
  | _ => false

def isGiven (p : Progress) (name : String) : Bool := p.given.any (·.1 == name)

def value? (p : Progress) (name : String) : Option String := p.given.lookup name

def values (p : Progress) (name : String) : List String :=
  (p.given.filter (·.1 == name)).map (·.2)

def accept (p : Progress) (r : OptionRule) (value : Option String) : Except Usage Progress :=
  match r.takes with
  | .askHelp => .error .help
  | .askVersion => .error .version
  | .nothing =>
    if p.isGiven r.name then .error .conflict else .ok { p with given := p.given ++ [(r.name, "")] }
  | .oneValue | .values =>
    match value with
    | none => .error .missingValue
    | some v =>
      if r.takes == .oneValue && p.isGiven r.name then .error .conflict
      else
        match r.fault v with
        | some mistake => .error mistake
        | none => .ok { p with given := p.given ++ [(r.name, v)] }

def settle (p : Progress) : Except Usage Progress :=
  match p.pending with
  | none => .ok p
  | some (r, value) => { p with pending := none }.accept r value

def complete (p : Progress) (r : OptionRule) (value : Option String) : Except Usage Progress := do
  let p ← p.settle
  p.accept r value

def await (p : Progress) (r : OptionRule) (value : Option String) : Except Usage Progress := do
  let p ← p.settle
  return { p with pending := some (r, value) }

end Progress

inductive Form where
  | plain
  | escape
  | long (name : String) (value : Option String)
  | letters (l : List Char)

def Form.ofText (s : String) : Form :=
  match s.toList with
  | ['-', '-'] => .escape
  | '-' :: '-' :: l =>
    .long (.ofList (l.takeWhile (· != '=')))
      (match l.dropWhile (· != '=') with
        | _ :: v => some (.ofList v)
        | [] => none)
  | '-' :: c :: l => .letters (c :: l)
  | _ => .plain

namespace Grammar

def readLong (g : Grammar) (name : String) (value : Option String) (p : Progress) :
    Except Usage Progress :=
  match g.options.find? (·.name == name) with
  | none => .error .unknownArgument
  | some r =>
    match r.takesValue, value with
    | true, some v => p.complete r (some v)
    | true, none => p.await r none
    | false, some _ => .error .needlessValue
    | false, none => p.complete r none

/-- Reads options by their letters; the first one that takes a value has the rest for its value. -/
def readLetters (g : Grammar) : List Char → Progress → Except Usage Progress
  | [], p => .ok p
  | c :: l, p =>
    match g.options.find? (·.letter == some c) with
    | none => .error .unknownArgument
    | some r =>
      if r.takesValue then
        match l with
        | [] => p.await r none
        | '=' :: v => p.complete r (some (.ofList v))
        | v => p.complete r (some (.ofList v))
      else
        match p.complete r none with
        | .error mistake => .error mistake
        | .ok p => g.readLetters l p

def readOperand (g : Grammar) (s : String) (p : Progress) : Except Usage Progress :=
  match g.operand, p.operandRead with
  | some r, false => ({ p with operandRead := true } : Progress).await r (some s)
  | _, _ =>
    if g.commands.isEmpty || p.operandsOnly && g.commands.contains s then .error .unknownArgument
    else .error .unknownCommand

def readArgument (g : Grammar) (s : String) (p : Progress) : Except Usage Progress :=
  if p.operandsOnly then g.readOperand s p
  else
    match Form.ofText s with
    | .escape => .ok { p with operandsOnly := true }
    | .long name value => g.readLong name value p
    | .letters l => g.readLetters l p
    | .plain =>
      match p.pending with
      | some (r, none) => .ok { p with pending := some (r, some s) }
      | _ => g.readOperand s p

def read (g : Grammar) :
    List String → Progress → Except Usage (Progress × Option (String × List String))
  | [], p => .ok (p, none)
  | s :: l, p =>
    if !p.operandsOnly && !p.isAwaiting && g.commands.contains s then .ok (p, some (s, l))
    else
      match g.readArgument s p with
      | .error mistake => .error mistake
      | .ok p => g.read l p

/-- Options that exclude each other come before what is missing. -/
def judge (g : Grammar) (p : Progress) : Except Usage Unit :=
  if g.exclusive.any fun e => p.isGiven e.1 && p.isGiven e.2 then .error .conflict
  else if g.required.all p.isGiven then .ok ()
  else .error .missingArgument

end Grammar

end ArtifactSelection.Command
