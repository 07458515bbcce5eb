import ArtifactSelection.Text.Plain

/-!
Why a command line is not run. Help and the version are asked for; everything else is a mistake, of
which only an unfit value and its line are worded here.
-/

namespace ArtifactSelection.Command

inductive Usage where
  | help
  | version
  | nothingSaid
  | missingCommand
  | missingArgument
  | unknownArgument
  | unknownCommand
  | missingValue
  | conflict
  | needlessValue
  | unfitValue (value option reason : String)
deriving DecidableEq, Repr

def versionLine : String := "variant-resolve 0.3.2"

def firstLine (s : String) : String :=
  let line := s.toList.takeWhile (· != '\n')
  .ofList (if s.toList.contains '\n' && line.getLast? == some '\r' then line.dropLast else line)

def emphasized (s : String) : String := "\x1b[1m" ++ s ++ "\x1b[0m"

def unfitValueText (value option reason : String) : String :=
  emphasized "error:" ++ " invalid value '" ++ emphasized value ++ "' for '" ++ emphasized option ++
    "': " ++ reason ++ "\n\nFor more information, try '" ++ emphasized "--help" ++ "'.\n"

namespace Usage

def exitCode : Usage → Nat
  | help | version => 0
  | _ => 2

/-- The first line that is shown, where its wording matters. It is shown plain: no colours, and none
of the control sequences that a value brings with it. -/
def line? : Usage → Option String
  | version => some versionLine
  | unfitValue value option reason =>
    some (firstLine (Text.plain (unfitValueText value option reason)))
  | _ => none

end Usage

end ArtifactSelection.Command
