import ArtifactSelection.Value
import ArtifactSelection.Value.Token

/-!
Data values from JSON texts. The tokens of a text are taken one by one, along with what is open
around them; a list or a table is a value when its closing bracket comes. A number is an integer
where it is spelled as one, and keeps its spelling otherwise.
-/

namespace ArtifactSelection.Value

def isWhole (digits : List Char) : Bool :=
  match digits with
  | [] => false
  | '0' :: rest => rest.isEmpty
  | _ => true

def isDigits (s : List Char) : Bool := !s.isEmpty && s.all Char.isDigit

def isExponent : List Char → Bool
  | [] => true
  | c :: '+' :: s => (c == 'e' || c == 'E') && isDigits s
  | c :: '-' :: s => (c == 'e' || c == 'E') && isDigits s
  | c :: s => (c == 'e' || c == 'E') && isDigits s

def isFraction : List Char → Bool
  | '.' :: s => isDigits (s.takeWhile Char.isDigit) && isExponent (s.dropWhile Char.isDigit)
  | s => isExponent s

def unsigned? (spelling : String) (negative : Bool) (s : List Char) : Option Value :=
  let digits := s.takeWhile Char.isDigit
  let behind := s.dropWhile Char.isDigit
  let n := Nat.ofDigitChars 10 digits 0
  if !isWhole digits then none
  else if !behind.isEmpty then if isFraction behind then some (decimal spelling) else none
  else if !negative then some (integer n)
  else if n = 0 then some (decimal spelling)
  else some (integer (-n))

def ofNumber? (spelling : String) : Option Value :=
  match spelling.toList with
  | '-' :: s => unsigned? spelling true s
  | s => unsigned? spelling false s

def ofWord? (spelling : String) : Option Value :=
  if spelling = "null" then some null
  else if spelling = "true" then some (bool true)
  else if spelling = "false" then some (bool false)
  else ofNumber? spelling

inductive Frame where
  | list (before : List Value)
  | table (before : List (String × Value)) (name : String)

inductive Stage where
  | value (around : List Frame)
  | list (around : List Frame)
  | table (around : List Frame)
  | name (before : List (String × Value)) (around : List Frame)
  | colon (before : List (String × Value)) (name : String) (around : List Frame)
  | behind (v : Value) (around : List Frame)

namespace Stage

def start (around : List Frame) : Token → Option Stage
  | .opening .square => some (list around)
  | .opening .curly => some (table around)
  | .text s => some (behind (.text s) around)
  | .word w => (ofWord? w).map (behind · around)
  | _ => none

def take : Stage → Token → Option Stage
  | value around, t => start around t
  | list around, .closing .square => some (behind (.list []) around)
  | list around, t => start (.list [] :: around) t
  | table around, .closing .curly => some (behind (.table []) around)
  | table around, .text k => some (colon [] k around)
  | name before around, .text k => some (colon before k around)
  | colon before k around, .colon => some (value (.table before k :: around))
  | behind v (.list before :: around), .comma => some (value (.list (v :: before) :: around))
  | behind v (.list before :: around), .closing .square =>
    some (behind (.list (v :: before).reverse) around)
  | behind v (.table before k :: around), .comma => some (name ((k, v) :: before) around)
  | behind v (.table before k :: around), .closing .curly =>
    some (behind (.table ((k, v) :: before).reverse) around)
  | _, _ => none

def takeAll (g : Stage) : List Token → Option Stage
  | [] => some g
  | t :: l => (g.take t).bind (takeAll · l)

def done? : Stage → Option Value
  | behind v [] => some v
  | _ => none

end Stage

def ofTokens? (l : List Token) : Option Value := ((Stage.value []).takeAll l).bind Stage.done?

def read? (s : String) : Option Value := (Token.ofText? s).bind ofTokens?

end ArtifactSelection.Value
