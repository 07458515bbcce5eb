/-!
Data values, as data files and messages carry them. A record is read from a table by the names of
its fields, or from a list by their order. Values are written as JSON, on one line or indented.
-/

namespace ArtifactSelection

inductive Value where
  | null
  | bool (b : Bool)
  | integer (n : Int)
  | decimal (spelling : String)
  | text (s : String)
  | list (l : List Value)
  | table (fields : List (String × Value))
deriving Repr

namespace Value

instance : Inhabited Value := ⟨null⟩

def escape (c : Char) : String :=
  match c with
  | '"' => "\\\""
  | '\\' => "\\\\"
  | '\x08' => "\\b"
  | '\x0c' => "\\f"
  | '\n' => "\\n"
  | '\r' => "\\r"
  | '\t' => "\\t"
  | c =>
    if c.toNat < 0x20 then
      "\\u00" ++ .ofList [Nat.digitChar (c.toNat / 16), Nat.digitChar (c.toNat % 16)]
    else .ofList [c]

def quoted (s : String) : String := "\"" ++ String.join (s.toList.map escape) ++ "\""

mutual

def line : Value → String
  | null => "null"
  | bool b => toString b
  | integer n => toString n
  | decimal s => s
  | text s => quoted s
  | list l => "[" ++ ",".intercalate (lines l) ++ "]"
  | table fields => "\x7b" ++ ",".intercalate (fieldLines fields) ++ "\x7d"

def lines : List Value → List String
  | [] => []
  | v :: l => v.line :: lines l

def fieldLines : List (String × Value) → List String
  | [] => []
  | (k, v) :: l => (quoted k ++ ":" ++ v.line) :: fieldLines l

end

def block (opening closing margin : String) (members : List String) : String :=
  if members.isEmpty then opening ++ closing
  else
    opening ++ "\n" ++ ",\n".intercalate (members.map ((margin ++ "  ") ++ ·)) ++ "\n" ++ margin ++
      closing

mutual

def indented (margin : String) : Value → String
  | list l => block "[" "]" margin (indentedAll (margin ++ "  ") l)
  | table fields => block "\x7b" "\x7d" margin (indentedFields (margin ++ "  ") fields)
  | null => line null
  | bool b => line (bool b)
  | integer n => line (integer n)
  | decimal s => line (decimal s)
  | text s => line (text s)

def indentedAll (margin : String) : List Value → List String
  | [] => []
  | v :: l => v.indented margin :: indentedAll margin l

def indentedFields (margin : String) : List (String × Value) → List String
  | [] => []
  | (k, v) :: l => (quoted k ++ ": " ++ v.indented margin) :: indentedFields margin l

end

def document (v : Value) : String := v.indented ""

def text? : Value → Option String
  | text s => some s
  | _ => none

def bool? : Value → Option Bool
  | bool b => some b
  | _ => none

def word? : Value → Option UInt64
  | integer (.ofNat n) => if h : n < UInt64.size then some (.ofNatLT n h) else none
  | _ => none

def listOf? {α : Type} (read : Value → Option α) : Value → Option (List α)
  | list l => l.mapM read
  | _ => none

inductive Surplus where
  | refused
  | passedOver
deriving DecidableEq, Repr

/-- The fields of a record with the given names, by name. None of them may stand in a table twice,
and from a table that is to be `exact` no other field is taken. A list gives the fields in the order
of their names and may end early. -/
def fields? (names : List String) (exact : Bool) (surplus : Surplus) :
    Value → Option (String → Option Value)
  | table fields =>
    if exact && !fields.all (names.contains ·.1) then none
    else if ((fields.map (·.1)).filter names.contains).Nodup then some fun n => fields.lookup n
    else none
  | list l =>
    if surplus == .refused && names.length < l.length then none
    else some fun n => (names.zip l).lookup n
  | _ => none

def required {α : Type} (read : Value → Option α) (field : Option Value) : Option α :=
  field.bind read

def defaulted {α : Type} (default : α) (read : Value → Option α) (field : Option Value) : Option α :=
  match field with
  | none => some default
  | some v => read v

def optional {α : Type} (read : Value → Option α) (field : Option Value) : Option (Option α) :=
  match field with
  | none | some null => some none
  | some v => (read v).map some

def setField (name : String) (s : Option String) : List (String × Value) :=
  match s with
  | none => []
  | some s => [(name, text s)]

end Value

end ArtifactSelection
