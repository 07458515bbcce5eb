import ArtifactSelection.Toml.Quoted
import ArtifactSelection.Toml.Scalar
import ArtifactSelection.Toml.Tree

/-!
The statements of a TOML document: headers of tables, headers of tables of an array, and
assignments. Values nest, so reading one takes fuel. A bracket and the one that closes it pay for two
steps and a comma for one, so the length of a text is fuel enough for all that can be read in it.
-/

namespace ArtifactSelection.Toml

inductive Statement where
  | header (path : List String) (k : String)
  | arrayHeader (path : List String) (k : String)
  | assignment (path : List String) (k : String) (v : Value)

def filler (inComment : Bool) : List Char → Option (List Char)
  | [] => some []
  | '\n' :: s => filler false s
  | '\r' :: '\n' :: s => filler false s
  | c :: s =>
    if inComment then if isPlain c then filler true s else none
    else if c == '#' then filler true s
    else if isBlank c then filler false s
    else some (c :: s)

def statementEnd (inComment : Bool) : List Char → Option (List Char)
  | [] => some []
  | '\n' :: s => some s
  | '\r' :: '\n' :: s => some s
  | c :: s =>
    if inComment then if isPlain c then statementEnd true s else none
    else if c == '#' then statementEnd true s
    else if isBlank c then statementEnd false s
    else none

def blanks (s : List Char) : List Char := s.dropWhile isBlank

def isBareKeyPart (c : Char) : Bool := c.isAlphanum || c == '_' || c == '-'

def keyPart? : List Char → Option (String × List Char)
  | '"' :: s => (basic s).map fun (t, rest) => (.ofList t, rest)
  | '\'' :: s => (literal s).map fun (t, rest) => (.ofList t, rest)
  | s =>
    let part := s.takeWhile isBareKeyPart
    if part.isEmpty then none else some (.ofList part, s.dropWhile isBareKeyPart)

def nestingLimit : Nat := 80

def key? : Nat → List Char → Option (List String × String × List Char)
  | 0, _ => none
  | n + 1, s => do
    let (part, s) ← keyPart? s
    match blanks s with
    | '.' :: s =>
      let (path, last, s) ← key? n (blanks s)
      return (part :: path, last, s)
    | s => return ([], part, s)

mutual

def value? (levels : Nat) : Nat → List Char → Option (Value × List Char)
  | 0, _ => none
  | n + 1, s =>
    match s, levels with
    | '[' :: _, 0 => none
    | '\x7b' :: _, 0 => none
    | '[' :: s, levels + 1 => (elements? levels n s).map fun (l, rest) => (.list l, rest)
    | '\x7b' :: s, levels + 1 =>
      match blanks s with
      | '\x7d' :: s => some (.table [], s)
      | s => (pairs? levels n s []).map fun (b, rest) => (.table (Node.fieldValues b), rest)
    | '"' :: _, _ | '\'' :: _, _ => (quoted? s).map fun (t, rest) => (.text (.ofList t), rest)
    | s, _ =>
      let (text, rest) := cutScalar s
      (scalar? text).map (·, rest)

def elements? (levels : Nat) : Nat → List Char → Option (List Value × List Char)
  | 0, _ => none
  | n + 1, s => do
    match ← filler false s with
    | ']' :: s => return ([], s)
    | s =>
      let (v, s) ← value? levels n s
      match ← filler false s with
      | ',' :: s =>
        let (l, s) ← elements? levels n s
        return (v :: l, s)
      | ']' :: s => return ([v], s)
      | _ => none

def pairs? (levels : Nat) : Nat → List Char → Branch → Option (Branch × List Char)
  | 0, _, _ => none
  | n + 1, s, b => do
    let (path, k, s) ← key? nestingLimit (blanks s)
    match s with
    | '=' :: s =>
      let (v, s) ← value? levels n (blanks s)
      let b ← b.assign path k v .byHeader
      match blanks s with
      | ',' :: s => pairs? levels n s b
      | '\x7d' :: s => return (b, s)
      | _ => none
    | _ => none

end

def Statement.read? (fuel : Nat) (s : List Char) : Option (Statement × List Char) :=
  match s with
  | '[' :: '[' :: s => do
    let (path, k, s) ← key? nestingLimit (blanks s)
    match s with
    | ']' :: ']' :: s => return (.arrayHeader path k, ← statementEnd false s)
    | _ => none
  | '[' :: s => do
    let (path, k, s) ← key? nestingLimit (blanks s)
    match s with
    | ']' :: s => return (.header path k, ← statementEnd false s)
    | _ => none
  | s => do
    let (path, k, s) ← key? nestingLimit s
    match s with
    | '=' :: s =>
      let (v, s) ← value? nestingLimit fuel (blanks s)
      return (.assignment path k v, ← statementEnd false s)
    | _ => none

def statements? : Nat → List Char → Option (List Statement)
  | 0, _ => none
  | n + 1, s => do
    match ← filler false s with
    | [] => return []
    | s =>
      let (statement, rest) ← Statement.read? (s.length + 1) s
      let later ← statements? n rest
      return statement :: later

end ArtifactSelection.Toml
