/-!
Quoted texts of TOML. A basic text has escapes and a literal one has none; both come on one line or
on several. Each reader starts behind the opening quotes and gives the text with what follows the
closing ones.
-/

namespace ArtifactSelection.Toml

def isPlain (c : Char) : Bool := c == '\t' || (0x20 ≤ c.toNat && c.toNat != 0x7f)

def isBlank (c : Char) : Bool := c == ' ' || c == '\t'

def hexValue? (c : Char) : Option Nat :=
  if '0' ≤ c ∧ c ≤ '9' then some (c.toNat - '0'.toNat)
  else if 'a' ≤ c ∧ c ≤ 'f' then some (c.toNat - 'a'.toNat + 10)
  else if 'A' ≤ c ∧ c ≤ 'F' then some (c.toNat - 'A'.toNat + 10)
  else none

def codePoint? (digits : List Char) : Option Char := do
  let values ← digits.mapM hexValue?
  let n := values.foldl (fun n d => 16 * n + d) 0
  if n.isValidChar then return Char.ofNat n else none

def escaped? : Char → Option Char
  | 'b' => some '\x08'
  | 't' => some '\t'
  | 'n' => some '\n'
  | 'f' => some '\x0c'
  | 'r' => some '\r'
  | '"' => some '"'
  | '\\' => some '\\'
  | _ => none

def put (c : Option Char) (r : Option (List Char × List Char)) : Option (List Char × List Char) :=
  match c, r with
  | some c, some (t, rest) => some (c :: t, rest)
  | _, _ => none

def basic : List Char → Option (List Char × List Char)
  | [] => none
  | '"' :: s => some ([], s)
  | '\\' :: 'u' :: a :: b :: c :: d :: s => put (codePoint? [a, b, c, d]) (basic s)
  | '\\' :: 'U' :: a :: b :: c :: d :: e :: f :: g :: h :: s =>
    put (codePoint? [a, b, c, d, e, f, g, h]) (basic s)
  | '\\' :: c :: s => put (escaped? c) (basic s)
  | c :: s => if isPlain c then put (some c) (basic s) else none

def literal : List Char → Option (List Char × List Char)
  | [] => none
  | '\'' :: s => some ([], s)
  | c :: s => if isPlain c then put (some c) (literal s) else none

def endsLine (s : List Char) : Bool :=
  match s.dropWhile isBlank with
  | '\n' :: _ => true
  | '\r' :: '\n' :: _ => true
  | _ => false

/-- A basic text on several lines; with `skipping`, behind a backslash that ends a line, blanks and
line ends are passed over. Up to two quotes belong to the text even before the closing three. -/
def basicLines : Bool → List Char → Option (List Char × List Char)
  | _, [] => none
  | true, '\n' :: s => basicLines true s
  | true, '\r' :: '\n' :: s => basicLines true s
  | true, ' ' :: s => basicLines true s
  | true, '\t' :: s => basicLines true s
  | _, '"' :: '"' :: '"' :: '"' :: '"' :: s => some (['"', '"'], s)
  | _, '"' :: '"' :: '"' :: '"' :: s => some (['"'], s)
  | _, '"' :: '"' :: '"' :: s => some ([], s)
  | _, '\\' :: 'u' :: a :: b :: c :: d :: s => put (codePoint? [a, b, c, d]) (basicLines false s)
  | _, '\\' :: 'U' :: a :: b :: c :: d :: e :: f :: g :: h :: s =>
    put (codePoint? [a, b, c, d, e, f, g, h]) (basicLines false s)
  | _, '\\' :: c :: s =>
    if endsLine (c :: s) then basicLines true s else put (escaped? c) (basicLines false s)
  | _, '\r' :: '\n' :: s => put (some '\r') (put (some '\n') (basicLines false s))
  | _, c :: s => if isPlain c || c == '\n' then put (some c) (basicLines false s) else none

def literalLines : List Char → Option (List Char × List Char)
  | [] => none
  | '\'' :: '\'' :: '\'' :: '\'' :: '\'' :: s => some (['\'', '\''], s)
  | '\'' :: '\'' :: '\'' :: '\'' :: s => some (['\''], s)
  | '\'' :: '\'' :: '\'' :: s => some ([], s)
  | '\r' :: '\n' :: s => put (some '\r') (put (some '\n') (literalLines s))
  | c :: s => if isPlain c || c == '\n' then put (some c) (literalLines s) else none

def dropLineEnd : List Char → List Char
  | '\n' :: s => s
  | '\r' :: '\n' :: s => s
  | s => s

def quoted? : List Char → Option (List Char × List Char)
  | '"' :: '"' :: '"' :: s => basicLines false (dropLineEnd s)
  | '"' :: s => basic s
  | '\'' :: '\'' :: '\'' :: s => literalLines (dropLineEnd s)
  | '\'' :: s => literal s
  | _ => none

end ArtifactSelection.Toml
