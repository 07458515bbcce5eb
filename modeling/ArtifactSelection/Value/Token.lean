import ArtifactSelection.Toml.Quoted

/-!
The tokens of a JSON text: brackets, separators, quoted texts and unquoted words. A text is scanned
character by character; what a character means depends on where the scan stands.
-/

namespace ArtifactSelection

inductive Bracket where
  | square
  | curly
deriving DecidableEq, Repr

inductive Token where
  | opening (b : Bracket)
  | closing (b : Bracket)
  | comma
  | colon
  | text (s : String)
  | word (spelling : String)
deriving DecidableEq, Repr

namespace Token

def isBlank (c : Char) : Bool := c == ' ' || c == '\t' || c == '\n' || c == '\r'

def isWordPart (c : Char) : Bool := c.isAlphanum || c == '-' || c == '+' || c == '.'

def escaped? (c : Char) : Option Char := if c = '/' then some '/' else Toml.escaped? c

def isHighHalf (n : Nat) : Bool := 0xd800 ≤ n && n < 0xdc00

def isLowHalf (n : Nat) : Bool := 0xdc00 ≤ n && n < 0xe000

def joinHalves (high low : Nat) : Char :=
  .ofNat (0x10000 + (high - 0xd800) * 0x400 + (low - 0xdc00))

/-- Where a scan stands. What was read of a word or a text is kept, the latest first. -/
inductive Scan where
  | outside
  | word (before : List Char)
  | text (before : List Char)
  | escape (before : List Char)
  | code (before : List Char) (high : Option Nat) (digits : List Nat)
  | half (before : List Char) (high : Nat)
  | halfEscape (before : List Char) (high : Nat)

namespace Scan

def spelled (before : List Char) : String := .ofList before.reverse

def token (t : Token) : Scan × List Token := (outside, [t])

def start (c : Char) : Option (Scan × List Token) :=
  if isWordPart c then some (word [c], [])
  else if isBlank c then some (outside, [])
  else
    match c with
    | '"' => some (text [], [])
    | '[' => some (token (.opening .square))
    | ']' => some (token (.closing .square))
    | '\x7b' => some (token (.opening .curly))
    | '\x7d' => some (token (.closing .curly))
    | ',' => some (token .comma)
    | ':' => some (token .colon)
    | _ => none

def endCode (before : List Char) (high : Option Nat) (n : Nat) : Option Scan :=
  match high with
  | none =>
    if isHighHalf n then some (half before n)
    else if isLowHalf n then none
    else some (text (.ofNat n :: before))
  | some h => if isLowHalf n then some (text (joinHalves h n :: before)) else none

/-- Where the scan stands behind a character, and the tokens that this completes. A word is
completed by the first character that is no part of it. -/
def read : Scan → Char → Option (Scan × List Token)
  | outside, c => start c
  | word before, c =>
    if isWordPart c then some (word (c :: before), [])
    else (start c).map fun (m, tokens) => (m, .word (spelled before) :: tokens)
  | text before, c =>
    if c = '"' then some (token (.text (spelled before)))
    else if c = '\\' then some (escape before, [])
    else if c < ' ' then none
    else some (text (c :: before), [])
  | escape before, c =>
    if c = 'u' then some (code before none [], [])
    else (escaped? c).map fun d => (text (d :: before), [])
  | code before high digits, c =>
    (Toml.hexValue? c).bind fun d =>
      if digits.length < 3 then some (code before high (digits ++ [d]), [])
      else (endCode before high ((digits ++ [d]).foldl (fun n d => 16 * n + d) 0)).map (·, [])
  | half before high, c => if c = '\\' then some (halfEscape before high, []) else none
  | halfEscape before high, c => if c = 'u' then some (code before (some high) [], []) else none

def tokens? : Scan → List Char → Option (List Token)
  | outside, [] => some []
  | word before, [] => some [.word (spelled before)]
  | _, [] => none
  | m, c :: s => (m.read c).bind fun (m, first) => (tokens? m s).map (first ++ ·)

end Scan

def ofText? (s : String) : Option (List Token) := Scan.outside.tokens? s.toList

end Token

end ArtifactSelection
