import ArtifactSelection.Value

/-!
Unquoted values of TOML: truth values, numbers, dates and times. None of them is told by a mark of
its own, so a value is first cut out and then recognised. A date or a time counts as a table with a
single field of a reserved name.

The spelling of an integer is recognised more widely than it can be read: a base may stand without
digits, and in base ten more than digits may stand behind an underscore. Such a value is well written
as long as nothing reads it.
-/

namespace ArtifactSelection.Toml

def isSeparated (isDigit : Char → Bool) (afterDigit : Bool) : List Char → Bool
  | [] => true
  | ['_'] => false
  | '_' :: c :: s => afterDigit && isDigit c && isSeparated isDigit true s
  | c :: s => isSeparated isDigit (isDigit c) s

def withoutUnderscores (s : List Char) : List Char := s.filter (· != '_')

def digitValue (c : Char) : Nat :=
  if c.isDigit then c.toNat - '0'.toNat
  else if c.isUpper then c.toNat - 'A'.toNat + 10
  else c.toNat - 'a'.toNat + 10

def isHexDigit (c : Char) : Bool :=
  c.isDigit || ('a' ≤ c && c ≤ 'f') || ('A' ≤ c && c ≤ 'F')

def isDigitOf (base : Nat) (c : Char) : Bool := isHexDigit c && digitValue c < base

def number (base : Nat) (s : List Char) : Nat := s.foldl (fun n c => base * n + digitValue c) 0

def unsigned : List Char → List Char
  | '-' :: s => s
  | '+' :: s => s
  | s => s

def hasNeedlessZero : List Char → Bool
  | '0' :: c :: _ => c.isDigit || c == '_'
  | _ => false

def isExponentMark (c : Char) : Bool := c == 'e' || c == 'E'

/-- What is spelled as an integer in base ten: digits, and from an underscore on anything but a point
or an exponent mark, with which it is to be a decimal number. -/
def isWhole (s : List Char) : Bool :=
  let d := unsigned s
  let rest := d.dropWhile Char.isDigit
  !d.isEmpty && !hasNeedlessZero d && isSeparated isHexDigit false d &&
    (rest.isEmpty || rest.head? == some '_') && rest.all fun c => c != '.' && !isExponentMark c

structure Numeral where
  negative : Bool
  base : Nat
  digits : List Char

namespace Numeral

def inBase? (base : Nat) (d : List Char) : Option Numeral :=
  let digits := withoutUnderscores d
  if isSeparated (isDigitOf base) false d && digits.all (isDigitOf base) then
    some ⟨false, base, digits⟩
  else none

def ofSpelling? : List Char → Option Numeral
  | '0' :: 'x' :: d => inBase? 16 d
  | '0' :: 'o' :: d => inBase? 8 d
  | '0' :: 'b' :: d => inBase? 2 d
  | s =>
    if isWhole s then some ⟨s.head? == some '-', 10, withoutUnderscores (unsigned s)⟩ else none

def read? (n : Numeral) : Option Int :=
  if n.digits.isEmpty || !n.digits.all (isDigitOf n.base) then none
  else if n.negative then some (-(number n.base n.digits : Int))
  else some (number n.base n.digits)

end Numeral

def isExponent : List Char → Bool
  | c :: s => isExponentMark c && !(unsigned s).isEmpty && (unsigned s).all Char.isDigit
  | [] => false

def isDecimal (s : List Char) : Bool :=
  let d := unsigned s
  let digits := withoutUnderscores d
  d == ['i', 'n', 'f'] || d == ['n', 'a', 'n'] ||
    !hasNeedlessZero d && isSeparated Char.isDigit false d &&
      !(digits.takeWhile Char.isDigit).isEmpty &&
      match digits.dropWhile Char.isDigit with
      | '.' :: s =>
        let exponent := s.dropWhile Char.isDigit
        !(s.takeWhile Char.isDigit).isEmpty && (exponent.isEmpty || isExponent exponent)
      | s => isExponent s

def pair? (a b : Char) : Option Nat :=
  if a.isDigit && b.isDigit then some (number 10 [a, b]) else none

def monthLength (year month : Nat) : Nat :=
  if month == 2 then if year % 4 == 0 && (year % 100 != 0 || year % 400 == 0) then 29 else 28
  else if month == 4 || month == 6 || month == 9 || month == 11 then 30
  else 31

def date? : List Char → Option (List Char × List Char)
  | y₁ :: y₂ :: y₃ :: y₄ :: '-' :: m₁ :: m₂ :: '-' :: d₁ :: d₂ :: s => do
    let century ← pair? y₁ y₂
    let year ← pair? y₃ y₄
    let month ← pair? m₁ m₂
    let day ← pair? d₁ d₂
    guard (1 ≤ month && month ≤ 12 && 1 ≤ day && day ≤ monthLength (100 * century + year) month)
    return ([y₁, y₂, y₃, y₄, '-', m₁, m₂, '-', d₁, d₂], s)
  | _ => none

def shownFraction (digits : List Char) : List Char :=
  let kept := ((digits.take 9).reverse.dropWhile (· == '0')).reverse
  if kept.isEmpty then [] else '.' :: kept

def time? : List Char → Option (List Char × List Char)
  | h₁ :: h₂ :: ':' :: m₁ :: m₂ :: ':' :: s₁ :: s₂ :: s => do
    let hour ← pair? h₁ h₂
    let minute ← pair? m₁ m₂
    let second ← pair? s₁ s₂
    guard (hour ≤ 23 && minute ≤ 59 && second ≤ 60)
    let shown := [h₁, h₂, ':', m₁, m₂, ':', s₁, s₂]
    match s with
    | '.' :: s =>
      let digits := s.takeWhile Char.isDigit
      guard !digits.isEmpty
      return (shown ++ shownFraction digits, s.dropWhile Char.isDigit)
    | s => return (shown, s)
  | _ => none

def offset? : List Char → Option (List Char)
  | [] => some []
  | ['Z'] => some ['Z']
  | ['z'] => some ['Z']
  | [sign, h₁, h₂, ':', m₁, m₂] => do
    guard (sign == '+' || sign == '-')
    let hour ← pair? h₁ h₂
    let minute ← pair? m₁ m₂
    guard (hour ≤ 23 && minute ≤ 59)
    return (if hour + minute == 0 then '+' else sign) :: [h₁, h₂, ':', m₁, m₂]
  | _ => none

def dateTime? (s : List Char) : Option (List Char) :=
  match date? s with
  | some (date, []) => some date
  | some (date, c :: rest) => do
    guard (c == 'T' || c == 't' || c == ' ')
    let (time, rest) ← time? rest
    let offset ← offset? rest
    return date ++ 'T' :: time ++ offset
  | none => do
    let (time, rest) ← time? s
    guard rest.isEmpty
    return time

def dateTimeField : String := "$__toml_private_datetime"

def scalar? (s : List Char) : Option Value :=
  if s == ['t', 'r', 'u', 'e'] then some (.bool true)
  else if s == ['f', 'a', 'l', 's', 'e'] then some (.bool false)
  else
    match Numeral.ofSpelling? s with
    | some n => some ((n.read?.map Value.integer).getD (.decimal (.ofList s)))
    | none =>
      if isDecimal s then some (.decimal (.ofList s))
      else (dateTime? s).map fun t => .table [(dateTimeField, .text (.ofList t))]

def isScalarPart (c : Char) : Bool :=
  !([' ', '\t', '\n', '\r', '#', '=', ',', '[', ']', '\x7b', '\x7d'].contains c)

/-- Cuts out an unquoted value. A single blank may stand between a date and its time. -/
def cutScalar (s : List Char) : List Char × List Char :=
  let first := s.takeWhile isScalarPart
  match date? first, s.dropWhile isScalarPart with
  | some (_, []), ' ' :: c :: rest =>
    if c.isDigit then
      (first ++ ' ' :: (c :: rest).takeWhile isScalarPart, (c :: rest).dropWhile isScalarPart)
    else (first, ' ' :: c :: rest)
  | _, rest => (first, rest)

end ArtifactSelection.Toml
