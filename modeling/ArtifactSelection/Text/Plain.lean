/-!
Control sequences in a text: colours and other orders to a terminal, each begun by an escape
character. The plain text is what is left without them and without control characters, of which only
the blank ones stay. A sequence lasts until its final character; a control string, whose content is
free, until the next escape or until the terminator, which is looked for among the bytes of the
text. A blank control character breaks a sequence off, unless a string stands there or begins; a
character beyond ASCII is passed over with the sequence that it stands in.
-/

namespace ArtifactSelection.Text

/-- Where a text stands with regard to control sequences. -/
inductive Mode where
  | outside
  | escape
  | intermediate
  | parameters
  | deviceHead
  | deviceParameters
  | deviceIntermediate
  | string
  | command
deriving DecidableEq, Repr

def isBlankControl (c : Char) : Bool := c == '\t' || c == '\n' || c == '\x0c' || c == '\r'

def isControl (c : Char) : Bool := c < ' ' || c == '\x7f'

def isShown (c : Char) : Bool := !isControl c || isBlankControl c

def stringTerminator : UInt8 := 0x9c

/-- What a printable ASCII character does to a sequence. The head of a device control string opens
the string also where it is malformed: by a parameter that comes too late. -/
def Mode.advance (m : Mode) (c : Char) : Mode :=
  match m with
  | outside => outside
  | escape =>
    if c == '[' then parameters
    else if c == ']' then command
    else if c == 'P' then deviceHead
    else if c == 'X' || c == '^' || c == '_' then string
    else if c ≤ '/' then intermediate
    else outside
  | intermediate => if c ≤ '/' then intermediate else outside
  | parameters => if c ≤ '?' then parameters else outside
  | deviceHead =>
    if c ≤ '/' then deviceIntermediate else if c ≤ '?' then deviceParameters else string
  | deviceParameters =>
    if c ≤ '/' then deviceIntermediate else if c ≤ ';' then deviceParameters else string
  | deviceIntermediate => if c ≤ '/' then deviceIntermediate else string
  | string => string
  | command => command

def Mode.passOver (m : Mode) (c : Char) : Mode :=
  if m = string ∧ stringTerminator ∈ String.utf8EncodeChar c then outside else m

/-- Where the text stands behind a character, and whether the character shows. An escape begins anew
and a cancellation ends what is there. -/
def Mode.read (m : Mode) (c : Char) : Mode × Bool :=
  if c == '\x1b' then (escape, false)
  else if c == '\x18' || c == '\x1a' then (outside, false)
  else if '\x7f' < c then (m.passOver c, m = outside)
  else
    match m with
    | outside => (outside, isShown c)
    | string => (string, false)
    | command => (if c == '\x07' then outside else command, false)
    | deviceHead | deviceParameters | deviceIntermediate =>
      (if isControl c then m else m.advance c, false)
    | escape | intermediate | parameters =>
      if isBlankControl c then (outside, true)
      else if isControl c then (m, false)
      else (m.advance c, false)

def plainFrom (m : Mode) : List Char → List Char
  | [] => []
  | c :: s =>
    let (m, shown) := m.read c
    if shown then c :: plainFrom m s else plainFrom m s

def plain (s : String) : String := .ofList (plainFrom .outside s.toList)

end ArtifactSelection.Text
