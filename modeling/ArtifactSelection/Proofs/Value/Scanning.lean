import ArtifactSelection.Value.Reader
import ArtifactSelection.Value.TextFormat
import Mathlib.Data.List.Forall2

/-!
Scanning what was written. The text of a value is made of the texts of its tokens, with nothing
between them, so the scan gives these tokens back. Only a word needs a neighbour to end it, and in a
written text it always has one that is no part of a word.
-/

namespace ArtifactSelection

namespace Token

namespace Scan

theorem tokens?_cons (m : Scan) (c : Char) (s : List Char) :
    m.tokens? (c :: s) = (m.read c).bind fun (m, first) => (m.tokens? s).map (first ++ ·) := by
  cases m <;> rfl

variable {m n : Scan} {c : Char}

theorem tokens?_of_read (step : m.read c = some (n, [])) (s : List Char) :
    m.tokens? (c :: s) = n.tokens? s := by
  rw [tokens?_cons, step]
  simp

theorem tokens?_of_start {t : Token} (step : start c = some (token t)) (s : List Char) :
    outside.tokens? (c :: s) = (outside.tokens? s).map (t :: ·) := by
  rw [tokens?_cons, read, step]
  rfl

theorem start_of_isWordPart (part : isWordPart c) : start c = some (word [c], []) := by
  unfold start
  exact if_pos part

end Scan

def Ends (s : List Char) : Prop := ∀ c ∈ s.head?, isWordPart c = false

/-- The text gives these tokens before any text that does not go on with a word. -/
def Scans (s : List Char) (l : List Token) : Prop :=
  ∀ rest, Ends rest →
    Scan.outside.tokens? (s ++ rest) = (Scan.outside.tokens? rest).map (l ++ ·)

open Scan

/-! ### Words -/

theorem tokens?_word {before s rest : List Char} (parts : ∀ c ∈ s, isWordPart c)
    (ends : Ends rest) :
    (Scan.word before).tokens? (s ++ rest) =
      (outside.tokens? rest).map (Token.word (spelled (s.reverse ++ before)) :: ·) := by
  induction s generalizing before with
  | nil =>
    cases rest with
    | nil => rfl
    | cons c rest =>
      have last : isWordPart c = false := ends c rfl
      rw [List.nil_append, tokens?_cons, tokens?_cons, Scan.read, Scan.read, last]
      cases start c with
      | none => rfl
      | some next => simp [Function.comp_def]
  | cons c s ih =>
    have step : (Scan.word before).read c = some (Scan.word (c :: before), []) := by
      rw [Scan.read, if_pos (parts c List.mem_cons_self)]
    rw [List.cons_append, tokens?_of_read step, ih fun d hd => parts d (List.mem_cons_of_mem c hd)]
    simp

theorem scans_word {s : String} (parts : s.toList.all isWordPart) (written : s ≠ "") :
    Scans s.toList [.word s] := by
  intro rest ends
  rw [List.all_eq_true] at parts
  obtain ⟨c, l, text⟩ := List.exists_cons_of_ne_nil (mt String.toList_eq_nil_iff.1 written)
  rw [text] at parts ⊢
  have step : outside.read c = some (Scan.word [c], []) :=
    start_of_isWordPart (parts c List.mem_cons_self)
  rw [List.cons_append, tokens?_of_read step,
    tokens?_word (fun d hd => parts d (List.mem_cons_of_mem c hd)) ends]
  simp [spelled, ← text]

/-! ### Quoted texts -/

theorem hexValue?_digitChar {d : Nat} (h : d < 16) :
    Toml.hexValue? (Nat.digitChar d) = some d := by
  have all : ∀ d : Fin 16, Toml.hexValue? (Nat.digitChar d) = some d.val := by decide
  exact all ⟨d, h⟩

theorem tokens?_control {c : Char} (control : c.toNat < 0x20) (before s : List Char) :
    (Scan.text before).tokens?
        ('\\' :: 'u' :: '0' :: '0' :: Nat.digitChar (c.toNat / 16) ::
          Nat.digitChar (c.toNat % 16) :: s) =
      (Scan.text (c :: before)).tokens? s := by
  have high : c.toNat / 16 < 16 := by omega
  have low : c.toNat % 16 < 16 := Nat.mod_lt _ (by decide)
  have whole : 16 * (c.toNat / 16) + c.toNat % 16 = c.toNat := Nat.div_add_mod _ _
  have unpaired : isHighHalf c.toNat = false ∧ isLowHalf c.toNat = false := by
    simp [isHighHalf, isLowHalf]
    omega
  rw [tokens?_of_read (n := .escape before) rfl, tokens?_of_read (n := .code before none []) rfl,
    tokens?_of_read (n := .code before none [0]) rfl,
    tokens?_of_read (n := .code before none [0, 0]) rfl,
    tokens?_of_read (n := .code before none [0, 0, c.toNat / 16])
      (by simp [Scan.read, hexValue?_digitChar high])]
  refine tokens?_of_read ?_ s
  simp [Scan.read, hexValue?_digitChar low, endCode, whole, unpaired]

theorem tokens?_escape (c : Char) (before s : List Char) :
    (Scan.text before).tokens? ((Value.escape c).toList ++ s) =
      (Scan.text (c :: before)).tokens? s := by
  unfold Value.escape
  split
  case h_8 quote backslash b f n r t =>
    split
    · next control => simpa using tokens?_control control before s
    · next printed =>
      have visible : ¬c < ' ' := fun below => printed (Char.lt_def.1 below)
      have step : (Scan.text before).read c = some (.text (c :: before), []) := by
        rw [Scan.read, if_neg quote, if_neg backslash, if_neg visible]
      simpa using tokens?_of_read step s
  all_goals
    simp only [String.reduceToList, List.cons_append, List.nil_append]
    rw [tokens?_of_read (n := .escape before) rfl, tokens?_of_read (n := .text (_ :: before)) rfl]

theorem tokens?_quoted (s : String) (rest : List Char) :
    outside.tokens? ((Value.quoted s).toList ++ rest) =
      (outside.tokens? rest).map (Token.text s :: ·) := by
  have inside (l before : List Char) :
      (Scan.text before).tokens? ((l.map Value.escape).flatMap String.toList ++ '"' :: rest) =
        (outside.tokens? rest).map (Token.text (spelled (l.reverse ++ before)) :: ·) := by
    induction l generalizing before with
    | nil =>
      rw [List.map_nil, List.flatMap_nil, List.nil_append, tokens?_cons]
      rfl
    | cons c l ih =>
      rw [List.map_cons, List.flatMap_cons, List.append_assoc, tokens?_escape, ih]
      simp
  have opened : outside.read '"' = some (.text [], []) := rfl
  have shape : (Value.quoted s).toList ++ rest =
      '"' :: ((s.toList.map Value.escape).flatMap String.toList ++ '"' :: rest) := by
    simp [Value.quoted, String.toList_join]
  rw [shape, tokens?_of_read opened, inside]
  simp [spelled]

theorem scans_quoted (s : String) : Scans (Value.quoted s).toList [.text s] :=
  fun rest _ => tokens?_quoted s rest

/-! ### Lists and tables -/

theorem scans_field (k : String) {s : List Char} {l : List Token} (value : Scans s l) :
    Scans ((Value.quoted k).toList ++ ':' :: s) (.text k :: .colon :: l) := by
  intro rest ends
  rw [List.append_assoc, List.cons_append, tokens?_quoted, tokens?_of_start (t := .colon) rfl,
    value rest ends]
  simp [Function.comp_def]

theorem scans_separated {texts : List (List Char)} {parts : List (List Token)}
    (each : List.Forall₂ Scans texts parts) :
    Scans ([','].intercalate texts) ([.comma].intercalate parts) := by
  induction each with
  | nil =>
    intro rest _
    simp
  | @cons s l texts parts first others ih =>
    intro rest ends
    cases others with
    | nil => simpa using first rest ends
    | cons second others =>
      have ended (behind : List Char) : Ends (',' :: behind) := by
        rintro c ⟨⟩
        rfl
      rw [List.intercalate_cons_cons, List.intercalate_cons_cons, List.append_assoc,
        List.append_assoc, List.singleton_append, first _ (ended _),
        tokens?_of_start (t := .comma) rfl, ih rest ends]
      simp [Function.comp_def]

theorem tokens?_bracketed {opening closing : Char} {b : Bracket}
    (opens : start opening = some (token (.opening b)))
    (closes : start closing = some (token (.closing b))) (ended : isWordPart closing = false)
    {texts : List (List Char)} {parts : List (List Token)} (each : List.Forall₂ Scans texts parts)
    (rest : List Char) :
    outside.tokens? (opening :: ([','].intercalate texts ++ closing :: rest)) =
      (outside.tokens? rest).map
        (.opening b :: ([.comma].intercalate parts ++ [.closing b]) ++ ·) := by
  have ends : Ends (closing :: rest) := by
    rintro c ⟨⟩
    exact ended
  rw [tokens?_of_start opens, scans_separated each _ ends, tokens?_of_start closes]
  simp [Function.comp_def]

end Token

namespace Value

@[elab_as_elim]
theorem induction_on {motive : Value → Prop} (v : Value) (null : motive .null)
    (bool : ∀ b, motive (.bool b)) (integer : ∀ n, motive (.integer n))
    (decimal : ∀ s, motive (.decimal s)) (text : ∀ s, motive (.text s))
    (list : ∀ l, (∀ v ∈ l, motive v) → motive (.list l))
    (table : ∀ fields, (∀ p ∈ fields, motive p.2) → motive (.table fields)) : motive v :=
  @Value.rec motive (fun l => ∀ v ∈ l, motive v) (fun l => ∀ p ∈ l, motive p.2)
    (fun p => motive p.2) null bool integer decimal text list table (List.forall_mem_nil _)
    (fun _ _ first rest => List.forall_mem_cons.2 ⟨first, rest⟩) (List.forall_mem_nil _)
    (fun _ _ first rest => List.forall_mem_cons.2 ⟨first, rest⟩) (fun _ _ h => h) v

mutual

def tokens : Value → List Token
  | null => [.word "null"]
  | bool b => [.word (toString b)]
  | integer n => [.word (toString n)]
  | decimal s => [.word s]
  | text s => [.text s]
  | list l => .opening .square :: ([.comma].intercalate (eachTokens l) ++ [.closing .square])
  | table fields =>
    .opening .curly :: ([.comma].intercalate (fieldTokens fields) ++ [.closing .curly])

def eachTokens : List Value → List (List Token)
  | [] => []
  | v :: l => v.tokens :: eachTokens l

def fieldTokens : List (String × Value) → List (List Token)
  | [] => []
  | (k, v) :: l => (.text k :: .colon :: v.tokens) :: fieldTokens l

end

/-! ### Values -/

theorem lines_eq_map (l : List Value) : lines l = l.map line := by
  induction l with
  | nil => rfl
  | cons v l ih => rw [lines, ih, List.map_cons]

theorem eachTokens_eq_map (l : List Value) : eachTokens l = l.map tokens := by
  induction l with
  | nil => rfl
  | cons v l ih => rw [eachTokens, ih, List.map_cons]

theorem fieldLines_eq_map (fields : List (String × Value)) :
    fieldLines fields = fields.map fun p => quoted p.1 ++ ":" ++ p.2.line := by
  induction fields with
  | nil => rfl
  | cons p l ih => rw [fieldLines, ih, List.map_cons]

theorem fieldTokens_eq_map (fields : List (String × Value)) :
    fieldTokens fields = fields.map fun p => .text p.1 :: .colon :: p.2.tokens := by
  induction fields with
  | nil => rfl
  | cons p l ih => rw [fieldTokens, ih, List.map_cons]

open Token (Scans isWordPart scans_word scans_field tokens?_bracketed)

theorem toList_toString_ofNat (n : Nat) : (toString (Int.ofNat n)).toList = Nat.toDigits 10 n := by
  have shown : toString (Int.ofNat n) = toString n := rfl
  rw [shown, Nat.toString_eq_ofList_toDigits, String.toList_ofList]

theorem toList_toString_negSucc (n : Nat) :
    (toString (Int.negSucc n)).toList = '-' :: Nat.toDigits 10 (n + 1) := by
  have shown : toString (Int.negSucc n) = "-" ++ toString (n + 1) := rfl
  simp [shown]

theorem isDigit_of_mem_toDigits {n : Nat} {c : Char} (h : c ∈ Nat.toDigits 10 n) : c.isDigit :=
  Nat.isDigit_of_mem_toDigits (by decide) (Nat.le_refl 10) h

theorem sign_or_digit {n : Int} {c : Char} (h : c ∈ (toString n).toList) :
    c = '-' ∨ c.isDigit := by
  cases n with
  | ofNat n =>
    rw [toList_toString_ofNat] at h
    exact .inr (isDigit_of_mem_toDigits h)
  | negSucc n =>
    rw [toList_toString_negSucc, List.mem_cons] at h
    exact h.imp_right isDigit_of_mem_toDigits

theorem scans_integer (n : Int) : Scans (toString n).toList [.word (toString n)] := by
  refine scans_word (List.all_eq_true.2 fun c h => ?_) ?_
  · rcases sign_or_digit h with rfl | digit
    · rfl
    · simp [isWordPart, Char.isAlphanum, digit]
  · rw [Ne, ← String.toList_eq_nil_iff]
    cases n with
    | ofNat n => exact toList_toString_ofNat n ▸ Nat.toDigits_ne_nil
    | negSucc n => exact toList_toString_negSucc n ▸ List.cons_ne_nil _ _

theorem scans_line {v : Value} (portable : v.isPortable) : Scans v.line.toList v.tokens := by
  induction v using induction_on with
  | null => exact scans_word rfl (by decide)
  | bool b => cases b <;> exact scans_word rfl (by decide)
  | integer n => exact scans_integer n
  | decimal s => cases portable
  | text s => exact Token.scans_quoted s
  | list l ih =>
    rw [isPortable, arePortable_eq_all, List.all_eq_true] at portable
    intro rest _
    have each : List.Forall₂ Scans (l.map (·.line.toList)) (l.map tokens) := by
      rw [List.forall₂_map_left_iff, List.forall₂_map_right_iff, List.forall₂_same]
      exact fun v h => ih v h (portable v h)
    have shape : (list l).line.toList ++ rest =
        '[' :: ([','].intercalate (l.map (·.line.toList)) ++ ']' :: rest) := by
      simp [line, lines_eq_map, String.toList_intercalate, Function.comp_def]
    rw [shape, tokens?_bracketed (b := .square) rfl rfl rfl each]
    simp [tokens, eachTokens_eq_map]
  | table fields ih =>
    rw [isPortable, fieldsArePortable_eq_all, Bool.and_eq_true, List.all_eq_true] at portable
    intro rest _
    have each : List.Forall₂ Scans
        (fields.map fun p => (quoted p.1).toList ++ ':' :: p.2.line.toList)
        (fields.map fun p => .text p.1 :: .colon :: p.2.tokens) := by
      rw [List.forall₂_map_left_iff, List.forall₂_map_right_iff, List.forall₂_same]
      exact fun p h => scans_field p.1 (ih p h (portable.2 p h))
    have shape : (table fields).line.toList ++ rest =
        '\x7b' :: ([','].intercalate
          (fields.map fun p => (quoted p.1).toList ++ ':' :: p.2.line.toList) ++
            '\x7d' :: rest) := by
      simp [line, fieldLines_eq_map, String.toList_intercalate, Function.comp_def]
    rw [shape, tokens?_bracketed (b := .curly) rfl rfl rfl each]
    simp [tokens, fieldTokens_eq_map]

theorem ofText?_line {v : Value} (portable : v.isPortable) :
    Token.ofText? v.line = some v.tokens := by
  have whole := scans_line portable [] nofun
  rw [List.append_nil] at whole
  rw [Token.ofText?, whole]
  simp [Token.Scan.tokens?]

end Value

end ArtifactSelection
