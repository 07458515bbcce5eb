import ArtifactSelection.Proofs.Value.Scanning
import Mathlib.Data.List.TakeWhile

/-!
Reading what was written. The tokens of a value lead from the stage where a value may come to the
stage behind that value, whatever is open around it; so the tokens of a whole text give its value
back.
-/

namespace ArtifactSelection.Value

/-! ### Numbers -/

theorem isWhole_toDigits (n : Nat) : isWhole (Nat.toDigits 10 n) := by
  have first (n : Nat) (some : 0 < n) : ∃ c l, Nat.toDigits 10 n = c :: l ∧ c ≠ '0' := by
    induction n using Nat.strongRecOn with
    | ind n ih =>
      by_cases small : n < 10
      · refine ⟨n.digitChar, [], Nat.toDigits_of_lt_base small, ?_⟩
        have all : ∀ d : Fin 10, 0 < d.val → Nat.digitChar d ≠ '0' := by decide
        exact all ⟨n, small⟩ some
      · have large : 10 ≤ n := Nat.le_of_not_lt small
        obtain ⟨c, l, digits, leading⟩ := ih (n / 10) (by omega) (by omega)
        refine ⟨c, l ++ [(n % 10).digitChar], ?_, leading⟩
        rw [Nat.toDigits_of_base_le (by decide) large, digits, List.cons_append]
  rcases Nat.eq_zero_or_pos n with rfl | some
  · rfl
  · obtain ⟨c, l, digits, leading⟩ := first n some
    rw [digits]
    unfold isWhole
    split
    · cases ‹c :: l = []›
    · next h => exact absurd (List.cons.inj h).1 leading
    · rfl

theorem unsigned?_toDigits (spelling : String) (negative : Bool) (n : Nat) :
    unsigned? spelling negative (Nat.toDigits 10 n) =
      if !negative then some (integer n)
      else if n = 0 then some (decimal spelling)
      else some (integer (-n)) := by
  have digits : ∀ c ∈ Nat.toDigits 10 n, c.isDigit := fun c h =>
    isDigit_of_mem_toDigits h
  have all : (Nat.toDigits 10 n).takeWhile Char.isDigit = Nat.toDigits 10 n :=
    List.takeWhile_eq_self_iff.2 digits
  have nothing : (Nat.toDigits 10 n).dropWhile Char.isDigit = [] :=
    List.dropWhile_eq_nil_iff.2 digits
  rw [unsigned?, all, nothing]
  simp [isWhole_toDigits]

theorem ofNumber?_toString (n : Int) : ofNumber? (toString n) = some (integer n) := by
  cases n with
  | ofNat n =>
    have unsigned : ofNumber? (toString (Int.ofNat n)) =
        unsigned? (toString (Int.ofNat n)) false (Nat.toDigits 10 n) := by
      rw [ofNumber?, toList_toString_ofNat]
      split
      · next s digits =>
        have minus : '-' ∈ Nat.toDigits 10 n := digits ▸ List.mem_cons_self
        exact absurd (isDigit_of_mem_toDigits minus) (by decide)
      · rfl
    rw [unsigned, unsigned?_toDigits]
    rfl
  | negSucc n =>
    rw [ofNumber?, toList_toString_negSucc]
    exact unsigned?_toDigits _ true (n + 1)

theorem ofWord?_toString (n : Int) : ofWord? (toString n) = some (integer n) := by
  -- Each of the names has a letter, and an integer has none.
  have other {s : String} {c : Char} (mem : c ∈ s.toList) (letter : ¬(c = '-' ∨ c.isDigit)) :
      toString n ≠ s := by
    rintro rfl
    exact letter (sign_or_digit mem)
  rw [ofWord?, if_neg (other (c := 'n') (by decide) (by decide)),
    if_neg (other (c := 't') (by decide) (by decide)),
    if_neg (other (c := 'f') (by decide) (by decide)), ofNumber?_toString]

/-! ### Lists and tables -/

namespace Stage

theorem takeAll_cons (g : Stage) (t : Token) (l : List Token) :
    g.takeAll (t :: l) = (g.take t).bind (takeAll · l) := rfl

theorem takeAll_of_take {g g' : Stage} {t : Token} (step : g.take t = some g') (l : List Token) :
    g.takeAll (t :: l) = g'.takeAll l := by
  rw [takeAll_cons, step, Option.bind_some]

end Stage

open Stage

/-- The tokens of the value lead behind it from any place where a value may come. -/
def Reads (v : Value) : Prop :=
  ∀ around rest, (Stage.value around).takeAll (v.tokens ++ rest) =
    (Stage.behind v around).takeAll rest

theorem takeAll_list (v : Value) (l : List Value) (around : List Frame) (rest : List Token) :
    (Stage.list around).takeAll ([Token.comma].intercalate (eachTokens (v :: l)) ++ rest) =
      (Stage.value (.list [] :: around)).takeAll
        ([Token.comma].intercalate (eachTokens (v :: l)) ++ rest) := by
  cases v <;> cases l <;> rfl

theorem takeAll_members {v : Value} {l : List Value} (reads : ∀ w ∈ v :: l, w.Reads)
    (before : List Value) (around : List Frame) (rest : List Token) :
    (Stage.value (.list before :: around)).takeAll
        ([Token.comma].intercalate (eachTokens (v :: l)) ++ .closing .square :: rest) =
      (Stage.behind (.list (before.reverse ++ v :: l)) around).takeAll rest := by
  induction l generalizing v before with
  | nil =>
    rw [eachTokens, eachTokens, List.intercalate_singleton, reads v List.mem_cons_self,
      takeAll_of_take rfl]
    simp
  | cons w l ih =>
    rw [eachTokens, eachTokens, List.intercalate_cons_cons, List.append_assoc, List.append_assoc,
      List.singleton_append, reads v List.mem_cons_self, takeAll_of_take rfl]
    rw [← eachTokens, ih fun u h => reads u (List.mem_cons_of_mem v h)]
    simp

theorem takeAll_table (p : String × Value) (l : List (String × Value)) (around : List Frame)
    (rest : List Token) :
    (Stage.table around).takeAll ([Token.comma].intercalate (fieldTokens (p :: l)) ++ rest) =
      (Stage.name [] around).takeAll
        ([Token.comma].intercalate (fieldTokens (p :: l)) ++ rest) := by
  cases l <;> rfl

theorem takeAll_field {v : Value} (reads : v.Reads) (k : String) (before : List (String × Value))
    (around : List Frame) (rest : List Token) :
    (Stage.name before around).takeAll ((.text k :: .colon :: v.tokens) ++ rest) =
      (Stage.behind v (.table before k :: around)).takeAll rest := by
  rw [List.cons_append, List.cons_append, takeAll_of_take rfl, takeAll_of_take rfl, reads]

theorem takeAll_fields {p : String × Value} {l : List (String × Value)}
    (reads : ∀ q ∈ p :: l, q.2.Reads) (before : List (String × Value)) (around : List Frame)
    (rest : List Token) :
    (Stage.name before around).takeAll
        ([Token.comma].intercalate (fieldTokens (p :: l)) ++ .closing .curly :: rest) =
      (Stage.behind (.table (before.reverse ++ p :: l)) around).takeAll rest := by
  induction l generalizing p before with
  | nil =>
    rw [fieldTokens, fieldTokens, List.intercalate_singleton,
      takeAll_field (reads p List.mem_cons_self), takeAll_of_take rfl]
    simp
  | cons q l ih =>
    rw [fieldTokens, fieldTokens, List.intercalate_cons_cons, List.append_assoc, List.append_assoc,
      List.singleton_append, takeAll_field (reads p List.mem_cons_self), takeAll_of_take rfl,
      ← fieldTokens, ih fun r h => reads r (List.mem_cons_of_mem p h)]
    simp

theorem reads_of_isPortable {v : Value} (portable : v.isPortable) : v.Reads := by
  induction v using induction_on with
  | null => exact fun around rest => takeAll_of_take rfl rest
  | bool b =>
    intro around rest
    cases b <;> exact takeAll_of_take rfl rest
  | integer n =>
    intro around rest
    refine takeAll_of_take ?_ rest
    rw [Stage.take, Stage.start, ofWord?_toString, Option.map_some]
  | decimal s => cases portable
  | text s => exact fun around rest => takeAll_of_take rfl rest
  | list l ih =>
    rw [isPortable, arePortable_eq_all, List.all_eq_true] at portable
    intro around rest
    rw [tokens, List.cons_append, List.append_assoc, List.singleton_append, takeAll_of_take rfl]
    cases l with
    | nil => exact takeAll_of_take rfl rest
    | cons v l =>
      rw [takeAll_list, takeAll_members fun w h => ih w h (portable w h)]
      rfl
  | table fields ih =>
    rw [isPortable, fieldsArePortable_eq_all, Bool.and_eq_true, List.all_eq_true] at portable
    intro around rest
    rw [tokens, List.cons_append, List.append_assoc, List.singleton_append, takeAll_of_take rfl]
    cases fields with
    | nil => exact takeAll_of_take rfl rest
    | cons p l =>
      rw [takeAll_table, takeAll_fields fun q h => ih q h (portable.2 q h)]
      rfl

theorem read?_line {v : Value} (portable : v.isPortable) : read? v.line = some v := by
  have whole := reads_of_isPortable portable [] []
  rw [List.append_nil] at whole
  rw [read?, ofText?_line portable, Option.bind_some, ofTokens?, whole]
  rfl

end ArtifactSelection.Value

namespace ArtifactSelection.TextFormat

def json : TextFormat where
  write := Value.line
  read? := Value.read?
  read?_write _ := Value.read?_line

end ArtifactSelection.TextFormat
