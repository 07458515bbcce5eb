import ArtifactSelection.Value

/-!
Text formats. A format has its own way to write values and to read them. Numbers that are no
integers of 64 bits and tables that name a field twice are left to it; what it has in common with
all others is that any other value is read back as it was written.
-/

namespace ArtifactSelection

namespace Value

mutual

/-- Whether every text format carries the value: its numbers are integers that fit into 64 bits,
with a sign or without, and its tables name each field once. -/
def isPortable : Value → Bool
  | null => true
  | bool _ => true
  | integer n => Int64.minValue.toInt ≤ n && n < UInt64.size
  | decimal _ => false
  | text _ => true
  | list l => arePortable l
  | table fields => (fields.map (·.1)).Nodup && fieldsArePortable fields

def arePortable : List Value → Bool
  | [] => true
  | v :: l => v.isPortable && arePortable l

def fieldsArePortable : List (String × Value) → Bool
  | [] => true
  | (_, v) :: l => v.isPortable && fieldsArePortable l

end

theorem arePortable_eq_all (l : List Value) : arePortable l = l.all (·.isPortable) := by
  induction l with
  | nil => rfl
  | cons v l ih => rw [arePortable, ih, List.all_cons]

theorem fieldsArePortable_eq_all (l : List (String × Value)) :
    fieldsArePortable l = l.all (·.2.isPortable) := by
  induction l with
  | nil => rfl
  | cons p l ih => rw [fieldsArePortable, ih, List.all_cons]

end Value

structure TextFormat where
  write : Value → String
  read? : String → Option Value
  read?_write : ∀ v : Value, v.isPortable → read? (write v) = some v

namespace TextFormat

/-- The format carries everything of a kind, by its form as a value: what is written is read as the
same, and an accepted text, whoever wrote it, can be exchanged for the text of what it says. -/
structure Carries {α : Type} (f : TextFormat) (encode : α → Value)
    (decode? : Value → Option α) : Prop where
  decode?_write : ∀ a, (f.read? (f.write (encode a))).bind decode? = some a
  decode?_rewrite : ∀ s a, (f.read? s).bind decode? = some a →
    (f.read? (f.write (encode a))).bind decode? = some a

variable {α : Type} {encode : α → Value} {decode? : Value → Option α}

theorem carries (f : TextFormat) (portable : ∀ a, (encode a).isPortable)
    (decode?_encode : ∀ a, decode? (encode a) = some a) : f.Carries encode decode? := by
  have written (a : α) : (f.read? (f.write (encode a))).bind decode? = some a := by
    rw [f.read?_write _ (portable a), Option.bind_some, decode?_encode]
  exact ⟨written, fun _ a _ => written a⟩

end TextFormat

end ArtifactSelection
