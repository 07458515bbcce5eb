import ArtifactSelection.KeyOrder

/-!
Attribute containers: finite maps from text to text, kept in key order. Each operation is described
through `get?`, and two containers that answer every key alike are equal.
-/

namespace ArtifactSelection

structure Attributes where
  entries : List (String × String)
  increasing : entries.Pairwise (·.1 < ·.1)
deriving DecidableEq, Repr

namespace Attributes

def empty : Attributes := ⟨[], .nil⟩

instance : EmptyCollection Attributes := ⟨empty⟩
instance : Inhabited Attributes := ⟨empty⟩

def isEmpty (a : Attributes) : Bool := a.entries.isEmpty

def size (a : Attributes) : Nat := a.entries.length

def get? (a : Attributes) (k : String) : Option String :=
  (KeyOrder.get? Prod.fst k a.entries).map Prod.snd

def insert (a : Attributes) (k v : String) : Attributes :=
  ⟨KeyOrder.replace Prod.fst (k, v) a.entries, KeyOrder.pairwise_replace a.increasing⟩

def insertAll (a : Attributes) (pairs : List (String × String)) : Attributes :=
  pairs.foldl (fun a p => a.insert p.1 p.2) a

def ofList (pairs : List (String × String)) : Attributes := empty.insertAll pairs

def overlay (a b : Attributes) : Attributes :=
  if b.isEmpty then a
  else if a.isEmpty then b
  else a.insertAll b.entries

/-- No requested key has another value here; a key that is missing here is no obstacle. -/
def isCompatibleWith (a requested : Attributes) : Bool :=
  requested.entries.all fun p => (a.get? p.1).all (· == p.2)

def matchingKeys (a requested : Attributes) : Nat :=
  requested.entries.countP fun p => a.get? p.1 == some p.2

instance : ToString Attributes where
  toString a := "\x7b" ++ ", ".intercalate (a.entries.map fun p => p.1 ++ "=" ++ p.2) ++ "\x7d"

theorem ext_get? {a b : Attributes} (h : ∀ k, a.get? k = b.get? k) : a = b := by
  have entries : a.entries = b.entries := by
    refine KeyOrder.ext a.increasing b.increasing fun k => ?_
    have hk := h k
    unfold get? at hk
    cases ha : KeyOrder.get? Prod.fst k a.entries <;> cases hb : KeyOrder.get? Prod.fst k b.entries
    · rfl
    · simp [ha, hb] at hk
    · simp [ha, hb] at hk
    · next p q =>
      have hp := KeyOrder.key_of_get? ha
      have hq := KeyOrder.key_of_get? hb
      simp only [ha, hb, Option.map_some, Option.some.injEq] at hk
      exact congrArg some (Prod.ext (hp.trans hq.symm) hk)
  cases a; cases b; simp_all

@[simp] theorem get?_empty (k : String) : empty.get? k = none := rfl

theorem get?_insert (a : Attributes) (k v x : String) :
    (a.insert k v).get? x = if k = x then some v else a.get? x := by
  simp only [get?, insert, KeyOrder.get?_replace a.increasing]
  split <;> simp

theorem get?_insertAll (a : Attributes) (pairs : List (String × String)) (x : String) :
    (a.insertAll pairs).get? x =
      ((pairs.reverse.find? (·.1 == x)).map Prod.snd).or (a.get? x) := by
  induction pairs generalizing a with
  | nil => simp [insertAll]
  | cons p l ih =>
    have step : a.insertAll (p :: l) = (a.insert p.1 p.2).insertAll l := rfl
    rw [step, ih, get?_insert]
    by_cases h : p.1 = x <;>
      cases hf : l.reverse.find? (·.1 == x) <;> simp [h, hf]

end Attributes

end ArtifactSelection
