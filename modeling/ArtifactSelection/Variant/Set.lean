import ArtifactSelection.Variant.Physical

/-!
Sets of physical variants in id order. The first variant that comes in under an id stays; `get?` is
the view of a set, and each operation says what it does to it.
-/

namespace ArtifactSelection

structure VariantSet where
  variants : List PhysicalVariant
  increasing : variants.Pairwise (·.id < ·.id)
deriving DecidableEq, Repr

namespace VariantSet

def empty : VariantSet := ⟨[], .nil⟩

instance : EmptyCollection VariantSet := ⟨empty⟩
instance : Inhabited VariantSet := ⟨empty⟩

def size (s : VariantSet) : Nat := s.variants.length

def isEmpty (s : VariantSet) : Bool := s.variants.isEmpty

def ids (s : VariantSet) : List String := s.variants.map (·.id)

def get? (s : VariantSet) (id : String) : Option PhysicalVariant :=
  KeyOrder.get? PhysicalVariant.id id s.variants

def contains (s : VariantSet) (id : String) : Bool := (s.get? id).isSome

def insertIfNew (s : VariantSet) (v : PhysicalVariant) : VariantSet :=
  ⟨KeyOrder.insertIfNew PhysicalVariant.id v s.variants, KeyOrder.pairwise_insertIfNew s.increasing⟩

def containsThenInsertIfNew (s : VariantSet) (v : PhysicalVariant) : Bool × VariantSet :=
  (s.contains v.id, s.insertIfNew v)

def insertAll (s : VariantSet) (l : List PhysicalVariant) : VariantSet := l.foldl insertIfNew s

def ofList (l : List PhysicalVariant) : VariantSet := empty.insertAll l

/-- The variants of both; on a clash of ids the one of `s`. -/
def union (s t : VariantSet) : VariantSet := s.insertAll t.variants

def alike (s t : VariantSet) : Bool := s.ids == t.ids

def mapArtifacts (f : Artifact → Artifact) (s : VariantSet) : VariantSet :=
  ofList (s.variants.map (·.mapArtifacts f))

theorem ext_get? {s t : VariantSet} (h : ∀ id, s.get? id = t.get? id) : s = t := by
  have := KeyOrder.ext s.increasing t.increasing h
  cases s; cases t; simp_all

@[simp] theorem get?_empty (id : String) : empty.get? id = none := rfl

theorem get?_insertIfNew (s : VariantSet) (v : PhysicalVariant) (id : String) :
    (s.insertIfNew v).get? id = (s.get? id).or (if v.id = id then some v else none) :=
  KeyOrder.get?_insertIfNew s.increasing id

theorem get?_insertAll (s : VariantSet) (l : List PhysicalVariant) (id : String) :
    (s.insertAll l).get? id = (s.get? id).or (l.find? (·.id == id)) := by
  induction l generalizing s with
  | nil => simp [insertAll]
  | cons v l ih =>
    have step : s.insertAll (v :: l) = (s.insertIfNew v).insertAll l := rfl
    rw [step, ih, get?_insertIfNew]
    by_cases h : v.id = id <;> simp [h]

theorem get?_ofList (l : List PhysicalVariant) (id : String) :
    (ofList l).get? id = l.find? (·.id == id) := by
  simp [ofList, get?_insertAll]

theorem get?_union (s t : VariantSet) (id : String) :
    (s.union t).get? id = (s.get? id).or (t.get? id) := get?_insertAll s t.variants id

end VariantSet

end ArtifactSelection
