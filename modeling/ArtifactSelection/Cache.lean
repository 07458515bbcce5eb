/-!
A cache that keeps the first success of each key. A value, once published, is the value of its key
for good; a failed build publishes nothing, so the next request builds again. Published values are
numbered in order of publication, and the number is what makes two of them the same instance.
-/

namespace ArtifactSelection

/-- A published value; within one cache the serial number tells instances apart. -/
structure Shared (α : Type) where
  serial : Nat
  value : α
deriving DecidableEq, Repr

structure CacheLayout where
  capacity : Nat := 0
  shards : Option Nat := none
deriving DecidableEq, Repr

structure Cache (κ α : Type) where
  published : List (κ × α) := []
deriving Repr

namespace Cache

variable {κ α σ ε : Type} [DecidableEq κ]

def empty : Cache κ α := {}

instance : EmptyCollection (Cache κ α) := ⟨empty⟩
instance : Inhabited (Cache κ α) := ⟨empty⟩

def size (c : Cache κ α) : Nat := c.published.length

def isEmpty (c : Cache κ α) : Bool := c.published.isEmpty

def get? (c : Cache κ α) (k : κ) : Option (Shared α) := go c.published
where
  go : List (κ × α) → Option (Shared α)
    | [] => none
    | (k', a) :: older => if k' = k then some ⟨older.length, a⟩ else go older

def contains (c : Cache κ α) (k : κ) : Bool := (c.get? k).isSome

def publish (c : Cache κ α) (k : κ) (a : α) : Cache κ α := ⟨(k, a) :: c.published⟩

/-- The published value of the key, or else the outcome of building it, published if a success. The
builder works on a state of its own and runs only for a key that has no value. -/
def getOrBuild (c : Cache κ α) (k : κ) (build : σ → Except ε α × σ) (s : σ) :
    Except ε (Shared α) × Cache κ α × σ :=
  match c.get? k with
  | some shared => (.ok shared, c, s)
  | none =>
    match build s with
    | (.ok a, s) => (.ok ⟨c.size, a⟩, c.publish k a, s)
    | (.error e, s) => (.error e, c, s)

def getOrInsert (c : Cache κ α) (k : κ) (build : σ → α × σ) (s : σ) : Shared α × Cache κ α × σ :=
  match c.get? k with
  | some shared => (shared, c, s)
  | none =>
    let (a, s) := build s
    (⟨c.size, a⟩, c.publish k a, s)

@[simp] theorem get?_empty (k : κ) : (empty : Cache κ α).get? k = none := rfl

theorem get?_publish (c : Cache κ α) (k x : κ) (a : α) :
    (c.publish k a).get? x = if k = x then some ⟨c.size, a⟩ else c.get? x := rfl

omit [DecidableEq κ] in
@[simp] theorem size_publish (c : Cache κ α) (k : κ) (a : α) :
    (c.publish k a).size = c.size + 1 := rfl

end Cache

end ArtifactSelection
