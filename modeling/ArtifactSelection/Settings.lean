import ArtifactSelection.Cache
import ArtifactSelection.Selection.Policy
import ArtifactSelection.Value

/-!
Settings. Every field has a default and may be left out, but no other fields are taken. Of the sizes
only the number of shards can be unusable: it has to be a power of two greater than one.
-/

namespace ArtifactSelection

open Value (Surplus defaulted optional word? bool?)

structure CacheSettings where
  initialCapacity : UInt64 := 8
  shardAmount : Option UInt64 := none
deriving DecidableEq, Repr

namespace CacheSettings

def isValidShardAmount (n : UInt64) : Bool := 1 < n && Nat.pow 2 n.toNat.log2 == n.toNat

def validate (c : CacheSettings) : Except Failure Unit :=
  match c.shardAmount with
  | none => .ok ()
  | some n =>
    if isValidShardAmount n then .ok ()
    else
      .error (.inconsistent
        ("cache.shard_amount must be a power of two greater than one, got " ++ toString n))

/-- The layout asked for. A number of shards that cannot be used is passed over. -/
def layout (c : CacheSettings) : CacheLayout where
  capacity := c.initialCapacity.toNat
  shards := (c.shardAmount.filter isValidShardAmount).map (·.toNat)

def encode (c : CacheSettings) : Value :=
  .table
    [("initial_capacity", .integer c.initialCapacity.toNat),
      ("shard_amount", (c.shardAmount.map fun n => Value.integer n.toNat).getD .null)]

def decode? (surplus : Surplus) (v : Value) : Option CacheSettings := do
  let field ← v.fields? ["initial_capacity", "shard_amount"] true surplus
  let initialCapacity ← defaulted 8 word? (field "initial_capacity")
  let shardAmount ← optional word? (field "shard_amount")
  return { initialCapacity, shardAmount }

end CacheSettings

namespace Policy

def encode (p : Policy) : Value := .table [("lenient_overrides", .bool p.lenient)]

def decode? (surplus : Surplus) (v : Value) : Option Policy := do
  let field ← v.fields? ["lenient_overrides"] true surplus
  let lenient ← defaulted false bool? (field "lenient_overrides")
  return { lenient }

end Policy

structure Settings where
  cache : CacheSettings := {}
  selection : Policy := {}
deriving DecidableEq, Repr

namespace Settings

def validate (s : Settings) : Except Failure Unit := s.cache.validate

def encode (s : Settings) : Value :=
  .table [("cache", s.cache.encode), ("selection", s.selection.encode)]

def decode? (surplus : Surplus) (v : Value) : Option Settings := do
  let field ← v.fields? ["cache", "selection"] true surplus
  let cache ← defaulted {} (CacheSettings.decode? surplus) (field "cache")
  let selection ← defaulted {} (Policy.decode? surplus) (field "selection")
  return { cache, selection }

end Settings

end ArtifactSelection
