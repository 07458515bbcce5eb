import ArtifactSelection.Cache
import ArtifactSelection.Toml

/-!
What a run takes from elsewhere: the reader of TOML, and the map behind a cache. The map cannot be
had in every layout, and a program that asks for one that it cannot have breaks down there: it goes
on with nothing and reports no failure. What is proved of runs is proved of all such libraries.
-/

namespace ArtifactSelection

structure Libraries where
  toml : String → Option Value
  /-- The exit code of the breakdown over a map in this layout; `none` if the map can be had. -/
  breakdown? : CacheLayout → Option Nat

namespace Libraries

def Grants (libraries : Libraries) (layout : CacheLayout) : Prop :=
  libraries.breakdown? layout = none

/-- A shard takes up 128 bytes, and all shards together less than `2 ^ 63`. How much memory there is
does not count here, nor the room that is reserved inside of the shards. -/
def usual : Libraries where
  toml := Toml.read?
  breakdown? layout := if layout.shards.any (Nat.pow 2 63 ≤ 128 * ·) then some 101 else none

end Libraries

end ArtifactSelection
