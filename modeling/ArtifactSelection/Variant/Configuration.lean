import ArtifactSelection.Variant.Set

/-!
Configurations: what a variant becomes once it is prepared, its artifacts and its physical variants.
-/

namespace ArtifactSelection

structure Configuration where
  name : String
  attributes : Attributes
  artifacts : List Artifact
  variants : VariantSet
deriving DecidableEq, Repr

namespace Configuration

def artifact? (c : Configuration) (name : ArtifactName) : Option Artifact :=
  c.artifacts.find? (·.name == name)

def mapArtifacts (f : Artifact → Artifact) (c : Configuration) : Configuration :=
  { c with
    artifacts := c.artifacts.map f
    variants := c.variants.mapArtifacts f }

end Configuration

end ArtifactSelection
