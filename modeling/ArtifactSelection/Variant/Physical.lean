import ArtifactSelection.Artifact
import ArtifactSelection.Attributes

/-!
Physical variants: alternative forms of one configuration, each with attributes and artifacts of its
own. The id alone says which variant it is.
-/

namespace ArtifactSelection

structure PhysicalVariant where
  id : String
  displayName : String
  attributes : Attributes
  artifacts : List Artifact
deriving DecidableEq, Repr

namespace PhysicalVariant

def mapArtifacts (f : Artifact → Artifact) (v : PhysicalVariant) : PhysicalVariant :=
  { v with artifacts := v.artifacts.map f }

@[simp] theorem id_mapArtifacts (f : Artifact → Artifact) (v : PhysicalVariant) :
    (v.mapArtifacts f).id = v.id := rfl

@[simp] theorem attributes_mapArtifacts (f : Artifact → Artifact) (v : PhysicalVariant) :
    (v.mapArtifacts f).attributes = v.attributes := rfl

def order (v w : PhysicalVariant) : Ordering := compare v.id w.id

end PhysicalVariant

end ArtifactSelection
