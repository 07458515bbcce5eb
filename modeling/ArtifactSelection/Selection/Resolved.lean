import ArtifactSelection.Cache
import ArtifactSelection.Event
import ArtifactSelection.Variant.Set

/-!
What a selection answers: physical variants with the attributes they count as having and the
artifacts that no rule excludes. Within one selection each variant id is resolved once and found in
the scratch from then on. The artifacts of all variants make one list without repeated identities,
made when it is first wanted.
-/

namespace ArtifactSelection

namespace Artifact

def distinct : List Artifact → List Artifact
  | [] => []
  | a :: l => a :: (distinct l).filter (·.id != a.id)

end Artifact

structure ResolvedVariant where
  variant : PhysicalVariant
  attributes : Attributes
  artifacts : List Artifact
deriving DecidableEq, Repr

namespace ResolvedVariant

def ofVariant (v : PhysicalVariant) : ResolvedVariant := ⟨v, v.attributes, v.artifacts⟩

/-- The variant under overrides and an exclusion rule of its module. -/
def under (m : ModuleCoordinate) (e : Exclusion) (overrides : Attributes) (v : PhysicalVariant) :
    ResolvedVariant where
  variant := v
  attributes := v.attributes.overlay overrides
  artifacts := v.artifacts.filter fun a => !e.excludesArtifact m a.name

def events (m : ModuleCoordinate) (e : Exclusion) (v : PhysicalVariant) : List Event :=
  (v.artifacts.filter fun a => e.excludesArtifact m a.name).map (.artifactExcluded ·.name)

end ResolvedVariant

abbrev Scratch := Cache String ResolvedVariant

structure ResolvedSet where
  variants : List ResolvedVariant
deriving DecidableEq, Repr

namespace ResolvedSet

def empty : ResolvedSet := ⟨[]⟩

instance : EmptyCollection ResolvedSet := ⟨empty⟩
instance : Inhabited ResolvedSet := ⟨empty⟩

def artifacts (s : ResolvedSet) : List Artifact := Artifact.distinct (s.variants.flatMap (·.artifacts))

def isEmpty (s : ResolvedSet) : Bool := s.artifacts.isEmpty

def listed (s : ResolvedSet) : Event := .flattened s.variants.length s.artifacts.length

end ResolvedSet

/-- A resolved set in use. Its list of artifacts is made when it is first wanted, which is an event,
and kept from then on. -/
structure Listing where
  set : ResolvedSet
  kept : Option (List Artifact) := none
deriving DecidableEq, Repr

namespace Listing

def artifacts (l : Listing) : List Artifact × Listing × List Event :=
  match l.kept with
  | some list => (list, l, [])
  | none => (l.set.artifacts, { l with kept := some l.set.artifacts }, [l.set.listed])

def isEmpty (l : Listing) : Bool × Listing × List Event :=
  let (list, l, events) := l.artifacts
  (list.isEmpty, l, events)

end Listing

end ArtifactSelection
