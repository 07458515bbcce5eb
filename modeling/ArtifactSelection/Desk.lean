import ArtifactSelection.Selection.Policy
import ArtifactSelection.Settings

/-!
A desk serves the variants of one component. The first success of a variant publishes a handle, and
every later request for the variant is answered with that handle. A request names a variant by its
id alone: the variant that is prepared is the component's own. There are two ways to ask, for the
artifacts of a variant and for a handle to work with; they lead to one handle.
-/

namespace ArtifactSelection

structure Handle where
  component : Component
  variant : Variant
  configuration : Configuration

namespace Handle

def artifacts (h : Handle) : List Artifact := h.configuration.artifacts

def lookup (h : Handle) (name : ArtifactName) : Except Failure Artifact :=
  match h.configuration.artifact? name with
  | some a => .ok a
  | none => .error (.artifactNotFound h.variant.id (toString name))

def candidates (h : Handle) (m : Memory) : Except Failure VariantSet × Memory :=
  h.component.candidates h.configuration m

def request (h : Handle) (exclusion : Exclusion) (overrides : Attributes) :
    SelectionRequest Memory where
  component := h.component
  candidates := h.candidates
  declared := h.configuration.variants
  exclusion
  overrides

def resolve (h : Handle) (selector : Selector Memory) (exclusion : Exclusion)
    (overrides : Attributes) (m : Memory) : Except Failure ResolvedSet × Memory :=
  let outcome := selector (h.request exclusion overrides) ∅ m
  (outcome.answer, outcome.state.noteAll outcome.events)

end Handle

structure Desk where
  component : Component
  handles : Cache String Handle := ∅
  /-- How the handles are stored. Once their map is there, no answer depends on it. -/
  layout : CacheLayout := {}

inductive Entry where
  | artifacts
  | handle
deriving DecidableEq, Repr

namespace Desk

def opened (c : Component) (settings : Option CacheSettings := none) : Desk :=
  { component := c, layout := (settings.map (·.layout)).getD {} }

def build (c : Component) (own : Variant) (m : Memory) : Except Failure Handle × Memory :=
  match own.prepare m with
  | (.ok configuration, m) => (.ok ⟨c, own, configuration⟩, m)
  | (.error e, m) => (.error e, m.note (.notBuilt own.id))

def request (d : Desk) (v : Variant) (m : Memory) :
    Except Failure (Shared Handle) × Desk × Memory :=
  match d.component.variant? v.id with
  | none => (.error (.unknownVariant (toString d.component.id) v.id), d, m)
  | some own =>
    let m := m.note (if d.handles.contains own.id then .reused own.id else .building own.id)
    let (answer, handles, m) := d.handles.getOrBuild own.id (build d.component own) m
    (answer, { d with handles }, m)

def artifactsFor (d : Desk) (v : Variant) (m : Memory) :
    Except Failure (Shared Handle) × Desk × Memory := d.request v m

def handleFor (d : Desk) (v : Variant) (m : Memory) :
    Except Failure (Shared Handle) × Desk × Memory := d.request v m

def ask (d : Desk) : Entry → Variant → Memory → Except Failure (Shared Handle) × Desk × Memory
  | .artifacts => d.artifactsFor
  | .handle => d.handleFor

@[simp] theorem ask_eq_request (d : Desk) (e : Entry) : d.ask e = d.request := by
  cases e <;> rfl

def size (d : Desk) : Nat := d.handles.size

def copy (d : Desk) (copying : Nat) (id : ComponentId) (f : Artifact → Artifact) (m : Memory) :
    Component × Memory :=
  (d.component.copy copying id f, m.note (.copying d.component.id id))

end Desk

end ArtifactSelection
