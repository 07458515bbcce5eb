import ArtifactSelection.Component.Identity
import ArtifactSelection.Variant.Preparation

/-!
Components. A component declares configurations, and may enumerate the variants among which a graph
selection chooses; together these are its variants. A copy has a new identity and transforms every
artifact, and it prepares nothing by being made. The candidates of a selection are the physical
variants of all graph variants, or of the one configuration where there is no enumeration.
-/

namespace ArtifactSelection

structure Component where
  coordinate : ModuleCoordinate
  id : ComponentId
  attributes : Attributes
  configurations : List Variant
  graph : Option (List Variant)

namespace Component

def variants (c : Component) : List Variant := c.configurations ++ c.graph.getD []

def variant? (c : Component) (id : String) : Option Variant := c.variants.find? (·.id == id)

def configuration? (c : Component) (name : String) : Option Variant :=
  c.configurations.find? (·.name == name)

/-- The copy of a variant, made from the first variant of its id: equal ids give one copy. -/
def copyVariant (c : Component) (copying : Nat) (f : Artifact → Artifact) (v : Variant) : Variant :=
  .copied copying f ((c.variant? v.id).getD v)

def copy (c : Component) (copying : Nat) (id : ComponentId) (f : Artifact → Artifact) : Component :=
  { c with
    id
    configurations := c.configurations.map (c.copyVariant copying f)
    graph := c.graph.map (·.map (c.copyVariant copying f)) }

def join (l : List Configuration) : VariantSet := .ofList (l.flatMap (·.variants.variants))

/-- The physical variants offered to a selection from the given configuration. The graph variants
are prepared for it, and the first that fails ends the attempt. -/
def candidates (c : Component) (own : Configuration) (m : Memory) :
    Except Failure VariantSet × Memory :=
  match c.graph with
  | none => (.ok own.variants, m.note (.ownVariantsOnly c.id own.name))
  | some l =>
    match Variant.prepareAll l m with
    | (.error e, m) => (.error e, m)
    | (.ok cs, m) => (.ok (join cs), m.note (.joined l.length c.id (join cs).size))

@[simp] theorem id_copyVariant (c : Component) (k : Nat) (f : Artifact → Artifact) (v : Variant) :
    (c.copyVariant k f v).id = v.id := by
  have label : (c.copyVariant k f v).id = ((c.variant? v.id).getD v).id := rfl
  rw [label]
  cases h : c.variant? v.id with
  | none => rfl
  | some w => simpa using List.find?_some h

@[simp] theorem variants_copy (c : Component) (k : Nat) (id : ComponentId)
    (f : Artifact → Artifact) :
    (c.copy k id f).variants = c.variants.map (c.copyVariant k f) := by
  cases h : c.graph <;> simp [variants, copy, h]

theorem variant?_copy (c : Component) (k : Nat) (id : ComponentId) (f : Artifact → Artifact)
    (x : String) : (c.copy k id f).variant? x = (c.variant? x).map (c.copyVariant k f) := by
  rw [variant?, variants_copy, List.find?_map]
  congr 2
  funext v
  simp

end Component

end ArtifactSelection
