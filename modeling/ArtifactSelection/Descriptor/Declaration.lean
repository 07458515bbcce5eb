import ArtifactSelection.Component

/-!
Descriptors: what a component file declares. A descriptor is consistent when its names are unique
and its graph variants are among its configurations; its component prepares every configuration from
the declaration and never fails.
-/

namespace ArtifactSelection

structure ArtifactDeclaration where
  name : String
  type : String := "jar"
  extension : Option String := none
  classifier : Option String := none
  file : Option String := none
deriving DecidableEq, Repr

namespace ArtifactDeclaration

def artifactName (a : ArtifactDeclaration) : ArtifactName :=
  ⟨a.name, a.type, a.extension.getD a.type, a.classifier⟩

def artifact (a : ArtifactDeclaration) (owner : ComponentId) : Artifact :=
  ⟨owner, a.artifactName, a.file⟩

end ArtifactDeclaration

structure PhysicalDeclaration where
  name : String
  attributes : Attributes := ∅
  artifacts : List ArtifactDeclaration := []
deriving DecidableEq, Repr

structure ConfigurationDeclaration where
  name : String
  attributes : Attributes := ∅
  artifacts : List ArtifactDeclaration := []
  /-- The physical variants; none of them means one that is the configuration itself. -/
  variants : List PhysicalDeclaration := []
deriving DecidableEq, Repr

namespace ConfigurationDeclaration

def variantId (configuration variant : String) : String := configuration ++ "/" ++ variant

def physical (c : ConfigurationDeclaration) (owner : ComponentId) (v : PhysicalDeclaration) :
    PhysicalVariant where
  id := variantId c.name v.name
  displayName := c.name ++ " " ++ v.name
  attributes := c.attributes.overlay v.attributes
  artifacts := v.artifacts.map (·.artifact owner)

def implicit (c : ConfigurationDeclaration) (owner : ComponentId) : PhysicalVariant where
  id := c.name
  displayName := c.name
  attributes := c.attributes
  artifacts := c.artifacts.map (·.artifact owner)

def variantSet (c : ConfigurationDeclaration) (owner : ComponentId) : VariantSet :=
  match c.variants with
  | [] => .ofList [c.implicit owner]
  | l => .ofList (l.map (c.physical owner))

def configuration (c : ConfigurationDeclaration) (owner : ComponentId) : Configuration where
  name := c.name
  attributes := c.attributes
  artifacts := c.artifacts.map (·.artifact owner)
  variants := c.variantSet owner

end ConfigurationDeclaration

structure ComponentDeclaration where
  group : String
  name : String
  version : String
  project : Option String := none
  build : Option String := none
  attributes : Attributes := ∅
deriving DecidableEq, Repr

structure Descriptor where
  component : ComponentDeclaration
  graphVariants : Option (List String) := none
  configurations : List ConfigurationDeclaration := []
deriving DecidableEq, Repr

namespace Descriptor

def coordinate (d : Descriptor) : ModuleCoordinate :=
  ⟨d.component.group, d.component.name, d.component.version⟩

def id (d : Descriptor) : ComponentId :=
  match d.component.project with
  | some path => .project (d.component.build.getD ComponentId.rootBuild) path
  | none => .published d.coordinate

def variants (d : Descriptor) (number : Nat) : List Variant :=
  d.configurations.mapIdx fun i c =>
    .original ⟨number, i⟩ ⟨c.name, c.name, c.attributes⟩ fun _ => .ok (c.configuration d.id)

def toComponent (d : Descriptor) (number : Nat) : Component where
  coordinate := d.coordinate
  id := d.id
  attributes := d.component.attributes
  configurations := d.variants number
  graph := d.graphVariants.map fun names =>
    names.filterMap fun n => (d.variants number).find? (·.name == n)

inductive Problem where
  | repeatedConfiguration (name : String)
  | repeatedVariant (name configuration : String)
  | unknownGraphVariant (name : String)
deriving DecidableEq, Repr

instance : ToString Problem where
  toString
    | .repeatedConfiguration n => "duplicate configuration '" ++ n ++ "'"
    | .repeatedVariant n c => "duplicate variant '" ++ n ++ "' in configuration '" ++ c ++ "'"
    | .unknownGraphVariant n =>
      "graph variant '" ++ n ++ "' does not name a declared configuration"

def repeated? (earlier : List String) : List String → Option String
  | [] => none
  | n :: l => if n ∈ earlier then some n else repeated? (n :: earlier) l

def repetition? (earlier : List String) : List ConfigurationDeclaration → Option Problem
  | [] => none
  | c :: l =>
    if c.name ∈ earlier then some (.repeatedConfiguration c.name)
    else
      match repeated? [] (c.variants.map (·.name)) with
      | some v => some (.repeatedVariant v c.name)
      | none => repetition? (c.name :: earlier) l

/-- The first problem: repeated names in order of declaration, then unknown graph variants. -/
def problem? (d : Descriptor) : Option Problem :=
  (repetition? [] d.configurations).or <|
    ((d.graphVariants.getD []).find? fun n => !(d.configurations.map (·.name)).contains n).map
      .unknownGraphVariant

def validate (d : Descriptor) : Except Failure Unit :=
  match d.problem? with
  | none => .ok ()
  | some p => .error (.inconsistent (toString p))

end Descriptor

end ArtifactSelection
