import ArtifactSelection.Component

/-!
Sketches: components declared in memory, for experiments. A sketched component is a project of the
root build and has no files; each of its configurations may fail a number of times before it
succeeds.
-/

namespace ArtifactSelection

structure PhysicalSketch where
  name : String
  attributes : List (String × String)
  artifacts : List ArtifactName
deriving Repr

structure ConfigurationSketch where
  name : String
  attributes : List (String × String) := []
  artifacts : List ArtifactName := []
  variants : List PhysicalSketch := []
  failures : Nat := 0
deriving Repr

namespace ConfigurationSketch

def physical (c : ConfigurationSketch) (owner : ComponentId) : List PhysicalVariant :=
  let own (names : List ArtifactName) := names.map fun n => ({ component := owner, name := n } : Artifact)
  if c.variants.isEmpty then [⟨c.name, c.name, .ofList c.attributes, own c.artifacts⟩]
  else
    c.variants.map fun v =>
      ⟨c.name ++ "/" ++ v.name, v.name, (Attributes.ofList c.attributes).overlay (.ofList v.attributes),
        own v.artifacts⟩

def configuration (c : ConfigurationSketch) (owner : ComponentId) : Configuration where
  name := c.name
  attributes := .ofList c.attributes
  artifacts := c.artifacts.map fun n => { component := owner, name := n }
  variants := .ofList (c.physical owner)

def failure (c : ConfigurationSketch) : Failure :=
  .plain ("injected preparation failure for '" ++ c.name ++ "'")

def strategy (c : ConfigurationSketch) (owner : ComponentId) : Strategy :=
  .after (.replicate c.failures c.failure) (c.configuration owner)

end ConfigurationSketch

structure Sketch where
  projectPath : String
  configurations : List ConfigurationSketch
  graph : Option (List String) := none
deriving Repr

namespace Sketch

def id (s : Sketch) : ComponentId := .project ComponentId.rootBuild s.projectPath

def coordinate (s : Sketch) : ModuleCoordinate where
  group := "org.example"
  name :=
    .ofList ((s.projectPath.toList.dropWhile (· == ':')).map fun c => if c == ':' then '-' else c)
  version := "1.0"

def component (s : Sketch) (number : Nat) : Component :=
  let configurations := s.configurations.mapIdx fun i c =>
    Variant.original ⟨number, i⟩ ⟨c.name, c.name, .ofList c.attributes⟩ (c.strategy s.id)
  { coordinate := s.coordinate
    id := s.id
    attributes := ∅
    configurations
    graph := s.graph.map fun names =>
      names.filterMap fun n => configurations.find? (·.name == n) }

end Sketch

end ArtifactSelection
