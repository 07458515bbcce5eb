/-!
Who a component is. A module coordinate `group:name:version` names what is published; a component
is named either by such a coordinate or by its place in the build. Both are read off and shown as
text, and ordered field by field.
-/

namespace ArtifactSelection

structure ModuleCoordinate where
  group : String
  name : String
  version : String
deriving DecidableEq, Ord, Repr

namespace ModuleCoordinate

instance : ToString ModuleCoordinate where
  toString m := m.group ++ ":" ++ m.name ++ ":" ++ m.version

def isOf (m : ModuleCoordinate) (group name : String) : Bool :=
  m.group == group && m.name == name

/-- Three parts at the colons, none of them empty; every colon separates. -/
def ofText? (s : String) : Option ModuleCoordinate :=
  match s.toList.splitOn ':' with
  | [g@(_ :: _), n@(_ :: _), v@(_ :: _)] => some ⟨.ofList g, .ofList n, .ofList v⟩
  | _ => none

def expected (s : String) : String :=
  "expected 'group:name:version', got '" ++ s ++ "'"

end ModuleCoordinate

inductive ComponentId where
  | project (buildPath projectPath : String)
  | published (coordinate : ModuleCoordinate)
deriving DecidableEq, Ord, Repr

namespace ComponentId

def rootBuild : String := ":"

instance : ToString ComponentId where
  toString
    | project build path => "project " ++ (if build = rootBuild then path else build ++ path)
    | published m => toString m

end ComponentId

end ArtifactSelection
