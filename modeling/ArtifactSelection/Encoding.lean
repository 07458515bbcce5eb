import ArtifactSelection.Artifact
import ArtifactSelection.Attributes
import ArtifactSelection.Value

/-!
Names and attributes as data values. Reading takes what writing produces, and also a record given
as a list of its fields; fields of no meaning are passed over. A component says by its kind which of
the two it is.
-/

namespace ArtifactSelection

namespace ModuleCoordinate

def fieldNames : List String := ["group", "name", "version"]

def fields (m : ModuleCoordinate) : List (String × Value) :=
  [("group", .text m.group), ("name", .text m.name), ("version", .text m.version)]

def encode (m : ModuleCoordinate) : Value := .table m.fields

def decode? (v : Value) : Option ModuleCoordinate := do
  let field ← v.fields? fieldNames false .refused
  let group ← Value.required Value.text? (field "group")
  let name ← Value.required Value.text? (field "name")
  let version ← Value.required Value.text? (field "version")
  return ⟨group, name, version⟩

end ModuleCoordinate

namespace ComponentId

def encode : ComponentId → Value
  | project build path =>
    .table [("kind", .text "project"), ("build_path", .text build), ("project_path", .text path)]
  | published m => .table (("kind", .text "module") :: m.fields)

def decodeProject? (v : Value) : Option ComponentId := do
  let field ← v.fields? ["build_path", "project_path"] false .refused
  let build ← Value.required Value.text? (field "build_path")
  let path ← Value.required Value.text? (field "project_path")
  return project build path

/-- The kind stands under its name, or first in a list; only a project may be a list. -/
def decode? : Value → Option ComponentId
  | .list (.text "project" :: rest) => decodeProject? (.list rest)
  | .list _ => none
  | v => do
    let field ← v.fields? ["kind"] false .refused
    match field "kind" with
    | some (.text "project") => decodeProject? v
    | some (.text "module") => (ModuleCoordinate.decode? v).map published
    | _ => none

end ComponentId

namespace ArtifactName

def encode (n : ArtifactName) : Value :=
  .table
    ([("name", .text n.name), ("type", .text n.type), ("extension", .text n.extension)] ++
      Value.setField "classifier" n.classifier)

def decode? (v : Value) : Option ArtifactName := do
  let field ← v.fields? ["name", "type", "extension", "classifier"] false .refused
  let name ← Value.required Value.text? (field "name")
  let type ← Value.required Value.text? (field "type")
  let extension ← Value.required Value.text? (field "extension")
  let classifier ← Value.optional Value.text? (field "classifier")
  return { name, type, extension, classifier }

end ArtifactName

namespace Artifact

def report (a : Artifact) : Value :=
  .table
    (Value.setField "classifier" a.name.classifier ++
      [("component", .text (toString a.component)), ("extension", .text a.name.extension)] ++
      Value.setField "file" a.file ++
      [("file_name", .text (toString a.name)), ("name", .text a.name.name),
        ("type", .text a.name.type)])

end Artifact

namespace Attributes

def encode (a : Attributes) : Value := .table (a.entries.map fun p => (p.1, .text p.2))

def decode? : Value → Option Attributes
  | .table fields => (fields.mapM fun p : String × Value => p.2.text?.map (p.1, ·)).map ofList
  | _ => none

end Attributes

end ArtifactSelection
