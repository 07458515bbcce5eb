import ArtifactSelection.Descriptor.Declaration
import ArtifactSelection.Encoding

/-!
Descriptors as data values. An option that is not set is not written; a field that is left out has
its value of default. A descriptor has no fields but its own, so a misspelled one is refused; a list
in the stead of a table may have surplus elements where its format lets them pass.
-/

namespace ArtifactSelection

open Value (Surplus required defaulted optional text? listOf? setField)

namespace ArtifactDeclaration

def encode (a : ArtifactDeclaration) : Value :=
  .table
    ([("name", .text a.name), ("type", .text a.type)] ++ setField "extension" a.extension ++
      setField "classifier" a.classifier ++ setField "file" a.file)

def decode? (surplus : Surplus) (v : Value) : Option ArtifactDeclaration := do
  let field ← v.fields? ["name", "type", "extension", "classifier", "file"] true surplus
  let name ← required text? (field "name")
  let type ← defaulted "jar" text? (field "type")
  let extension ← optional text? (field "extension")
  let classifier ← optional text? (field "classifier")
  let file ← optional text? (field "file")
  return { name, type, extension, classifier, file }

end ArtifactDeclaration

namespace PhysicalDeclaration

def encode (p : PhysicalDeclaration) : Value :=
  .table
    [("name", .text p.name), ("attributes", p.attributes.encode),
      ("artifacts", .list (p.artifacts.map (·.encode)))]

def decode? (surplus : Surplus) (v : Value) : Option PhysicalDeclaration := do
  let field ← v.fields? ["name", "attributes", "artifacts"] true surplus
  let name ← required text? (field "name")
  let attributes ← defaulted ∅ Attributes.decode? (field "attributes")
  let artifacts ← defaulted [] (listOf? (ArtifactDeclaration.decode? surplus)) (field "artifacts")
  return { name, attributes, artifacts }

end PhysicalDeclaration

namespace ConfigurationDeclaration

def encode (c : ConfigurationDeclaration) : Value :=
  .table
    [("name", .text c.name), ("attributes", c.attributes.encode),
      ("artifacts", .list (c.artifacts.map (·.encode))),
      ("variants", .list (c.variants.map (·.encode)))]

def decode? (surplus : Surplus) (v : Value) : Option ConfigurationDeclaration := do
  let field ← v.fields? ["name", "attributes", "artifacts", "variants"] true surplus
  let name ← required text? (field "name")
  let attributes ← defaulted ∅ Attributes.decode? (field "attributes")
  let artifacts ← defaulted [] (listOf? (ArtifactDeclaration.decode? surplus)) (field "artifacts")
  let variants ← defaulted [] (listOf? (PhysicalDeclaration.decode? surplus)) (field "variants")
  return { name, attributes, artifacts, variants }

end ConfigurationDeclaration

namespace ComponentDeclaration

def encode (c : ComponentDeclaration) : Value :=
  .table
    ([("group", .text c.group), ("name", .text c.name), ("version", .text c.version)] ++
      setField "project" c.project ++ setField "build" c.build ++
      [("attributes", c.attributes.encode)])

def decode? (surplus : Surplus) (v : Value) : Option ComponentDeclaration := do
  let field ← v.fields? ["group", "name", "version", "project", "build", "attributes"] true surplus
  let group ← required text? (field "group")
  let name ← required text? (field "name")
  let version ← required text? (field "version")
  let project ← optional text? (field "project")
  let build ← optional text? (field "build")
  let attributes ← defaulted ∅ Attributes.decode? (field "attributes")
  return { group, name, version, project, build, attributes }

end ComponentDeclaration

namespace Descriptor

def encode (d : Descriptor) : Value :=
  .table
    ([("component", d.component.encode)] ++
      (match d.graphVariants with
        | none => []
        | some l => [("graph-variants", .list (l.map .text))]) ++
      [("configurations", .list (d.configurations.map (·.encode)))])

def decode? (surplus : Surplus) (v : Value) : Option Descriptor := do
  let field ← v.fields? ["component", "graph-variants", "configurations"] true surplus
  let component ← required (ComponentDeclaration.decode? surplus) (field "component")
  let graphVariants ← optional (listOf? text?) (field "graph-variants")
  let configurations ← defaulted [] (listOf? (ConfigurationDeclaration.decode? surplus))
    (field "configurations")
  return { component, graphVariants, configurations }

end Descriptor

end ArtifactSelection
