import ArtifactSelection.Encoding
import ArtifactSelection.Selection.Resolved

/-!
What a command reports, as text for people or as a JSON document. Both forms show one report, so
nothing can fail in one of them alone.
-/

namespace ArtifactSelection.Command

inductive Report where
  | artifacts (variant : String) (component : ComponentId) (l : List Artifact)
  | artifact (a : Artifact)
  | resolved (s : ResolvedSet)
  | candidates (variant : String) (fromGraph : Bool) (s : VariantSet)

namespace Report

def artifactLine (a : Artifact) : String :=
  "  " ++ toString a.name ++ ((a.file.map fun f => " (" ++ f ++ ")").getD "")

def lines : Report → List String
  | artifacts variant component l =>
    ("Artifacts of " ++ variant ++ " (" ++ toString component ++ ")") :: l.map artifactLine ++
      ["Total: " ++ toString l.length ++ " artifact(s)"]
  | artifact a => [artifactLine a]
  | resolved s =>
    (s.variants.flatMap fun v =>
      (v.variant.displayName ++ " " ++ toString v.attributes) :: v.artifacts.map artifactLine) ++
      ["Total: " ++ toString s.artifacts.length ++ " artifact(s)"]
  | candidates variant fromGraph s =>
    ("Candidates for " ++ variant ++ " (" ++
        (if fromGraph then "graph traversal variants" else "own variants") ++ ")") ::
      (s.variants.map fun v => "  " ++ v.id ++ " " ++ toString v.attributes) ++
      ["Total: " ++ toString s.size ++ " variant(s)"]

def value : Report → Value
  | artifacts _ _ l => .list (l.map (·.report))
  | artifact a => a.report
  | resolved s =>
    .table
      [("artifacts", .list (s.artifacts.map (·.report))),
        ("variants", .list (s.variants.map fun v =>
          .table
            [("artifacts", .list (v.artifacts.map (·.report))), ("attributes", v.attributes.encode),
              ("id", .text v.variant.id), ("name", .text v.variant.displayName)]))]
  | candidates _ fromGraph s =>
    .table
      [("candidates", .list (s.variants.map fun v =>
          .table
            [("artifacts", .integer v.artifacts.length),
              ("attributes", .text (toString v.attributes)), ("id", .text v.id),
              ("name", .text v.displayName)])),
        ("graph_traversal", .bool fromGraph)]

end Report

inductive Format where
  | text
  | json
deriving DecidableEq, Repr

namespace Format

def ofText? : String → Option Format
  | "text" => some text
  | "json" => some json
  | _ => none

def render (f : Format) (r : Report) : String :=
  match f with
  | text => String.join (r.lines.map (· ++ "\n"))
  | json => r.value.document ++ "\n"

end Format

end ArtifactSelection.Command
