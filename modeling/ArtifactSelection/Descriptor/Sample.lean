/-!
Sample files, for trying out the program: descriptors that are in order, one that is not TOML, one
that contradicts itself, and settings.
-/

namespace ArtifactSelection

structure Sample where
  name : String
  content : String

namespace Sample

def path (s : Sample) (directory : String) : String := directory ++ "/" ++ s.name ++ ".toml"

def ofLines (name : String) (lines : List String) : Sample := ⟨name, "\n".intercalate lines⟩

def basic : Sample := ofLines "basic" [
  "[component]",
  "group = \"org.example\"",
  "name = \"lib\"",
  "version = \"1.0\"",
  "project = \":lib\"",
  "",
  "[[configurations]]",
  "name = \"runtimeElements\"",
  "attributes = \x7b usage = \"runtime\" \x7d",
  "",
  "[[configurations.artifacts]]",
  "name = \"lib\"",
  "file = \"build/libs/lib.jar\"",
  "",
  "[[configurations]]",
  "name = \"apiElements\"",
  "attributes = \x7b usage = \"api\" \x7d",
  "",
  "[[configurations.artifacts]]",
  "name = \"lib-api\""]

def withGraphVariants : Sample := ofLines "with_graph_variants" [
  "graph-variants = [\"runtimeElements\", \"sourcesElements\"]",
  "",
  "[component]",
  "group = \"org.example\"",
  "name = \"lib\"",
  "version = \"1.0\"",
  "",
  "[[configurations]]",
  "name = \"runtimeElements\"",
  "attributes = \x7b category = \"library\", usage = \"runtime\" \x7d",
  "",
  "[[configurations.artifacts]]",
  "name = \"lib\"",
  "",
  "[[configurations]]",
  "name = \"sourcesElements\"",
  "attributes = \x7b category = \"documentation\", docs = \"sources\" \x7d",
  "",
  "[[configurations.artifacts]]",
  "name = \"lib\"",
  "classifier = \"sources\""]

def invalidSyntax : Sample := ofLines "invalid_syntax" [
  "[component",
  "group = \"org.example\""]

def unknownGraphVariant : Sample := ofLines "unknown_graph_variant" [
  "graph-variants = [\"runtimeElements\", \"javadocElements\"]",
  "",
  "[component]",
  "group = \"org.example\"",
  "name = \"lib\"",
  "version = \"1.0\"",
  "",
  "[[configurations]]",
  "name = \"runtimeElements\""]

def lenient : Sample := ofLines "resolve" [
  "[selection]",
  "lenient_overrides = true"]

def invalidShards : Sample := ofLines "resolve" [
  "[cache]",
  "shard_amount = 3"]

end Sample

end ArtifactSelection
