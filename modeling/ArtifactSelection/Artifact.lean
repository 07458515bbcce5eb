import ArtifactSelection.Component.Identity
import ArtifactSelection.Path

/-!
Artifacts. The full name of an artifact has four parts; its shown file name leaves out the type, so
two names can show alike and still differ. An artifact is identified by its owner and full name, the
file is not part of the identity.
-/

namespace ArtifactSelection

structure ArtifactName where
  name : String
  type : String
  extension : String
  classifier : Option String := none
deriving DecidableEq, Ord, Repr

namespace ArtifactName

def jar (name : String) : ArtifactName := ⟨name, "jar", "jar", none⟩

/-- The file name; an empty classifier still leaves its dash. -/
instance : ToString ArtifactName where
  toString n := n.name ++ ((n.classifier.map ("-" ++ ·)).getD "") ++ "." ++ n.extension

end ArtifactName

structure ArtifactId where
  component : ComponentId
  name : ArtifactName
deriving DecidableEq, Ord, Repr

instance : ToString ArtifactId where
  toString a := toString a.name ++ " (" ++ toString a.component ++ ")"

structure Artifact where
  component : ComponentId
  name : ArtifactName
  file : Option String := none
deriving DecidableEq, Repr

namespace Artifact

def id (a : Artifact) : ArtifactId := ⟨a.component, a.name⟩

def sameAs (a b : Artifact) : Bool :=
  a.id == b.id &&
    match a.file, b.file with
    | none, none => true
    | some p, some q => Path.same p q
    | _, _ => false

end Artifact

end ArtifactSelection
