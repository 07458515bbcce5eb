import ArtifactSelection.Descriptor.Encoding
import ArtifactSelection.Files
import ArtifactSelection.Settings

/-!
Descriptors and settings from files. A file is read, taken as TOML by whatever reads that, decoded
and validated; the first of these that fails says why. In a file, surplus elements of a list pass.
Settings come from the file that is named, else from the one that the environment names, else they
are those of default.
-/

namespace ArtifactSelection

variable (toml : String → Option Value)

def decodeFile {α : Type} (decode : Value → Option α) (path text : String) : Except Failure α :=
  match (toml text).bind decode with
  | some a => .ok a
  | none => .error (.malformed path)

def loadFile {α : Type} (decode : Value → Option α) (files : Files) (path : String) :
    Except Failure α :=
  match files.read path with
  | .error reason => .error (.unreadable path reason)
  | .ok text => decodeFile toml decode path text

namespace Descriptor

def validated (d : Descriptor) : Except Failure Descriptor :=
  match d.validate with
  | .error e => .error e
  | .ok _ => .ok d

def inlinePath : String := "<inline>"

def ofToml (text : String) : Except Failure Descriptor :=
  (decodeFile toml (decode? .passedOver) inlinePath text).bind validated

def load (files : Files) (path : String) : Except Failure Descriptor :=
  (loadFile toml (decode? .passedOver) files path).bind validated

end Descriptor

namespace Settings

def validated (s : Settings) : Except Failure Settings :=
  match s.validate with
  | .error e => .error e
  | .ok _ => .ok s

def load (files : Files) (path : String) : Except Failure Settings :=
  (loadFile toml (decode? .passedOver) files path).bind validated

def source? (named environment : Option String) : Option String := named.or environment

def loadOrDefault (files : Files) (named environment : Option String) :
    Except Failure Settings × List Event :=
  match source? named environment with
  | none => (.ok {}, [])
  | some path =>
    match load toml files path with
    | .error e => (.error e, [])
    | .ok s => (.ok s, [.settingsLoaded path])

def inForce (files : Files) (named environment : Option String) :
    Except Failure Settings × List Event :=
  match loadOrDefault toml files named environment with
  | (.error e, events) => (.error (.within "Failed to load resolution settings" e), events)
  | (.ok s, events) =>
    match s.validate with
    | .error e => (.error (.within "Invalid resolution settings" e), events)
    | .ok _ => (.ok s, events)

end Settings

end ArtifactSelection
