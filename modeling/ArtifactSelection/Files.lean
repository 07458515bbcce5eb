/-!
Files as a program sees them: a path leads somewhere or not, and can be read or not. A file tree is
such a view held in memory, below a working directory; directories hold what lies under them and
exist for that reason, or because they are listed.
-/

namespace ArtifactSelection

structure Files where
  leads : String → Bool
  read : String → Except String String

namespace Files

def noSuchFile : String := "No such file or directory (os error 2)"

def notADirectory : String := "Not a directory (os error 20)"

def isADirectory : String := "Is a directory (os error 21)"

def notText : String := "stream did not contain valid UTF-8"

def nameTooLong : String := "File name too long (os error 36)"

def notAPath : String := "file name contained an unexpected NUL byte"

def nameLimit : Nat := 255

def pathLimit : Nat := 4095

end Files

inductive FileContent where
  | text (s : String)
  | bytes (b : List UInt8)
  | directory

abbrev FileTree := List (String × FileContent)

namespace FileTree

def names (path : String) : List String :=
  ((path.toList.splitOn '/').map String.ofList).filter fun n => n != "" && n != "."

inductive Place where
  | inside (names : List String)
  | outside

def content? (t : FileTree) (l : List String) : Option FileContent :=
  match t.find? (names ·.1 == l) with
  | some (_, c) => some c
  | none =>
    if l.isEmpty || t.any fun e => l.isPrefixOf (names e.1) then some .directory else none

def isDirectory (t : FileTree) : Place → Bool
  | .outside => true
  | .inside l =>
    match t.content? l with
    | some .directory => true
    | _ => false

def follow (t : FileTree) (place : Place) : List String → Except String Place
  | [] => .ok place
  | part :: parts =>
    if !t.isDirectory place then .error Files.notADirectory
    else if part == "" || part == "." then t.follow place parts
    else if Files.nameLimit < part.utf8ByteSize then .error Files.nameTooLong
    else
      match place with
      | .outside => if part == ".." then t.follow .outside parts else .error Files.noSuchFile
      | .inside l =>
        if part == ".." then
          t.follow (if l.isEmpty then .outside else .inside l.dropLast) parts
        else if (t.content? (l ++ [part])).isSome then t.follow (.inside (l ++ [part])) parts
        else .error Files.noSuchFile

def locate (t : FileTree) (path : String) : Except String Place :=
  if path.toList.contains '\x00' then .error Files.notAPath
  else if path.isEmpty then .error Files.noSuchFile
  else if Files.pathLimit < path.utf8ByteSize then .error Files.nameTooLong
  else
    match path.toList.splitOn '/' with
    | [] :: parts => t.follow .outside (parts.map .ofList)
    | parts => t.follow (.inside []) (parts.map .ofList)

def read (t : FileTree) (path : String) : Except String String :=
  match t.locate path with
  | .error reason => .error reason
  | .ok .outside => .error Files.isADirectory
  | .ok (.inside l) =>
    match t.content? l with
    | some (.text s) => .ok s
    | some (.bytes b) =>
      match String.fromUTF8? (.mk b.toArray) with
      | some s => .ok s
      | none => .error Files.notText
    | some .directory => .error Files.isADirectory
    | none => .error Files.noSuchFile

def files (t : FileTree) : Files where
  leads path := (t.locate path).toOption.isSome
  read := t.read

end FileTree

end ArtifactSelection
