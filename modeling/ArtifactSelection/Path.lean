/-!
File paths as text. A path keeps the spelling it was given; only comparison looks at its parts, where
repeated and trailing separators and a `.` after the start say nothing.
-/

namespace ArtifactSelection.Path

/-- The parts that identify a path: `/` for the root, a leading `.`, and every name. -/
def parts (path : String) : List (List Char) :=
  let names := path.toList.splitOn '/'
  let kept := names.filter fun n => n != [] && n != ['.']
  match names with
  | [] :: _ :: _ => ['/'] :: kept
  | ['.'] :: _ => ['.'] :: kept
  | _ => kept

def same (p q : String) : Bool := parts p == parts q

example : same "a//b/./c/" "a/b/c" = true := by decide
example : same "./a" "a" = false := by decide
example : same "/a" "a" = false := by decide

end ArtifactSelection.Path
