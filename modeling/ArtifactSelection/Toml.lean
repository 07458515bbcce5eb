import ArtifactSelection.Toml.Statement

/-!
TOML documents as data values. A document is a sequence of statements, each of which adds to the
tables before it or contradicts them; every contradiction makes the document as a whole unreadable.
-/

namespace ArtifactSelection.Toml

def Statement.apply (here : List String) (b : Branch) :
    Statement → Option (List String × Branch)
  | .header path k => (b.define path k).map (path ++ [k], ·)
  | .arrayHeader path k => (b.extend path k).map (path ++ [k], ·)
  | .assignment path k v =>
    (b.change false (Branch.assign path k v) here .byHeader).map (here, ·)

def Branch.build (here : List String) (b : Branch) : List Statement → Option Branch
  | [] => some b
  | statement :: l => do
    let (here, b) ← statement.apply here b
    Branch.build here b l

/-- The value of a document; a byte order mark in front of it is no part of it. -/
def read? (s : String) : Option Value := do
  let text :=
    match s.toList with
    | '\ufeff' :: text => text
    | text => text
  let statements ← statements? (text.length + 1) text
  let fields ← Branch.build [] [] statements
  return .table (Node.fieldValues fields)

end ArtifactSelection.Toml
