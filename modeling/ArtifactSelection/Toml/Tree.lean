import ArtifactSelection.Value

/-!
The tables that a TOML document builds up. A table is defined once: by a header of its own, or by
dotted keys. Headers of deeper tables bring about the tables on their way, which may be defined
later; a value, an inline table among them, is never extended.
-/

namespace ArtifactSelection.Toml

inductive Definition where
  | pending
  | byHeader
  | byDottedKey
deriving DecidableEq, Repr

inductive Node where
  | leaf (v : Value)
  | table (definition : Definition) (fields : List (String × Node))
  | tables (current : List (String × Node)) (earlier : List (List (String × Node)))

abbrev Branch := List (String × Node)

namespace Node

mutual

def value : Node → Value
  | leaf v => v
  | table _ fields => .table (fieldValues fields)
  | tables current earlier => .list (tableValues earlier ++ [.table (fieldValues current)])

def fieldValues : List (String × Node) → List (String × Value)
  | [] => []
  | (k, n) :: l => (k, n.value) :: fieldValues l

def tableValues : List (List (String × Node)) → List Value
  | [] => []
  | fields :: l => .table (fieldValues fields) :: tableValues l

end

end Node

namespace Branch

def set (b : Branch) (k : String) (n : Node) : Branch :=
  match b with
  | [] => [(k, n)]
  | (k', n') :: b => if k' == k then (k, n) :: b else (k', n') :: set b k n

/-- Changes the table at the end of a path, with the tables on the way brought about where they are
missing. A path of dotted keys does not enter a table that a header defines. -/
def change (dotted : Bool) (act : Definition → Branch → Option Branch) :
    List String → Definition → Branch → Option Branch
  | [], definition, b => act definition b
  | k :: path, _, b =>
    match b.lookup k with
    | none =>
      let definition := if dotted then .byDottedKey else .pending
      (change dotted act path definition []).map fun inner => set b k (.table definition inner)
    | some (.leaf _) => none
    | some (.table definition inner) =>
      if dotted && definition == .byHeader then none
      else (change dotted act path definition inner).map fun inner => set b k (.table definition inner)
    | some (.tables current earlier) =>
      (change dotted act path .byHeader current).map fun current => set b k (.tables current earlier)

def assign (path : List String) (k : String) (v : Value) : Definition → Branch → Option Branch :=
  change true
    (fun definition b =>
      if (definition == .byDottedKey) == path.isEmpty || (b.lookup k).isSome then none
      else some (set b k (.leaf v)))
    path

def define (path : List String) (k : String) : Branch → Option Branch :=
  change false
    (fun _ b =>
      match b.lookup k with
      | none => some (set b k (.table .byHeader []))
      | some (.table .pending inner) => some (set b k (.table .byHeader inner))
      | some _ => none)
    path .byHeader

def extend (path : List String) (k : String) : Branch → Option Branch :=
  change false
    (fun _ b =>
      match b.lookup k with
      | none => some (set b k (.tables [] []))
      | some (.tables current earlier) => some (set b k (.tables [] (earlier ++ [current])))
      | some _ => none)
    path .byHeader

end Branch

end ArtifactSelection.Toml
