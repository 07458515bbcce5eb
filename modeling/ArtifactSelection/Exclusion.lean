import ArtifactSelection.Artifact

/-!
Exclusion rules over modules and artifacts. A module rule removes all artifacts of a module, an
artifact rule single ones; rules combine by `anyOf` and `allOf`. A text names a group, a module of a
group, or a module of any group.
-/

namespace ArtifactSelection

inductive Exclusion where
  | nothing
  | everything
  | group (group : String)
  | module (name : String)
  | moduleOf (group name : String)
  | artifact (name : String) (type extension : Option String)
  | anyOf (rules : List Exclusion)
  | allOf (rules : List Exclusion)
deriving Repr

namespace Exclusion

instance : Inhabited Exclusion := ⟨nothing⟩

def isNothing : Exclusion → Bool
  | nothing => true
  | _ => false

mutual

def excludesModule (m : ModuleCoordinate) : Exclusion → Bool
  | nothing => false
  | everything => true
  | group g => m.group == g
  | module n => m.name == n
  | moduleOf g n => m.isOf g n
  | artifact _ _ _ => false
  | anyOf rules => anyExcludesModule m rules
  | allOf rules => !rules.isEmpty && allExcludeModule m rules

def anyExcludesModule (m : ModuleCoordinate) : List Exclusion → Bool
  | [] => false
  | e :: l => e.excludesModule m || anyExcludesModule m l

def allExcludeModule (m : ModuleCoordinate) : List Exclusion → Bool
  | [] => true
  | e :: l => e.excludesModule m && allExcludeModule m l

end

mutual

def excludesArtifact (m : ModuleCoordinate) (a : ArtifactName) : Exclusion → Bool
  | artifact n t x => a.name == n && t.all (· == a.type) && x.all (· == a.extension)
  | anyOf rules => anyExcludesArtifact m a rules
  | allOf rules => !rules.isEmpty && allExcludeArtifact m a rules
  | nothing => excludesModule m nothing
  | everything => excludesModule m everything
  | group g => excludesModule m (group g)
  | module n => excludesModule m (module n)
  | moduleOf g n => excludesModule m (moduleOf g n)

def anyExcludesArtifact (m : ModuleCoordinate) (a : ArtifactName) : List Exclusion → Bool
  | [] => false
  | e :: l => e.excludesArtifact m a || anyExcludesArtifact m a l

def allExcludeArtifact (m : ModuleCoordinate) (a : ArtifactName) : List Exclusion → Bool
  | [] => true
  | e :: l => e.excludesArtifact m a && allExcludeArtifact m a l

end

@[simp] theorem anyExcludesModule_eq_any (m : ModuleCoordinate) (l : List Exclusion) :
    anyExcludesModule m l = l.any (·.excludesModule m) := by
  induction l with
  | nil => rfl
  | cons e l ih => simp [anyExcludesModule, ih]

@[simp] theorem allExcludeModule_eq_all (m : ModuleCoordinate) (l : List Exclusion) :
    allExcludeModule m l = l.all (·.excludesModule m) := by
  induction l with
  | nil => rfl
  | cons e l ih => simp [allExcludeModule, ih]

@[simp] theorem anyExcludesArtifact_eq_any (m : ModuleCoordinate) (a : ArtifactName)
    (l : List Exclusion) : anyExcludesArtifact m a l = l.any (·.excludesArtifact m a) := by
  induction l with
  | nil => rfl
  | cons e l ih => simp [anyExcludesArtifact, ih]

@[simp] theorem allExcludeArtifact_eq_all (m : ModuleCoordinate) (a : ArtifactName)
    (l : List Exclusion) : allExcludeArtifact m a l = l.all (·.excludesArtifact m a) := by
  induction l with
  | nil => rfl
  | cons e l ih => simp [allExcludeArtifact, ih]

/-- The rules that count in a combination, an inner `anyOf` opened once; `none` when one of them is
`everything`, behind which no further rule matters. -/
def members? : List Exclusion → Option (List Exclusion)
  | [] => some []
  | nothing :: l => members? l
  | everything :: _ => none
  | anyOf rules :: l => (members? l).map (rules ++ ·)
  | e :: l => (members? l).map (e :: ·)

def combine (l : List Exclusion) : Exclusion :=
  match members? l with
  | none => everything
  | some [] => nothing
  | some [e] => e
  | some rules => anyOf rules

/-- `group`, `group:name` or `:name`. Behind a leading colon the name runs to the end of the text,
further colons included; between a group and a name there is exactly one. -/
def ofText? (s : String) : Option Exclusion :=
  let before := s.toList.takeWhile (· != ':')
  match before, s.toList.dropWhile (· != ':') with
  | [], [] => none
  | g, [] => some (group (.ofList g))
  | _, [_] => none
  | [], _ :: n => some (module (.ofList n))
  | g, _ :: n => if n.contains ':' then none else some (moduleOf (.ofList g) (.ofList n))

def expected (s : String) : String :=
  "expected 'group', 'group:name' or ':name', got '" ++ s ++ "'"

def read (s : String) : Except String Exclusion :=
  match ofText? s with
  | some e => .ok e
  | none => .error (expected s)

mutual

def text : Exclusion → String
  | nothing => "nothing"
  | everything => "everything"
  | group g => "group " ++ g
  | module n => "module " ++ n
  | moduleOf g n => "module " ++ g ++ ":" ++ n
  | artifact n _ _ => "artifact " ++ n
  | anyOf rules => "(" ++ " or ".intercalate (texts rules) ++ ")"
  | allOf rules => "(" ++ " and ".intercalate (texts rules) ++ ")"

def texts : List Exclusion → List String
  | [] => []
  | e :: l => e.text :: texts l

end

instance : ToString Exclusion := ⟨text⟩

end Exclusion

end ArtifactSelection
