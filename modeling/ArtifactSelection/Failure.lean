/-!
Why something failed. A failure is a cause, perhaps with the causes behind it and with contexts
added on the way out; every text shown for it is made here. The advice looks through contexts but
not into what a failed preparation wraps.
-/

namespace ArtifactSelection

inductive Failure where
  | artifactNotFound (variant artifact : String)
  | unknownVariant (component variant : String)
  | preparationFailed (variant : String) (cause : Failure)
  | noMatchingVariant (component overrides : String)
  | unreadable (path reason : String)
  | malformed (path : String)
  | inconsistent (reason : String)
  | plain (text : String)
  | within (context : String) (cause : Failure)
deriving DecidableEq, Repr

structure Advice where
  details : Option String := none
  suggestion : Option String := none
deriving DecidableEq, Repr

structure Diagnosis extends Advice where
  message : String
deriving DecidableEq, Repr

namespace Failure

instance : Inhabited Failure := ⟨plain ""⟩

def message : Failure → String
  | artifactNotFound variant artifact =>
    "Artifact '" ++ artifact ++ "' not found in variant '" ++ variant ++ "'"
  | unknownVariant component variant =>
    "Variant '" ++ variant ++ "' is not declared by component '" ++ component ++ "'"
  | preparationFailed variant _ =>
    "Failed to prepare variant '" ++ variant ++ "' for artifact resolution"
  | noMatchingVariant component overrides =>
    "No variant of '" ++ component ++ "' matches the requested attributes " ++ overrides
  | unreadable path _ => "Failed to read " ++ path
  | malformed path => "Invalid syntax in " ++ path
  | inconsistent reason => "Invalid configuration: " ++ reason
  | plain text => text
  | within context _ => context

def causes : Failure → List String
  | preparationFailed _ cause => cause.message :: cause.causes
  | within _ cause => cause.message :: cause.causes
  | unreadable _ reason => [reason]
  | _ => []

def origin : Failure → Failure
  | within _ cause => cause.origin
  | f => f

def addContexts (f : Failure) (contexts : List String) : Failure :=
  contexts.foldl (fun f c => within c f) f

/-- Whether a lookup found nothing; `none` for failures of another sort than resolution. -/
def isNotFound? (f : Failure) : Option Bool :=
  match f.origin with
  | artifactNotFound _ _ => some true
  | unknownVariant _ _ | preparationFailed _ _ => some false
  | _ => none

def advice (f : Failure) : Advice :=
  match f.origin with
  | artifactNotFound _ _ =>
    { suggestion := some "Run the 'artifacts' command to list the artifacts of this variant" }
  | unknownVariant _ _ =>
    { suggestion := some "Check the variant name against the configurations in the descriptor" }
  | preparationFailed _ _ =>
    { details := some "Preparation failures are not cached; the next request retries" }
  | noMatchingVariant _ _ =>
    { suggestion := some "Relax the --attribute overrides or enable selection.lenient_overrides" }
  | unreadable _ _ => { suggestion := some "Check that the file exists and is readable" }
  | malformed _ =>
    { suggestion := some "Check the TOML syntax. Verify quotes, brackets, and table names" }
  | _ => {}

def diagnosis (f : Failure) : Diagnosis :=
  { f.advice with
    message := "\n  caused by: ".intercalate (f.message :: f.causes) }

@[simp] theorem origin_within (c : String) (f : Failure) : (within c f).origin = f.origin := rfl

@[simp] theorem advice_within (c : String) (f : Failure) : (within c f).advice = f.advice := rfl

@[simp] theorem causes_within (c : String) (f : Failure) :
    (within c f).causes = f.message :: f.causes := rfl

@[simp] theorem causes_preparationFailed (v : String) (f : Failure) :
    (preparationFailed v f).causes = f.message :: f.causes := rfl

end Failure

namespace Diagnosis

instance : ToString Diagnosis where
  toString d :=
    d.message ++ (d.details.map ("\nDetails: " ++ ·)).getD "" ++
      (d.suggestion.map ("\nSuggestion: " ++ ·)).getD ""

def lines (d : Diagnosis) : String :=
  "error: " ++ d.message ++ "\n" ++
    (d.details.map fun t => "details: " ++ t ++ "\n").getD "" ++
    (d.suggestion.map fun t => "suggestion: " ++ t ++ "\n").getD ""

end Diagnosis

end ArtifactSelection
