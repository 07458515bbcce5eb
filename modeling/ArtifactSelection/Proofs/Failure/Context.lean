import ArtifactSelection.Failure

/-!
Failures seen from further out. A context is one more text in front of the message and changes
nothing else that a reader is told. The advice is about the failure that the contexts were added to,
and not about anything that this failure wraps.
-/

namespace ArtifactSelection.Failure

/-- What the advice is about: the failure behind all contexts, without what it wraps. -/
def core : Failure → Failure
  | within _ cause => cause.core
  | preparationFailed variant _ => preparationFailed variant (plain "")
  | f => f

/-- The diagnosis of a failure behind whose last cause a library has further ones of its own, such
as the words of a parser. They show in the message and nowhere else. -/
def diagnosisWith (f : Failure) (further : List String) : Diagnosis :=
  { f.advice with
    message := "\n  caused by: ".intercalate (f.message :: f.causes ++ further) }

@[simp] theorem diagnosisWith_nil (f : Failure) : f.diagnosisWith [] = f.diagnosis := by
  simp [diagnosisWith, diagnosis]

theorem advice_core (f : Failure) : f.core.advice = f.advice := by
  induction f with
  | within _ cause ih => exact ih
  | _ => rfl

theorem core_addContexts (f : Failure) (contexts : List String) :
    (f.addContexts contexts).core = f.core := by
  induction contexts generalizing f with
  | nil => rfl
  | cons c l ih => exact ih (within c f)

theorem advice_addContexts (f : Failure) (contexts : List String) :
    (f.addContexts contexts).advice = f.advice := by
  rw [← advice_core, core_addContexts, advice_core]

theorem texts_addContexts (f : Failure) (contexts : List String) :
    (f.addContexts contexts).message :: (f.addContexts contexts).causes =
      contexts.reverse ++ f.message :: f.causes := by
  induction contexts generalizing f with
  | nil => rfl
  | cons c l ih =>
    have step : f.addContexts (c :: l) = (within c f).addContexts l := rfl
    rw [step, ih, causes_within, List.reverse_cons, List.append_assoc]
    rfl

theorem advice_eq_empty_iff (f : Failure) :
    f.advice = {} ↔ (∃ text, f.origin = plain text) ∨ ∃ reason, f.origin = inconsistent reason := by
  induction f with
  | within _ cause ih => exact ih
  | _ => simp [advice, origin]

theorem intercalate_append_joint (separator : String) (before : List String) {l : List String}
    (some : l ≠ []) :
    separator.intercalate (before ++ l) =
      separator.intercalate (before ++ [separator.intercalate l]) := by
  induction before with
  | nil => rw [List.nil_append, List.nil_append, String.intercalate_singleton]
  | cons s before ih =>
    rw [List.cons_append, List.cons_append, String.intercalate_cons_of_ne_nil (by simp [some]),
      String.intercalate_cons_of_ne_nil (by simp), ih]

/-- Whatever contexts are added, and whatever a library says behind the failure, the details and the
suggestion stay as they are, and the message is that of the failure with the contexts before it, the
outermost first. Failures that differ only in contexts and in what a failed preparation wraps get
the same advice. No advice is given on plain failures and inconsistencies alone. -/
theorem diagnosis_through_contexts (f : Failure) (contexts further : List String) :
    let before := f.diagnosisWith further
    let after := (f.addContexts contexts).diagnosisWith further
    after.toAdvice = before.toAdvice ∧
    after.message = "\n  caused by: ".intercalate (contexts.reverse ++ [before.message]) ∧
    (∀ (g : Failure) (others : List String), g.core = f.core →
      (g.diagnosisWith others).toAdvice = before.toAdvice) ∧
    (before.toAdvice = {} ↔
      (∃ text, f.origin = plain text) ∨ ∃ reason, f.origin = inconsistent reason) ∧
    f.diagnosisWith [] = f.diagnosis := by
  intro before after
  refine ⟨f.advice_addContexts contexts, ?_, fun g others same => ?_, f.advice_eq_empty_iff,
    f.diagnosisWith_nil⟩
  · have texts : (f.addContexts contexts).message :: (f.addContexts contexts).causes ++ further =
        contexts.reverse ++ (f.message :: f.causes ++ further) := by
      rw [texts_addContexts, List.append_assoc]
    calc after.message
      _ = "\n  caused by: ".intercalate (contexts.reverse ++ (f.message :: f.causes ++ further)) :=
        congrArg (String.intercalate _) texts
      _ = "\n  caused by: ".intercalate (contexts.reverse ++ [before.message]) :=
        intercalate_append_joint _ _ (List.cons_ne_nil _ _)
  · have advice : g.advice = f.advice := by rw [← advice_core, same, advice_core]
    exact advice

/-- The advice is about the preparation, not about the artifact that was missing in it. -/
example :
    ((preparationFailed "main" (artifactNotFound "main" "lib.jar")).addContexts ["outer"]).advice =
      { details := some "Preparation failures are not cached; the next request retries" } := rfl

end ArtifactSelection.Failure
