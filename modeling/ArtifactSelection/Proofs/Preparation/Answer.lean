import ArtifactSelection.Proofs.Copy.Transformation
import ArtifactSelection.Proofs.Preparation.Ledger

/-!
What a preparation answers, told from the original behind the variant. However long the copying, a
success is what the original supplies with all transformers applied in turn, and a failure is what
the strategy failed with, wrapped once for the original and once for each copying.
-/

namespace ArtifactSelection

namespace Failure

def layered (id : String) : Nat → Failure → Failure
  | 0, e => e
  | n + 1, e => preparationFailed id (layered id n e)

def chain (f : Failure) : List String := f.message :: f.causes

theorem chain_layered (id : String) (n : Nat) (e : Failure) :
    (layered id n e).chain =
      List.replicate n ("Failed to prepare variant '" ++ id ++ "' for artifact resolution") ++
        e.chain := by
  induction n with
  | zero => rfl
  | succ n ih =>
    rw [List.replicate_succ, List.cons_append, ← ih]
    rfl

theorem diagnosis_layered (id : String) (n : Nat) (e : Failure) :
    (layered id (n + 1) e).diagnosis =
      { message := "\n  caused by: ".intercalate (layered id (n + 1) e).chain
        details := some "Preparation failures are not cached; the next request retries"
        suggestion := none } := rfl

end Failure

namespace Variant

def origin : Variant → Origin
  | original o _ _ => o
  | copied _ _ source => source.origin

def strategy : Variant → Strategy
  | original _ _ s => s
  | copied _ _ source => source.strategy

def root (v : Variant) : Variant := original v.origin v.label v.strategy

theorem root_mem_ancestry (v : Variant) : v.root ∈ v.ancestry := by
  induction v with
  | original => exact List.mem_singleton_self _
  | copied k f v ih => exact List.mem_cons_of_mem _ ih

def rewrite : Variant → Artifact → Artifact
  | original _ _ _ => fun a => a
  | copied _ f source => f ∘ source.rewrite

theorem configuration?_root {v : Variant} {m : Memory} {c : Configuration}
    (right : ∀ w ∈ v.ancestry, m.Records w) (known : m.configuration? v.key = some c) :
    ∃ b, m.configuration? v.root.key = some b ∧ c = b.mapArtifacts v.rewrite := by
  induction v generalizing c with
  | original => exact ⟨c, known, (c.mapArtifacts_eq_self fun _ => rfl).symm⟩
  | copied k f v ih =>
    obtain ⟨b, source, rfl⟩ := (right _ (mem_ancestry_self _)).source known
    obtain ⟨a, first, rfl⟩ := ih (fun w hw => right w (List.mem_cons_of_mem _ hw)) source
    exact ⟨a, first, a.mapArtifacts_mapArtifacts⟩

/-- What the original behind a variant supplies: what is kept of it, or else the outcome of its next
attempt. -/
def supply (v : Variant) (m : Memory) : Except Failure Configuration :=
  match m.configuration? v.root.key with
  | some c => .ok c
  | none => v.strategy (m.attempts v.origin)

theorem supply_of_kept {v : Variant} {m : Memory} {c : Configuration}
    (kept : m.configuration? v.root.key = some c) : v.supply m = .ok c := by
  rw [supply, kept]

theorem supply_of_new {v : Variant} {m : Memory} (new : m.configuration? v.root.key = none) :
    v.supply m = v.strategy (m.attempts v.origin) := by
  rw [supply, new]

/-- A preparation answers what the original supplies: transformed if that is a configuration, and
wrapped if it is a failure. -/
inductive Answers (v : Variant) (m : Memory) : Except Failure Configuration → Prop
  | ok {c : Configuration} : v.supply m = .ok c → Answers v m (.ok (c.mapArtifacts v.rewrite))
  | error {e : Failure} : v.supply m = .error e →
      Answers v m (.error (.layered v.id (v.key.depth + 1) e))

theorem Prepares.answers {v : Variant} {m m' : Memory} {r : Except Failure Configuration}
    (h : v.Prepares m r m') (right : ∀ w ∈ v.ancestry, m.Records w) : v.Answers m r := by
  induction h with
  | kept known =>
    obtain ⟨b, root, rfl⟩ := configuration?_root right known
    exact .ok (supply_of_kept root)
  | @succeeded o l s m c new ok =>
    have supplied : (original o l s).supply m = .ok c := (supply_of_new new).trans ok
    rw [← c.mapArtifacts_eq_self fun _ => rfl]
    exact .ok supplied
  | failed new fails => exact .error ((supply_of_new new).trans fails)
  | @transformed k f v m m' c _ _ ih =>
    cases ih fun w hw => (right w (List.mem_cons_of_mem _ hw)).note _ with
    | @ok b supplied =>
      rw [b.mapArtifacts_mapArtifacts]
      exact .ok (v := copied k f v) supplied
  | @sourceFailed k f v m m' e _ _ ih =>
    cases ih fun w hw => (right w (List.mem_cons_of_mem _ hw)).note _ with
    | error supplied => exact .error (v := copied k f v) supplied

theorem Prepares.of_supply {v : Variant} {m m' : Memory} {r : Except Failure Configuration}
    (h : v.Prepares m r m') (right : ∀ w ∈ v.ancestry, m.Records w) {e : Failure}
    (supplied : v.supply m = .error e) : r = .error (.layered v.id (v.key.depth + 1) e) := by
  cases h.answers right with
  | ok supplied' => cases supplied.symm.trans supplied'
  | error supplied' => rw [Except.error.inj (supplied.symm.trans supplied')]

theorem answers_prepare {v : Variant} {m : Memory} (right : ∀ w ∈ v.ancestry, m.Records w) :
    v.Answers m (v.prepare m).1 := (v.prepares m).answers right

end Variant

end ArtifactSelection
