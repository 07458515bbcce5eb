import ArtifactSelection.Proofs.Preparation.Outcome
import Mathlib.Data.Set.Defs
import Mathlib.Logic.Relation

/-!
A memory as the ledger of all attempts. Of an original it keeps the first success of its strategy,
and no attempt is made behind that one; of a copy it keeps the transformed configuration of the
source and nothing else. Whatever happens in a family of variants, the ledger stays right, so the
configuration a variant is prepared to can be told from its strategy alone.
-/

namespace ArtifactSelection

namespace Strategy

def FailsBefore (s : Strategy) (n : Nat) : Prop := ∀ i < n, ∃ e, s i = .error e

structure FirstSuccess (s : Strategy) (n : Nat) (c : Configuration) : Prop where
  failsBefore : s.FailsBefore n
  success : s n = .ok c

theorem FailsBefore.le {s : Strategy} {n i : Nat} {c : Configuration} (h : s.FailsBefore n)
    (ok : s i = .ok c) : n ≤ i := by
  refine Nat.le_of_not_lt fun early => ?_
  obtain ⟨e, fails⟩ := h i early
  rw [ok] at fails
  cases fails

theorem FailsBefore.succ {s : Strategy} {n : Nat} {e : Failure} (h : s.FailsBefore n)
    (fails : s n = .error e) : s.FailsBefore (n + 1) := by
  intro i hi
  rcases Nat.lt_succ_iff_lt_or_eq.1 hi with earlier | rfl
  · exact h i earlier
  · exact ⟨e, fails⟩

theorem FirstSuccess.index_unique {s : Strategy} {n i : Nat} {c b : Configuration}
    (h : s.FirstSuccess n c) (h' : s.FirstSuccess i b) : n = i :=
  Nat.le_antisymm (h.failsBefore.le h'.success) (h'.failsBefore.le h.success)

theorem FirstSuccess.unique {s : Strategy} {n i : Nat} {c b : Configuration}
    (h : s.FirstSuccess n c) (h' : s.FirstSuccess i b) : c = b := by
  obtain rfl := h.index_unique h'
  have outcome := h.success.symm.trans h'.success
  exact Except.ok.inj outcome

end Strategy

/-- A memory is right about a variant. -/
inductive Memory.Records (m : Memory) : Variant → Prop
  | pending {o : Origin} {l : Label} {s : Strategy} :
      m.configuration? (.original o) = none → s.FailsBefore (m.attempts o) →
      Records m (.original o l s)
  | settled {o : Origin} {l : Label} {s : Strategy} {n : Nat} {c : Configuration} :
      m.configuration? (.original o) = some c → m.attempts o = n + 1 → s.FirstSuccess n c →
      Records m (.original o l s)
  | copyPending {k : Nat} {f : Artifact → Artifact} {v : Variant} :
      m.configuration? (.copied k v.key) = none → Records m (.copied k f v)
  | copySettled {k : Nat} {f : Artifact → Artifact} {v : Variant} {c : Configuration} :
      m.configuration? v.key = some c →
      m.configuration? (.copied k v.key) = some (c.mapArtifacts f) → Records m (.copied k f v)

namespace Memory

theorem Records.of_same {m m' : Memory} {v : Variant} (h : m.Records v) (grows : m.Extends m')
    (same : m'.configuration? v.key = m.configuration? v.key)
    (attempts : ∀ o, v.key = .original o → m'.attempts o = m.attempts o) : m'.Records v := by
  cases h with
  | @pending o l s new fails =>
    refine .pending (same.trans new) ?_
    rw [attempts o rfl]
    exact fails
  | settled known count first =>
    exact .settled (same.trans known) ((attempts _ rfl).trans count) first
  | copyPending new => exact .copyPending (same.trans new)
  | copySettled source known => exact .copySettled (grows source) (same.trans known)

theorem Records.note {m : Memory} {v : Variant} (h : m.Records v) (e : Event) :
    (m.note e).Records v := h.of_same (fun _ _ kept => kept) rfl fun _ _ => rfl

theorem Records.attempts_le {m : Memory} {o : Origin} {l : Label} {s : Strategy}
    (h : m.Records (.original o l s)) {i : Nat} {c : Configuration} (ok : s i = .ok c) :
    m.attempts o ≤ i + 1 := by
  cases h with
  | pending _ fails => exact Nat.le_succ_of_le (fails.le ok)
  | @settled _ _ _ n _ _ count first =>
    rw [count]
    exact Nat.succ_le_succ (first.failsBefore.le ok)

theorem Records.firstSuccess {m : Memory} {o : Origin} {l : Label} {s : Strategy}
    (h : m.Records (.original o l s)) {c : Configuration}
    (known : m.configuration? (.original o) = some c) :
    ∃ n, m.attempts o = n + 1 ∧ s.FirstSuccess n c := by
  cases h with
  | pending new _ => cases new.symm.trans known
  | @settled _ _ _ n _ kept count first =>
    obtain rfl := Option.some.inj (kept.symm.trans known)
    exact ⟨n, count, first⟩

theorem Records.source {m : Memory} {k : Nat} {f : Artifact → Artifact} {v : Variant}
    (h : m.Records (.copied k f v)) {c : Configuration}
    (known : m.configuration? (.copied k v.key) = some c) :
    ∃ b, m.configuration? v.key = some b ∧ c = b.mapArtifacts f := by
  cases h with
  | copyPending new => cases new.symm.trans known
  | @copySettled _ _ _ b source kept =>
    exact ⟨b, source, (Option.some.inj (kept.symm.trans known)).symm⟩

theorem records_empty (v : Variant) : (∅ : Memory).Records v := by
  cases v with
  | original o l s => exact .pending rfl fun i hi => absurd hi (Nat.not_lt_zero i)
  | copied k f v => exact .copyPending rfl

end Memory

namespace Variant

/-- A family of variants: it has the source of each copy, and a key tells its variants apart. -/
structure Coherent (U : Set Variant) : Prop where
  source_mem : ∀ {k f v}, copied k f v ∈ U → v ∈ U
  eq_of_key : ∀ {v w}, v ∈ U → w ∈ U → v.key = w.key → v = w

namespace Prepares

variable {v : Variant} {m m' : Memory} {r : Except Failure Configuration} {U : Set Variant}

theorem records (h : v.Prepares m r m') (family : Coherent U) (hv : v ∈ U)
    (right : ∀ w ∈ U, m.Records w) : ∀ w ∈ U, m'.Records w := by
  induction h with
  | kept => exact right
  | @succeeded o l s m c new ok =>
    intro w hw
    by_cases same : w.key = .original o
    · obtain rfl := family.eq_of_key hw hv same
      cases right _ hw with
      | pending _ fails =>
        refine .settled (n := m.attempts o) ?_ ?_ ⟨fails, ok⟩
        · simp [Memory.configuration?_keep]
        · simp [Memory.attempts_run]
      | settled known _ _ => simp [new] at known
    · refine (right w hw).of_same (Memory.extends_keep new c) ?_ ?_
      · simp [Memory.configuration?_keep, same]
      · intro x hx
        have different : o ≠ x := by
          rintro rfl
          exact same hx
        simp [Memory.attempts_run, different]
  | @failed o l s m e new fail =>
    intro w hw
    by_cases same : w.key = .original o
    · obtain rfl := family.eq_of_key hw hv same
      cases right _ hw with
      | pending _ fails =>
        refine .pending new ?_
        rw [Memory.attempts_run, if_pos rfl]
        exact fails.succ fail
      | settled known _ _ => simp [new] at known
    · refine (right w hw).of_same (fun _ _ kept => kept) rfl ?_
      intro x hx
      have different : o ≠ x := by
        rintro rfl
        exact same hx
      simp [Memory.attempts_run, different]
  | @transformed k f v m m' c new source ih =>
    have between := ih (family.source_mem hv) fun w hw => (right w hw).note _
    -- The source is prepared in between, and that leaves the copy as it was.
    have fresh : m'.configuration? (.copied k v.key) = none :=
      (source.configuration?_copy k).trans new
    intro w hw
    by_cases same : w.key = .copied k v.key
    · obtain rfl := family.eq_of_key hw hv same
      refine .copySettled (c := c) (Memory.extends_keep fresh _ source.configuration?_key) ?_
      simp [Memory.configuration?_keep]
    · refine (between w hw).of_same (Memory.extends_keep fresh _) ?_ fun _ _ => rfl
      rw [Memory.configuration?_keep, if_neg same]
  | sourceFailed _ _ ih => exact ih (family.source_mem hv) fun w hw => (right w hw).note _

end Prepares

/-- The configuration that a variant is prepared to, by its strategy alone. -/
inductive Settles : Variant → Configuration → Prop
  | original {o : Origin} {l : Label} {s : Strategy} {n : Nat} {c : Configuration} :
      s.FirstSuccess n c → Settles (original o l s) c
  | copied {k : Nat} {f : Artifact → Artifact} {v : Variant} {c : Configuration} :
      Settles v c → Settles (copied k f v) (c.mapArtifacts f)

theorem Settles.unique {v : Variant} {c b : Configuration} (h : v.Settles c) (h' : v.Settles b) :
    c = b := by
  induction h generalizing b with
  | original first =>
    cases h' with
    | original first' => exact first.unique first'
  | copied _ ih =>
    cases h' with
    | copied source => rw [ih source]

theorem settles_of_configuration? {U : Set Variant} {m : Memory} {v : Variant} {c : Configuration}
    (family : Coherent U) (right : ∀ w ∈ U, m.Records w) (hv : v ∈ U)
    (known : m.configuration? v.key = some c) : v.Settles c := by
  induction v generalizing c with
  | original o l s =>
    obtain ⟨_, _, first⟩ := (right _ hv).firstSuccess known
    exact .original first
  | copied k f v ih =>
    obtain ⟨b, source, rfl⟩ := (right _ hv).source known
    exact .copied (ih (family.source_mem hv) source)

def Ready (v : Variant) (m : Memory) : Prop := ∃ c, (v.prepare m).1 = .ok c

theorem Prepares.ready {v : Variant} {m m' : Memory} {c : Configuration}
    (h : v.Prepares m (.ok c) m') : v.Ready m := ⟨c, by rw [h.prepare_eq]⟩

theorem Ready.prepares {v : Variant} {m : Memory} (ready : v.Ready m) :
    ∃ c m', v.Prepares m (.ok c) m' := by
  obtain ⟨c, ok⟩ := ready
  exact ⟨c, _, ok ▸ v.prepares m⟩

theorem Ready.answer_prepare {U : Set Variant} {v : Variant} {m : Memory} (ready : v.Ready m)
    (family : Coherent U) (right : ∀ w ∈ U, m.Records w) (hv : v ∈ U) {c : Configuration}
    (settles : v.Settles c) : (v.prepare m).1 = .ok c := by
  obtain ⟨b, m', h⟩ := ready.prepares
  have settles' := settles_of_configuration? family (h.records family hv right) hv
    h.configuration?_key
  rw [h.prepare_eq, settles.unique settles']

/-- A variant that is ready stays so: whatever happens to it before it is prepared, the attempt that
would succeed now is the one that will. -/
theorem Ready.of_grows {U : Set Variant} {v : Variant} {m m' : Memory} (ready : v.Ready m)
    (family : Coherent U) (hv : v ∈ U) (right : ∀ w ∈ U, m'.Records w) (grows : m.Extends m')
    (attempts : ∀ o, m.attempts o ≤ m'.attempts o) : v.Ready m' := by
  induction v generalizing m m' with
  | original o l s =>
    obtain ⟨c, _, h⟩ := ready.prepares
    cases h with
    | kept known => exact Prepares.ready (.kept (grows known))
    | succeeded new ok =>
      cases right _ hv with
      | settled known _ _ => exact Prepares.ready (v := original o l s) (.kept known)
      | pending new' fails =>
        -- An attempt made in between would have been the one that succeeds.
        have same : m'.attempts o = m.attempts o := Nat.le_antisymm (fails.le ok) (attempts o)
        exact Prepares.ready (.succeeded new' (same ▸ ok))
  | copied k f v ih =>
    obtain ⟨c, _, h⟩ := ready.prepares
    cases h with
    | kept known => exact Prepares.ready (.kept (grows known))
    | transformed new source =>
      cases known : m'.configuration? (.copied k v.key) with
      | some c => exact Prepares.ready (v := copied k f v) (.kept known)
      | none =>
        have later : (m.note (.preparing v.id)).Extends (m'.note (.preparing v.id)) := grows
        have below := ih source.ready (family.source_mem hv) (fun w hw => (right w hw).note _)
          later attempts
        obtain ⟨_, _, source'⟩ := below.prepares
        exact Prepares.ready (.transformed known source')

theorem Ready.copied {U : Set Variant} {k : Nat} {f : Artifact → Artifact} {v : Variant}
    {m : Memory} (ready : v.Ready m) (family : Coherent U) (hv : .copied k f v ∈ U)
    (right : ∀ w ∈ U, m.Records w) : (copied k f v).Ready m := by
  cases known : m.configuration? (.copied k v.key) with
  | some c => exact Prepares.ready (v := .copied k f v) (.kept known)
  | none =>
    have noted : v.Ready (m.note (.preparing v.id)) := ready.of_grows family
      (family.source_mem hv) (fun w hw => (right w hw).note _) (fun _ _ kept => kept)
      fun _ => Nat.le_refl _
    obtain ⟨_, _, source⟩ := noted.prepares
    exact Prepares.ready (.transformed known source)

end Variant

namespace Memory

inductive Step (U : Set Variant) : Memory → Memory → Prop
  | note (m : Memory) (e : Event) : Step U m (m.note e)
  | prepare {v : Variant} (m : Memory) (hv : v ∈ U) : Step U m (v.prepare m).2

/-- Work on a memory that prepares no variants but those of `U`. -/
def Reaches (m : Memory) (U : Set Variant) (m' : Memory) : Prop :=
  Relation.ReflTransGen (Step U) m m'

namespace Reaches

variable {m m' m'' : Memory} {U W : Set Variant}

theorem refl (m : Memory) (U : Set Variant) : m.Reaches U m := Relation.ReflTransGen.refl

theorem trans (h : m.Reaches U m') (h' : m'.Reaches U m'') : m.Reaches U m'' :=
  Relation.ReflTransGen.trans h h'

theorem note (h : m.Reaches U m') (e : Event) : m.Reaches U (m'.note e) := h.tail (.note m' e)

theorem prepare (h : m.Reaches U m') {v : Variant} (hv : v ∈ U) : m.Reaches U (v.prepare m').2 :=
  h.tail (.prepare m' hv)

theorem mono (h : m.Reaches U m') (sub : ∀ v ∈ U, v ∈ W) : m.Reaches W m' := by
  induction h with
  | refl => exact refl m W
  | tail _ step ih =>
    cases step with
    | note m e => exact ih.note e
    | prepare m hv => exact ih.prepare (sub _ hv)

theorem noteAll (h : m.Reaches U m') (l : List Event) : m.Reaches U (m'.noteAll l) := by
  induction l generalizing m' with
  | nil => exact h
  | cons e l ih => exact ih (h.note e)

theorem grows (h : m.Reaches U m') : m.Extends m' := by
  induction h with
  | refl => exact .refl m
  | tail _ step ih =>
    cases step with
    | note _ e => exact ih
    | @prepare v _ hv => exact ih.trans (Variant.prepares v _).grows

theorem attempts_le (h : m.Reaches U m') (o : Origin) : m.attempts o ≤ m'.attempts o := by
  induction h with
  | refl => exact Nat.le_refl _
  | tail _ step ih =>
    cases step with
    | note _ e => exact ih
    | @prepare v _ hv => exact Nat.le_trans ih ((Variant.prepares v _).attempts_le o)

theorem records (h : m.Reaches U m') (family : Variant.Coherent W) (sub : ∀ v ∈ U, v ∈ W)
    (right : ∀ v ∈ W, m.Records v) : ∀ v ∈ W, m'.Records v := by
  induction h with
  | refl => exact right
  | tail _ step ih =>
    cases step with
    | note _ e => exact fun v hv => (ih v hv).note e
    | @prepare v _ hv => exact (Variant.prepares v _).records family (sub _ hv) ih

theorem configuration?_of_ne (h : m.Reaches U m') {k : VariantKey}
    (other : ∀ v ∈ U, ∀ w ∈ v.ancestry, w.key ≠ k) : m'.configuration? k = m.configuration? k := by
  induction h with
  | refl => rfl
  | tail _ step ih =>
    cases step with
    | note _ e => exact ih
    | @prepare v _ hv => exact ((Variant.prepares v _).configuration?_of_ne (other _ hv)).trans ih

end Reaches

end Memory

end ArtifactSelection
