import ArtifactSelection.Variant.Preparation

/-!
What preparing a variant comes to. `Prepares` lists the ways it can go; from them follows that a
memory only grows, that a failure leaves everything kept as it was, and that nothing is kept but for
the variant itself and those it was copied from.
-/

namespace ArtifactSelection

namespace VariantKey

def depth : VariantKey → Nat
  | original _ => 0
  | copied _ source => source.depth + 1

end VariantKey

namespace Memory

def Extends (m m' : Memory) : Prop :=
  ∀ ⦃k c⦄, m.configuration? k = some c → m'.configuration? k = some c

theorem Extends.refl (m : Memory) : m.Extends m := fun _ _ h => h

theorem Extends.trans {m m' m'' : Memory} (h : m.Extends m') (h' : m'.Extends m'') :
    m.Extends m'' := fun _ _ kept => h' (h kept)

theorem extends_keep {m : Memory} {k : VariantKey} (new : m.configuration? k = none)
    (c : Configuration) : m.Extends (m.keep k c) := by
  intro x b kept
  have different : x ≠ k := by
    rintro rfl
    simp [new] at kept
  rw [configuration?_keep, if_neg different, kept]

end Memory

namespace Variant

def ancestry : Variant → List Variant
  | original o label strategy => [original o label strategy]
  | copied k f source => copied k f source :: source.ancestry

theorem mem_ancestry_self (v : Variant) : v ∈ v.ancestry := by
  cases v <;> simp [ancestry]

theorem ancestry_subset {v w : Variant} (h : w ∈ v.ancestry) : w.ancestry ⊆ v.ancestry := by
  induction v with
  | original o l s =>
    obtain rfl := List.mem_singleton.1 h
    exact List.Subset.refl _
  | copied k f v ih =>
    rcases List.mem_cons.1 h with rfl | h
    · exact List.Subset.refl _
    · exact List.Subset.trans (ih h) (List.subset_cons_self ..)

theorem depth_le_of_mem_ancestry {v w : Variant} (h : w ∈ v.ancestry) :
    w.key.depth ≤ v.key.depth := by
  induction v with
  | original o l s =>
    obtain rfl := List.mem_singleton.1 h
    exact Nat.le_refl _
  | copied k f v ih =>
    rcases List.mem_cons.1 h with rfl | h
    · exact Nat.le_refl _
    · exact Nat.le_succ_of_le (ih h)

theorem key_ne_of_mem_source {k : Nat} {v w : Variant} (h : w ∈ v.ancestry) :
    w.key ≠ .copied k v.key := by
  intro same
  have depth := depth_le_of_mem_ancestry h
  rw [same, VariantKey.depth] at depth
  omega

/-- The ways in which the preparation of a variant can go, with the memory left behind. -/
inductive Prepares : Variant → Memory → Except Failure Configuration → Memory → Prop
  | kept {v : Variant} {m : Memory} {c : Configuration} :
      m.configuration? v.key = some c → Prepares v m (.ok c) m
  | succeeded {o : Origin} {l : Label} {s : Strategy} {m : Memory} {c : Configuration} :
      m.configuration? (.original o) = none → s (m.attempts o) = .ok c →
      Prepares (original o l s) m (.ok c)
        (((m.note (.preparing l.id)).run o s).2.keep (.original o) c)
  | failed {o : Origin} {l : Label} {s : Strategy} {m : Memory} {e : Failure} :
      m.configuration? (.original o) = none → s (m.attempts o) = .error e →
      Prepares (original o l s) m (.error (.preparationFailed l.id e))
        ((m.note (.preparing l.id)).run o s).2
  | transformed {k : Nat} {f : Artifact → Artifact} {v : Variant} {m m' : Memory}
      {c : Configuration} :
      m.configuration? (.copied k v.key) = none →
      Prepares v (m.note (.preparing v.id)) (.ok c) m' →
      Prepares (copied k f v) m (.ok (c.mapArtifacts f))
        (m'.keep (.copied k v.key) (c.mapArtifacts f))
  | sourceFailed {k : Nat} {f : Artifact → Artifact} {v : Variant} {m m' : Memory} {e : Failure} :
      m.configuration? (.copied k v.key) = none →
      Prepares v (m.note (.preparing v.id)) (.error e) m' →
      Prepares (copied k f v) m (.error (.preparationFailed v.id e)) m'

theorem prepares (v : Variant) (m : Memory) : v.Prepares m (v.prepare m).1 (v.prepare m).2 := by
  induction v generalizing m with
  | original o l s =>
    cases known : m.configuration? (.original o) with
    | some c =>
      rw [prepare_of_configuration? (v := original o l s) known]
      exact .kept known
    | none =>
      cases outcome : s (m.attempts o) with
      | ok c => simpa [prepare, Memory.remember, known, Memory.run, outcome] using
          Prepares.succeeded (l := l) known outcome
      | error e => simpa [prepare, Memory.remember, known, Memory.run, outcome] using
          Prepares.failed (l := l) known outcome
  | copied k f v ih =>
    cases known : m.configuration? (.copied k v.key) with
    | some c =>
      rw [prepare_of_configuration? (v := copied k f v) known]
      exact .kept known
    | none =>
      have source := ih (m.note (.preparing v.id))
      cases outcome : v.prepare (m.note (.preparing v.id)) with
      | mk answer m' =>
        rw [outcome] at source
        cases answer with
        | ok c => simpa [prepare, Memory.remember, known, outcome] using
            Prepares.transformed (f := f) known source
        | error e => simpa [prepare, Memory.remember, known, outcome] using
            Prepares.sourceFailed (f := f) known source

namespace Prepares

variable {v : Variant} {m m' : Memory} {r : Except Failure Configuration}

theorem prepare_eq (h : v.Prepares m r m') : v.prepare m = (r, m') := by
  induction h with
  | kept known => exact prepare_of_configuration? known
  | succeeded new ok => simp [prepare, Memory.remember, Memory.run, new, ok]
  | failed new fail => simp [prepare, Memory.remember, Memory.run, new, fail]
  | transformed new _ ih => simp [prepare, Memory.remember, new, ih]
  | sourceFailed new _ ih => simp [prepare, Memory.remember, new, ih]

theorem configuration?_key {c : Configuration} (h : v.Prepares m (.ok c) m') :
    m'.configuration? v.key = some c := by
  cases h with
  | kept known => exact known
  | succeeded => simp [Memory.configuration?_keep, key]
  | transformed => simp [Memory.configuration?_keep, key]

theorem configuration?_of_ne (h : v.Prepares m r m') {k : VariantKey}
    (other : ∀ w ∈ v.ancestry, w.key ≠ k) : m'.configuration? k = m.configuration? k := by
  induction h with
  | kept => rfl
  | @succeeded o l s m c =>
    have different : k ≠ .original o := (other _ (mem_ancestry_self _)).symm
    rw [Memory.configuration?_keep, if_neg different]
    rfl
  | failed => rfl
  | @transformed j f v m m' c _ _ ih =>
    have different : k ≠ .copied j v.key := (other _ (mem_ancestry_self _)).symm
    rw [Memory.configuration?_keep, if_neg different,
      ih fun w hw => other w (by simp [ancestry, hw])]
    rfl
  | @sourceFailed j f v m m' e _ _ ih =>
    rw [ih fun w hw => other w (by simp [ancestry, hw])]
    rfl

theorem configuration?_copy (h : v.Prepares m r m') (k : Nat) :
    m'.configuration? (.copied k v.key) = m.configuration? (.copied k v.key) :=
  h.configuration?_of_ne fun _ hw => key_ne_of_mem_source hw

theorem grows (h : v.Prepares m r m') : m.Extends m' := by
  induction h with
  | kept => exact .refl _
  | @succeeded o l s m c new _ =>
    exact Memory.extends_keep (m := ((m.note (.preparing l.id)).run o s).2) new c
  | failed => exact fun _ _ kept => kept
  | @transformed k f v m m' c new source ih =>
    have grown : m.Extends m' := ih
    exact grown.trans (Memory.extends_keep ((source.configuration?_copy k).trans new) _)
  | sourceFailed _ _ ih => exact ih

theorem configuration?_of_error {e : Failure} (h : v.Prepares m (.error e) m') (k : VariantKey) :
    m'.configuration? k = m.configuration? k := by
  generalize outcome : Except.error e = r at h
  induction h generalizing e with
  | kept => cases outcome
  | succeeded => cases outcome
  | failed => rfl
  | transformed => cases outcome
  | sourceFailed _ _ ih => exact ih rfl

theorem error_eq {e : Failure} (h : v.Prepares m (.error e) m') :
    ∃ cause, e = .preparationFailed v.id cause := by
  cases h with
  | failed => exact ⟨_, rfl⟩
  | sourceFailed => exact ⟨_, rfl⟩

theorem attempts_le (h : v.Prepares m r m') (o : Origin) : m.attempts o ≤ m'.attempts o := by
  induction h with
  | kept => exact Nat.le_refl _
  | succeeded =>
    rw [Memory.attempts_keep, Memory.attempts_run]
    exact Nat.le_add_right ..
  | failed =>
    rw [Memory.attempts_run]
    exact Nat.le_add_right ..
  | transformed _ _ ih => exact ih
  | sourceFailed _ _ ih => exact ih

end Prepares

end Variant

end ArtifactSelection
