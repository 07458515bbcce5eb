import ArtifactSelection.Proofs.Component.Offer
import ArtifactSelection.Proofs.Preparation.Answer
import ArtifactSelection.Proofs.Session.Effect
import Mathlib.Algebra.BigOperators.Group.Finset.Basic

/-!
How many attempts are still to fail before a list of variants is prepared. A copy has no strategy of
its own, so the debt is that of the original behind it, and it is counted once for each original.
Preparing the list pays a debt off by one, that of the first variant that owes anything, and stops
there; whatever stands before it is prepared for good.
-/

namespace ArtifactSelection

namespace Variant

theorem Coherent.mem_of_ancestry {U : Set Variant} (family : Coherent U) {v w : Variant}
    (hv : v ∈ U) (hw : w ∈ v.ancestry) : w ∈ U := by
  induction v with
  | original =>
    obtain rfl := List.mem_singleton.1 hw
    exact hv
  | copied k f v ih =>
    rcases List.mem_cons.1 hw with rfl | hw
    · exact hv
    · exact ih (family.source_mem hv) hw

theorem Coherent.root_mem {U : Set Variant} (family : Coherent U) {v : Variant} (hv : v ∈ U) :
    v.root ∈ U := family.mem_of_ancestry hv v.root_mem_ancestry

theorem Coherent.strategy_eq {U : Set Variant} (family : Coherent U) {v w : Variant} (hv : v ∈ U)
    (hw : w ∈ U) (same : v.origin = w.origin) : v.strategy = w.strategy := by
  have key : v.root.key = w.root.key := congrArg VariantKey.original same
  have root := family.eq_of_key (family.root_mem hv) (family.root_mem hw) key
  exact (Variant.original.inj root).2.2

/-- What preparing a variant does to the strategy behind it: nothing if its original is kept, or
else one attempt. -/
inductive Tries (v : Variant) (m : Memory) : Except Failure Configuration → Memory → Prop
  | spared {b c : Configuration} {m' : Memory} : m.configuration? v.root.key = some b →
      (∀ o, m'.attempts o = m.attempts o) → Tries v m (.ok c) m'
  | succeeded {b c : Configuration} {m' : Memory} : m.configuration? v.root.key = none →
      v.strategy (m.attempts v.origin) = .ok b →
      (∀ o, m'.attempts o = m.attempts o + if v.origin = o then 1 else 0) → Tries v m (.ok c) m'
  | failed {e cause : Failure} {m' : Memory} : m.configuration? v.root.key = none →
      v.strategy (m.attempts v.origin) = .error e →
      (∀ o, m'.attempts o = m.attempts o + if v.origin = o then 1 else 0) →
      Tries v m (.error (.preparationFailed v.id cause)) m'

theorem Prepares.tries {v : Variant} {m m' : Memory} {r : Except Failure Configuration}
    (h : v.Prepares m r m') (right : ∀ w ∈ v.ancestry, m.Records w) : v.Tries m r m' := by
  induction h with
  | kept known =>
    obtain ⟨b, root, _⟩ := configuration?_root right known
    exact .spared root fun _ => rfl
  | @succeeded o _ s m _ new ok =>
    exact .succeeded new ok fun x => Memory.attempts_run (m.note _) o x s
  | @failed o _ s m _ new fails => exact .failed new fails fun x => Memory.attempts_run (m.note _) o x s
  | transformed _ _ ih =>
    cases ih fun w hw => (right w (List.mem_cons_of_mem _ hw)).note _ with
    | spared root attempts => exact .spared root attempts
    | succeeded new ok attempts => exact .succeeded new ok attempts
  | sourceFailed _ _ ih =>
    cases ih fun w hw => (right w (List.mem_cons_of_mem _ hw)).note _ with
    | failed new fails attempts => exact .failed new fails attempts

/-- The strategy behind a variant fails `r` more times before it succeeds, or has succeeded. -/
inductive Owes (v : Variant) (m : Memory) : Nat → Prop
  | settled {b : Configuration} : m.configuration? v.root.key = some b → Owes v m 0
  | pending {r : Nat} {c : Configuration} : m.configuration? v.root.key = none →
      (∀ i < r, ∃ e, v.strategy (m.attempts v.origin + i) = .error e) →
      v.strategy (m.attempts v.origin + r) = .ok c → Owes v m r

namespace Owes

variable {v : Variant} {m m' : Memory} {r : Nat}

theorem firstSuccess (owes : v.Owes m r) (right : m.Records v.root) :
    ∃ n c, v.strategy.FirstSuccess n c ∧ r = n - m.attempts v.origin := by
  cases owes with
  | settled known =>
    obtain ⟨n, count, first⟩ := right.firstSuccess known
    have count : m.attempts v.origin = n + 1 := count
    exact ⟨n, _, first, by omega⟩
  | @pending r c new fails ok =>
    cases right with
    | settled known => cases new.symm.trans known
    | pending _ before =>
      refine ⟨m.attempts v.origin + r, c, ⟨fun i hi => ?_, ok⟩, by omega⟩
      by_cases past : i < m.attempts v.origin
      · exact before i past
      · obtain ⟨j, rfl⟩ := Nat.le.dest (Nat.le_of_not_lt past)
        exact fails j (by omega)

theorem of_firstSuccess {n : Nat} {c : Configuration} (first : v.strategy.FirstSuccess n c)
    (right : m.Records v.root) : v.Owes m (n - m.attempts v.origin) := by
  cases right with
  | settled known count first' =>
    have paid : n - m.attempts v.origin = 0 := by
      rw [first.index_unique first']
      omega
    rw [paid]
    exact .settled known
  | pending new before =>
    have ahead : m.attempts v.origin ≤ n := before.le first.success
    refine .pending (c := c) new (fun i hi => first.failsBefore _ (by omega)) ?_
    rw [Nat.add_sub_cancel' ahead]
    exact first.success

theorem later (owes : v.Owes m r) (right : m.Records v.root) (right' : m'.Records v.root)
    (grows : m.attempts v.origin ≤ m'.attempts v.origin) :
    v.Owes m' (r - (m'.attempts v.origin - m.attempts v.origin)) := by
  obtain ⟨n, c, first, rfl⟩ := owes.firstSuccess right
  have paid : n - m.attempts v.origin - (m'.attempts v.origin - m.attempts v.origin) =
      n - m'.attempts v.origin := by omega
  rw [paid]
  exact of_firstSuccess first right'

theorem unique {s : Nat} (owes : v.Owes m r) (owes' : v.Owes m s) (right : m.Records v.root) :
    r = s := by
  obtain ⟨n, c, first, rfl⟩ := owes.firstSuccess right
  obtain ⟨i, b, first', rfl⟩ := owes'.firstSuccess right
  rw [first.index_unique first']

theorem of_origin {U : Set Variant} (family : Coherent U) {w : Variant} (hv : v ∈ U) (hw : w ∈ U)
    (same : v.origin = w.origin) (owes : v.Owes m r) : w.Owes m r := by
  have strategy := family.strategy_eq hv hw same
  cases owes with
  | settled known =>
    refine .settled (b := ‹_›) ?_
    simpa [root, key, same] using known
  | pending new fails ok =>
    rw [strategy, same] at fails ok
    refine .pending ?_ fails ok
    simpa [root, key, same] using new

theorem prepares (owes : v.Owes m 0) (right : ∀ w ∈ v.ancestry, m.Records w) :
    ∃ c m', v.Prepares m (.ok c) m' := by
  have outcome := v.prepares m
  cases answer : (v.prepare m).1 with
  | ok c =>
    rw [answer] at outcome
    exact ⟨c, _, outcome⟩
  | error e =>
    rw [answer] at outcome
    cases outcome.tries right with
    | failed new fails _ =>
      cases owes with
      | settled known => cases new.symm.trans known
      | pending _ _ ok => cases fails.symm.trans ok

theorem fails (owes : v.Owes m (r + 1)) (right : ∀ w ∈ v.ancestry, m.Records w) :
    ∃ cause m', v.Prepares m (.error (.preparationFailed v.id cause)) m' ∧
      (∃ e, v.strategy (m.attempts v.origin) = .error e) ∧
      ∀ o, m'.attempts o = m.attempts o + if v.origin = o then 1 else 0 := by
  obtain ⟨new, e, fails⟩ : m.configuration? v.root.key = none ∧
      ∃ e, v.strategy (m.attempts v.origin) = .error e := by
    cases owes with
    | pending new fails _ => exact ⟨new, fails 0 (Nat.succ_pos r)⟩
  have outcome := v.prepares m
  have tries := outcome.tries right
  generalize (v.prepare m).1 = answer, (v.prepare m).2 = m' at outcome tries
  cases tries with
  | spared known => cases new.symm.trans known
  | succeeded _ ok => cases fails.symm.trans ok
  | failed _ _ attempts => exact ⟨_, _, outcome, ⟨e, fails⟩, attempts⟩

end Owes

/-- What is left behind by preparing `before` and then failing at `v`. -/
structure Halts (before : List Variant) (v : Variant) (m m' : Memory) : Prop where
  prepared : ∀ w ∈ before, m'.isPrepared w
  unchanged : ∀ k, (∀ w ∈ before, ∀ u ∈ w.ancestry, u.key ≠ k) →
    m'.configuration? k = m.configuration? k
  failed : (∃ e, v.strategy (m.attempts v.origin) = .error e) ∧
    m'.attempts v.origin = m.attempts v.origin + 1
  succeeded : ∀ o ≠ v.origin, m'.attempts o = m.attempts o ∨
    m.configuration? (.original o) = none ∧ m'.attempts o = m.attempts o + 1 ∧
      ∃ w ∈ before, w.origin = o ∧ ∃ c, w.strategy (m.attempts o) = .ok c

variable {U : Set Variant}

theorem Tries.attempts {v : Variant} {m m' : Memory} {c : Configuration}
    (tries : v.Tries m (.ok c) m') (o : Origin) :
    m'.attempts o = m.attempts o ∨ m.configuration? (.original o) = none ∧
      m'.attempts o = m.attempts o + 1 ∧ v.origin = o ∧
      ∃ b, v.strategy (m.attempts o) = .ok b := by
  cases tries with
  | spared _ same => exact .inl (same o)
  | succeeded new ok attempts =>
    by_cases here : v.origin = o
    · subst here
      exact .inr ⟨new, by simp [attempts], rfl, _, ok⟩
    · exact .inl (by simp [attempts, here])

theorem Tries.attempts_of_ne {v : Variant} {m m' : Memory} {c : Configuration}
    (tries : v.Tries m (.ok c) m') {o : Origin} (other : o ≠ v.origin) :
    m'.attempts o = m.attempts o := by
  rcases tries.attempts o with same | ⟨_, _, here, _⟩
  · exact same
  · exact absurd here.symm other

theorem Halts.cons {before : List Variant} {v w : Variant} {m m₁ m' : Memory} {c : Configuration}
    (halts : Halts before v m₁ m') (h : w.Prepares m (.ok c) m₁) (grows : m₁.Extends m')
    (right : ∀ u ∈ w.ancestry, m.Records u) (right₁ : ∀ u ∈ w.ancestry, m₁.Records u)
    (other : w.origin ≠ v.origin) : Halts (w :: before) v m m' := by
  have step := (h.tries right).attempts
  constructor
  · simp only [List.forall_mem_cons]
    exact ⟨by rw [Memory.isPrepared, grows h.configuration?_key, Option.isSome_some], halts.prepared⟩
  · intro k apart
    rw [halts.unchanged k fun u hu => apart u (List.mem_cons_of_mem w hu),
      h.configuration?_of_ne (apart w List.mem_cons_self)]
  · rw [← (h.tries right).attempts_of_ne other.symm]
    exact halts.failed
  · intro o ho
    rcases halts.succeeded o ho with same | ⟨new, once, u, hu, here, ok⟩
    · rcases step o with same' | ⟨new, once, here, ok⟩
      · exact .inl (same.trans same')
      · exact .inr ⟨new, same.trans once, w, List.mem_cons_self, here, ok⟩
    · -- `w` did not run for this attempt: what it ran for would have been kept.
      rcases step o with same' | ⟨_, _, rfl, _⟩
      · rw [same'] at once ok
        refine .inr ⟨?_, once, u, List.mem_cons_of_mem w hu, here, ok⟩
        exact Option.eq_none_iff_forall_ne_some.2 fun b kept => by cases new.symm.trans (h.grows kept)
      · obtain ⟨b, kept, _⟩ := configuration?_root right₁ h.configuration?_key
        cases new.symm.trans kept

theorem prepareAll_halts (family : Coherent U) {before : List Variant} (after : List Variant)
    {v : Variant} {m : Memory} {r : Nat} (hv : v ∈ U) (sub : ∀ w ∈ before, w ∈ U)
    (right : ∀ w ∈ U, m.Records w) (clear : ∀ w ∈ before, w.Owes m 0) (due : v.Owes m (r + 1)) :
    ∃ cause m', prepareAll (before ++ v :: after) m = (.error (.preparationFailed v.id cause), m') ∧
      Halts before v m m' := by
  induction before generalizing m with
  | nil =>
    obtain ⟨cause, m', h, fails, attempts⟩ :=
      due.fails fun w hw => right w (family.mem_of_ancestry hv hw)
    refine ⟨cause, m', by simp [prepareAll, h.prepare_eq], ?_⟩
    constructor
    · simp
    · exact fun k _ => h.configuration?_of_error k
    · exact ⟨fails, by simp [attempts]⟩
    · exact fun o other => .inl (by simp [attempts, other.symm])
  | cons w before ih =>
    obtain ⟨hw, sub⟩ := List.forall_mem_cons.1 sub
    obtain ⟨owes, clear⟩ := List.forall_mem_cons.1 clear
    have below : ∀ u ∈ w.ancestry, u ∈ U := fun u hu => family.mem_of_ancestry hw hu
    obtain ⟨c, m₁, h⟩ := owes.prepares fun u hu => right u (below u hu)
    have tries := h.tries fun u hu => right u (below u hu)
    have right₁ := h.records family hw right
    have later {u : Variant} {n : Nat} (hu : u ∈ U) (owes : u.Owes m n) :=
      owes.later (right _ (family.root_mem hu)) (right₁ _ (family.root_mem hu)) (h.attempts_le _)
    -- `w` owes nothing and `v` does, so `v` has another strategy, which is not touched yet.
    have other : w.origin ≠ v.origin := fun same =>
      absurd ((owes.of_origin family hw hv same).unique due (right _ (family.root_mem hv)))
        (Nat.succ_ne_zero r).symm
    have due₁ : v.Owes m₁ (r + 1) := by simpa [tries.attempts_of_ne other.symm] using later hv due
    have clear₁ : ∀ u ∈ before, u.Owes m₁ 0 := fun u hu => by simpa using later (sub u hu) (clear u hu)
    obtain ⟨cause, m', rest, halts⟩ := ih sub right₁ clear₁ due₁
    have grown := (reaches_prepareAll (before ++ v :: after) m₁).grows
    rw [rest] at grown
    refine ⟨cause, m', by simp [prepareAll, h.prepare_eq, rest], ?_⟩
    exact halts.cons h grown (fun u hu => right u (below u hu)) (fun u hu => right₁ u (below u hu))
      other

theorem Ready.owes {v : Variant} {m : Memory} (ready : v.Ready m)
    (right : ∀ w ∈ v.ancestry, m.Records w) : v.Owes m 0 := by
  obtain ⟨c, m', h⟩ := ready.prepares
  cases h.tries right with
  | spared kept _ => exact .settled kept
  | succeeded new ok _ => exact .pending new (fun i hi => absurd hi (Nat.not_lt_zero i)) ok

theorem Owes.before {v w : Variant} {m m' : Memory} {c : Configuration} (owes : w.Owes m' 0)
    (h : v.Prepares m (.ok c) m') (family : Coherent U) (hv : v ∈ U) (hw : w ∈ U)
    (right : ∀ u ∈ U, m.Records u) : w.Owes m 0 := by
  have right' := h.records family hv right
  obtain ⟨n, b, first, paid⟩ := owes.firstSuccess (right' _ (family.root_mem hw))
  have early : n ≤ m.attempts w.origin := by
    have tries := h.tries fun u hu => right u (family.mem_of_ancestry hv hu)
    rcases tries.attempts w.origin with same | ⟨_, _, here, _, ok⟩
    · omega
    · rw [family.strategy_eq hv hw here] at ok
      exact first.failsBefore.le ok
  have nothing := of_firstSuccess first (right _ (family.root_mem hw))
  rwa [Nat.sub_eq_zero_of_le early] at nothing

/-- Where variants are all prepared in a row, none of them had to wait for an earlier one. -/
theorem ready_of_prepareAll (family : Coherent U) {l : List Variant} {m : Memory}
    {cs : List Configuration} (sub : ∀ v ∈ l, v ∈ U) (right : ∀ w ∈ U, m.Records w)
    (all : (prepareAll l m).1 = .ok cs) : ∀ v ∈ l, v.Ready m := by
  induction l generalizing m cs with
  | nil => simp
  | cons v l ih =>
    obtain ⟨hv, sub⟩ := List.forall_mem_cons.1 sub
    have h := v.prepares m
    rw [answer_prepareAll_cons] at all
    generalize (v.prepare m).1 = answer, (v.prepare m).2 = m' at h all
    cases answer with
    | error e => cases all
    | ok c =>
      obtain ⟨bs, rest⟩ : ∃ bs, (prepareAll l m').1 = .ok bs := by
        cases later : (prepareAll l m').1 with
        | ok bs => exact ⟨bs, rfl⟩
        | error e => simp [later, Except.bind, Except.map] at all
      have right' := h.records family hv right
      refine List.forall_mem_cons.2 ⟨h.ready, fun w hw => ?_⟩
      have owes := (ih sub right' rest w hw).owes fun u hu =>
        right' u (family.mem_of_ancestry (sub w hw) hu)
      obtain ⟨_, _, before⟩ := (owes.before h family hv (sub w hw) right).prepares fun u hu =>
        right u (family.mem_of_ancestry (sub w hw) hu)
      exact before.ready

def debt (owed : Origin → Nat) (l : List Variant) : Nat := ∑ o ∈ (l.map origin).toFinset, owed o

theorem debt_eq_zero_iff {owed : Origin → Nat} {l : List Variant} :
    debt owed l = 0 ↔ ∀ v ∈ l, owed v.origin = 0 := by
  simp [debt, Finset.sum_eq_zero_iff]

/-- What is owed in one memory after the attempts that were made since another. -/
def arrears (m m' : Memory) (owed : Origin → Nat) (o : Origin) : Nat :=
  owed o - (m'.attempts o - m.attempts o)

theorem Halts.debt_arrears {before after : List Variant} {v : Variant} {m m' : Memory}
    (halts : Halts before v m m') {owed : Origin → Nat} (clear : ∀ w ∈ before, owed w.origin = 0)
    (due : 0 < owed v.origin) :
    debt (arrears m m' owed) (before ++ v :: after) + 1 = debt owed (before ++ v :: after) := by
  have hv : v.origin ∈ ((before ++ v :: after).map origin).toFinset := by simp
  have others : ∀ o ∈ ((before ++ v :: after).map origin).toFinset.erase v.origin,
      arrears m m' owed o = owed o := by
    intro o ho
    rcases halts.succeeded o (Finset.ne_of_mem_erase ho) with same | ⟨_, _, w, hw, rfl, _⟩
    · simp [arrears, same]
    · simp [arrears, clear w hw]
  have once : arrears m m' owed v.origin + 1 = owed v.origin := by
    rw [arrears, halts.failed.2]
    omega
  rw [debt, debt, ← Finset.add_sum_erase _ (arrears m m' owed) hv, ← Finset.add_sum_erase _ owed hv,
    Finset.sum_congr rfl others, ← once, Nat.add_right_comm]

end Variant

theorem Component.ready_of_candidates {U : Set Variant} (family : Variant.Coherent U)
    {c : Component} {own : Configuration} {m : Memory} {set : VariantSet}
    (sub : ∀ v ∈ c.graph.getD [], v ∈ U) (right : ∀ w ∈ U, m.Records w)
    (supply : (c.candidates own m).1 = .ok set) : ∀ v ∈ c.graph.getD [], v.Ready m := by
  cases graph : c.graph with
  | none => simp
  | some l =>
    rw [graph, Option.getD_some] at sub
    rw [answer_candidates graph] at supply
    cases all : (Variant.prepareAll l m).1 with
    | error e => simp [all, Except.map] at supply
    | ok cs => exact Variant.ready_of_prepareAll family sub right all

/-- Preparing the graph variants fails as long as something is owed, at the first that owes it. -/
theorem Component.candidates_of_debt {U : Set Variant} (family : Variant.Coherent U) {c : Component}
    {l : List Variant} (graph : c.graph = some l) {m : Memory} (sub : ∀ v ∈ l, v ∈ U)
    (right : ∀ w ∈ U, m.Records w) {owed : Origin → Nat}
    (debt : ∀ v ∈ l, v.Owes m (owed v.origin)) (own : Configuration) :
    (∃ set, (c.candidates own m).1 = .ok set ∧ ∀ v ∈ l, owed v.origin = 0) ∨
    ∃ before v after cause, l = before ++ v :: after ∧ (∀ w ∈ before, owed w.origin = 0) ∧
      0 < owed v.origin ∧ (c.candidates own m).1 = .error (.preparationFailed v.id cause) ∧
      Variant.Halts before v m (c.candidates own m).2 := by
  cases first : l.find? fun v => 0 < owed v.origin with
  | none =>
    have clear : ∀ v ∈ l, owed v.origin = 0 := by simpa using List.find?_eq_none.1 first
    refine .inl ?_
    have ready : ∀ v ∈ c.graph.getD [], v.Ready m := by
      rw [graph]
      intro v hv
      have owes := debt v hv
      rw [clear v hv] at owes
      obtain ⟨_, _, h⟩ := owes.prepares fun w hw => right w (family.mem_of_ancestry (sub v hv) hw)
      exact h.ready
    obtain ⟨set, supply, _⟩ :=
      Component.offers_candidates family (by rw [graph]; exact sub) right ready own
    exact ⟨set, supply, clear⟩
  | some v =>
    obtain ⟨positive, before, after, rfl, clear⟩ := List.find?_eq_some_iff_append.1 first
    simp only [decide_eq_true_eq, Bool.not_eq_true', decide_eq_false_iff_not, Nat.not_lt,
      Nat.le_zero] at positive clear
    obtain ⟨r, owes⟩ := Nat.exists_eq_add_of_lt positive
    have due : v.Owes m (r + 1) := by
      have owed := debt v (by simp)
      rwa [owes, Nat.zero_add] at owed
    obtain ⟨cause, m', stopped, halts⟩ := Variant.prepareAll_halts family after
      (sub v (by simp)) (fun w hw => sub w (by simp [hw])) right
      (fun w hw => clear w hw ▸ debt w (by simp [hw])) due
    refine .inr ⟨before, v, after, cause, rfl, clear, positive, ?_, ?_⟩
    · simp [candidates, graph, stopped]
    · simpa [candidates, graph, stopped] using halts

end ArtifactSelection
