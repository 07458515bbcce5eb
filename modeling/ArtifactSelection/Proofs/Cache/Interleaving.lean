import ArtifactSelection.Proofs.Cache.Publication
import Mathlib.Logic.Function.Basic

/-!
Calls to one cache that interleave. A call first reads its key, holding nothing. On a miss it enters
the entry of the key, which one call holds at a time, looks again, and builds if the entry is still
vacant. In between, other calls may publish, or fail. Still each key is published once, and every
interleaving comes to what its calls come to one after the other, in the order of their decisions.
Reading a key and entering an entry are single steps here; nothing is said about who has to wait how
long.
-/

namespace ArtifactSelection.Cache

inductive Phase (α ε : Type)
  | called
  | missed
  | entered
  | building
  | leaving (answer : Except ε (Shared α))
  | returned (answer : Except ε (Shared α))

namespace Phase

variable {α ε : Type}

def holds : Phase α ε → Bool
  | entered | building | leaving _ => true
  | _ => false

def answer? : Phase α ε → Option (Except ε (Shared α))
  | leaving answer | returned answer => some answer
  | _ => none

end Phase

/-- A cache and the calls to it, one for each caller. -/
structure Callers (ι κ α ε : Type) where
  cache : Cache κ α := ∅
  phase : ι → Phase α ε := fun _ => .called

inductive Move (ι α ε : Type)
  | hit (i : ι) (h : Shared α)
  | missed (i : ι)
  | entered (i : ι)
  | found (i : ι) (h : Shared α)
  | began (i : ι)
  | built (i : ι) (a : α)
  | failed (i : ι) (e : ε)
  | left (i : ι)

variable {ι κ α ε : Type}

namespace Move

def publication? (key : ι → κ) : Move ι α ε → Option (κ × α)
  | built i a => some (key i, a)
  | _ => none

/-- The call that a move decides, with what its builder came to. A builder that did not run may as
well have come to the value that was there. -/
def decided? : Move ι α ε → Option (ι × Except ε α)
  | hit i h | found i h => some (i, .ok h.value)
  | built i a => some (i, .ok a)
  | failed i e => some (i, .error e)
  | _ => none

end Move

variable [DecidableEq κ]

/-- The answers to calls made one after the other, the latest first, and the cache behind them. -/
def inTurn (key : ι → κ) :
    List (ι × Except ε α) → List (ι × Except ε (Shared α)) × Cache κ α
  | [] => ([], ∅)
  | (i, outcome) :: earlier =>
    let (answers, cache) := inTurn key earlier
    let (answer, cache, _) := cache.getOrBuild (key i) (fun _ => (outcome, ())) ()
    ((i, answer) :: answers, cache)

theorem inTurn_cons (key : ι → κ) (i : ι) (outcome : Except ε α) (calls : List (ι × Except ε α)) :
    inTurn key ((i, outcome) :: calls) =
      let alone := (inTurn key calls).2.getOrBuild (key i) (fun _ => (outcome, ())) ()
      ((i, alone.1) :: (inTurn key calls).1, alone.2.1) := rfl

theorem get?_inTurn {key : ι → κ} {calls : List (ι × Except ε α)} {i : ι} {h : Shared α}
    (answer : (i, .ok h) ∈ (inTurn key calls).1) : (inTurn key calls).2.get? (key i) = some h := by
  induction calls with
  | nil => cases answer
  | cons call calls ih =>
    rw [inTurn_cons] at answer ⊢
    rcases List.mem_cons.1 answer with last | earlier
    · obtain ⟨rfl, ok⟩ := Prod.mk.inj last
      exact get?_of_getOrBuild ok.symm
    · exact get?_getOrBuild (ih earlier)

theorem error_of_inTurn {key : ι → κ} {calls : List (ι × Except ε α)} {i : ι} {e : ε}
    (answer : (i, .error e) ∈ (inTurn key calls).1) : (i, .error e) ∈ calls := by
  induction calls with
  | nil => cases answer
  | cons call calls ih =>
    rw [inTurn_cons] at answer
    rcases List.mem_cons.1 answer with last | earlier
    · obtain ⟨rfl, fails⟩ := Prod.mk.inj last
      have own : call.2 = .error e := error_of_getOrBuild fails.symm
      rw [← own]
      exact List.mem_cons_self
    · exact List.mem_cons_of_mem _ (ih earlier)

theorem nodup_keys_inTurn (key : ι → κ) (calls : List (ι × Except ε α)) :
    (inTurn key calls).2.keys.Nodup := by
  induction calls with
  | nil => exact .nil
  | cons call calls ih => exact nodup_keys_getOrBuild ih

variable [DecidableEq ι]

namespace Callers

def advance (s : Callers ι κ α ε) (i : ι) (p : Phase α ε) : Callers ι κ α ε :=
  { s with phase := Function.update s.phase i p }

/-- What one caller can do next, the others standing still. -/
inductive Step (key : ι → κ) (s : Callers ι κ α ε) : Move ι α ε → Callers ι κ α ε → Prop
  | hit {i : ι} {h : Shared α} : s.phase i = .called → s.cache.get? (key i) = some h →
      Step key s (.hit i h) (s.advance i (.returned (.ok h)))
  | missed {i : ι} : s.phase i = .called → s.cache.get? (key i) = none →
      Step key s (.missed i) (s.advance i .missed)
  | entered {i : ι} : s.phase i = .missed → (∀ j, key j = key i → (s.phase j).holds = false) →
      Step key s (.entered i) (s.advance i .entered)
  | found {i : ι} {h : Shared α} : s.phase i = .entered → s.cache.get? (key i) = some h →
      Step key s (.found i h) (s.advance i (.leaving (.ok h)))
  | began {i : ι} : s.phase i = .entered → s.cache.get? (key i) = none →
      Step key s (.began i) (s.advance i .building)
  | built {i : ι} (a : α) : s.phase i = .building →
      Step key s (.built i a)
        { s.advance i (.leaving (.ok ⟨s.cache.size, a⟩)) with
          cache := s.cache.publish (key i) a }
  | failed {i : ι} (e : ε) : s.phase i = .building →
      Step key s (.failed i e) (s.advance i (.leaving (.error e)))
  | left {i : ι} {r : Except ε (Shared α)} : s.phase i = .leaving r →
      Step key s (.left i) (s.advance i (.returned r))

inductive Runs (key : ι → κ) : List (Move ι α ε) → Callers ι κ α ε → Prop
  | start : Runs key [] {}
  | step {moves : List (Move ι α ε)} {m : Move ι α ε} {s t : Callers ι κ α ε} :
      Runs key moves s → Step key s m t → Runs key (m :: moves) t

variable {key : ι → κ} {moves : List (Move ι α ε)} {m : Move ι α ε} {s t : Callers ι κ α ε}

omit [DecidableEq κ] in
theorem phase_advance (s : Callers ι κ α ε) (i j : ι) (p : Phase α ε) :
    (s.advance i p).phase j = if j = i then p else s.phase j := by
  simp [advance, Function.update_apply]

omit [DecidableEq κ] in
@[simp] theorem cache_advance (s : Callers ι κ α ε) (i : ι) (p : Phase α ε) :
    (s.advance i p).cache = s.cache := rfl

namespace Step

theorem holds (step : Step key s m t) {j : ι} (h : (t.phase j).holds) :
    (s.phase j).holds ∨ m = .entered j ∧ ∀ i, key i = key j → (s.phase i).holds = false := by
  cases step with
  | @entered i _ free =>
    rw [phase_advance] at h
    split at h
    · next same => exact .inr ⟨by rw [same], by rwa [same]⟩
    · exact .inl h
  | _ =>
    simp only [phase_advance] at h
    split at h <;> simp_all [Phase.holds]

theorem building (step : Step key s m t) {j : ι} (h : t.phase j = .building) :
    s.phase j = .building ∨ m = .began j ∧ s.phase j = .entered ∧ s.cache.get? (key j) = none := by
  cases step with
  | @began i entered new =>
    rw [phase_advance] at h
    split at h
    · next same => exact .inr (by simp [same, entered, new])
    · exact .inl h
  | _ =>
    simp only [phase_advance] at h
    split at h <;> simp_all

theorem cache (step : Step key s m t) :
    m.publication? key = none ∧ t.cache = s.cache ∨
      ∃ i a, m = .built i a ∧ s.phase i = .building ∧ t.phase i ≠ .building ∧
        t.cache = s.cache.publish (key i) a := by
  cases step with
  | @built i a before => exact .inr ⟨i, a, rfl, before, by simp [advance], rfl⟩
  | _ => exact .inl ⟨rfl, rfl⟩

theorem undecided (step : Step key s m t) (h : m.decided? = none) :
    t.cache = s.cache ∧ ∀ j, (t.phase j).answer? = (s.phase j).answer? := by
  cases step with
  | hit | found | built | failed => simp [Move.decided?] at h
  | missed before | entered before | began before | left before =>
    refine ⟨rfl, fun j => ?_⟩
    rw [phase_advance]
    split
    · next same => simp [same, before, Phase.answer?]
    · rfl

theorem decided (step : Step key s m t)
    (vacant : ∀ i, s.phase i = .building → s.cache.get? (key i) = none) {i : ι}
    {outcome : Except ε α} (h : m.decided? = some (i, outcome)) :
    let alone := s.cache.getOrBuild (key i) (fun _ => (outcome, ())) ()
    t.cache = alone.2.1 ∧ (s.phase i).answer? = none ∧
      ∀ j, (t.phase j).answer? = if j = i then some alone.1 else (s.phase j).answer? := by
  have answers (p : Phase α ε) (r : Except ε (Shared α)) (known : p.answer? = some r) (j : ι) :
      ((s.advance i p).phase j).answer? = if j = i then some r else (s.phase j).answer? := by
    rw [phase_advance]
    split <;> simp [known]
  cases step with
  | hit before published | found before published =>
    obtain ⟨rfl, rfl⟩ := Prod.mk.inj (Option.some.inj h)
    rw [getOrBuild_of_get? published]
    exact ⟨rfl, by simp [before, Phase.answer?], answers _ _ rfl⟩
  | built a before =>
    obtain ⟨rfl, rfl⟩ := Prod.mk.inj (Option.some.inj h)
    rw [getOrBuild_of_ok (vacant _ before) rfl]
    exact ⟨rfl, by simp [before, Phase.answer?], answers _ _ rfl⟩
  | failed e before =>
    obtain ⟨rfl, rfl⟩ := Prod.mk.inj (Option.some.inj h)
    rw [getOrBuild_of_error (vacant _ before) rfl]
    exact ⟨rfl, by simp [before, Phase.answer?], answers _ _ rfl⟩
  | missed | entered | began | left => cases h

end Step

/-- What holds between any two moves. -/
structure Sound (key : ι → κ) (s : Callers ι κ α ε) : Prop where
  exclusive : ∀ {i j}, (s.phase i).holds → (s.phase j).holds → key i = key j → i = j
  vacant : ∀ i, s.phase i = .building → s.cache.get? (key i) = none

omit [DecidableEq ι] in
theorem sound_start (key : ι → κ) : Sound key ({} : Callers ι κ α ε) where
  exclusive := by simp [Phase.holds]
  vacant := by simp

theorem Step.get?_of_get? (step : Step key s m t) (sound : Sound key s) {k : κ} {h : Shared α}
    (published : s.cache.get? k = some h) : t.cache.get? k = some h := by
  rcases step.cache with ⟨_, same⟩ | ⟨i, a, _, before, _, new⟩
  · rw [same, published]
  · rw [new]
    exact get?_publish_of_get? (sound.vacant i before) published a

theorem Sound.step (sound : Sound key s) (step : Step key s m t) : Sound key t where
  exclusive := by
    intro i j hi hj same
    rcases step.holds hi with held | ⟨rfl, free⟩ <;> rcases step.holds hj with held' | ⟨enters, free'⟩
    · exact sound.exclusive held held' same
    · simp [free' i same] at held
    · simp [free j same.symm] at held'
    · exact Move.entered.inj enters
  vacant := by
    intro j hj
    rcases step.cache with ⟨_, cache⟩ | ⟨i, a, rfl, before, after, cache⟩
    · rw [cache]
      rcases step.building hj with held | ⟨_, _, new⟩
      · exact sound.vacant j held
      · exact new
    · rcases step.building hj with held | ⟨begins, _⟩
      · -- What is published belongs to the one call that was building under its key.
        have apart : key i ≠ key j := by
          intro same
          have one := sound.exclusive (by simp [before, Phase.holds]) (by simp [held, Phase.holds])
            same
          exact after (one ▸ hj)
        rw [cache, get?_publish, if_neg apart]
        exact sound.vacant j held
      · cases begins

namespace Runs

theorem sound (run : Runs key moves s) : Sound key s := by
  induction run with
  | start => exact sound_start key
  | step _ step ih => exact ih.step step

theorem published (run : Runs key moves s) :
    s.cache.published = moves.filterMap (·.publication? key) := by
  induction run with
  | start => rfl
  | step _ step ih =>
    rcases step.cache with ⟨none, same⟩ | ⟨i, a, rfl, _, _, new⟩
    · rw [same, ih, List.filterMap_cons_none none]
    · rw [new, publish, ih]
      rfl

theorem in_turn (run : Runs key moves s) :
    (inTurn key (moves.filterMap Move.decided?)).2 = s.cache ∧
      ∀ i r, (i, r) ∈ (inTurn key (moves.filterMap Move.decided?)).1 ↔
        (s.phase i).answer? = some r := by
  induction run with
  | start => simp [inTurn, Phase.answer?, EmptyCollection.emptyCollection]
  | @step moves m s t run step ih =>
    cases decision : m.decided? with
    | none =>
      obtain ⟨same, answers⟩ := step.undecided decision
      rw [List.filterMap_cons_none decision, same]
      simpa [answers] using ih
    | some d =>
      obtain ⟨j, outcome⟩ := d
      obtain ⟨cache, new, answers⟩ := step.decided run.sound.vacant decision
      rw [List.filterMap_cons_some decision, inTurn_cons, ih.1]
      refine ⟨cache.symm, fun i r => ?_⟩
      rw [List.mem_cons, answers, ih.2]
      split
      · next same => simp [same, new, eq_comm]
      · next other => simp [other]

theorem get?_of_returned (run : Runs key moves s) {i : ι} {h : Shared α}
    (ok : s.phase i = .returned (.ok h)) : s.cache.get? (key i) = some h := by
  obtain ⟨cache, answers⟩ := run.in_turn
  rw [← cache]
  exact get?_inTurn ((answers i _).2 (by simp [ok, Phase.answer?]))

theorem failed_of_returned (run : Runs key moves s) {i : ι} {e : ε}
    (refused : s.phase i = .returned (.error e)) : .failed i e ∈ moves := by
  have answer := (run.in_turn.2 i (.error e)).2 (by simp [refused, Phase.answer?])
  obtain ⟨m, hm, decision⟩ := List.mem_filterMap.1 (error_of_inTurn answer)
  cases m with
  | failed =>
    obtain ⟨rfl, same⟩ := Prod.mk.inj (Option.some.inj decision)
    obtain rfl := Except.error.inj same
    exact hm
  | _ => simp [Move.decided?] at decision

end Runs

/-- However calls to a cache interleave, a key is published at most once, and whoever is given a
value is given the published one. Nobody builds what is published already or what another call is
building. A refusal comes from the caller's own builder and leaves the cache as it is. All answers
are those of the same calls made one after the other. -/
theorem runs_publish_once (run : Runs key moves s) :
    s.cache.published = moves.filterMap (·.publication? key) ∧ s.cache.keys.Nodup ∧
    (∀ i h, s.phase i = .returned (.ok h) → s.cache.get? (key i) = some h) ∧
    (∀ i e, s.phase i = .returned (.error e) → .failed i e ∈ moves) ∧
    (∀ i j, s.phase i = .building → s.phase j = .building → key i = key j → i = j) ∧
    (∀ m t, Step key s m t →
      (∀ k h, s.cache.get? k = some h → t.cache.get? k = some h) ∧
      (∀ i, m = .began i →
        s.cache.get? (key i) = none ∧ ∀ j, s.phase j = .building → key j ≠ key i) ∧
      ∀ i e, m = .failed i e → t.cache = s.cache) ∧
    let inOrder := inTurn key (moves.filterMap Move.decided?)
    inOrder.2 = s.cache ∧ ∀ i r, s.phase i = .returned r → (i, r) ∈ inOrder.1 := by
  have sound := run.sound
  obtain ⟨cache, answers⟩ := run.in_turn
  have alone {i j : ι} (hi : s.phase i = .building) (hj : s.phase j = .building)
      (same : key i = key j) : i = j :=
    sound.exclusive (by simp [hi, Phase.holds]) (by simp [hj, Phase.holds]) same
  refine ⟨run.published, cache ▸ nodup_keys_inTurn key _, fun i h ok => run.get?_of_returned ok,
    fun i e refused => run.failed_of_returned refused, fun i j => alone, fun m t step => ⟨?_, ?_, ?_⟩,
    cache, fun i r returned => (answers i r).2 (by simp [returned, Phase.answer?])⟩
  · exact fun k h published => step.get?_of_get? sound published
  · rintro i rfl
    cases step with
    | began entered new =>
      refine ⟨new, fun j building same => ?_⟩
      have one := sound.exclusive (by simp [building, Phase.holds])
        (by simp [entered, Phase.holds]) same
      rw [one, entered] at building
      cases building
  · rintro i e rfl
    cases step
    rfl

/-- Three calls find nothing. The first builds in vain, the second succeeds, and the third, entering
last, finds what the second has built; a fourth finds it while the second still holds the entry. -/
def race : List (Move (Fin 4) Nat String) :=
  [.left 2, .found 2 ⟨0, 7⟩, .entered 2, .left 1, .hit 3 ⟨0, 7⟩, .built 1 7, .began 1, .entered 1,
    .left 0, .failed 0 "none", .began 0, .entered 0, .missed 2, .missed 1, .missed 0]

theorem runs_publish_once_race : ∃ s : Callers (Fin 4) String Nat String,
    Runs (fun _ => "lib") race s ∧ s.phase 0 = .returned (.error "none") ∧
    s.phase 1 = .returned (.ok ⟨0, 7⟩) ∧ s.phase 2 = .returned (.ok ⟨0, 7⟩) ∧
    s.phase 3 = .returned (.ok ⟨0, 7⟩) ∧
    s.cache.published = [("lib", 7)] ∧ s.cache.get? "lib" = some ⟨0, 7⟩ ∧
    .failed 0 "none" ∈ race ∧
    (inTurn (fun _ => "lib") [(2, .ok 7), (3, .ok 7), (1, .ok 7), (0, .error "none")]).2 =
      s.cache := by
  have run : Runs (fun _ : Fin 4 => "lib") ([] : List (Move (Fin 4) Nat String)) {} := .start
  have run := ((run.step (.missed (i := 0) rfl rfl)).step (.missed (i := 1) rfl rfl)).step
    (.missed (i := 2) rfl rfl)
  have run := ((run.step (.entered (i := 0) rfl (by decide))).step (.began (i := 0) rfl rfl)).step
    (.failed (i := 0) "none" rfl)
  have run := run.step (.left (i := 0) rfl)
  have run := ((run.step (.entered (i := 1) rfl (by decide))).step (.began (i := 1) rfl rfl)).step
    (.built (i := 1) 7 rfl)
  have run := (run.step (.hit (i := 3) rfl rfl)).step (.left (i := 1) rfl)
  have run := ((run.step (.entered (i := 2) rfl (by decide))).step (.found (i := 2) rfl rfl)).step
    (.left (i := 2) rfl)
  obtain ⟨published, _, given, refused, _, _, inOrder, _⟩ := runs_publish_once run
  exact ⟨_, run, rfl, rfl, rfl, rfl, published, given 1 _ rfl, refused 0 _ rfl, inOrder⟩

end Callers
end ArtifactSelection.Cache
