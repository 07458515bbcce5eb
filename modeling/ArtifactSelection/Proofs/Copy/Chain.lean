import ArtifactSelection.Proofs.Copy.Composition
import ArtifactSelection.Proofs.Session.Frame

/-!
Failures along a chain of copies. A copy of a copy, and so on, prepares what stands before it in the
chain, down to the original; if that fails, each link wraps the failure on its way out. The failure
that comes out tells how long the chain is and nothing of what was tried stays behind.
-/

namespace ArtifactSelection

structure Copying where
  number : Nat
  id : ComponentId
  transform : Artifact → Artifact

def Component.copyAll (c : Component) (l : List Copying) : Component :=
  l.foldl (fun c x => c.copy x.number x.id x.transform) c

namespace Variant

def copyAll (v : Variant) (l : List Copying) : Variant :=
  l.foldl (fun v x => .copied x.number x.transform v) v

theorem label_copyAll (v : Variant) (l : List Copying) : (v.copyAll l).label = v.label := by
  induction l generalizing v with
  | nil => rfl
  | cons x l ih => exact ih _

theorem depth_copyAll (v : Variant) (l : List Copying) :
    (v.copyAll l).key.depth = v.key.depth + l.length := by
  induction l generalizing v with
  | nil => rfl
  | cons x l ih =>
    have step : (v.copyAll (x :: l)).key.depth = (copied x.number x.transform v).key.depth + l.length :=
      ih _
    rw [step, List.length_cons, key, VariantKey.depth]
    omega

theorem supply_copyAll (v : Variant) (l : List Copying) (m : Memory) :
    (v.copyAll l).supply m = v.supply m := by
  induction l generalizing v with
  | nil => rfl
  | cons x l ih => exact ih _

end Variant

theorem Component.mem_variants_copyAll {c : Component} {l : List Copying} {v : Variant}
    (h : v ∈ (c.copyAll l).variants) : ∃ u ∈ c.variants, v = u.copyAll l := by
  induction l generalizing c with
  | nil => exact ⟨v, h, rfl⟩
  | cons x l ih =>
    obtain ⟨w, hw, rfl⟩ := ih h
    obtain ⟨u, hu, rfl⟩ := mem_variants_copy hw
    exact ⟨u, hu, rfl⟩

namespace Session

/-- The operations at a desk that come down to the preparation of one variant. -/
inductive Wants (s : Session) (i : Nat) (v : Variant) : Operation → Prop
  | prepare {d : Desk} {place : Nat} : s.desks[i]? = some d →
      d.component.variants[place]? = some v → Wants s i v (.prepare i place)
  | ask {d : Desk} {w : Variant} (entry : Entry) : s.desks[i]? = some d →
      d.component.variant? w.id = some v → Wants s i v (.ask i entry w)

variable {s : Session} {i : Nat} {v : Variant} {o : Operation} {e : Failure}

theorem Wants.mem_ancestry (wants : s.Wants i v o) : v ∈ s.ancestry := by
  cases wants with
  | prepare desk here => exact Session.mem_ancestry (mem_of_desk? desk) (List.mem_of_getElem? here)
  | ask _ desk own =>
    exact Session.mem_ancestry (mem_of_desk? desk) (Component.mem_variants_of_variant? own)

theorem Wants.failure? (wants : s.Wants i v o) (sound : s.Sound)
    (fails : v.supply s.memory = .error e) :
    s.failure? o = some (.layered v.id (v.key.depth + 1) e) := by
  have right : ∀ w ∈ v.ancestry, s.memory.Records w := fun w hw =>
    sound.right w (ancestry_closed wants.mem_ancestry hw)
  cases wants with
  | @prepare d place desk here =>
    have outcome := (v.prepares s.memory).of_supply right fails
    simp [Session.failure?, desk, here, Session.prepare, outcome, refusal?]
  | @ask d w entry desk own =>
    suffices refused : (d.request w s.memory).1 = .error (.layered v.id (v.key.depth + 1) e) by
      simp [Session.failure?, desk, refused, refusal?]
    have step := d.requests w s.memory
    generalize (d.request w s.memory).1 = answer, (d.request w s.memory).2.1 = d',
      (d.request w s.memory).2.2 = m' at step ⊢
    have noted : ∀ u ∈ v.ancestry, (s.memory.note (.building w.id)).Records u := fun u hu =>
      (right u hu).note _
    cases step with
    | unknown none => cases none.symm.trans own
    | reused _ found =>
      -- A handle would hold what is kept of the variant, and then the original would not fail.
      have serves := sound.faithful d (mem_of_desk? desk) found
      obtain rfl := Option.some.inj (own.symm.trans serves.own)
      obtain ⟨b, kept, _⟩ := Variant.configuration?_root right serves.kept
      cases fails.symm.trans (Variant.supply_of_kept kept)
    | published own' _ outcome =>
      obtain rfl := Option.some.inj (own.symm.trans own')
      cases outcome.of_supply noted fails
    | failed own' _ outcome =>
      obtain rfl := Option.some.inj (own.symm.trans own')
      rw [Except.error.inj (outcome.of_supply noted fails)]

theorem Wants.unchanged (wants : s.Wants i v o) (fails : s.failure? o = some e) :
    (s.perform o).desks = s.desks ∧
      ∀ k, (s.perform o).memory.configuration? k = s.memory.configuration? k := by
  cases wants with
  | prepare desk here =>
    have outcome := v.prepares s.memory
    simp only [Session.failure?, desk, Option.bind_some, here, refusal?_eq_some_iff,
      Session.prepare] at fails
    rw [fails] at outcome
    constructor
    · simp [perform, preparePlace, desk, here, Session.prepare]
    · intro k
      simpa [perform, preparePlace, desk, here, Session.prepare] using
        outcome.configuration?_of_error k
  | ask => exact unchanged_of_refused fails

/-- Every variant of the last of `n` copies was copied from a variant of the first component. If that
is an original whose strategy fails, then preparing the copy, itself or on request, fails with that
failure inside `n + 1` failed preparations, and no handle and nothing that is kept changes. What a
reader is told of it lists all of them, and advises on the preparation whatever it failed with. -/
theorem failure_along_copies {c : Component} {n : Nat} (numbered : c.Numbered n)
    (settings : Option CacheSettings) (work : List Operation) {s : Session}
    (reached : (opened c settings n).run work = s) {i : Nat} {d : Desk}
    (desk : s.desks[i]? = some d) {base : Component} {copyings : List Copying}
    (chain : d.component = base.copyAll copyings) {v : Variant}
    (listed : v ∈ d.component.variants) :
    ∃ u ∈ base.variants, v = u.copyAll copyings ∧
      ∀ o label strategy e, u = .original o label strategy →
        s.memory.configuration? (.original o) = none →
        strategy (s.memory.attempts o) = .error e →
        let f := Failure.layered label.id (copyings.length + 1) e
        (∀ operation, s.Wants i v operation →
          s.failure? operation = some f ∧ (s.perform operation).desks = s.desks ∧
          ∀ k, (s.perform operation).memory.configuration? k = s.memory.configuration? k) ∧
        f.diagnosis =
          { message := "\n  caused by: ".intercalate
              (List.replicate (copyings.length + 1)
                ("Failed to prepare variant '" ++ label.id ++ "' for artifact resolution") ++
                e.chain)
            details := some "Preparation failures are not cached; the next request retries"
            suggestion := none } := by
  subst reached
  obtain ⟨sound, _⟩ := (sound_opened numbered settings).run work
  rw [chain] at listed
  obtain ⟨u, hu, rfl⟩ := Component.mem_variants_copyAll listed
  refine ⟨u, hu, rfl, ?_⟩
  rintro o label strategy e rfl new fails f
  have supplied : ((Variant.original o label strategy).copyAll copyings).supply
      ((opened c settings n).run work).memory = .error e := by
    rw [Variant.supply_copyAll, Variant.supply_of_new new]
    exact fails
  have id : ((Variant.original o label strategy).copyAll copyings).id = label.id :=
    congrArg Label.id (Variant.label_copyAll _ copyings)
  have depth : ((Variant.original o label strategy).copyAll copyings).key.depth =
      copyings.length := (Variant.depth_copyAll _ copyings).trans (Nat.zero_add _)
  constructor
  · intro operation wants
    have failed := wants.failure? sound supplied
    rw [id, depth] at failed
    exact ⟨failed, wants.unchanged failed⟩
  · rw [Failure.diagnosis_layered, Failure.chain_layered]

def copiedTwice : List Operation :=
  [.copy 0 (.project ":" ":first") id, .copy 1 (.project ":" ":second") moved]

theorem failure_along_two_copies :
    let s := (opened (retriedSketch.component 0) none 0).run copiedTwice
    (retriedSketch.component 0).Numbered 0 ∧
    s.failure? (.prepare 2 0) = some (.layered "main" 3 retried.failure) ∧
    s.failure? (.ask 2 .handle namesake) = some (.layered "main" 3 retried.failure) ∧
    (s.ask 2 .handle namesake).desks = s.desks := by
  intro s
  have numbered := retriedSketch.numbered_component 0 0
  let own : Variant :=
    .original ⟨0, 0⟩ ⟨"main", "main", ∅⟩ (retried.strategy retriedSketch.id)
  let copyings : List Copying :=
    [⟨0, .project ":" ":first", id⟩, ⟨1, .project ":" ":second", moved⟩]
  obtain ⟨u, hu, _, layers⟩ := failure_along_copies numbered none copiedTwice (s := s) rfl (i := 2)
    rfl (show _ = (retriedSketch.component 0).copyAll copyings from rfl)
    (v := .copied 1 moved (.copied 0 id own)) (List.mem_of_getElem? (i := 0) rfl)
  obtain rfl : u = own := List.mem_singleton.1 hu
  have failed := (layers _ _ _ retried.failure rfl rfl rfl).1
  have asked := failed (.ask 2 .handle namesake) (.ask .handle rfl rfl)
  exact ⟨numbered, (failed (.prepare 2 0) (.prepare rfl rfl)).1, asked.1, asked.2.1⟩

end Session

end ArtifactSelection
