import ArtifactSelection.Proofs.Session.Soundness
import ArtifactSelection.Sketch

/-!
Runs of a session. Along a run a session only grows: what is kept stays kept, a handle that was
given out stays at its desk, and no strategy runs again behind its first success. A copy is kept
only beside its source, as what the transformer makes of it.
-/

namespace ArtifactSelection

namespace Session

/-- Everything in one session is still there in another. -/
structure Grows (s t : Session) : Prop where
  ancestry : ∀ v ∈ s.ancestry, v ∈ t.ancestry
  memory : s.memory.Reaches t.ancestry t.memory
  desks : ∀ {i : Nat} {d : Desk}, s.desks[i]? = some d → ∃ d', t.desks[i]? = some d' ∧
    d'.component = d.component ∧ ∀ {x h}, d.handles.get? x = some h → d'.handles.get? x = some h

namespace Grows

variable {s t u : Session}

theorem refl (s : Session) : s.Grows s := ⟨fun _ h => h, .refl _ _, fun h => ⟨_, h, rfl, id⟩⟩

theorem trans (h : s.Grows t) (h' : t.Grows u) : s.Grows u where
  ancestry := fun v hv => h'.ancestry v (h.ancestry v hv)
  memory := (h.memory.mono h'.ancestry).trans h'.memory
  desks := by
    intro i d found
    obtain ⟨d', found', same, stays⟩ := h.desks found
    obtain ⟨d'', found'', same', stays'⟩ := h'.desks found'
    exact ⟨d'', found'', same'.trans same, fun given => stays' (stays given)⟩

theorem handle? (h : s.Grows t) {i : Nat} {x : String} {a : Handle}
    (given : s.handle? i x = some a) : t.handle? i x = some a := by
  obtain ⟨d, found, published⟩ := Option.bind_eq_some_iff.1 given
  obtain ⟨shared, held, value⟩ := Option.map_eq_some_iff.1 published
  obtain ⟨d', found', _, stays⟩ := h.desks found
  simp [Session.handle?, found', stays held, value]

end Grows

theorem desk?_append {s : Session} {i : Nat} {d : Desk} (there : s.desks[i]? = some d) (e : Desk) :
    (s.desks ++ [e])[i]? = some d :=
  (List.getElem?_append_left (List.getElem?_eq_some_iff.1 there).1).trans there

theorem Performs.grows {s t : Session} (step : s.Performs t) : s.Grows t := by
  cases step with
  | idle => exact .refl s
  | @asked i d d' v r m found step =>
    have same : Session.ancestry { s with desks := s.desks.set i d', memory := m } = s.ancestry :=
      ancestry_eq_of_components (components_set found step.component)
    constructor
    · rw [same]
      exact fun _ hv => hv
    · rw [same]
      exact step.reaches.mono fun w hw =>
        mem_ancestry (mem_of_desk? found) (Component.mem_variants_of_variant? hw)
    · intro j e there
      by_cases here : i = j
      · subst here
        obtain rfl := Option.some.inj (found.symm.trans there)
        have bound := (List.getElem?_eq_some_iff.1 found).1
        exact ⟨d', List.getElem?_set_self bound, step.component, step.get?_of_get?⟩
      · exact ⟨e, (List.getElem?_set_ne here).trans there, rfl, id⟩
  | worked work => exact ⟨fun _ hv => hv, work, fun there => ⟨_, there, rfl, id⟩⟩
  | @copied d id f hd =>
    constructor
    · exact ancestry_subset_withCopy s d id f
    · exact (Memory.Reaches.refl s.memory _).note _
    · exact fun there => ⟨_, desk?_append there _, rfl, fun given => given⟩
  | @reopened d settings hd =>
    constructor
    · rw [ancestry_append]
      exact fun v hv => .inl hv
    · exact .refl _ _
    · exact fun there => ⟨_, desk?_append there _, rfl, fun given => given⟩

theorem Sound.run {s : Session} (sound : s.Sound) (l : List Operation) :
    (s.run l).Sound ∧ s.Grows (s.run l) := by
  induction l generalizing s with
  | nil => exact ⟨sound, .refl s⟩
  | cons o l ih =>
    have step := performs sound.faithful o
    obtain ⟨sound', grows⟩ := ih (step.sound sound)
    exact ⟨sound', step.grows.trans grows⟩

/-- However a component and its copies are worked with, a strategy runs up to its first success and
no further, and what came out of it is kept for good. A copy is kept beside its source, transformed,
and every handle holds what is kept for its own variant. -/
theorem run_prepares_once {c : Component} {n : Nat} (numbered : c.Numbered n)
    (settings : Option CacheSettings) (before after : List Operation) :
    let s := (opened c settings n).run before
    let t := s.run after
    (∀ o l strategy, .original o l strategy ∈ s.ancestry →
      (∀ i b, strategy i = .ok b → s.memory.attempts o ≤ i + 1) ∧
      ∀ b, s.memory.configuration? (.original o) = some b →
        ∃ i, s.memory.attempts o = i + 1 ∧ strategy.FirstSuccess i b) ∧
    (∀ k b, s.memory.configuration? k = some b → t.memory.configuration? k = some b) ∧
    (∀ k f v b, .copied k f v ∈ s.ancestry → s.memory.configuration? (.copied k v.key) = some b →
      ∃ a, s.memory.configuration? v.key = some a ∧ b = a.mapArtifacts f) ∧
    ∀ d ∈ s.desks, ∀ x h, d.handles.get? x = some h →
      d.component.variant? x = some h.value.variant ∧
      s.memory.configuration? h.value.variant.key = some h.value.configuration := by
  intro s t
  obtain ⟨sound, _⟩ := (sound_opened numbered settings).run before
  obtain ⟨_, grows⟩ := sound.run after
  refine ⟨?_, fun k b kept => grows.memory.grows kept, ?_, ?_⟩
  · intro o l strategy hv
    have records := sound.right _ hv
    exact ⟨fun i b ok => records.attempts_le ok, fun b kept => records.firstSuccess kept⟩
  · intro k f v b hv kept
    exact (sound.right _ hv).source kept
  · intro d hd x h given
    have serves := sound.faithful d hd given
    exact ⟨serves.own, serves.kept⟩

def retried : ConfigurationSketch := { name := "main", artifacts := [.jar "lib"], failures := 1 }

def retriedSketch : Sketch := { projectPath := ":lib", configurations := [retried] }

def moved (a : Artifact) : Artifact := { a with file := some "moved" }

def namesake : Variant := .original ⟨1, 0⟩ ⟨"main", "", ∅⟩ fun _ => .error (.plain "other")

def retriedWork : List Operation :=
  [.ask 0 .artifacts namesake, .copy 0 (.project ":" ":first") id,
    .copy 1 (.project ":" ":second") moved, .ask 2 .handle namesake, .prepare 0 0,
    .resolve 2 "main" (Policy.selector {}) .nothing (.ofList [("usage", "test")])]

theorem run_prepares_retried_once :
    (retriedSketch.component 0).Numbered 0 ∧
    let s := (opened (retriedSketch.component 0) none 0).run retriedWork
    s.memory.attempts ⟨0, 0⟩ ≤ 2 ∧
    ∃ a, s.memory.configuration? (.copied 0 (.original ⟨0, 0⟩)) = some a ∧
      s.memory.configuration? (.copied 1 (.copied 0 (.original ⟨0, 0⟩))) =
        some (a.mapArtifacts moved) := by
  have numbered := retriedSketch.numbered_component 0 0
  obtain ⟨attempts, _, copies, _⟩ := run_prepares_once numbered none retriedWork []
  let own : Variant :=
    .original ⟨0, 0⟩ ⟨"main", "main", ∅⟩ (retried.strategy retriedSketch.id)
  have first : own ∈ ((opened (retriedSketch.component 0) none 0).run retriedWork).ancestry :=
    mem_ancestry (mem_of_desk? (i := 0) rfl) (List.mem_of_getElem? (i := 0) rfl)
  have last : .copied 1 moved (.copied 0 id own) ∈
      ((opened (retriedSketch.component 0) none 0).run retriedWork).ancestry :=
    mem_ancestry (mem_of_desk? (i := 2) rfl) (List.mem_of_getElem? (i := 0) rfl)
  refine ⟨numbered, (attempts _ _ _ first).1 1 _ rfl, ?_⟩
  obtain ⟨a, source, transformed⟩ := copies 1 moved _ _ last rfl
  exact ⟨a, source, transformed ▸ rfl⟩

end Session

end ArtifactSelection
