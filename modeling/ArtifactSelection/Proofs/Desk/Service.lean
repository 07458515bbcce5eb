import ArtifactSelection.Proofs.Desk.Request
import Mathlib.Data.List.Dedup

/-!
A desk that answers one request after the other. Each id that is ever answered with a handle is
answered with that handle from then on, whoever asks and in whichever way, and the size of the desk
counts those ids.
-/

namespace ArtifactSelection

structure Answered where
  id : String
  answer : Except Failure (Shared Handle)

structure Service where
  desk : Desk
  memory : Memory
  answered : List Answered := []

namespace Service

def opened (c : Component) (settings : Option CacheSettings) (m : Memory) : Service :=
  { desk := .opened c settings, memory := m }

def serve (s : Service) (r : Entry × Variant) : Service :=
  let (answer, desk, memory) := s.desk.ask r.1 r.2 s.memory
  { desk, memory, answered := s.answered ++ [⟨r.2.id, answer⟩] }

def serveAll (s : Service) (l : List (Entry × Variant)) : Service := l.foldl serve s

def given (s : Service) : List String := (s.answered.filter (·.answer.isOk)).map (·.id)

theorem mem_given {s : Service} {x : String} :
    x ∈ s.given ↔ ∃ a ∈ s.answered, a.id = x ∧ ∃ h, a.answer = .ok h := by
  have ok_iff (a : Answered) : a.answer.isOk = true ↔ ∃ h, a.answer = .ok h := by
    cases a.answer <;> simp [Except.isOk, Except.toBool]
  simp only [given, List.mem_map, List.mem_filter, ok_iff]
  constructor
  · rintro ⟨a, ⟨ha, ok⟩, id⟩
    exact ⟨a, ha, id, ok⟩
  · rintro ⟨a, ha, id, ok⟩
    exact ⟨a, ⟨ha, ok⟩, id⟩

theorem answered_serveAll (s : Service) (l : List (Entry × Variant)) :
    ∃ new, (s.serveAll l).answered = s.answered ++ new ∧ new.map (·.id) = l.map (·.2.id) := by
  induction l generalizing s with
  | nil => exact ⟨[], by simp [serveAll], rfl⟩
  | cons r l ih =>
    obtain ⟨new, answers, ids⟩ := ih (s.serve r)
    refine ⟨⟨r.2.id, (s.desk.ask r.1 r.2 s.memory).1⟩ :: new, ?_, by simp [ids]⟩
    have first : s.serveAll (r :: l) = (s.serve r).serveAll l := rfl
    rw [first, answers]
    simp [serve]

/-- What holds of every service of `c`, whatever it was asked. -/
structure Sound (c : Component) (s : Service) : Prop where
  component : s.desk.component = c
  faithful : s.desk.Faithful s.memory
  distinct : s.desk.handles.keys.Nodup
  published : ∀ a ∈ s.answered, ∀ h, a.answer = .ok h → s.desk.handles.get? a.id = some h
  requested : ∀ x h, s.desk.handles.get? x = some h → ∃ a ∈ s.answered, a.id = x ∧ a.answer = .ok h
  unknown : ∀ a ∈ s.answered,
    (∃ component variant, a.answer = .error (.unknownVariant component variant)) ↔
      c.variant? a.id = none

theorem sound_opened (c : Component) (settings : Option CacheSettings) (m : Memory) :
    Sound c (opened c settings m) where
  component := rfl
  faithful := Desk.faithful_opened c settings m
  distinct := .nil
  published := by simp [opened]
  requested := by
    intro x h found
    cases found
  unknown := by simp [opened]

theorem Sound.serve {c : Component} {s : Service} (sound : Sound c s) (r : Entry × Variant) :
    Sound c (s.serve r) := by
  have step : s.desk.Requests r.2 s.memory (s.desk.request r.2 s.memory).1 (s.serve r).desk
      (s.serve r).memory := by
    simpa [Service.serve] using s.desk.requests r.2 s.memory
  have log : (s.serve r).answered = s.answered ++ [⟨r.2.id, (s.desk.request r.2 s.memory).1⟩] := by
    simp [Service.serve]
  constructor
  · exact step.component.trans sound.component
  · exact step.faithful sound.faithful
  · exact step.nodup_keys sound.distinct
  · intro a ha h ok
    rw [log, List.mem_append, List.mem_singleton] at ha
    obtain earlier | rfl := ha
    · exact step.get?_of_get? (sound.published a earlier h ok)
    · simp only at ok
      rw [ok] at step
      exact step.get?_answer
  · intro x h found
    rw [log]
    obtain earlier | ⟨rfl, ok⟩ := step.get?_cases found
    · obtain ⟨a, ha, answer⟩ := sound.requested x h earlier
      exact ⟨a, List.mem_append_left _ ha, answer⟩
    · exact ⟨_, List.mem_append_right _ (List.mem_singleton_self _), rfl, ok⟩
  · intro a ha
    rw [log, List.mem_append, List.mem_singleton] at ha
    obtain earlier | rfl := ha
    · exact sound.unknown a earlier
    · rw [← sound.component]
      exact step.unknown_iff

theorem Sound.serveAll {c : Component} {s : Service} (sound : Sound c s)
    (l : List (Entry × Variant)) : Sound c (s.serveAll l) := by
  induction l generalizing s with
  | nil => exact sound
  | cons r l ih => exact ih (sound.serve r)

theorem Sound.size_eq {c : Component} {s : Service} (sound : Sound c s) :
    s.desk.size = s.given.dedup.length := by
  have same : s.desk.handles.keys.Perm s.given.dedup := by
    rw [List.perm_ext_iff_of_nodup sound.distinct (List.nodup_dedup _)]
    intro x
    rw [Cache.mem_keys, List.mem_dedup, mem_given]
    constructor
    · rintro ⟨h, found⟩
      obtain ⟨a, ha, id, ok⟩ := sound.requested x h found
      exact ⟨a, ha, id, h, ok⟩
    · rintro ⟨a, ha, rfl, h, ok⟩
      exact ⟨h, sound.published a ha h ok⟩
  rw [Desk.size, ← Cache.length_keys]
  exact same.length_eq

theorem serve_eq_of_id {s : Service} {v w : Variant} (same : v.id = w.id) (e e' : Entry) :
    s.serve (e, v) = s.serve (e', w) := by
  simp only [serve, Desk.ask_eq_request, Desk.request, same]

theorem answered_take {s : Service} (new : s.answered = []) (l : List (Entry × Variant)) (n : Nat) :
    (s.serveAll (l.take n)).answered = (s.serveAll l).answered.take n := by
  have count (l : List (Entry × Variant)) : (s.serveAll l).answered.length = l.length := by
    obtain ⟨answers, log, ids⟩ := answered_serveAll s l
    rw [log, new]
    simpa using congrArg List.length ids
  have whole : (s.serveAll (l.take n)).serveAll (l.drop n) = s.serveAll l := by
    rw [serveAll, serveAll, ← List.foldl_append, List.take_append_drop, serveAll]
  obtain ⟨rest, more, _⟩ := answered_serveAll (s.serveAll (l.take n)) (l.drop n)
  rw [whole] at more
  have prefixed : (s.serveAll (l.take n)).answered <+: (s.serveAll l).answered := ⟨rest, more.symm⟩
  rw [List.prefix_iff_eq_take.1 prefixed, List.take_eq_take_iff, count, count]
  simp

/-- However a desk is asked, each id has one handle: the component's own variant of that id, with
the configuration kept for it. An id that the component has not is refused and changes nothing. -/
theorem serveAll_publishes_once (c : Component) (settings : Option CacheSettings) (m : Memory)
    (requests : List (Entry × Variant)) :
    let s := (opened c settings m).serveAll requests
    s.answered.map (·.id) = requests.map (·.2.id) ∧
    (∀ a ∈ s.answered, ∀ b ∈ s.answered, ∀ h g, a.answer = .ok h → b.answer = .ok g →
      (a.id = b.id → h = g) ∧ (a.id ≠ b.id → h.serial ≠ g.serial)) ∧
    (∀ a ∈ s.answered, ∀ h, a.answer = .ok h →
      (c.configurations.find? (·.id == a.id)).or ((c.graph.getD []).find? (·.id == a.id)) =
        some h.value.variant ∧
      s.memory.configuration? h.value.variant.key = some h.value.configuration) ∧
    (∀ e e' v w, v.id = w.id → s.serve (e, v) = s.serve (e', w)) ∧
    (∀ a ∈ s.answered,
      (∃ component variant, a.answer = .error (.unknownVariant component variant)) ↔
        a.id ∉ c.configurations.map (·.id) ∧ a.id ∉ (c.graph.getD []).map (·.id)) ∧
    (∀ e v, v.id ∉ c.configurations.map (·.id) → v.id ∉ (c.graph.getD []).map (·.id) →
      s.desk.ask e v s.memory =
        (.error (.unknownVariant (toString c.id) v.id), s.desk, s.memory)) ∧
    ∀ n, let p := (opened c settings m).serveAll (requests.take n)
      p.answered = s.answered.take n ∧ p.desk.size = p.given.dedup.length := by
  intro s
  have sound : Sound c s := (sound_opened c settings m).serveAll requests
  refine ⟨?_, ?_, ?_, fun e e' v w same => serve_eq_of_id same e e', ?_, ?_, ?_⟩
  · obtain ⟨new, answers, ids⟩ := answered_serveAll (opened c settings m) requests
    rw [answers]
    simpa [opened] using ids
  · intro a ha b hb h g answer answer'
    have found := sound.published a ha h answer
    have found' := sound.published b hb g answer'
    constructor
    · intro same
      rw [same, found'] at found
      exact (Option.some.inj found).symm
    · intro different same
      exact different (Cache.key_of_serial found found' same)
  · intro a ha h answer
    have serves := sound.faithful (sound.published a ha h answer)
    rw [← Component.variant?_eq_or, ← sound.component]
    exact ⟨serves.own, serves.kept⟩
  · intro a ha
    rw [sound.unknown a ha, Component.variant?_eq_none_iff]
  · intro e v absent absent'
    have unknown := Component.variant?_eq_none_iff.2 ⟨absent, absent'⟩
    rw [← sound.component] at unknown ⊢
    simp [Desk.request, unknown]
  · intro n
    have part : Sound c ((opened c settings m).serveAll (requests.take n)) :=
      (sound_opened c settings m).serveAll _
    exact ⟨answered_take rfl requests n, part.size_eq⟩

end Service

end ArtifactSelection
