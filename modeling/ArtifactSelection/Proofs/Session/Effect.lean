import ArtifactSelection.Proofs.Desk.Request
import ArtifactSelection.Session.Operation

/-!
What each operation can do to a session. A request may publish a handle and prepares the variant
that was asked for; candidates and selections prepare graph variants; a copy opens a desk and
prepares nothing.
-/

namespace ArtifactSelection

theorem Variant.reaches_prepareAll (l : List Variant) (m : Memory) :
    m.Reaches {v | v ∈ l} (prepareAll l m).2 := by
  induction l generalizing m with
  | nil => exact .refl m _
  | cons v l ih =>
    have head : m.Reaches {w | w ∈ v :: l} (v.prepare m).2 :=
      (Memory.Reaches.refl m _).prepare (List.mem_cons_self ..)
    rw [prepareAll]
    split
    · next outcome =>
      rw [outcome] at head
      exact head
    · next n outcome =>
      rw [outcome] at head
      have tail := (ih n).mono (W := {w | w ∈ v :: l}) fun w hw => List.mem_cons_of_mem v hw
      have both := head.trans tail
      split
      · next rest =>
        rw [rest] at both
        exact both
      · next rest =>
        rw [rest] at both
        exact both

theorem Component.reaches_candidates (c : Component) (own : Configuration) (m : Memory) :
    m.Reaches {v | v ∈ c.graph.getD []} (c.candidates own m).2 := by
  rw [candidates]
  cases graph : c.graph with
  | none => exact (Memory.Reaches.refl m _).note _
  | some l =>
    have all := Variant.reaches_prepareAll l m
    simp only [Option.getD_some]
    split
    · next outcome =>
      rw [outcome] at all
      exact all
    · next outcome =>
      rw [outcome] at all
      exact all.note _

theorem Handle.reaches_of_works {h : Handle} {e : Exclusion} {overrides : Attributes}
    {m m' : Memory} (works : (h.request e overrides).Works m m') :
    m.Reaches {v | v ∈ h.component.variants} m' := by
  induction works with
  | nothing => exact .refl m _
  | candidates _ ih =>
    have step := h.component.reaches_candidates h.configuration
    exact ih.trans ((step _).mono fun v hv => h.component.graph_subset_variants hv)
  | prepare _ hv ih => exact ih.prepare hv

theorem Handle.reaches_resolve (h : Handle) (selector : FairSelector) (e : Exclusion)
    (overrides : Attributes) (m : Memory) :
    m.Reaches {v | v ∈ h.component.variants} (h.resolve selector.select e overrides m).2 :=
  (reaches_of_works (selector.works (h.request e overrides) ∅ m)).noteAll _

namespace Session

def ancestry (s : Session) : Set Variant := {w | ∃ d ∈ s.desks, w ∈ d.component.ancestry}

def withCopy (s : Session) (d : Desk) (id : ComponentId) (f : Artifact → Artifact) : Session :=
  { s with
    desks := s.desks ++ [{ component := d.component.copy s.copyings id f }]
    memory := s.memory.note (.copying d.component.id id)
    copyings := s.copyings + 1 }

/-- The ways in which an operation can change a session. -/
inductive Performs (s : Session) : Session → Prop
  | idle : Performs s s
  | asked {i : Nat} {d d' : Desk} {v : Variant} {r : Except Failure (Shared Handle)} {m : Memory} :
      s.desks[i]? = some d → d.Requests v s.memory r d' m →
      Performs s { s with desks := s.desks.set i d', memory := m }
  | worked {m : Memory} : s.memory.Reaches s.ancestry m → Performs s { s with memory := m }
  | copied {d : Desk} (id : ComponentId) (f : Artifact → Artifact) : d ∈ s.desks →
      Performs s (s.withCopy d id f)
  | reopened {d : Desk} (settings : Option CacheSettings) : d ∈ s.desks →
      Performs s { s with desks := s.desks ++ [.opened d.component settings] }

theorem mem_of_desk? {s : Session} {i : Nat} {d : Desk} (h : s.desks[i]? = some d) :
    d ∈ s.desks := List.mem_of_getElem? h

theorem mem_ancestry {s : Session} {d : Desk} {v : Variant} (hd : d ∈ s.desks)
    (hv : v ∈ d.component.variants) : v ∈ s.ancestry := ⟨d, hd, Component.mem_ancestry hv⟩

theorem performs_ask (s : Session) (i : Nat) (e : Entry) (v : Variant) :
    s.Performs (s.ask i e v) := by
  rw [ask]
  cases found : s.desks[i]? with
  | none => exact .idle
  | some d =>
    have step := d.requests v s.memory
    simp only [Desk.ask_eq_request]
    exact .asked found step

theorem performs_candidates (s : Session) (i : Nat) (own : Configuration) :
    s.Performs (s.candidates i own) := by
  rw [candidates]
  cases found : s.desks[i]? with
  | none => exact .idle
  | some d =>
    refine .worked ((d.component.reaches_candidates own s.memory).mono fun v hv => ?_)
    exact mem_ancestry (mem_of_desk? found) (d.component.graph_subset_variants hv)

theorem performs_preparePlace (s : Session) (i place : Nat) :
    s.Performs (s.preparePlace i place) := by
  rw [preparePlace]
  cases found : s.desks[i]?.bind (·.component.variants[place]?) with
  | none => exact .idle
  | some v =>
    obtain ⟨d, desk, here⟩ := Option.bind_eq_some_iff.1 found
    have held : v ∈ s.ancestry := mem_ancestry (mem_of_desk? desk) (List.mem_of_getElem? here)
    exact .worked ((Memory.Reaches.refl s.memory _).prepare held)

theorem performs_copy (s : Session) (i : Nat) (id : ComponentId) (f : Artifact → Artifact) :
    s.Performs (s.copy i id f) := by
  rw [copy]
  cases found : s.desks[i]? with
  | none => exact .idle
  | some d => exact .copied id f (mem_of_desk? found)

theorem performs_reopen (s : Session) (i : Nat) (settings : Option CacheSettings) :
    s.Performs (s.reopen i settings) := by
  rw [reopen]
  cases found : s.desks[i]? with
  | none => exact .idle
  | some d => exact .reopened settings (mem_of_desk? found)

theorem handle?_eq_some {s : Session} {i : Nat} {x : String} {h : Handle}
    (found : s.handle? i x = some h) :
    ∃ d ∈ s.desks, ∃ shared, d.handles.get? x = some shared ∧ shared.value = h := by
  obtain ⟨d, desk, given⟩ := Option.bind_eq_some_iff.1 found
  obtain ⟨shared, published, value⟩ := Option.map_eq_some_iff.1 given
  exact ⟨d, mem_of_desk? desk, shared, published, value⟩

theorem performs_resolve {s : Session} (faithful : ∀ d ∈ s.desks, d.Faithful s.memory) (i : Nat)
    (x : String) (selector : FairSelector) (e : Exclusion) (overrides : Attributes) :
    s.Performs (s.resolve i x selector.select e overrides) := by
  rw [resolve]
  cases found : s.handle? i x with
  | none => exact .idle
  | some h =>
    obtain ⟨d, desk, shared, published, rfl⟩ := handle?_eq_some found
    have serves := faithful d desk published
    refine .worked ((shared.value.reaches_resolve selector e overrides _).mono fun v hv => ?_)
    have listed : v ∈ shared.value.component.variants := hv
    rw [serves.component] at listed
    exact mem_ancestry desk listed

theorem performs {s : Session} (faithful : ∀ d ∈ s.desks, d.Faithful s.memory) (o : Operation) :
    s.Performs (s.perform o) := by
  cases o with
  | ask i e v => exact performs_ask s i e v
  | lookup => exact .idle
  | resolve i x selector e overrides => exact performs_resolve faithful i x selector e overrides
  | candidates i own => exact performs_candidates s i own
  | prepare i place => exact performs_preparePlace s i place
  | copy i id f => exact performs_copy s i id f
  | reopen i settings => exact performs_reopen s i settings

end Session

end ArtifactSelection
