import ArtifactSelection.Desk

/-!
A session: desks that share one memory. Components are numbered as they come in and copyings as they
are made, so no two variants of a session have one key unless they are one variant. A copy opens a
desk of its own, and what is prepared at any desk serves all of them.
-/

namespace ArtifactSelection

structure Session where
  desks : List Desk := []
  memory : Memory := ∅
  components : Nat := 0
  copyings : Nat := 0

namespace Session

def empty : Session := {}

instance : EmptyCollection Session := ⟨empty⟩
instance : Inhabited Session := ⟨empty⟩

def openDesk (s : Session) (build : Nat → Component) : Session :=
  { s with
    desks := s.desks ++ [{ component := build s.components }]
    components := s.components + 1 }

def stranger (s : Session) (label : Label) (strategy : Strategy) : Variant × Session :=
  (.original ⟨s.components, 0⟩ label strategy, { s with components := s.components + 1 })

def work {β : Type} (s : Session) (desk : Nat) (v : Variant)
    (act : Shared Handle → Memory → β × Memory) : Option (Except Failure β) × Session :=
  match s.desks[desk]? with
  | none => (none, s)
  | some d =>
    match d.request v s.memory with
    | (.error e, d, memory) => (some (.error e), { s with desks := s.desks.set desk d, memory })
    | (.ok shared, d, memory) =>
      let (b, memory) := act shared memory
      (some (.ok b), { s with desks := s.desks.set desk d, memory })

def request (s : Session) (desk : Nat) (v : Variant) :
    Option (Except Failure (Shared Handle)) × Session :=
  s.work desk v (·, ·)

def requestTimes (s : Session) (desk : Nat) (v : Variant) :
    Nat → List (Except Failure (Shared Handle)) × Session
  | 0 => ([], s)
  | n + 1 =>
    let (answer, s) := s.request desk v
    let (answers, s) := s.requestTimes desk v n
    (answer.toList ++ answers, s)

def prepare (s : Session) (v : Variant) : Except Failure Configuration × Session :=
  let (answer, memory) := v.prepare s.memory
  (answer, { s with memory })

def takeEvents (s : Session) : List Event × Session :=
  let (events, memory) := s.memory.takeEvents
  (events, { s with memory })

def copy (s : Session) (desk : Nat) (id : ComponentId) (f : Artifact → Artifact) : Session :=
  match s.desks[desk]? with
  | none => s
  | some d =>
    let (c, memory) := d.copy s.copyings id f s.memory
    { s with desks := s.desks ++ [{ component := c }], memory, copyings := s.copyings + 1 }

end Session

end ArtifactSelection
