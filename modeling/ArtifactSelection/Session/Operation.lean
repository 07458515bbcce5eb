import ArtifactSelection.Session

/-!
What can be done in a session, as values. A session does one operation after the other; an operation
that names a desk, a handle or a variant that is not there does nothing.
-/

namespace ArtifactSelection

/-- What answering a request can do to a memory: the candidates are asked for, and variants of the
component are prepared. -/
inductive SelectionRequest.Works (r : SelectionRequest Memory) : Memory → Memory → Prop
  | nothing (m : Memory) : Works r m m
  | candidates {m m' : Memory} : Works r m m' → Works r m (r.candidates m').2
  | prepare {m m' : Memory} {v : Variant} :
      Works r m m' → v ∈ r.component.variants → Works r m (v.prepare m').2

/-- A selector that does nothing else to the memory. -/
structure FairSelector where
  select : Selector Memory
  works : ∀ (r : SelectionRequest Memory) (scratch : Scratch) (m : Memory),
    r.Works m (select r scratch m).state

namespace Policy

theorem works_select (p : Policy) (r : SelectionRequest Memory) (scratch : Scratch) (m : Memory) :
    r.Works m (p.select r scratch m).state := by
  rw [state_select, state_choose]
  split
  · exact .nothing m
  · exact .candidates (.nothing m)

def selector (p : Policy) : FairSelector := ⟨p.select, p.works_select⟩

end Policy

inductive Operation where
  | ask (desk : Nat) (entry : Entry) (v : Variant)
  | lookup (desk : Nat) (id : String) (name : ArtifactName)
  | resolve (desk : Nat) (id : String) (selector : FairSelector) (exclusion : Exclusion)
      (overrides : Attributes)
  | candidates (desk : Nat) (own : Configuration)
  | prepare (desk place : Nat)
  | copy (desk : Nat) (id : ComponentId) (transform : Artifact → Artifact)
  | reopen (desk : Nat) (settings : Option CacheSettings)

namespace Session

/-- A session with one desk. The copyings made so far, of whatever component, count from zero. -/
def opened (c : Component) (settings : Option CacheSettings) (copyings : Nat) : Session :=
  { desks := [.opened c settings], copyings }

def handle? (s : Session) (desk : Nat) (id : String) : Option Handle :=
  s.desks[desk]?.bind fun d => (d.handles.get? id).map (·.value)

def ask (s : Session) (desk : Nat) (entry : Entry) (v : Variant) : Session :=
  match s.desks[desk]? with
  | none => s
  | some d =>
    let (_, d, memory) := d.ask entry v s.memory
    { s with desks := s.desks.set desk d, memory }

def resolve (s : Session) (desk : Nat) (id : String) (selector : Selector Memory)
    (exclusion : Exclusion) (overrides : Attributes) : Session :=
  match s.handle? desk id with
  | none => s
  | some h => { s with memory := (h.resolve selector exclusion overrides s.memory).2 }

def candidates (s : Session) (desk : Nat) (own : Configuration) : Session :=
  match s.desks[desk]? with
  | none => s
  | some d => { s with memory := (d.component.candidates own s.memory).2 }

def preparePlace (s : Session) (desk place : Nat) : Session :=
  match s.desks[desk]?.bind (·.component.variants[place]?) with
  | none => s
  | some v => (s.prepare v).2

def reopen (s : Session) (desk : Nat) (settings : Option CacheSettings) : Session :=
  match s.desks[desk]? with
  | none => s
  | some d => { s with desks := s.desks ++ [.opened d.component settings] }

def perform (s : Session) : Operation → Session
  | .ask desk entry v => s.ask desk entry v
  | .lookup _ _ _ => s
  | .resolve desk id selector exclusion overrides =>
    s.resolve desk id selector.select exclusion overrides
  | .candidates desk own => s.candidates desk own
  | .prepare desk place => s.preparePlace desk place
  | .copy desk id transform => s.copy desk id transform
  | .reopen desk settings => s.reopen desk settings

def run (s : Session) (l : List Operation) : Session := l.foldl perform s

end Session

end ArtifactSelection
