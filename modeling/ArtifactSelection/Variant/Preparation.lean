import ArtifactSelection.Event
import ArtifactSelection.Failure
import ArtifactSelection.Variant.Configuration

/-!
Variants and how they are prepared. Preparation is costly and may fail, so a memory keeps the first
success of each variant and no failure. A copied variant prepares its source, through the same
memory, and transforms what comes out; the memory of the source serves all its copies.
-/

namespace ArtifactSelection

structure Origin where
  component : Nat
  place : Nat
deriving DecidableEq, Repr

/-- What tells variants apart. The copying that made a variant is part of who it is. -/
inductive VariantKey where
  | original (origin : Origin)
  | copied (copying : Nat) (source : VariantKey)
deriving DecidableEq, Repr

/-- A strategy answers by attempt, counted from zero; it may fail on some and succeed on others. -/
abbrev Strategy := Nat → Except Failure Configuration

/-- Fails once for each of the given failures, then succeeds for good. -/
def Strategy.after (failures : List Failure) (c : Configuration) : Strategy := fun attempt =>
  match failures[attempt]? with
  | some e => .error e
  | none => .ok c

structure Label where
  id : String
  name : String
  attributes : Attributes
deriving DecidableEq, Repr

inductive Variant where
  | original (origin : Origin) (label : Label) (strategy : Strategy)
  | copied (copying : Nat) (transform : Artifact → Artifact) (source : Variant)

namespace Variant

def key : Variant → VariantKey
  | original o _ _ => .original o
  | copied k _ source => .copied k source.key

def label : Variant → Label
  | original _ label _ => label
  | copied _ _ source => source.label

def id (v : Variant) : String := v.label.id

def name (v : Variant) : String := v.label.name

def attributes (v : Variant) : Attributes := v.label.attributes

@[simp] theorem label_copied (k : Nat) (f : Artifact → Artifact) (v : Variant) :
    (copied k f v).label = v.label := rfl

end Variant

/-- What has been prepared so far, and what happened on the way. -/
structure Memory where
  prepared : List (VariantKey × Configuration) := []
  runs : List Origin := []
  events : List Event := []

namespace Memory

def empty : Memory := {}

instance : EmptyCollection Memory := ⟨empty⟩
instance : Inhabited Memory := ⟨empty⟩

def configuration? (m : Memory) (k : VariantKey) : Option Configuration := m.prepared.lookup k

def isPrepared (m : Memory) (v : Variant) : Bool := (m.configuration? v.key).isSome

def attempts (m : Memory) (o : Origin) : Nat := m.runs.count o

def attemptsOf (m : Memory) (component : Nat) : Nat := m.runs.countP (·.component == component)

def note (m : Memory) (e : Event) : Memory := { m with events := e :: m.events }

def noteAll (m : Memory) (l : List Event) : Memory := l.foldl note m

def takeEvents (m : Memory) : List Event × Memory := (m.events.reverse, { m with events := [] })

def keep (m : Memory) (k : VariantKey) (c : Configuration) : Memory :=
  { m with prepared := (k, c) :: m.prepared }

def run (m : Memory) (o : Origin) (strategy : Strategy) : Except Failure Configuration × Memory :=
  (strategy (m.attempts o), { m with runs := o :: m.runs })

/-- What is kept under a key, or else the outcome of building it, kept if it is a success. -/
def remember (m : Memory) (k : VariantKey) (id : String)
    (build : Memory → Except Failure Configuration × Memory) : Except Failure Configuration × Memory :=
  match m.configuration? k with
  | some c => (.ok c, m)
  | none =>
    match build (m.note (.preparing id)) with
    | (.ok c, m) => (.ok c, m.keep k c)
    | (.error e, m) => (.error (.preparationFailed id e), m)

@[simp] theorem configuration?_note (m : Memory) (e : Event) (k : VariantKey) :
    (m.note e).configuration? k = m.configuration? k := rfl

@[simp] theorem attempts_note (m : Memory) (e : Event) (o : Origin) :
    (m.note e).attempts o = m.attempts o := rfl

theorem configuration?_keep (m : Memory) (k x : VariantKey) (c : Configuration) :
    (m.keep k c).configuration? x = if x = k then some c else m.configuration? x := by
  by_cases h : x = k
  · simp [keep, configuration?, h]
  · simp [keep, configuration?, List.lookup_cons, beq_false_of_ne h, h]

@[simp] theorem attempts_keep (m : Memory) (k : VariantKey) (c : Configuration) (o : Origin) :
    (m.keep k c).attempts o = m.attempts o := rfl

@[simp] theorem configuration?_run (m : Memory) (o : Origin) (s : Strategy) (k : VariantKey) :
    (m.run o s).2.configuration? k = m.configuration? k := rfl

theorem attempts_run (m : Memory) (o x : Origin) (s : Strategy) :
    (m.run o s).2.attempts x = m.attempts x + if o = x then 1 else 0 := by
  simp [run, attempts, List.count_cons]

theorem remember_of_configuration? {m : Memory} {k : VariantKey} {c : Configuration}
    (h : m.configuration? k = some c) (id : String)
    (build : Memory → Except Failure Configuration × Memory) :
    m.remember k id build = (.ok c, m) := by
  simp [remember, h]

end Memory

namespace Variant

/-- The configuration of a variant. An original runs its strategy, a copy prepares its source. -/
def prepare : Variant → Memory → Except Failure Configuration × Memory
  | original o label strategy, m =>
    m.remember (.original o) label.id fun m => m.run o strategy
  | copied k f source, m =>
    m.remember (.copied k source.key) source.id fun m =>
      match source.prepare m with
      | (.ok c, m) => (.ok (c.mapArtifacts f), m)
      | (.error e, m) => (.error e, m)

def prepareAll : List Variant → Memory → Except Failure (List Configuration) × Memory
  | [], m => (.ok [], m)
  | v :: l, m =>
    match v.prepare m with
    | (.error e, m) => (.error e, m)
    | (.ok c, m) =>
      match prepareAll l m with
      | (.error e, m) => (.error e, m)
      | (.ok cs, m) => (.ok (c :: cs), m)

theorem prepare_of_configuration? {v : Variant} {m : Memory} {c : Configuration}
    (h : m.configuration? v.key = some c) : v.prepare m = (.ok c, m) := by
  cases v <;> exact Memory.remember_of_configuration? h ..

end Variant

end ArtifactSelection
