import ArtifactSelection.Component
import ArtifactSelection.Selection.Resolved

/-!
Selection by attribute overrides. Without overrides the declared variants are chosen and the
candidates are never asked for. With overrides the compatible candidates that match most of them
win; when no compatible candidate matches any, nothing sets the candidates apart and the choice is
among the declared variants. A strict policy refuses when nothing is compatible, a lenient one then
takes all declared variants.
-/

namespace ArtifactSelection

/-- What a selection is asked. The candidates are supplied on demand, at a cost borne by `σ`. -/
structure SelectionRequest (σ : Type) where
  component : Component
  candidates : σ → Except Failure VariantSet × σ
  declared : VariantSet
  exclusion : Exclusion
  overrides : Attributes

structure SelectionOutcome (σ : Type) where
  answer : Except Failure ResolvedSet
  scratch : Scratch
  state : σ
  events : List Event

/-- Anything that answers selection requests, with a scratch of variants resolved before. -/
abbrev Selector (σ : Type) := SelectionRequest σ → Scratch → σ → SelectionOutcome σ

def Scratch.resolveAll (resolve : PhysicalVariant → ResolvedVariant)
    (events : PhysicalVariant → List Event) :
    List PhysicalVariant → Scratch → List (Shared ResolvedVariant) × Scratch × List Event
  | [], scratch => ([], scratch, [])
  | v :: l, scratch =>
    let (shared, scratch, first) := Cache.getOrInsert scratch v.id (fun _ => (resolve v, events v)) []
    let (rest, scratch, later) := resolveAll resolve events l scratch
    (shared :: rest, scratch, first ++ later)

def VariantSet.bestMatches (candidates declared : VariantSet) (overrides : Attributes) :
    List PhysicalVariant :=
  let score (v : PhysicalVariant) := v.attributes.matchingKeys overrides
  let compatible := candidates.variants.filter (·.attributes.isCompatibleWith overrides)
  let best := (compatible.map score).max?.getD 0
  if best = 0 then declared.variants.filter (·.attributes.isCompatibleWith overrides)
  else compatible.filter (score · == best)

structure Policy where
  lenient : Bool := false
deriving DecidableEq, Repr

namespace Policy

variable {σ : Type}

def settle (p : Policy) (r : SelectionRequest σ) (matching : List PhysicalVariant) :
    Except Failure (List PhysicalVariant) × List Event :=
  if !matching.isEmpty then (.ok matching, [])
  else if p.lenient then (.ok r.declared.variants, [.fellBack r.component.id r.overrides])
  else (.error (.noMatchingVariant (toString r.component.id) (toString r.overrides)), [])

def choose (p : Policy) (r : SelectionRequest σ) (s : σ) :
    Except Failure (List PhysicalVariant) × List Event × σ :=
  if r.exclusion.excludesModule r.component.coordinate then
    (.ok [], [.moduleExcluded r.component.coordinate r.exclusion], s)
  else if r.overrides.isEmpty then (.ok r.declared.variants, [], s)
  else
    match r.candidates s with
    | (.error e, s) => (.error e, [], s)
    | (.ok candidates, s) =>
      let matching := candidates.bestMatches r.declared r.overrides
      let (choice, events) := p.settle r matching
      (choice, .matched matching.length candidates.size r.component.id r.overrides :: events, s)

def select (p : Policy) : Selector σ := fun r scratch s =>
  match p.choose r s with
  | (.error e, events, s) => ⟨.error e, scratch, s, events⟩
  | (.ok variants, events, s) =>
    let m := r.component.coordinate
    let (shared, scratch, later) :=
      scratch.resolveAll (.under m r.exclusion r.overrides) (ResolvedVariant.events m r.exclusion)
        variants
    ⟨.ok ⟨shared.map (·.value)⟩, scratch, s, events ++ later⟩

theorem state_choose (p : Policy) (r : SelectionRequest σ) (s : σ) :
    (p.choose r s).2.2 =
      if r.exclusion.excludesModule r.component.coordinate || r.overrides.isEmpty then s
      else (r.candidates s).2 := by
  rw [choose]
  split
  · next excluded => simp [excluded]
  · next included =>
    split
    · next empty => simp [empty]
    · next overrides =>
      split
      · next supplied => simp [included, overrides, supplied]
      · next supplied => simp [included, overrides, supplied]

theorem state_select (p : Policy) (r : SelectionRequest σ) (scratch : Scratch) (s : σ) :
    (p.select r scratch s).state = (p.choose r s).2.2 := by
  unfold select
  split <;> simp [*]

end Policy

end ArtifactSelection
