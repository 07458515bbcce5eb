import ArtifactSelection.Proofs.Component.Offer
import ArtifactSelection.Proofs.Preparation.Answer
import ArtifactSelection.Proofs.Session.Run

/-!
Copies of copies. To copy a copy comes to copying once with both transformers, one after the other:
the variants stand in the same places under the same labels, and from whatever state they are
prepared, they come to the same configurations. Only a failure tells the two apart, since every
copying wraps it once more.
-/

namespace ArtifactSelection

structure PhysicalVariant.Transforms (f : Artifact → Artifact) (v w : PhysicalVariant) : Prop where
  id : w.id = v.id
  displayName : w.displayName = v.displayName
  attributes : w.attributes = v.attributes
  artifacts : w.artifacts = v.artifacts.map f

/-- The same configuration with all artifacts transformed, each in its place. -/
structure Configuration.Transforms (f : Artifact → Artifact) (c d : Configuration) : Prop where
  name : d.name = c.name
  attributes : d.attributes = c.attributes
  artifacts : d.artifacts = c.artifacts.map f
  variants : List.Forall₂ (PhysicalVariant.Transforms f) c.variants.variants d.variants.variants

theorem Configuration.transforms_mapArtifacts (f : Artifact → Artifact) (c : Configuration) :
    c.Transforms f (c.mapArtifacts f) where
  name := rfl
  attributes := rfl
  artifacts := rfl
  variants := by
    rw [mapArtifacts, VariantSet.variants_mapArtifacts, List.forall₂_map_right_iff,
      List.forall₂_same]
    exact fun v _ => ⟨rfl, rfl, rfl, rfl⟩

/-- Two variants under one label. From the given state both are prepared, to related configurations,
or both fail of one cause, the second one in one layer more. -/
structure Variant.Matches (m : Memory) (R : Configuration → Configuration → Prop)
    (v w : Variant) : Prop where
  label : w.label = v.label
  answer : (∃ b c, (v.prepare m).1 = .ok b ∧ (w.prepare m).1 = .ok c ∧ R b c) ∨
    ∃ n e, (v.prepare m).1 = .error (.layered v.id (n + 1) e) ∧
      (w.prepare m).1 = .error (.layered v.id (n + 2) e)

theorem Variant.matches_of_supply {m : Memory} {R : Configuration → Configuration → Prop}
    {v w : Variant} (hv : v.Answers m (v.prepare m).1) (hw : w.Answers m (w.prepare m).1)
    (label : w.label = v.label) (supply : w.supply m = v.supply m)
    (depth : w.key.depth = v.key.depth + 1)
    (related : ∀ c : Configuration, R (c.mapArtifacts v.rewrite) (c.mapArtifacts w.rewrite)) :
    v.Matches m R w := by
  have id : w.id = v.id := congrArg Label.id label
  refine ⟨label, ?_⟩
  generalize (v.prepare m).1 = first, (w.prepare m).1 = second at hv hw
  cases hv with
  | @ok b supplied =>
    cases hw with
    | ok supplied' =>
      obtain rfl := Except.ok.inj (supplied.symm.trans (supply.symm.trans supplied'))
      exact .inl ⟨_, _, rfl, rfl, related b⟩
    | error supplied' => cases supplied.symm.trans (supply.symm.trans supplied')
  | @error e supplied =>
    cases hw with
    | ok supplied' => cases supplied.symm.trans (supply.symm.trans supplied')
    | error supplied' =>
      obtain rfl := Except.error.inj (supplied.symm.trans (supply.symm.trans supplied'))
      rw [id, depth]
      exact .inr ⟨v.key.depth, e, rfl, rfl⟩

namespace Component

variable {c d e : Component} {φ ψ : Variant → Variant}

structure Image (φ : Variant → Variant) (c d : Component) : Prop where
  coordinate : d.coordinate = c.coordinate
  attributes : d.attributes = c.attributes
  configurations : d.configurations = c.configurations.map φ
  graph : d.graph = c.graph.map (·.map φ)

theorem image_self (c : Component) : c.Image (fun v => v) c := by
  constructor
  · rfl
  · rfl
  · rw [List.map_id']
  · simp

theorem SingleIds.image_copy (single : c.SingleIds) (k : Nat) (x : ComponentId)
    (f : Artifact → Artifact) : c.Image (.copied k f) (c.copy k x f) :=
  ⟨rfl, rfl, single.configurations_copy, single.graph_copy⟩

namespace Image

theorem trans (h : c.Image φ d) (h' : d.Image ψ e) : c.Image (ψ ∘ φ) e where
  coordinate := h'.coordinate.trans h.coordinate
  attributes := h'.attributes.trans h.attributes
  configurations := by rw [h'.configurations, h.configurations, List.map_map]
  graph := by
    rw [h'.graph, h.graph, Option.map_map]
    congr 1
    exact funext fun l => List.map_map

theorem variants (h : c.Image φ d) : d.variants = c.variants.map φ := by
  rw [Component.variants, Component.variants, h.configurations, h.graph]
  cases c.graph <;> simp

theorem mem_variants (h : c.Image φ d) {v : Variant} (hv : v ∈ c.variants) :
    φ v ∈ d.variants := by
  rw [h.variants]
  exact List.mem_map_of_mem hv

end Image

/-- Two components with related variants in the same places. -/
structure Corresponds (R : Variant → Variant → Prop) (c d : Component) : Prop where
  coordinate : d.coordinate = c.coordinate
  attributes : d.attributes = c.attributes
  configurations : List.Forall₂ R c.configurations d.configurations
  graph : Option.Rel (List.Forall₂ R) c.graph d.graph

theorem Image.corresponds {R : Variant → Variant → Prop} (h : c.Image φ d) (h' : c.Image ψ e)
    (related : ∀ v ∈ c.variants, R (φ v) (ψ v)) : d.Corresponds R e := by
  have side {l : List Variant} (sub : ∀ v ∈ l, v ∈ c.variants) :
      List.Forall₂ R (l.map φ) (l.map ψ) := by
    rw [List.forall₂_map_left_iff, List.forall₂_map_right_iff, List.forall₂_same]
    exact fun v hv => related v (sub v hv)
  constructor
  · rw [h.coordinate, h'.coordinate]
  · rw [h.attributes, h'.attributes]
  · rw [h.configurations, h'.configurations]
    exact side fun v hv => List.mem_append_left _ hv
  · rw [h.graph, h'.graph]
    cases graph : c.graph with
    | none => exact .none
    | some l => exact .some (side fun v hv => c.graph_subset_variants (by rw [graph]; exact hv))

end Component

namespace Session

theorem Sound.answers {s : Session} (sound : s.Sound) {d : Desk} (hd : d ∈ s.desks) {v : Variant}
    (hv : v ∈ d.component.variants) : v.Answers s.memory (v.prepare s.memory).1 :=
  Variant.answers_prepare fun w hw => sound.right w (ancestry_closed (mem_ancestry hd hv) hw)

/-- A copy has the variants of its component in their places. In every state a variant of the copy
is prepared just when the one in its place is, to the same configuration with its artifacts
transformed; with the identity, to the same configuration. A copy of a copy is told from the copy
with both transformers by no place, no label and no configuration, and by one layer in a failure. -/
theorem copies_compose {c : Component} {n : Nat} (numbered : c.Numbered n)
    (settings : Option CacheSettings) (work : List Operation) {s : Session}
    (reached : (opened c settings n).run work = s) {d : Desk} (original : d ∈ s.desks)
    (single : d.component.SingleIds) :
    (∀ e ∈ s.desks, ∀ k x f, e.component = d.component.copy k x f →
      e.component.id = x ∧
      d.component.Corresponds (Variant.Matches s.memory (·.Transforms f)) e.component ∧
      ((∀ a, f a = a) → d.component.Corresponds (Variant.Matches s.memory Eq) e.component)) ∧
    ∀ twice ∈ s.desks, ∀ once ∈ s.desks, ∀ i j k x y f g,
      twice.component = (d.component.copy i x f).copy j y g →
      once.component = d.component.copy k y (g ∘ f) →
        twice.component.id = once.component.id ∧
        once.component.Corresponds (Variant.Matches s.memory Eq) twice.component := by
  subst reached
  obtain ⟨sound, _⟩ := (sound_opened numbered settings).run work
  constructor
  · intro e he k x f copied
    have image : d.component.Image (.copied k f) e.component := by
      rw [copied]
      exact single.image_copy k x f
    have related {R : Configuration → Configuration → Prop}
        (related : ∀ b : Configuration, R b (b.mapArtifacts f)) :
        d.component.Corresponds (Variant.Matches _ R) e.component :=
      (Component.image_self _).corresponds image fun v hv =>
        Variant.matches_of_supply (sound.answers original hv)
          (sound.answers he (image.mem_variants hv)) rfl rfl rfl fun b => by
            rw [Variant.rewrite, ← Configuration.mapArtifacts_mapArtifacts]
            exact related _
    refine ⟨by rw [copied]; rfl, related fun b => b.transforms_mapArtifacts f, fun same => ?_⟩
    exact related fun b => (b.mapArtifacts_eq_self same).symm
  · intro twice ht once ho i j k x y f g again composed
    have one : d.component.Image (.copied k (g ∘ f)) once.component := by
      rw [composed]
      exact single.image_copy k y (g ∘ f)
    have two : d.component.Image (.copied j g ∘ .copied i f) twice.component := by
      rw [again]
      exact (single.image_copy i x f).trans (single.copy.image_copy j y g)
    refine ⟨by rw [again, composed]; rfl, one.corresponds two fun v hv => ?_⟩
    exact Variant.matches_of_supply (sound.answers ho (one.mem_variants hv))
      (sound.answers ht (two.mem_variants hv)) rfl rfl rfl fun _ => rfl

def classified (a : Artifact) : Artifact :=
  { a with name := { a.name with classifier := some "copy" } }

/-- A component with a copy, the copy of that, the copy with both transformers and one that changes
nothing. The copy's copy is prepared too early, so that only the first copy is kept. -/
def copiedAround : List Operation :=
  [.copy 0 (.project ":" ":first") moved, .copy 1 (.project ":" ":second") classified,
    .copy 0 (.project ":" ":second") (classified ∘ moved), .copy 0 (.project ":" ":same") id,
    .prepare 2 0, .prepare 1 0]

theorem copies_compose_around :
    let s := (opened (retriedSketch.component 0) none 0).run copiedAround
    (retriedSketch.component 0).Numbered 0 ∧ (retriedSketch.component 0).SingleIds ∧
    ∃ d first twice once same, s.desks = [d, first, twice, once, same] ∧
      d.component.Corresponds (Variant.Matches s.memory (·.Transforms moved)) first.component ∧
      d.component.Corresponds (Variant.Matches s.memory Eq) same.component ∧
      once.component.Corresponds (Variant.Matches s.memory Eq) twice.component := by
  intro s
  have numbered := retriedSketch.numbered_component 0 0
  have single := Sketch.singleIds_component (s := retriedSketch) (by decide) 0
  obtain ⟨copied, composed⟩ := copies_compose numbered none copiedAround (s := s) rfl
    (List.mem_of_getElem? (i := 0) rfl) single
  refine ⟨numbered, single, _, _, _, _, _, rfl, ?_, ?_, ?_⟩
  · exact (copied _ (List.mem_of_getElem? (i := 1) rfl) 0 _ moved rfl).2.1
  · exact (copied _ (List.mem_of_getElem? (i := 4) rfl) 3 _ id rfl).2.2 fun _ => rfl
  · exact (composed _ (List.mem_of_getElem? (i := 2) rfl) _ (List.mem_of_getElem? (i := 3) rfl) 0 1 2
      _ _ moved classified rfl rfl).2

end Session

end ArtifactSelection
