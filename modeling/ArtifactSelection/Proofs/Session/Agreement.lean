import ArtifactSelection.Proofs.Copy.Composition
import ArtifactSelection.Proofs.Selection.Titles
import ArtifactSelection.Proofs.Session.History

/-!
Components that agree. They have the same variants in the same places, and what two variants in one
place settle to differs in display names alone. However differently the two components are worked
with, the one prepares, gives out and selects what the other one does.
-/

namespace ArtifactSelection

/-- One variant in two components. What the two settle to differs in display names alone. -/
structure Variant.Alike (v w : Variant) : Prop where
  key : w.key = v.key
  label : w.label = v.label
  settles : ∃ b c, v.Settles b ∧ w.Settles c ∧ b.Retitled c

namespace Variant.Alike

variable {v w : Variant}

theorem id (alike : v.Alike w) : w.id = v.id := congrArg Label.id alike.label

theorem name (alike : v.Alike w) : w.name = v.name := congrArg Label.name alike.label

theorem retitled (alike : v.Alike w) {b c : Configuration} (first : v.Settles b)
    (second : w.Settles c) : b.Retitled c := by
  obtain ⟨b', c', settles, settles', retitled⟩ := alike.settles
  rwa [first.unique settles, second.unique settles']

end Variant.Alike

namespace Component.Corresponds

variable {c e : Component} {R S : Variant → Variant → Prop}

theorem variants (h : c.Corresponds R e) : List.Forall₂ R c.variants e.variants :=
  forall₂_variants h.configurations h.graph

theorem imp (h : c.Corresponds R e)
    (step : ∀ v ∈ c.variants, ∀ w ∈ e.variants, R v w → S v w) : c.Corresponds S e where
  coordinate := h.coordinate
  attributes := h.attributes
  configurations := (forall₂_mem h.configurations).imp fun v w ⟨hv, hw, same⟩ =>
    step v (List.mem_append_left _ hv) w (List.mem_append_left _ hw) same
  graph := by
    have graph := h.graph
    have listed : ∀ v ∈ c.graph.getD [], v ∈ c.variants := fun _ => c.graph_subset_variants
    have listed' : ∀ w ∈ e.graph.getD [], w ∈ e.variants := fun _ => e.graph_subset_variants
    generalize c.graph = l, e.graph = l' at graph listed listed'
    cases graph with
    | none => exact .none
    | some related =>
      exact .some ((forall₂_mem related).imp fun v w ⟨hv, hw, same⟩ =>
        step v (listed v hv) w (listed' w hw) same)

theorem variant? (h : c.Corresponds Variant.Alike e) (x : String) :
    Option.Rel Variant.Alike (c.variant? x) (e.variant? x) :=
  rel_find? h.variants fun same => by rw [same.id]

theorem isSome_variant? (h : c.Corresponds Variant.Alike e) (x : String) :
    (e.variant? x).isSome = (c.variant? x).isSome := by
  have found := h.variant? x
  generalize c.variant? x = v, e.variant? x = w at found
  cases found <;> rfl

theorem offers (h : c.Corresponds Variant.Alike e) {own own' : Configuration}
    (retitled : own.Retitled own') {s s' : VariantSet} (offers : c.Offers own s)
    (offers' : e.Offers own' s') :
    List.Forall₂ PhysicalVariant.Retitled s.variants s'.variants :=
  forall₂_offers (·.id)
    (fun alike _ _ settles settles' => (alike.retitled settles settles').variants) h.graph
    retitled.variants offers offers'

end Component.Corresponds

namespace Session

variable {a b : Session} {i j : Nat} {d d' : Desk} {x : String} {h g : Handle}

theorem Sound.handle?_ask_iff (sound : a.Sound) (here : a.desks[i]? = some d)
    (ready : ∀ v ∈ d.component.variants, v.Ready a.memory) (entry : Entry) (w : Variant) :
    (∃ h, (a.ask i entry w).handle? i w.id = some h) ↔ (d.component.variant? w.id).isSome := by
  constructor
  · rintro ⟨h, given⟩
    obtain ⟨sound', grows⟩ := sound.run [.ask i entry w]
    obtain ⟨d', desk, same, _⟩ := grows.desks here
    rw [← same, (sound'.serves desk given).own]
    rfl
  · intro known
    obtain ⟨v, own⟩ := Option.isSome_iff_exists.1 known
    exact sound.handle?_ask here own (ready v (Component.mem_variants_of_variant? own)) entry

theorem Sound.alike (soundA : a.Sound) (soundB : b.Sound) (here : a.desks[i]? = some d)
    (there : b.desks[j]? = some d') (same : d.component.Corresponds Variant.Alike d'.component)
    (given : a.handle? i x = some h) (given' : b.handle? j x = some g) :
    h.variant.Alike g.variant := by
  have found := same.variant? x
  rw [(soundA.serves here given).own, (soundB.serves there given').own] at found
  obtain ⟨alike⟩ := found
  exact alike

theorem Sound.parallels (soundA : a.Sound) (soundB : b.Sound) (here : a.desks[i]? = some d)
    (there : b.desks[j]? = some d') (same : d.component.Corresponds Variant.Alike d'.component)
    (given : a.handle? i x = some h) (given' : b.handle? j x = some g)
    (ready : ∀ v ∈ d.component.graph.getD [], v.Ready a.memory)
    (ready' : ∀ v ∈ d'.component.graph.getD [], v.Ready b.memory) (exclusion : Exclusion)
    (overrides : Attributes) :
    (h.request exclusion overrides).Parallels PhysicalVariant.Retitled a.memory
      (g.request exclusion overrides) b.memory := by
  have component := (soundA.serves here given).component
  have component' := (soundB.serves there given').component
  have retitled := (soundA.alike soundB here there same given given').retitled
    (soundA.settles_handle here given) (soundB.settles_handle there given')
  obtain ⟨s, supply, offers⟩ := soundA.supplies (mem_of_desk? here) component ready
  obtain ⟨s', supply', offers'⟩ := soundB.supplies (mem_of_desk? there) component' ready'
  rw [← component, ← component'] at same
  exact ⟨same.coordinate, rfl, rfl, retitled.variants, s, s', supply, supply',
    same.offers retitled offers offers'⟩

/-- What can be observed of two components in two sessions, and is the same for both. -/
structure Agree (c e : Component) (a b : Session) : Prop where
  id : e.id = c.id
  variants : c.Corresponds (fun v w => w.key = v.key ∧ w.label = v.label ∧
    ∃ p q, (v.prepare a.memory).1 = .ok p ∧ (w.prepare b.memory).1 = .ok q ∧ p.Retitled q) e
  handles : ∀ i j d d', a.desks[i]? = some d → b.desks[j]? = some d' →
    d.component = c → d'.component = e → ∀ w entry,
      ((∃ h, (a.ask i entry w).handle? i w.id = some h) ↔ (c.variant? w.id).isSome) ∧
      ((∃ g, (b.ask j entry w).handle? j w.id = some g) ↔ (c.variant? w.id).isSome)
  selections : ∀ i j d d', a.desks[i]? = some d → b.desks[j]? = some d' →
    d.component = c → d'.component = e → ∀ x h g, a.handle? i x = some h →
    b.handle? j x = some g → ∀ p exclusion overrides,
      let answer := (h.resolve (Policy.select p) exclusion overrides a.memory).1
      let answer' := (g.resolve p.select exclusion overrides b.memory).1
      (∃ set set', answer = .ok set ∧ answer' = .ok set' ∧
        List.Forall₂ ResolvedVariant.Retitled set.variants set'.variants ∧
        set'.artifacts = set.artifacts) ∨
      ∃ f, answer = .error f ∧ answer' = .error f

/-- Components that agree, prepared without failures, are the same to every history of the one and
every history of the other. -/
theorem agree_run {c e : Component} {n : Nat} (numbered : c.Numbered n) (numbered' : e.Numbered n)
    (unfailing : ∀ v ∈ c.variants, v.Unfailing) (unfailing' : ∀ v ∈ e.variants, v.Unfailing)
    (id : e.id = c.id) (same : c.Corresponds Variant.Alike e)
    (settings settings' : Option CacheSettings) (first second : List Operation) :
    Agree c e ((opened c settings n).run first) ((opened e settings' n).run second) := by
  have soundA := ((sound_opened numbered settings).run first).1
  have soundB := ((sound_opened numbered' settings').run second).1
  have ready (m : Memory) : ∀ v ∈ c.variants, v.Ready m := fun v hv => (unfailing v hv).ready m
  have ready' (m : Memory) : ∀ v ∈ e.variants, v.Ready m := fun v hv => (unfailing' v hv).ready m
  constructor
  · exact id
  · refine same.imp fun v hv w hw alike => ⟨alike.key, alike.label, ?_⟩
    obtain ⟨p, q, settles, settles', retitled⟩ := alike.settles
    exact ⟨p, q, answer_prepare_run numbered settings first hv (unfailing v hv) settles,
      answer_prepare_run numbered' settings' second hw (unfailing' w hw) settles', retitled⟩
  · rintro i j d d' here there rfl rfl w entry
    rw [soundA.handle?_ask_iff here (ready _), soundB.handle?_ask_iff there (ready' _),
      same.isSome_variant?]
    exact ⟨Iff.rfl, Iff.rfl⟩
  · rintro i j d d' here there rfl rfl x h g given given' p exclusion overrides
    have parallels := soundA.parallels soundB here there same given given'
      (fun v hv => ready _ v (d.component.graph_subset_variants hv))
      (fun v hv => ready' _ v (d'.component.graph_subset_variants hv)) exclusion overrides
    refine parallels.answer_retitled ?_ p
    have component := congrArg Component.id (soundA.serves here given).component
    have component' := congrArg Component.id (soundB.serves there given').component
    exact component'.trans (id.trans component.symm)

end Session

end ArtifactSelection
