import ArtifactSelection.Proofs.Component.Offer
import ArtifactSelection.Proofs.Copy.Transformation
import ArtifactSelection.Proofs.Session.Run

/-!
A copy beside its component. The handle of a copied variant holds what the handle of the variant
holds, transformed, whenever and in whichever order the two were given out. So lookups and
selections with the one are those with the other, as the transformer changes them.
-/

namespace ArtifactSelection

theorem Component.Offers.copy {c : Component} {own : Configuration} {s : VariantSet}
    (h : c.Offers own s) (single : c.SingleIds) (k : Nat) (id : ComponentId)
    (f : Artifact → Artifact) :
    (c.copy k id f).Offers (own.mapArtifacts f) (s.mapArtifacts f) := by
  cases h with
  | own none => exact .own (by rw [single.graph_copy, none]; rfl)
  | @joined l cs graph settled =>
    rw [← join_mapArtifacts]
    exact .joined (by rw [single.graph_copy, graph]; rfl) (Variant.settles_all_copied k f settled)

/-- One handle is for the copy of what another one is for. -/
structure Handle.IsCopy (h : Handle) (k : Nat) (id : ComponentId) (f : Artifact → Artifact)
    (g : Handle) : Prop where
  component : g.component = h.component.copy k id f
  variant : g.variant = .copied k f h.variant
  configuration : g.configuration = h.configuration.mapArtifacts f

namespace Handle.IsCopy

variable {h g : Handle} {k : Nat} {id : ComponentId} {f : Artifact → Artifact}

theorem lookup (copy : h.IsCopy k id f g) (names : ∀ a, (f a).name = a.name)
    (name : ArtifactName) : g.lookup name = (h.lookup name).map f := by
  have found : g.configuration.artifact? name = (h.configuration.artifact? name).map f := by
    have same : (fun a : Artifact => (f a).name == name) = fun a => a.name == name :=
      funext fun a => by rw [names]
    rw [copy.configuration, Configuration.artifact?, Configuration.mapArtifacts, List.find?_map]
    exact congrArg (fun q => (h.configuration.artifacts.find? q).map f) same
  rw [Handle.lookup, Handle.lookup, found, copy.variant]
  cases h.configuration.artifact? name <;> rfl

theorem mirrors (copy : h.IsCopy k id f g) (single : h.component.SingleIds) {m m' : Memory}
    {s s' : VariantSet} (supply : (h.candidates m).1 = .ok s)
    (offers : h.component.Offers h.configuration s) (supply' : (g.candidates m').1 = .ok s')
    (offers' : g.component.Offers g.configuration s') (e : Exclusion) (overrides : Attributes) :
    (h.request e overrides).Mirrors f m (g.request e overrides) m' where
  coordinate := by
    have same := congrArg Component.coordinate copy.component
    exact same
  exclusion := rfl
  overrides := rfl
  declared := congrArg Configuration.variants copy.configuration
  candidates := by
    have transformed := offers.copy single k id f
    rw [← copy.component, ← copy.configuration] at transformed
    rw [offers'.unique transformed] at supply'
    exact ⟨s, supply, supply'⟩

end Handle.IsCopy

namespace Session

theorem Grows.ready {s t : Session} (h : s.Grows t) (sound : t.Sound) {v : Variant}
    (hv : v ∈ s.ancestry) (ready : v.Ready s.memory) : v.Ready t.memory :=
  ready.of_grows sound.family (h.ancestry v hv) sound.right h.memory.grows h.memory.attempts_le

theorem Sound.settles {s : Session} (sound : s.Sound) {v : Variant} (hv : v ∈ s.ancestry)
    {c : Configuration} (kept : s.memory.configuration? v.key = some c) : v.Settles c :=
  Variant.settles_of_configuration? sound.family sound.right hv kept

theorem Sound.serves {s : Session} (sound : s.Sound) {i : Nat} {d : Desk}
    (found : s.desks[i]? = some d) {x : String} {h : Handle} (given : s.handle? i x = some h) :
    h.Serves d.component x s.memory := by
  obtain ⟨d', found', published⟩ := Option.bind_eq_some_iff.1 given
  obtain rfl := Option.some.inj (found.symm.trans found')
  obtain ⟨shared, held, rfl⟩ := Option.map_eq_some_iff.1 published
  exact sound.faithful d (mem_of_desk? found) held

theorem Sound.settles_handle {s : Session} (sound : s.Sound) {i : Nat} {d : Desk}
    (found : s.desks[i]? = some d) {x : String} {h : Handle} (given : s.handle? i x = some h) :
    h.variant.Settles h.configuration := by
  have serves := sound.serves found given
  have listed := Component.mem_variants_of_variant? serves.own
  exact sound.settles (mem_ancestry (mem_of_desk? found) listed) serves.kept

theorem Sound.handle?_ask {s : Session} (sound : s.Sound) {i : Nat} {d : Desk}
    (found : s.desks[i]? = some d) {v w : Variant} (own : d.component.variant? w.id = some v)
    (ready : v.Ready s.memory) (e : Entry) : ∃ h, (s.ask i e w).handle? i w.id = some h := by
  have hv : v ∈ s.ancestry :=
    mem_ancestry (mem_of_desk? found) (Component.mem_variants_of_variant? own)
  have noted : v.Ready (s.memory.note (.building w.id)) := ready.of_grows sound.family hv
    (fun u hu => (sound.right u hu).note _) (fun _ _ kept => kept) fun _ => Nat.le_refl _
  have step := d.requests w s.memory
  obtain ⟨shared, answer⟩ := step.ok_of_ready own noted
  rw [answer] at step
  have bound : i < s.desks.length := (List.getElem?_eq_some_iff.1 found).1
  refine ⟨shared.value, ?_⟩
  simp [handle?, ask, found, List.getElem?_set_self bound, step.get?_answer]

theorem Sound.isCopy {a b : Session} (soundA : a.Sound) (soundB : b.Sound) {i j k : Nat}
    {d e : Desk} {id : ComponentId} {f : Artifact → Artifact} (original : a.desks[i]? = some d)
    (copied : b.desks[j]? = some e) (copy : e.component = d.component.copy k id f)
    (single : d.component.SingleIds) {v : Variant} (listed : v ∈ d.component.variants)
    {h g : Handle} (given : a.handle? i v.id = some h) (given' : b.handle? j v.id = some g) :
    h.IsCopy k id f g := by
  have serves := soundA.serves original given
  have serves' := soundB.serves copied given'
  have own : v = h.variant := Option.some.inj ((single.variant? listed).symm.trans serves.own)
  have own' : .copied k f v = g.variant := by
    have found := serves'.own
    rw [copy, single.variant?_copy listed] at found
    exact Option.some.inj found
  have settled := soundA.settles_handle original given
  have settled' := soundB.settles_handle copied given'
  -- Both configurations come from one strategy, so it does not matter when they came about.
  constructor
  · rw [serves'.component, serves.component, copy]
  · rw [← own', own]
  · rw [← own', own] at settled'
    exact settled'.unique settled.copied

theorem Sound.ready_copied {s : Session} (sound : s.Sound) {c : Component} {e : Desk} {k : Nat}
    {id : ComponentId} {f : Artifact → Artifact} (he : e ∈ s.desks)
    (copy : e.component = c.copy k id f) (single : c.SingleIds) {v : Variant}
    (listed : v ∈ c.variants) (ready : v.Ready s.memory) :
    (Variant.copied k f v).Ready s.memory := by
  have held : .copied k f v ∈ s.ancestry := by
    refine mem_ancestry he ?_
    rw [copy]
    exact Component.mem_variants_of_variant? (single.variant?_copy listed)
  exact ready.copied sound.family held sound.right

theorem Sound.supplies {s : Session} (sound : s.Sound) {d : Desk} (hd : d ∈ s.desks) {h : Handle}
    (component : h.component = d.component)
    (ready : ∀ v ∈ d.component.graph.getD [], v.Ready s.memory) :
    ∃ set, (h.candidates s.memory).1 = .ok set ∧ h.component.Offers h.configuration set := by
  rw [← component] at ready
  refine Component.offers_candidates sound.family (fun v hv => ?_) sound.right ready h.configuration
  rw [component] at hv
  exact mem_ancestry hd (d.component.graph_subset_variants hv)

theorem Sound.mirrors {a b : Session} (soundA : a.Sound) (soundB : b.Sound) {i j k : Nat}
    {d e : Desk} {id : ComponentId} {f : Artifact → Artifact} (original : a.desks[i]? = some d)
    (copied : b.desks[j]? = some e) (copy : e.component = d.component.copy k id f)
    (single : d.component.SingleIds) {v : Variant} (listed : v ∈ d.component.variants)
    {h g : Handle} (given : a.handle? i v.id = some h) (given' : b.handle? j v.id = some g)
    (readyA : ∀ w ∈ d.component.graph.getD [], w.Ready a.memory)
    (readyB : ∀ w ∈ d.component.graph.getD [], w.Ready b.memory) (x : Exclusion)
    (overrides : Attributes) :
    (h.request x overrides).Mirrors f a.memory (g.request x overrides) b.memory := by
  have isCopy := soundA.isCopy soundB original copied copy single listed given given'
  have component : h.component = d.component := (soundA.serves original given).component
  have component' : g.component = e.component := (soundB.serves copied given').component
  have readyCopies : ∀ w ∈ e.component.graph.getD [], w.Ready b.memory := by
    intro w hw
    rw [copy] at hw
    obtain ⟨u, hu, rfl⟩ := single.mem_graph_copy hw
    exact soundB.ready_copied (mem_of_desk? copied) copy single
      (d.component.graph_subset_variants hu) (readyB u hu)
  obtain ⟨_, supply, offers⟩ := soundA.supplies (mem_of_desk? original) component readyA
  obtain ⟨_, supply', offers'⟩ := soundB.supplies (mem_of_desk? copied) component' readyCopies
  exact isCopy.mirrors (component ▸ single) supply offers supply' offers' x overrides

/-- From a state on in which a variant and its graph siblings can be prepared, asking for the variant
gives out a handle at the desk of the component and one at the desk of a copy. Whenever these are
used, lookups and selections with the copy's handle give what the other one gives, transformed. -/
theorem copy_simulates {c : Component} {n : Nat} (numbered : c.Numbered n)
    (settings : Option CacheSettings) (work : List Operation) {s : Session}
    (reached : (opened c settings n).run work = s) {i j k : Nat} {d e : Desk} {id : ComponentId}
    {f : Artifact → Artifact} {v : Variant} (original : s.desks[i]? = some d)
    (copied : s.desks[j]? = some e) (copy : e.component = d.component.copy k id f)
    (single : d.component.SingleIds) (names : ∀ a, (f a).name = a.name)
    (listed : v ∈ d.component.variants) (ready : v.Ready s.memory)
    (siblings : ∀ w ∈ d.component.graph.getD [], w.Ready s.memory) (first second : List Operation) :
    let a := s.run first
    let b := s.run second
    (∀ w entry, w.id = v.id → (∃ h, (a.ask i entry w).handle? i v.id = some h) ∧
      ∃ g, (b.ask j entry w).handle? j v.id = some g) ∧
    ∀ h g, a.handle? i v.id = some h → b.handle? j v.id = some g →
      (∀ name, g.lookup name = (h.lookup name).map f) ∧
      ∀ p x overrides,
        (∃ set, (h.resolve (Policy.select p) x overrides a.memory).1 = .ok set ∧
          (g.resolve p.select x overrides b.memory).1 = .ok (set.mapArtifacts f) ∧
          (Artifact.Separates f (set.variants.flatMap (·.artifacts)) →
            (set.mapArtifacts f).artifacts = set.artifacts.map f)) ∨
        ((h.resolve p.select x overrides a.memory).1 =
            .error (.noMatchingVariant (toString d.component.id) (toString overrides)) ∧
          (g.resolve p.select x overrides b.memory).1 =
            .error (.noMatchingVariant (toString id) (toString overrides))) := by
  intro a b
  subst reached
  obtain ⟨sound, _⟩ := (sound_opened numbered settings).run work
  obtain ⟨soundA, growsA⟩ := sound.run first
  obtain ⟨soundB, growsB⟩ := sound.run second
  obtain ⟨d', deskA, same, _⟩ := growsA.desks original
  obtain ⟨e', deskB, same', _⟩ := growsB.desks copied
  rw [copy] at same'
  rw [← same] at single listed siblings same'
  have held {u : Variant} (hu : u ∈ d'.component.variants) :
      u ∈ ((opened c settings n).run work).ancestry :=
    mem_ancestry (mem_of_desk? original) (same ▸ hu)
  have sibling {u : Variant} (hu : u ∈ d'.component.graph.getD []) :=
    held (d'.component.graph_subset_variants hu)
  refine ⟨fun w entry sameId => ⟨?_, ?_⟩, fun h g given given' => ?_⟩
  · have own : d'.component.variant? w.id = some v := by
      rw [sameId]
      exact single.variant? listed
    rw [← sameId]
    exact soundA.handle?_ask deskA own (growsA.ready soundA (held listed) ready) entry
  · have own : e'.component.variant? w.id = some (.copied k f v) := by
      rw [sameId, same']
      exact single.variant?_copy listed
    rw [← sameId]
    exact soundB.handle?_ask deskB own (soundB.ready_copied (mem_of_desk? deskB) same' single
      listed (growsB.ready soundB (held listed) ready)) entry
  · have isCopy := soundA.isCopy soundB deskA deskB same' single listed given given'
    refine ⟨isCopy.lookup names, fun p x overrides => ?_⟩
    have mirrors := soundA.mirrors soundB deskA deskB same' single listed given given'
      (fun u hu => growsA.ready soundA (sibling hu) (siblings u hu))
      (fun u hu => growsB.ready soundB (sibling hu) (siblings u hu)) x overrides
    have id_eq : d.component.id = h.component.id := by
      rw [(soundA.serves deskA given).component, same]
    have id_eq' : id = g.component.id := by
      rw [(soundB.serves deskB given').component, same']
      rfl
    rw [id_eq, id_eq']
    rcases mirrors.answer names p with ⟨set, answer, answer'⟩ | refusals
    · exact .inl ⟨set, answer, answer', ResolvedSet.artifacts_mapArtifacts⟩
    · exact .inr refusals

def siblings : Sketch where
  projectPath := ":lib"
  configurations :=
    [{ name := "main"
       variants := [{ name := "jvm", attributes := [("target", "jvm")], artifacts := [.jar "jvm"] }]
       failures := 1 },
      { name := "test"
        variants :=
          [{ name := "js", attributes := [("target", "js")], artifacts := [.jar "js"] }] }]
  graph := some ["main", "test"]

def mainSibling : Variant :=
  .original ⟨0, 0⟩ ⟨"main", "main", .ofList []⟩ (siblings.configurations[0].strategy siblings.id)

def siblingWork : List Operation := [.prepare 0 0, .copy 0 (.project ":" ":copy") moved]

theorem copy_simulates_siblings :
    let s := (opened (siblings.component 0) none 0).run siblingWork
    (siblings.component 0).Numbered 0 ∧ (siblings.component 0).SingleIds ∧
    mainSibling.Ready s.memory ∧ (∀ w ∈ (siblings.component 0).graph.getD [], w.Ready s.memory) ∧
    ∃ h g, (s.ask 0 .artifacts mainSibling).handle? 0 "main" = some h ∧
      (s.ask 1 .handle mainSibling).handle? 1 "main" = some g ∧
      g.lookup (.jar "main") = (h.lookup (.jar "main")).map moved ∧
      ∀ set overrides,
        (h.resolve (Policy.select {}) .nothing overrides
          (s.ask 0 .artifacts mainSibling).memory).1 = .ok set →
        (g.resolve (Policy.select {}) .nothing overrides
          (s.ask 1 .handle mainSibling).memory).1 = .ok (set.mapArtifacts moved) := by
  intro s
  have numbered := siblings.numbered_component 0 0
  have single := Sketch.singleIds_component (s := siblings) (by decide) 0
  have ready : mainSibling.Ready s.memory := ⟨_, rfl⟩
  have all : ∀ w ∈ (siblings.component 0).graph.getD [], w.Ready s.memory := by
    intro w hw
    rcases List.mem_cons.1 hw with rfl | hw
    · exact ready
    · obtain rfl := List.mem_singleton.1 hw
      exact ⟨_, rfl⟩
  have simulates := copy_simulates numbered none siblingWork (s := s) rfl (i := 0) (j := 1) (k := 0)
    (f := moved) (v := mainSibling) rfl rfl rfl single (fun _ => rfl)
    (List.mem_of_getElem? (i := 0) rfl) ready all
  obtain ⟨h, given⟩ := ((simulates [] []).1 mainSibling .artifacts rfl).1
  obtain ⟨g, given'⟩ := ((simulates [] []).1 mainSibling .handle rfl).2
  obtain ⟨lookup, select⟩ := (simulates [.ask 0 .artifacts mainSibling]
    [.ask 1 .handle mainSibling]).2 h g given given'
  refine ⟨numbered, single, ready, all, h, g, given, given', lookup _, fun set overrides ok => ?_⟩
  rcases select {} .nothing overrides with ⟨set', ok', transformed, _⟩ | ⟨refusal, _⟩
  · obtain rfl := Except.ok.inj (ok.symm.trans ok')
    exact transformed
  · cases ok.symm.trans refusal

end Session

end ArtifactSelection
