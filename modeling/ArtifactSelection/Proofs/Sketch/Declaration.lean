import ArtifactSelection.Proofs.Descriptor.Universe
import ArtifactSelection.Proofs.Session.Agreement

/-!
Sketches and descriptors that declare the same. Their components are assembled and prepared in two
places, and agree: variants stand in the same places under the same labels, they are prepared to the
same configurations, and whatever happened to either component before, a selection selects the same.
Only the display names of declared physical variants tell the two apart.
-/

namespace ArtifactSelection

structure ArtifactDeclaration.Names (a : ArtifactDeclaration) (n : ArtifactName) : Prop where
  name : a.name = n.name
  type : a.type = n.type
  extension : a.extension.getD a.type = n.extension
  classifier : a.classifier = n.classifier
  file : a.file = none

structure PhysicalSketch.DeclaredBy (v : PhysicalSketch) (w : PhysicalDeclaration) : Prop where
  name : w.name = v.name
  attributes : w.attributes = .ofList v.attributes
  artifacts : List.Forall₂ (fun n a => a.Names n) v.artifacts w.artifacts

structure ConfigurationSketch.DeclaredBy (c : ConfigurationSketch) (b : ConfigurationDeclaration) :
    Prop where
  name : b.name = c.name
  attributes : b.attributes = .ofList c.attributes
  artifacts : List.Forall₂ (fun n a => a.Names n) c.artifacts b.artifacts
  variants : List.Forall₂ PhysicalSketch.DeclaredBy c.variants b.variants

/-- The descriptor declares what the sketch does, for the same project under the same module. -/
structure Sketch.DeclaredBy (s : Sketch) (d : Descriptor) : Prop where
  project : d.component.project = some s.projectPath
  build : d.component.build.getD ComponentId.rootBuild = ComponentId.rootBuild
  coordinate : d.coordinate = s.coordinate
  attributes : d.component.attributes = ∅
  graph : d.graphVariants = s.graph
  configurations : List.Forall₂ ConfigurationSketch.DeclaredBy s.configurations d.configurations

def ArtifactName.declaration (n : ArtifactName) : ArtifactDeclaration where
  name := n.name
  type := n.type
  extension := some n.extension
  classifier := n.classifier

def PhysicalSketch.declaration (v : PhysicalSketch) : PhysicalDeclaration where
  name := v.name
  attributes := .ofList v.attributes
  artifacts := v.artifacts.map (·.declaration)

def ConfigurationSketch.declaration (c : ConfigurationSketch) : ConfigurationDeclaration where
  name := c.name
  attributes := .ofList c.attributes
  artifacts := c.artifacts.map (·.declaration)
  variants := c.variants.map (·.declaration)

def Sketch.descriptor (s : Sketch) : Descriptor where
  component :=
    { group := s.coordinate.group
      name := s.coordinate.name
      version := s.coordinate.version
      project := some s.projectPath }
  graphVariants := s.graph
  configurations := s.configurations.map (·.declaration)

theorem names_declarations (l : List ArtifactName) :
    List.Forall₂ (fun n a => a.Names n) l (l.map (·.declaration)) := by
  rw [List.forall₂_map_right_iff, List.forall₂_same]
  exact fun n _ => ⟨rfl, rfl, rfl, rfl, rfl⟩

theorem ConfigurationSketch.declaredBy_declaration (c : ConfigurationSketch) :
    c.DeclaredBy c.declaration where
  name := rfl
  attributes := rfl
  artifacts := names_declarations c.artifacts
  variants := by
    rw [declaration, List.forall₂_map_right_iff, List.forall₂_same]
    exact fun v _ => ⟨rfl, rfl, names_declarations v.artifacts⟩

theorem Sketch.declaredBy_descriptor (s : Sketch) : s.DeclaredBy s.descriptor where
  project := rfl
  build := rfl
  coordinate := rfl
  attributes := rfl
  graph := rfl
  configurations := by
    rw [descriptor, List.forall₂_map_right_iff, List.forall₂_same]
    exact fun c _ => c.declaredBy_declaration

theorem ArtifactDeclaration.Names.artifact {a : ArtifactDeclaration} {n : ArtifactName}
    (names : a.Names n) (owner : ComponentId) :
    a.artifact owner = { component := owner, name := n } := by
  rw [ArtifactDeclaration.artifact, artifactName, names.name, names.extension, names.type,
    names.classifier, names.file]

theorem artifacts_of_names {l : List ArtifactName} {l' : List ArtifactDeclaration}
    (names : List.Forall₂ (fun n a => a.Names n) l l') (owner : ComponentId) :
    l'.map (·.artifact owner) = l.map fun n => { component := owner, name := n } :=
  map_eq_of_forall₂ names fun h => h.artifact owner

namespace ConfigurationSketch

variable {c : ConfigurationSketch} {b : ConfigurationDeclaration}

theorem DeclaredBy.retitled_physical (declared : c.DeclaredBy b) (owner : ComponentId) :
    List.Forall₂ PhysicalVariant.Retitled (c.physical owner) (b.physicals owner) := by
  have variants := declared.variants
  unfold physical ConfigurationDeclaration.physicals
  generalize c.variants = l, b.variants = l' at variants
  cases variants with
  | nil =>
    exact .cons ⟨declared.name, declared.attributes, artifacts_of_names declared.artifacts owner⟩ .nil
  | cons first rest =>
    rw [List.isEmpty_cons, if_neg Bool.false_ne_true, List.forall₂_map_left_iff,
      List.forall₂_map_right_iff]
    refine (List.Forall₂.cons first rest).imp fun v w same => ⟨?_, ?_, ?_⟩
    · rw [ConfigurationDeclaration.physical, declared.name, same.name]
      rfl
    · rw [ConfigurationDeclaration.physical, declared.attributes, same.attributes]
    · exact artifacts_of_names same.artifacts owner

theorem eq_nil_of_ids {c : ConfigurationSketch} {owner : ComponentId}
    (own : (c.configuration owner).variants.ids = [c.name]) : c.variants = [] := by
  by_contra some
  have listed : c.name ∈ (c.configuration owner).variants.ids := by
    rw [own]
    exact List.mem_singleton_self _
  obtain ⟨p, hp, id⟩ := List.mem_map.1 listed
  have declared := List.mem_of_find?_eq_some (VariantSet.mem_ofList_iff.1 hp)
  rw [physical, if_neg (by simpa using some), List.mem_map] at declared
  obtain ⟨v, _, rfl⟩ := declared
  simp [String.append_assoc] at id

theorem DeclaredBy.retitled (declared : c.DeclaredBy b) (owner : ComponentId) :
    (c.configuration owner).Retitled (b.configuration owner) where
  name := declared.name
  attributes := declared.attributes
  artifacts := artifacts_of_names declared.artifacts owner
  variants := by
    rw [ConfigurationDeclaration.configuration, b.variantSet_eq]
    exact VariantSet.forall₂_ofList (·.id) (declared.retitled_physical owner)
  own := by
    intro own
    have none := eq_nil_of_ids own
    have none' : b.variants = [] := by simpa [none] using declared.variants
    simp [configuration, physical, ConfigurationDeclaration.configuration,
      ConfigurationDeclaration.variantSet, ConfigurationDeclaration.implicit, none, none',
      declared.name, declared.attributes, artifacts_of_names declared.artifacts]

def variant (c : ConfigurationSketch) (owner : ComponentId) (o : Origin) : Variant :=
  .original o ⟨c.name, c.name, .ofList c.attributes⟩ (c.strategy owner)

theorem settles_variant (steady : c.failures = 0) (owner : ComponentId) (o : Origin) :
    (c.variant owner o).Settles (c.configuration owner) := by
  refine .original (n := 0) ⟨fun i hi => absurd hi (Nat.not_lt_zero i), ?_⟩
  simp [strategy, Strategy.after, steady]

end ConfigurationSketch

theorem names_picked (l : List Variant) (names : List String) :
    (names.filterMap fun n => l.find? (·.name == n)).map (·.name) =
      names.filter (· ∈ l.map (·.name)) := by
  rw [List.map_filterMap, ← List.filterMap_eq_filter]
  refine List.filterMap_congr fun n _ => ?_
  cases found : l.find? (·.name == n) with
  | some v =>
    have name : v.name = n := by simpa using List.find?_some found
    have known : n ∈ l.map (·.name) := List.mem_map.2 ⟨v, List.mem_of_find?_eq_some found, name⟩
    rw [Option.map_some, name, Option.guard, if_pos (decide_eq_true known)]
  | none =>
    have unknown : n ∉ l.map (·.name) := by simpa using found
    rw [Option.map_none, Option.guard, if_neg (by simpa using unknown)]

namespace Sketch

variable {s : Sketch} {d : Descriptor}

theorem DeclaredBy.id (declared : s.DeclaredBy d) : d.id = s.id := by
  rw [Descriptor.id, declared.project]
  dsimp only
  rw [declared.build, Sketch.id]

theorem DeclaredBy.alike_configurations (declared : s.DeclaredBy d)
    (unfailing : ∀ c ∈ s.configurations, c.failures = 0) (number : Nat) :
    List.Forall₂ Variant.Alike (s.component number).configurations
      (d.toComponent number).configurations := by
  refine forall₂_mapIdx (forall₂_mem declared.configurations) fun i c b h => ?_
  obtain ⟨hc, _, same⟩ := h
  constructor
  · rfl
  · rw [Variant.label, Variant.label, same.name, same.attributes]
  · refine ⟨c.configuration s.id, b.configuration d.id, ?_, ?_, ?_⟩
    · exact c.settles_variant (unfailing c hc) s.id ⟨number, i⟩
    · exact b.settles_variant d.id ⟨number, i⟩
    · rw [declared.id]
      exact same.retitled s.id

/-- The components have the same variants in the same places. -/
theorem DeclaredBy.corresponds (declared : s.DeclaredBy d)
    (unfailing : ∀ c ∈ s.configurations, c.failures = 0) (number : Nat) :
    (s.component number).Corresponds Variant.Alike (d.toComponent number) where
  coordinate := declared.coordinate
  attributes := declared.attributes
  configurations := declared.alike_configurations unfailing number
  graph := by
    have configurations := declared.alike_configurations unfailing number
    rw [component, Descriptor.toComponent, declared.graph]
    cases s.graph with
    | none => exact .none
    | some names =>
      refine .some (List.rel_filterMap (R := Eq) ?_ (List.forall₂_same.2 fun _ _ => rfl))
      rintro n _ rfl
      exact rel_find? configurations fun same => by rw [same.name]

theorem names_graph (s : Sketch) (number : Nat) :
    (s.component number).graph.map (·.map (·.name)) =
      s.graph.map (·.filter (· ∈ s.configurations.map (·.name))) := by
  have names : (s.component number).configurations.map (·.name) = s.configurations.map (·.name) := by
    refine List.ext_getElem (by simp [component]) fun i _ _ => ?_
    simp [component, Variant.name, Variant.label]
  rw [← names, component, Option.map_map]
  congr 1
  exact funext fun l => names_picked _ l

/-- A sketch without failures agrees with every descriptor that declares the same, whether it is
consistent or not. There is such a descriptor, and in a graph unknown names count for nothing. -/
theorem component_as_declared {s : Sketch} (unfailing : ∀ c ∈ s.configurations, c.failures = 0) :
    s.DeclaredBy s.descriptor ∧ ∀ d, s.DeclaredBy d →
      ∀ (number n : Nat) (settings settings' : Option CacheSettings) (first second : List Operation),
        let c := s.component number
        let e := d.toComponent number
        c.graph.map (·.map (·.name)) =
          s.graph.map (·.filter (· ∈ s.configurations.map (·.name))) ∧
        Session.Agree c e ((Session.opened c settings n).run first)
          ((Session.opened e settings' n).run second) := by
  refine ⟨s.declaredBy_descriptor, fun d declared number n settings settings' first second => ?_⟩
  refine ⟨s.names_graph number, ?_⟩
  exact Session.agree_run (s.numbered_component number n) (d.numbered_toComponent number n)
    (s.unfailing_component unfailing number) (d.unfailing_toComponent number) declared.id
    (declared.corresponds unfailing number) settings settings' first second

def doubled : Sketch where
  projectPath := ":lib:core"
  configurations :=
    [{ name := "main"
       attributes := [("usage", "api"), ("usage", "runtime")]
       artifacts := [.jar "core"] },
      { name := "main", artifacts := [.jar "shadow"] },
      { name := "docs"
        variants :=
          [{ name := "html", attributes := [("format", "html")], artifacts := [.jar "docs"] },
            { name := "html", attributes := [("format", "pdf")], artifacts := [] }] }]
  graph := some ["docs", "missing", "main"]

def doubledDescriptor : Descriptor where
  component :=
    { group := "org.example", name := "lib-core", version := "1.0", project := some ":lib:core",
      build := some ":" }
  graphVariants := some ["docs", "missing", "main"]
  configurations :=
    [{ name := "main", attributes := .ofList [("usage", "runtime")], artifacts := [{ name := "core" }] },
      { name := "main", artifacts := [{ name := "shadow", extension := some "jar" }] },
      { name := "docs"
        variants :=
          [{ name := "html"
             attributes := .ofList [("format", "html")]
             artifacts := [{ name := "docs" }] },
            { name := "html", attributes := .ofList [("format", "pdf")] }] }]

def html : Attributes := .ofList [("format", "html")]

theorem component_as_declared_doubled :
    (∀ c ∈ doubled.configurations, c.failures = 0) ∧ doubled.DeclaredBy doubledDescriptor ∧
    let a := (Session.opened (doubled.component 0) none 0).run
      [.ask 0 .artifacts Session.namesake]
    let b := (Session.opened (doubledDescriptor.toComponent 0) none 0).run
      [.prepare 0 2, .ask 0 .handle Session.namesake]
    (doubled.component 0).graph.map (·.map (·.name)) = some ["docs", "main"] ∧
    ∃ h g set set', a.handle? 0 "main" = some h ∧ b.handle? 0 "main" = some g ∧
      (h.resolve (Policy.select {}) .nothing html a.memory).1 = .ok set ∧
      (g.resolve (Policy.select {}) .nothing html b.memory).1 = .ok set' ∧
      set.variants.map (·.variant.id) = ["docs/html"] ∧
      List.Forall₂ ResolvedVariant.Retitled set.variants set'.variants := by
  have unfailing : ∀ c ∈ doubled.configurations, c.failures = 0 := by decide
  have declared : doubled.DeclaredBy doubledDescriptor := by
    have core : ArtifactDeclaration.Names { name := "core" } (.jar "core") :=
      ⟨rfl, rfl, rfl, rfl, rfl⟩
    have shadow : ArtifactDeclaration.Names { name := "shadow", extension := some "jar" }
        (.jar "shadow") := ⟨rfl, rfl, rfl, rfl, rfl⟩
    have docs : ArtifactDeclaration.Names { name := "docs" } (.jar "docs") :=
      ⟨rfl, rfl, rfl, rfl, rfl⟩
    refine ⟨rfl, rfl, rfl, rfl, rfl, .cons ⟨rfl, rfl, .cons core .nil, .nil⟩
      (.cons ⟨rfl, rfl, .cons shadow .nil, .nil⟩ (.cons ⟨rfl, rfl, .nil, ?_⟩ .nil))⟩
    exact .cons ⟨rfl, rfl, .cons docs .nil⟩ (.cons ⟨rfl, rfl, .nil⟩ .nil)
  obtain ⟨graph, agree⟩ := (component_as_declared unfailing).2 _ declared 0 0 none none
    [.ask 0 .artifacts Session.namesake] [.prepare 0 2, .ask 0 .handle Session.namesake]
  refine ⟨unfailing, declared, graph, ?_⟩
  have same := agree.selections 0 0 _ _ rfl rfl rfl rfl "main" _ _ rfl rfl {} .nothing html
  rcases same with ⟨set, set', ok, ok', retitled, _⟩ | ⟨f, refused, _⟩
  · refine ⟨_, _, set, set', rfl, rfl, ok, ok', ?_, retitled⟩
    obtain rfl := Except.ok.inj ok
    rfl
  · cases refused

end Sketch

end ArtifactSelection
