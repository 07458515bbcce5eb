import ArtifactSelection.Proofs.Attributes.Overlay
import ArtifactSelection.Proofs.Descriptor.Universe

/-!
A described component is what its descriptor says. To build it prepares nothing; its variants are the
declared configurations in their order, and its graph variants those that are named, each in its
place. Preparing a variant always succeeds and comes to what is declared. No physical variant is lost
on the way into a set, because names that differ within a configuration make ids that differ.
-/

namespace ArtifactSelection

structure ArtifactDeclaration.Describes (a : ArtifactDeclaration) (owner : ComponentId)
    (b : Artifact) : Prop where
  component : b.component = owner
  name : b.name.name = a.name
  type : b.name.type = a.type
  extension : b.name.extension = a.extension.getD a.type
  classifier : b.name.classifier = a.classifier
  file : b.file = a.file

/-- The physical variant that is declared in a configuration. On each key its own attributes come
before those of the configuration. -/
structure PhysicalDeclaration.Describes (v : PhysicalDeclaration) (c : ConfigurationDeclaration)
    (owner : ComponentId) (p : PhysicalVariant) : Prop where
  id : p.id = c.name ++ "/" ++ v.name
  displayName : p.displayName = c.name ++ " " ++ v.name
  attributes : ∀ k, p.attributes.get? k = (v.attributes.get? k).or (c.attributes.get? k)
  artifacts : List.Forall₂ (·.Describes owner) v.artifacts p.artifacts

/-- The configuration that is declared. Without declared variants it has one of its own, and with
some it has each of them and no other. -/
structure ConfigurationDeclaration.Describes (c : ConfigurationDeclaration) (owner : ComponentId)
    (b : Configuration) : Prop where
  name : b.name = c.name
  attributes : b.attributes = c.attributes
  artifacts : List.Forall₂ (·.Describes owner) c.artifacts b.artifacts
  implicit : c.variants = [] →
    b.variants.variants = [⟨c.name, c.name, c.attributes, b.artifacts⟩]
  declared : c.variants ≠ [] → ∃ l, List.Forall₂ (·.Describes c owner) c.variants l ∧
    b.variants.variants.Perm l

structure ConfigurationDeclaration.Labels (c : ConfigurationDeclaration) (v : Variant) : Prop where
  id : v.id = c.name
  name : v.name = c.name
  attributes : v.attributes = c.attributes

theorem describes_artifacts (l : List ArtifactDeclaration) (owner : ComponentId) :
    List.Forall₂ (·.Describes owner) l (l.map (·.artifact owner)) := by
  rw [List.forall₂_map_right_iff, List.forall₂_same]
  exact fun a _ => ⟨rfl, rfl, rfl, rfl, rfl, rfl⟩

namespace ConfigurationDeclaration

variable {c : ConfigurationDeclaration}

theorem describes_physical (c : ConfigurationDeclaration) (owner : ComponentId)
    (v : PhysicalDeclaration) : v.Describes c owner (c.physical owner v) where
  id := rfl
  displayName := rfl
  attributes := Attributes.get?_overlay c.attributes v.attributes
  artifacts := describes_artifacts v.artifacts owner

theorem physicals_of_ne_nil (some : c.variants ≠ []) (owner : ComponentId) :
    c.physicals owner = c.variants.map (c.physical owner) := by
  unfold physicals
  cases variants : c.variants with
  | nil => exact absurd variants some
  | cons => rfl

theorem describes_configuration (distinct : (c.variants.map (·.name)).Nodup)
    (owner : ComponentId) : c.Describes owner (c.configuration owner) where
  name := rfl
  attributes := rfl
  artifacts := describes_artifacts c.artifacts owner
  implicit := by
    intro none
    simp only [configuration, variantSet, none]
    rfl
  declared := by
    intro some
    refine ⟨c.physicals owner, ?_, ?_⟩
    · rw [physicals_of_ne_nil some, List.forall₂_map_right_iff, List.forall₂_same]
      exact fun v _ => c.describes_physical owner v
    · have ids : ((c.physicals owner).map (·.id)).Nodup := nodup_ids_physicals distinct
      have all := VariantSet.perm_ofList ids
      rwa [← variantSet_eq] at all

end ConfigurationDeclaration

namespace Descriptor

variable {d : Descriptor}

theorem Consistent.graph_toComponent (consistent : d.Consistent) (number : Nat) :
    Option.Rel
      (List.Forall₂ fun n v => v.name = n ∧ v ∈ (d.toComponent number).configurations)
      d.graphVariants (d.toComponent number).graph := by
  cases graph : d.graphVariants with
  | none =>
    rw [toComponent, graph]
    exact .none
  | some names =>
    rw [toComponent, graph]
    refine .some (forall₂_filterMap fun n hn => ?_)
    obtain ⟨c, hc, rfl⟩ := List.mem_map.1 (consistent.graph n (by rw [graph]; exact hn))
    obtain ⟨o, found⟩ := consistent.configuration?_toComponent hc number
    exact ⟨_, found, rfl, List.mem_of_find?_eq_some found⟩

/-- The component of a descriptor that is in order, and what its variants are prepared to at any
time. -/
theorem toComponent_faithful (valid : d.validate = .ok ()) (number n : Nat)
    (settings : Option CacheSettings) (work : List Operation) :
    let c := d.toComponent number
    let start := Session.opened c settings n
    let m := (start.run work).memory
    (∀ v ∈ c.variants, start.memory.isPrepared v = false) ∧ start.memory.runs = [] ∧
    List.Forall₂ (fun b v => b.Labels v ∧
      ∃ a, (v.prepare m).1 = .ok a ∧ b.Describes c.id a) d.configurations c.configurations ∧
    Option.Rel (List.Forall₂ fun name v => v.name = name ∧ v ∈ c.configurations)
      d.graphVariants c.graph := by
  intro c start m
  have consistent := validate_eq_ok_iff.1 valid
  refine ⟨fun _ _ => rfl, rfl, ?_, consistent.graph_toComponent number⟩
  refine (forall₂_mem (d.forall₂_variants number)).imp ?_
  rintro b v ⟨hb, hv, o, rfl⟩
  refine ⟨⟨rfl, rfl, rfl⟩, b.configuration d.id, ?_, ?_⟩
  · have listed : b.variant d.id o ∈ c.variants := List.mem_append_left _ hv
    exact Session.answer_prepare_run (d.numbered_toComponent number n) settings work listed
      (d.unfailing_toComponent number _ listed) (b.settles_variant d.id o)
  · exact ConfigurationDeclaration.describes_configuration (consistent.variants b hb) d.id

def documented : Descriptor where
  component := { group := "org.example", name := "lib", version := "1.0", project := some ":lib" }
  graphVariants := some ["runtime", "sources", "runtime"]
  configurations :=
    [{ name := "sources", artifacts := [{ name := "lib", classifier := some "sources" }] },
      { name := "runtime"
        attributes := .ofList [("usage", "runtime"), ("format", "jar")]
        variants := [{ name := "jar", artifacts := [{ name := "lib", file := some "lib.jar" }] },
          { name := "classes"
            attributes := .ofList [("format", "classes")]
            artifacts := [{ name := "main", type := "classes", extension := some "" }] }] }]

theorem toComponent_faithful_documented :
    documented.validate = .ok () ∧
    ∃ v w l, (documented.toComponent 0).configurations = [v, w] ∧
      (documented.toComponent 0).graph = some l ∧
      List.Forall₂ (fun name v => v.name = name ∧ v ∈ (documented.toComponent 0).configurations)
        ["runtime", "sources", "runtime"] l ∧
      ∃ a b, (v.prepare ∅).1 = .ok a ∧ (w.prepare ∅).1 = .ok b ∧
        a.variants.ids = ["sources"] ∧ b.variants.size = 2 := by
  have valid : documented.validate = .ok () := rfl
  obtain ⟨_, _, prepared, graph⟩ := toComponent_faithful valid 0 0 none []
  obtain ⟨⟨_, a, first, describes⟩, rest⟩ := List.forall₂_cons.1 prepared
  obtain ⟨⟨_, b, second, describes'⟩, _⟩ := List.forall₂_cons.1 rest
  obtain ⟨named⟩ := graph
  refine ⟨valid, _, _, _, rfl, rfl, named, a, b, first, second, ?_, ?_⟩
  · rw [VariantSet.ids, describes.implicit rfl]
    rfl
  · obtain ⟨l, each, all⟩ := describes'.declared (by decide)
    rw [VariantSet.size, all.length_eq, ← each.length_eq]
    rfl

end Descriptor

end ArtifactSelection
