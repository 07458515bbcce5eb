import ArtifactSelection.Proofs.Descriptor.Universe
import ArtifactSelection.Proofs.Selection.Reissue

/-!
Descriptors of versions. A new version of a component file may declare another version and another
project, other classifiers and other files; the component that it makes is then the same but for
what no rule looks at.
-/

namespace ArtifactSelection

def ArtifactDeclaration.Reissued (a b : ArtifactDeclaration) : Prop :=
  a.artifactName.Reissued b.artifactName

structure PhysicalDeclaration.Reissued (v w : PhysicalDeclaration) : Prop where
  name : w.name = v.name
  attributes : w.attributes = v.attributes
  artifacts : List.Forall₂ ArtifactDeclaration.Reissued v.artifacts w.artifacts

structure ConfigurationDeclaration.Reissued (c d : ConfigurationDeclaration) : Prop where
  name : d.name = c.name
  attributes : d.attributes = c.attributes
  artifacts : List.Forall₂ ArtifactDeclaration.Reissued c.artifacts d.artifacts
  variants : List.Forall₂ PhysicalDeclaration.Reissued c.variants d.variants

structure Descriptor.Reissued (d e : Descriptor) : Prop where
  coordinate : d.coordinate.Reissued e.coordinate
  attributes : e.component.attributes = d.component.attributes
  graph : e.graphVariants = d.graphVariants
  configurations : List.Forall₂ ConfigurationDeclaration.Reissued d.configurations e.configurations

theorem ArtifactDeclaration.reissued_artifacts {l l' : List ArtifactDeclaration}
    (related : List.Forall₂ Reissued l l') (owner owner' : ComponentId) :
    List.Forall₂ Artifact.Reissued (l.map (·.artifact owner)) (l'.map (·.artifact owner')) := by
  rw [List.forall₂_map_left_iff, List.forall₂_map_right_iff]
  exact related.imp fun _ _ same => same

namespace ConfigurationDeclaration.Reissued

variable {c d : ConfigurationDeclaration}

theorem physicals (h : c.Reissued d) (owner owner' : ComponentId) :
    List.Forall₂ PhysicalVariant.Reissued (c.physicals owner) (d.physicals owner') := by
  have variants := h.variants
  unfold ConfigurationDeclaration.physicals
  generalize c.variants = l, d.variants = l' at variants
  cases variants with
  | nil =>
    have own : (c.implicit owner).Reissued (d.implicit owner') :=
      ⟨h.name, h.name, h.attributes, ArtifactDeclaration.reissued_artifacts h.artifacts _ _⟩
    exact .cons own .nil
  | cons first rest =>
    rw [List.forall₂_map_left_iff, List.forall₂_map_right_iff]
    refine (List.Forall₂.cons first rest).imp fun v w same => ⟨?_, ?_, ?_, ?_⟩
    · exact congrArg₂ variantId h.name same.name
    · rw [physical, physical, h.name, same.name]
    · exact congrArg₂ Attributes.overlay h.attributes same.attributes
    · exact ArtifactDeclaration.reissued_artifacts same.artifacts _ _

theorem configuration (h : c.Reissued d) (owner owner' : ComponentId) :
    (c.configuration owner).Reissued (d.configuration owner') where
  name := h.name
  attributes := h.attributes
  artifacts := ArtifactDeclaration.reissued_artifacts h.artifacts _ _
  variants := by
    rw [Configuration.Parallels, ConfigurationDeclaration.configuration,
      ConfigurationDeclaration.configuration, c.variantSet_eq, d.variantSet_eq]
    exact VariantSet.forall₂_ofList (·.id) (h.physicals owner owner')

theorem variant (h : c.Reissued d) (owner owner' : ComponentId) (o o' : Origin) :
    (c.variant owner o).Reissued (d.variant owner' o') where
  label := by
    rw [ConfigurationDeclaration.variant, ConfigurationDeclaration.variant, h.name, h.attributes]
    rfl
  settles first second := by
    rw [first.unique (c.settles_variant owner o), second.unique (d.settles_variant owner' o')]
    exact h.configuration owner owner'

end ConfigurationDeclaration.Reissued

namespace Descriptor.Reissued

variable {d e : Descriptor}

theorem variants (h : d.Reissued e) (number number' : Nat) :
    List.Forall₂ Variant.Reissued (d.variants number) (e.variants number') :=
  forall₂_mapIdx h.configurations fun i _ _ same => same.variant d.id e.id ⟨number, i⟩ ⟨number', i⟩

theorem toComponent (h : d.Reissued e) (number number' : Nat) :
    (d.toComponent number).Reissued (e.toComponent number') where
  coordinate := h.coordinate
  attributes := h.attributes
  configurations := h.variants number number'
  graph := by
    have found (n : String) : Option.Rel Variant.Reissued
        ((d.variants number).find? (·.name == n)) ((e.variants number').find? (·.name == n)) :=
      rel_find? (h.variants number number') fun same => by
        rw [Variant.name, Variant.name, same.label]
    rw [Descriptor.toComponent, Descriptor.toComponent, h.graph]
    cases d.graphVariants with
    | none => exact .none
    | some names =>
      refine .some (List.rel_filterMap (R := Eq) ?_ (List.forall₂_same.2 fun _ _ => rfl))
      rintro n _ rfl
      exact found n

end Descriptor.Reissued

end ArtifactSelection
