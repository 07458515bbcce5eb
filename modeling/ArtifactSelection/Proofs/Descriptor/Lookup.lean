import ArtifactSelection.Proofs.Component.Variants
import ArtifactSelection.Proofs.Descriptor.Consistency
import Mathlib.Data.List.Find

/-!
The variants of a described component. Each one prepares itself from its declaration, and its id is
the name of that declaration, so it does not matter whether a configuration is looked up by its name
or a variant by its id.
-/

namespace ArtifactSelection

namespace ConfigurationDeclaration

def variant (c : ConfigurationDeclaration) (owner : ComponentId) (o : Origin) : Variant :=
  .original o ⟨c.name, c.name, c.attributes⟩ fun _ => .ok (c.configuration owner)

theorem prepare_variant (c : ConfigurationDeclaration) (owner : ComponentId) {o : Origin}
    {m : Memory} (new : m.configuration? (.original o) = none) :
    ((c.variant owner o).prepare m).1 = .ok (c.configuration owner) := by
  simp [variant, Variant.prepare, Memory.remember, Memory.run, new]

theorem settles_variant (c : ConfigurationDeclaration) (owner : ComponentId) (o : Origin) :
    (c.variant owner o).Settles (c.configuration owner) :=
  .original (n := 0) ⟨fun i hi => absurd hi (Nat.not_lt_zero i), rfl⟩

end ConfigurationDeclaration

namespace Descriptor

variable {d : Descriptor} {c : ConfigurationDeclaration} {number : Nat}

theorem forall₂_variants (d : Descriptor) (number : Nat) :
    List.Forall₂ (fun c v => ∃ o, v = c.variant d.id o) d.configurations (d.variants number) := by
  have places := forall₂_mapIdx (R := Eq) (f := fun _ c => c) (l := d.configurations)
    (S := fun c v => ∃ o, v = c.variant d.id o) (g := fun i c => c.variant d.id ⟨number, i⟩)
    (List.forall₂_same.2 fun _ _ => rfl) fun i _ _ same => ⟨⟨number, i⟩, by rw [same]⟩
  rwa [List.mapIdx_eq_zipIdx_map, List.zipIdx_map_fst] at places

theorem exists_of_mem_variants {v : Variant} (hv : v ∈ (d.toComponent number).variants) :
    v ∈ (d.toComponent number).configurations ∧
      ∃ c ∈ d.configurations, ∃ o, v = c.variant d.id o := by
  have listed := Component.mem_configurations_of_picked rfl hv
  obtain ⟨i, bound, rfl⟩ := List.mem_mapIdx.1 listed
  exact ⟨listed, _, List.getElem_mem bound, _, rfl⟩

theorem variant?_toComponent (d : Descriptor) (number : Nat) (x : String) :
    (d.toComponent number).variant? x = (d.toComponent number).configuration? x := by
  have byId : (d.toComponent number).configurations.find? (·.id == x) =
      (d.toComponent number).configuration? x := by
    refine List.find?_congr fun v hv => ?_
    obtain ⟨_, c, _, o, rfl⟩ := exists_of_mem_variants (List.mem_append_left _ hv)
    rfl
  rw [Component.variant?_eq_or, byId]
  cases found : (d.toComponent number).configuration? x with
  | some v => rfl
  | none =>
    rw [found] at byId
    refine List.find?_eq_none.2 fun v hv => ?_
    have listed := (d.toComponent number).graph_subset_variants hv
    exact List.find?_eq_none.1 byId v (exists_of_mem_variants listed).1

theorem Consistent.configuration?_toComponent (consistent : d.Consistent)
    (hc : c ∈ d.configurations) (number : Nat) :
    ∃ o, (d.toComponent number).configuration? c.name = some (c.variant d.id o) := by
  cases found : (d.toComponent number).configuration? c.name with
  | none =>
    have absent := (Component.variant?_eq_none_iff.1
      ((d.variant?_toComponent number c.name).trans found)).1
    obtain ⟨i, bound, rfl⟩ := List.getElem_of_mem hc
    refine absurd (List.mem_map.2 ⟨_, List.mem_mapIdx.2 ⟨i, bound, rfl⟩, rfl⟩) absent
  | some v =>
    have name : v.name = c.name := by simpa using List.find?_some found
    have listed := List.mem_append_left ((d.toComponent number).graph.getD [])
      (List.mem_of_find?_eq_some found)
    obtain ⟨_, b, hb, o, rfl⟩ := exists_of_mem_variants listed
    rw [List.inj_on_of_nodup_map consistent.configurations hb hc name]
    exact ⟨o, rfl⟩

end Descriptor

end ArtifactSelection
