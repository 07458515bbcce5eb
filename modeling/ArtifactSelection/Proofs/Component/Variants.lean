import ArtifactSelection.Proofs.Preparation.Ledger
import ArtifactSelection.Sketch
import Mathlib.Data.List.Forall2

/-!
The variants of a component: how they are found by id, and what stands behind those that are copies.
As long as keys tell variants apart, a memory can be right about a whole component.
-/

namespace ArtifactSelection

section Places

variable {α β γ δ : Type} {R : α → β → Prop} {S : γ → δ → Prop} {l : List α} {l' : List β}

theorem forall₂_mapIdx {f : Nat → α → γ} {g : Nat → β → δ} (related : List.Forall₂ R l l')
    (step : ∀ i {a b}, R a b → S (f i a) (g i b)) :
    List.Forall₂ S (l.mapIdx f) (l'.mapIdx g) := by
  induction related generalizing f g with
  | nil => exact .nil
  | cons first _ ih =>
    rw [List.mapIdx_cons, List.mapIdx_cons]
    exact .cons (step 0 first) (ih fun i => step (i + 1))

theorem rel_find? {p : α → Bool} {q : β → Bool} (related : List.Forall₂ R l l')
    (same : ∀ {a b}, R a b → q b = p a) : Option.Rel R (l.find? p) (l'.find? q) := by
  induction related with
  | nil => exact .none
  | @cons a b _ _ first _ ih =>
    rw [List.find?_cons, List.find?_cons, same first]
    cases p a with
    | true => exact .some first
    | false => exact ih

theorem forall₂_mem (related : List.Forall₂ R l l') :
    List.Forall₂ (fun a b => a ∈ l ∧ b ∈ l' ∧ R a b) l l' := by
  have right := (List.forall₂_and_left l' l).2 ⟨fun _ hb => hb, related.flip⟩
  exact (List.forall₂_and_left l l').2 ⟨fun _ ha => ha, right.flip⟩

theorem forall₂_filterMap {f : α → Option β} (found : ∀ a ∈ l, ∃ b, f a = some b ∧ R a b) :
    List.Forall₂ R l (l.filterMap f) := by
  induction l with
  | nil => exact .nil
  | cons a l ih =>
    obtain ⟨⟨b, first, related⟩, rest⟩ := List.forall_mem_cons.1 found
    rw [List.filterMap_cons, first]
    exact .cons related (ih rest)

end Places

namespace Component

theorem id_of_variant? {c : Component} {x : String} {v : Variant}
    (h : c.variant? x = some v) : v.id = x := by
  simpa using List.find?_some h

theorem mem_variants_of_variant? {c : Component} {x : String} {v : Variant}
    (h : c.variant? x = some v) : v ∈ c.variants := List.mem_of_find?_eq_some h

theorem variant?_of_mem {c : Component} {v : Variant} (h : v ∈ c.variants) :
    ∃ u, c.variant? v.id = some u := by
  refine Option.isSome_iff_exists.1 (List.find?_isSome.2 ⟨v, h, ?_⟩)
  exact beq_self_eq_true v.id

theorem copyVariant_of_variant? {c : Component} {k : Nat} {f : Artifact → Artifact} {v u : Variant}
    (first : c.variant? v.id = some u) : c.copyVariant k f v = .copied k f u := by
  rw [copyVariant, first, Option.getD_some]

theorem variant?_eq_or (c : Component) (x : String) :
    c.variant? x =
      (c.configurations.find? (·.id == x)).or ((c.graph.getD []).find? (·.id == x)) := by
  rw [variant?, variants, List.find?_append]

theorem variant?_eq_none_iff {c : Component} {x : String} :
    c.variant? x = none ↔
      x ∉ c.configurations.map (·.id) ∧ x ∉ (c.graph.getD []).map (·.id) := by
  simp [variant?_eq_or]

theorem graph_subset_variants (c : Component) {v : Variant}
    (h : v ∈ c.graph.getD []) : v ∈ c.variants := List.mem_append_right _ h

def ancestry (c : Component) : Set Variant := {w | ∃ v ∈ c.variants, w ∈ v.ancestry}

theorem mem_ancestry {c : Component} {v : Variant} (h : v ∈ c.variants) :
    v ∈ c.ancestry := ⟨v, h, v.mem_ancestry_self⟩

theorem ancestry_closed {c : Component} {v w : Variant} (hv : v ∈ c.ancestry)
    (hw : w ∈ v.ancestry) : w ∈ c.ancestry := by
  obtain ⟨u, hu, below⟩ := hv
  exact ⟨u, hu, Variant.ancestry_subset below hw⟩

theorem first_of_mem_copy {c : Component} {k : Nat} {id : ComponentId} {f : Artifact → Artifact}
    {v : Variant} (h : v ∈ (c.copy k id f).variants) :
    ∃ u, c.variant? v.id = some u ∧ v = .copied k f u := by
  rw [variants_copy, List.mem_map] at h
  obtain ⟨w, hw, rfl⟩ := h
  obtain ⟨u, first⟩ := variant?_of_mem hw
  exact ⟨u, by rw [id_copyVariant, first], copyVariant_of_variant? first⟩

theorem mem_variants_copy {c : Component} {k : Nat} {id : ComponentId} {f : Artifact → Artifact}
    {v : Variant} (h : v ∈ (c.copy k id f).variants) : ∃ w ∈ c.variants, v = .copied k f w := by
  obtain ⟨u, first, rfl⟩ := first_of_mem_copy h
  exact ⟨u, mem_variants_of_variant? first, rfl⟩

theorem mem_ancestry_copy {c : Component} {k : Nat} {id : ComponentId} {f : Artifact → Artifact}
    {v : Variant} (h : v ∈ (c.copy k id f).ancestry) :
    (∃ w ∈ c.variants, v = .copied k f w) ∨ v ∈ c.ancestry := by
  obtain ⟨u, hu, below⟩ := h
  obtain ⟨w, hw, rfl⟩ := mem_variants_copy hu
  rcases List.mem_cons.1 below with rfl | below
  · exact .inl ⟨w, hw, rfl⟩
  · exact .inr ⟨w, hw, below⟩

def SingleIds (c : Component) : Prop := ∀ v ∈ c.variants, ∀ w ∈ c.variants, v.id = w.id → v = w

/-- The variants of a component are told apart by their keys, with those they were copied from, and
the copyings behind them are numbered below `n`. -/
structure Numbered (c : Component) (n : Nat) : Prop where
  family : Variant.Coherent c.ancestry
  below : ∀ {k f v}, .copied k f v ∈ c.ancestry → k < n

theorem numbered_of_originals {c : Component}
    (originals : ∀ v ∈ c.variants, ∃ o l s, v = .original o l s)
    (distinct : ∀ v ∈ c.variants, ∀ w ∈ c.variants, v.key = w.key → v = w) (n : Nat) :
    c.Numbered n := by
  have listed {v : Variant} (hv : v ∈ c.ancestry) :
      v ∈ c.variants ∧ ∃ o l s, v = .original o l s := by
    obtain ⟨u, hu, below⟩ := hv
    obtain ⟨o, l, s, rfl⟩ := originals u hu
    obtain rfl := List.mem_singleton.1 below
    exact ⟨hu, o, l, s, rfl⟩
  have noCopy {k : Nat} {f : Artifact → Artifact} {v : Variant} :
      .copied k f v ∉ c.ancestry := by
    intro hv
    obtain ⟨_, o, l, s, same⟩ := listed hv
    cases same
  exact ⟨⟨fun hv => absurd hv noCopy, fun hv hw => distinct _ (listed hv).1 _ (listed hw).1⟩,
    fun hv => absurd hv noCopy⟩

theorem numbered_of_places {c : Component} (number : Nat)
    (places : ∀ v ∈ c.variants, ∃ i l s, c.configurations[i]? = some v ∧
      v = .original ⟨number, i⟩ l s) (n : Nat) : c.Numbered n := by
  refine numbered_of_originals ?_ ?_ n
  · intro v hv
    obtain ⟨i, l, s, _, rfl⟩ := places v hv
    exact ⟨_, l, s, rfl⟩
  · intro v hv w hw same
    obtain ⟨i, l, s, here, rfl⟩ := places v hv
    obtain ⟨j, l', s', there, rfl⟩ := places w hw
    obtain ⟨_, rfl⟩ := Origin.mk.inj (VariantKey.original.inj same)
    exact Option.some.inj (here.symm.trans there)

theorem mem_configurations_of_picked {c : Component} {names : Option (List String)}
    (picked : c.graph =
      names.map (·.filterMap fun n => c.configurations.find? (·.name == n))) {v : Variant}
    (h : v ∈ c.variants) : v ∈ c.configurations := by
  rcases List.mem_append.1 h with configuration | graph
  · exact configuration
  · rw [picked] at graph
    cases names with
    | none => simp at graph
    | some l =>
      simp only [Option.map_some, Option.getD_some, List.mem_filterMap] at graph
      obtain ⟨_, _, found⟩ := graph
      exact List.mem_of_find?_eq_some found

end Component

namespace Sketch

theorem mem_variants {s : Sketch} {number : Nat} {v : Variant}
    (h : v ∈ (s.component number).variants) : v ∈ (s.component number).configurations :=
  Component.mem_configurations_of_picked rfl h

theorem eq_original_of_mem {s : Sketch} {number : Nat} {v : Variant}
    (h : v ∈ (s.component number).variants) :
    ∃ i c, s.configurations[i]? = some c ∧
      v = .original ⟨number, i⟩ ⟨c.name, c.name, .ofList c.attributes⟩ (c.strategy s.id) := by
  obtain ⟨i, bound, rfl⟩ := List.mem_mapIdx.1 (mem_variants h)
  exact ⟨i, s.configurations[i], List.getElem?_eq_getElem bound, rfl⟩

theorem numbered_component (s : Sketch) (number n : Nat) : (s.component number).Numbered n := by
  refine Component.numbered_of_places number (fun v hv => ?_) n
  obtain ⟨i, bound, rfl⟩ := List.mem_mapIdx.1 (mem_variants hv)
  exact ⟨i, _, _, by simp [component, bound], rfl⟩

theorem singleIds_component {s : Sketch} (names : (s.configurations.map (·.name)).Nodup)
    (number : Nat) : (s.component number).SingleIds := by
  intro v hv w hw same
  obtain ⟨i, c, here, rfl⟩ := eq_original_of_mem hv
  obtain ⟨j, b, there, rfl⟩ := eq_original_of_mem hw
  have name : c.name = b.name := same
  have inside : i < (s.configurations.map (·.name)).length := by
    simpa using (List.getElem?_eq_some_iff.1 here).1
  have place : i = j := by
    refine (List.getElem?_inj inside names).1 ?_
    rw [List.getElem?_map, List.getElem?_map, here, there, Option.map_some, Option.map_some, name]
  subst place
  obtain rfl := Option.some.inj (here.symm.trans there)
  rfl

end Sketch

end ArtifactSelection
