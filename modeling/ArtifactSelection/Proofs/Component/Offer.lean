import ArtifactSelection.Proofs.Component.Variants
import Mathlib.Data.List.Forall2

/-!
What a component offers to a selection, by its strategies alone. If the graph variants can be
prepared, it does not matter when they are and which of them were before. A copy offers what its
component does, transformed, provided that an id stands for one variant only.
-/

namespace ArtifactSelection

namespace Variant

theorem answer_prepareAll_cons (v : Variant) (l : List Variant) (m : Memory) :
    (prepareAll (v :: l) m).1 =
      (v.prepare m).1.bind fun c => (prepareAll l (v.prepare m).2).1.map (c :: ·) := by
  rw [prepareAll]
  rcases v.prepare m with ⟨_ | c, m'⟩
  · rfl
  · dsimp only
    rcases prepareAll l m' with ⟨_ | cs, m''⟩ <;> rfl

theorem prepareAll_of_ready {U : Set Variant} (family : Coherent U) {l : List Variant} {m : Memory}
    (sub : ∀ v ∈ l, v ∈ U) (right : ∀ w ∈ U, m.Records w) (ready : ∀ v ∈ l, v.Ready m) :
    ∃ cs, (prepareAll l m).1 = .ok cs ∧ List.Forall₂ Settles l cs := by
  induction l generalizing m with
  | nil => exact ⟨[], rfl, .nil⟩
  | cons v l ih =>
    have hv : v ∈ U := sub v List.mem_cons_self
    obtain ⟨c, m', h⟩ := (ready v List.mem_cons_self).prepares
    -- Preparing `v` changes the memory, but the others stay ready in it.
    have right' := h.records family hv right
    have ready' : ∀ w ∈ l, w.Ready m' := fun w hw =>
      (ready w (List.mem_cons_of_mem v hw)).of_grows family (sub w (List.mem_cons_of_mem v hw))
        right' h.grows h.attempts_le
    obtain ⟨cs, rest, settled⟩ := ih (fun w hw => sub w (List.mem_cons_of_mem v hw)) right' ready'
    have first := settles_of_configuration? family right' hv h.configuration?_key
    refine ⟨c :: cs, ?_, .cons first settled⟩
    rw [answer_prepareAll_cons, h.prepare_eq]
    simp [Except.bind, rest, Except.map]

theorem settles_all_unique {l : List Variant} {cs bs : List Configuration}
    (h : List.Forall₂ Settles l cs) (h' : List.Forall₂ Settles l bs) : cs = bs := by
  induction h generalizing bs with
  | nil =>
    cases h'
    rfl
  | cons first _ ih =>
    cases h' with
    | cons first' rest' => rw [first.unique first', ih rest']

theorem settles_all_copied (k : Nat) (f : Artifact → Artifact) {l : List Variant}
    {cs : List Configuration} (h : List.Forall₂ Settles l cs) :
    List.Forall₂ Settles (l.map (.copied k f)) (cs.map (·.mapArtifacts f)) := by
  induction h with
  | nil => exact .nil
  | cons first _ ih => exact .cons first.copied ih

end Variant

namespace Component

/-- The physical variants that a component offers to a selection from a configuration. -/
inductive Offers (c : Component) (own : Configuration) : VariantSet → Prop
  | own : c.graph = none → Offers c own own.variants
  | joined {l : List Variant} {cs : List Configuration} :
      c.graph = some l → List.Forall₂ Variant.Settles l cs → Offers c own (join cs)

theorem Offers.unique {c : Component} {own : Configuration} {s t : VariantSet}
    (h : c.Offers own s) (h' : c.Offers own t) : s = t := by
  cases h with
  | own none =>
    cases h' with
    | own => rfl
    | joined some => cases none.symm.trans some
  | joined graph settled =>
    cases h' with
    | own none => cases none.symm.trans graph
    | joined graph' settled' =>
      obtain rfl := Option.some.inj (graph.symm.trans graph')
      rw [Variant.settles_all_unique settled settled']

theorem get?_join (cs : List Configuration) (id : String) :
    (join cs).get? id = cs.findSome? (·.variants.get? id) := by
  rw [join, VariantSet.get?_ofList, List.find?_flatMap]
  rfl

theorem answer_candidates {c : Component} {l : List Variant} (graph : c.graph = some l)
    (own : Configuration) (m : Memory) :
    (c.candidates own m).1 = (Variant.prepareAll l m).1.map join := by
  rw [candidates, graph]
  dsimp only
  rcases Variant.prepareAll l m with ⟨_ | cs, m'⟩ <;> rfl

theorem offers_candidates {U : Set Variant} (family : Variant.Coherent U) {c : Component}
    {m : Memory} (sub : ∀ v ∈ c.graph.getD [], v ∈ U) (right : ∀ w ∈ U, m.Records w)
    (ready : ∀ v ∈ c.graph.getD [], v.Ready m) (own : Configuration) :
    ∃ s, (c.candidates own m).1 = .ok s ∧ c.Offers own s := by
  cases graph : c.graph with
  | none => exact ⟨_, by rw [candidates, graph], .own graph⟩
  | some l =>
    rw [graph, Option.getD_some] at sub ready
    obtain ⟨cs, all, settled⟩ := Variant.prepareAll_of_ready family sub right ready
    refine ⟨join cs, ?_, .joined graph settled⟩
    rw [answer_candidates graph, all]
    rfl

namespace SingleIds

variable {c : Component} {v : Variant} {k : Nat} {id : ComponentId} {f : Artifact → Artifact}

theorem variant? (single : c.SingleIds) (hv : v ∈ c.variants) : c.variant? v.id = some v := by
  obtain ⟨w, found⟩ := variant?_of_mem hv
  rw [found, single w (mem_variants_of_variant? found) v hv (id_of_variant? found)]

theorem copyVariant (single : c.SingleIds) (hv : v ∈ c.variants) :
    c.copyVariant k f v = .copied k f v := copyVariant_of_variant? (single.variant? hv)

theorem variant?_copy (single : c.SingleIds) (hv : v ∈ c.variants) :
    (c.copy k id f).variant? v.id = some (.copied k f v) := by
  rw [Component.variant?_copy, single.variant? hv, Option.map_some, single.copyVariant hv]

theorem configurations_copy (single : c.SingleIds) :
    (c.copy k id f).configurations = c.configurations.map (.copied k f) :=
  List.map_congr_left fun _ hv => single.copyVariant (List.mem_append_left _ hv)

theorem graph_copy (single : c.SingleIds) :
    (c.copy k id f).graph = c.graph.map (·.map (.copied k f)) := by
  cases graph : c.graph with
  | none => simp [copy, graph]
  | some l =>
    have listed : ∀ v ∈ l, v ∈ c.variants := fun v hv =>
      c.graph_subset_variants (by rw [graph]; exact hv)
    simp only [copy, graph, Option.map_some, Option.some.injEq]
    exact List.map_congr_left fun v hv => single.copyVariant (listed v hv)

theorem copy (single : c.SingleIds) : (c.copy k id f).SingleIds := by
  intro v hv w hw same
  obtain ⟨a, ha, rfl⟩ := mem_variants_copy hv
  obtain ⟨b, hb, rfl⟩ := mem_variants_copy hw
  rw [single a ha b hb same]

theorem mem_graph_copy (single : c.SingleIds) (hv : v ∈ (c.copy k id f).graph.getD []) :
    ∃ u ∈ c.graph.getD [], v = .copied k f u := by
  rw [single.graph_copy] at hv
  cases graph : c.graph with
  | none => simp [graph] at hv
  | some l =>
    rw [graph, Option.map_some, Option.getD_some] at hv
    obtain ⟨u, hu, rfl⟩ := List.mem_map.1 hv
    exact ⟨u, hu, rfl⟩

end SingleIds

end Component

end ArtifactSelection
