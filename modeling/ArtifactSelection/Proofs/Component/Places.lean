import ArtifactSelection.Proofs.Component.Offer

/-!
Physical variants in the same places. A set goes by ids, and so does a joint set of several
configurations; so where variants are related and related ones have one id, they stand in the same
places of the sets that they are put into and of what components offer.
-/

namespace ArtifactSelection

section Insertion

variable {α β : Type} {R : α → β → Prop} {key : α → String} {key' : β → String} {l : List α}
  {l' : List β}

theorem KeyOrder.forall₂_insertIfNew (same : ∀ {a b}, R a b → key' b = key a) {a : α} {b : β}
    (new : R a b) (related : List.Forall₂ R l l') :
    List.Forall₂ R (insertIfNew key a l) (insertIfNew key' b l') := by
  induction related with
  | nil => exact .cons new .nil
  | cons first rest ih =>
    rw [insertIfNew, insertIfNew, same new, same first]
    split
    · exact .cons new (.cons first rest)
    · split
      · exact .cons first ih
      · exact .cons first rest

end Insertion

variable {R : PhysicalVariant → PhysicalVariant → Prop}

namespace VariantSet

variable {l l' : List PhysicalVariant}

theorem forall₂_insertAll (ids : ∀ {v w}, R v w → w.id = v.id) {s t : VariantSet}
    (sets : List.Forall₂ R s.variants t.variants) (related : List.Forall₂ R l l') :
    List.Forall₂ R (s.insertAll l).variants (t.insertAll l').variants := by
  induction related generalizing s t with
  | nil => exact sets
  | cons first _ ih => exact ih (KeyOrder.forall₂_insertIfNew (fun h => ids h) first sets)

theorem forall₂_ofList (ids : ∀ {v w}, R v w → w.id = v.id) (related : List.Forall₂ R l l') :
    List.Forall₂ R (ofList l).variants (ofList l').variants :=
  forall₂_insertAll ids .nil related

end VariantSet

def Configuration.Parallels (R : PhysicalVariant → PhysicalVariant → Prop)
    (c d : Configuration) : Prop :=
  List.Forall₂ R c.variants.variants d.variants.variants

theorem Variant.parallels_of_settles {S : Variant → Variant → Prop}
    (settled : ∀ {v w}, S v w → ∀ {b c}, v.Settles b → w.Settles c → b.Parallels R c)
    {l l' : List Variant} (related : List.Forall₂ S l l') {cs cs' : List Configuration}
    (first : List.Forall₂ Settles l cs) (second : List.Forall₂ Settles l' cs') :
    List.Forall₂ (Configuration.Parallels R) cs cs' := by
  induction related generalizing cs cs' with
  | nil =>
    cases first
    cases second
    exact .nil
  | cons same _ ih =>
    cases first with
    | cons settles rest =>
      cases second with
      | cons settles' rest' => exact .cons (settled same settles settles') (ih rest rest')

namespace Component

theorem forall₂_variants {c e : Component} {S : Variant → Variant → Prop}
    (configurations : List.Forall₂ S c.configurations e.configurations)
    (graph : Option.Rel (List.Forall₂ S) c.graph e.graph) :
    List.Forall₂ S c.variants e.variants := by
  rw [variants, variants]
  refine List.rel_append configurations ?_
  generalize c.graph = l, e.graph = l' at graph
  cases graph with
  | none => exact .nil
  | some related => exact related

theorem forall₂_join (ids : ∀ {v w}, R v w → w.id = v.id) {l l' : List Configuration}
    (related : List.Forall₂ (Configuration.Parallels R) l l') :
    List.Forall₂ R (join l).variants (join l').variants :=
  VariantSet.forall₂_ofList ids (List.rel_flatMap related fun _ _ parallels => parallels)

theorem forall₂_offers {c e : Component} {S : Variant → Variant → Prop}
    (ids : ∀ {v w}, R v w → w.id = v.id)
    (settled : ∀ {v w}, S v w → ∀ {b c}, v.Settles b → w.Settles c → b.Parallels R c)
    (graph : Option.Rel (List.Forall₂ S) c.graph e.graph) {own own' : Configuration}
    (parallels : own.Parallels R own') {s s' : VariantSet} (offers : c.Offers own s)
    (offers' : e.Offers own' s') : List.Forall₂ R s.variants s'.variants := by
  cases offers with
  | own none =>
    cases offers' with
    | own => exact parallels
    | joined graph' =>
      rw [none, graph'] at graph
      cases graph
  | joined here all =>
    cases offers' with
    | own none =>
      rw [here, none] at graph
      cases graph
    | joined there all' =>
      rw [here, there] at graph
      obtain ⟨related⟩ := graph
      exact forall₂_join ids (Variant.parallels_of_settles settled related all all')

end Component

end ArtifactSelection
