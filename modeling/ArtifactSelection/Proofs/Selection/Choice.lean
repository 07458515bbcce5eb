import ArtifactSelection.Proofs.Attributes.Matching
import ArtifactSelection.Selection.Policy

/-!
What a selection comes down to. The candidates that win are the compatible ones that no other
compatible candidate outdoes, provided that one of them matches anything at all. An answer holds the
chosen variants, each under the overrides and without the artifacts that a rule excludes.
-/

namespace ArtifactSelection

namespace VariantSet

/-- `l` is made of the variants of `s` that have a property, in the order of `s`. -/
structure Picks (s : VariantSet) (P : PhysicalVariant → Prop) (l : List PhysicalVariant) :
    Prop where
  sublist : l.Sublist s.variants
  mem_iff : ∀ v, v ∈ l ↔ v ∈ s.variants ∧ P v

theorem picks_filter (s : VariantSet) {P : PhysicalVariant → Prop} {q : PhysicalVariant → Bool}
    (h : ∀ v ∈ s.variants, q v ↔ P v) : s.Picks P (s.variants.filter q) where
  sublist := List.filter_sublist
  mem_iff := by
    intro v
    rw [List.mem_filter]
    exact ⟨fun hv => ⟨hv.1, (h v hv.1).1 hv.2⟩, fun hv => ⟨hv.1, (h v hv.1).2 hv.2⟩⟩

theorem nodup_ids (s : VariantSet) : s.ids.Nodup := by
  refine List.pairwise_map.2 (s.increasing.imp ?_)
  intro v w less same
  rw [same] at less
  exact String.lt_irrefl _ less

/-- Some compatible variant has a requested value. -/
def Shares (s : VariantSet) (overrides : Attributes) : Prop :=
  ∃ v ∈ s.variants, v.attributes.Admits overrides ∧
    ∃ k x, v.attributes.get? k = some x ∧ overrides.get? k = some x

/-- A compatible variant that no compatible one outdoes. -/
def IsBest (s : VariantSet) (overrides : Attributes) (v : PhysicalVariant) : Prop :=
  v.attributes.Admits overrides ∧ ∀ w ∈ s.variants, w.attributes.Admits overrides →
    (w.attributes.agreement overrides).length ≤ (v.attributes.agreement overrides).length

def bestScore (s : VariantSet) (overrides : Attributes) : Nat :=
  ((s.variants.filter (·.attributes.isCompatibleWith overrides)).map
    (·.attributes.matchingKeys overrides)).max?.getD 0

variable {s : VariantSet} {overrides : Attributes}

theorem le_bestScore {v : PhysicalVariant} (hv : v ∈ s.variants)
    (fits : v.attributes.Admits overrides) :
    v.attributes.matchingKeys overrides ≤ s.bestScore overrides := by
  refine List.le_max?_getD_of_mem (List.mem_map.2 ⟨v, ?_, rfl⟩)
  exact List.mem_filter.2 ⟨hv, Attributes.isCompatibleWith_iff.2 fits⟩

theorem exists_bestScore (h : s.bestScore overrides ≠ 0) :
    ∃ v ∈ s.variants, v.attributes.Admits overrides ∧
      v.attributes.matchingKeys overrides = s.bestScore overrides := by
  unfold bestScore at h ⊢
  cases best : ((s.variants.filter (·.attributes.isCompatibleWith overrides)).map
      (·.attributes.matchingKeys overrides)).max? with
  | none => simp [best] at h
  | some n =>
    obtain ⟨v, hv, score⟩ := List.mem_map.1 (List.max?_mem best)
    obtain ⟨listed, fits⟩ := List.mem_filter.1 hv
    exact ⟨v, listed, Attributes.isCompatibleWith_iff.1 fits, score⟩

theorem bestScore_ne_zero_iff : s.bestScore overrides ≠ 0 ↔ s.Shares overrides := by
  constructor
  · intro h
    obtain ⟨v, hv, fits, score⟩ := exists_bestScore h
    rw [← score, Ne, Attributes.matchingKeys_eq_zero_iff] at h
    refine ⟨v, hv, fits, ?_⟩
    simpa using h
  · rintro ⟨v, hv, fits, k, x, here, there⟩ zero
    have score := le_bestScore hv fits
    rw [zero, Nat.le_zero, Attributes.matchingKeys_eq_zero_iff] at score
    exact score k x here there

theorem score_eq_bestScore_iff (shares : s.Shares overrides) {v : PhysicalVariant}
    (hv : v ∈ s.variants) (fits : v.attributes.Admits overrides) :
    v.attributes.matchingKeys overrides = s.bestScore overrides ↔ s.IsBest overrides v := by
  constructor
  · intro score
    refine ⟨fits, fun w hw fits' => ?_⟩
    rw [← Attributes.matchingKeys_eq, ← Attributes.matchingKeys_eq, score]
    exact le_bestScore hw fits'
  · intro best
    obtain ⟨w, hw, fits', score⟩ := exists_bestScore (bestScore_ne_zero_iff.2 shares)
    have most := best.2 w hw fits'
    rw [← Attributes.matchingKeys_eq, ← Attributes.matchingKeys_eq, score] at most
    exact Nat.le_antisymm (le_bestScore hv fits) most

theorem bestMatches_of_shares (shares : s.Shares overrides) (declared : VariantSet) :
    s.Picks (s.IsBest overrides) (s.bestMatches declared overrides) := by
  have positive := bestScore_ne_zero_iff.2 shares
  have read : s.bestMatches declared overrides =
      (s.variants.filter (·.attributes.isCompatibleWith overrides)).filter
        (·.attributes.matchingKeys overrides == s.bestScore overrides) := if_neg positive
  rw [read, List.filter_filter]
  refine s.picks_filter fun v hv => ?_
  rw [Bool.and_eq_true, beq_iff_eq, Attributes.isCompatibleWith_iff]
  constructor
  · exact fun h => (score_eq_bestScore_iff shares hv h.2).1 h.1
  · exact fun best => ⟨(score_eq_bestScore_iff shares hv best.1).2 best, best.1⟩

theorem bestMatches_ne_nil (shares : s.Shares overrides) (declared : VariantSet) :
    s.bestMatches declared overrides ≠ [] := by
  obtain ⟨v, hv, fits, score⟩ := exists_bestScore (bestScore_ne_zero_iff.2 shares)
  have best := (score_eq_bestScore_iff shares hv fits).1 score
  exact List.ne_nil_of_mem (((bestMatches_of_shares shares declared).mem_iff v).2 ⟨hv, best⟩)

theorem bestMatches_eq_filter (none : ¬s.Shares overrides) (declared : VariantSet) :
    s.bestMatches declared overrides =
      declared.variants.filter (·.attributes.isCompatibleWith overrides) := by
  have zero : s.bestScore overrides = 0 := Classical.byContradiction fun h =>
    none (bestScore_ne_zero_iff.1 h)
  exact if_pos zero

theorem bestMatches_of_not_shares (none : ¬s.Shares overrides) (declared : VariantSet) :
    declared.Picks (fun v => v.attributes.Admits overrides) (s.bestMatches declared overrides) := by
  rw [bestMatches_eq_filter none]
  exact declared.picks_filter fun v _ => Attributes.isCompatibleWith_iff

end VariantSet

end ArtifactSelection
