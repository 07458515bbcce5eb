import ArtifactSelection.Proofs.Attributes.Overlay
import Mathlib.Data.List.Basic

/-!
The algebra of attribute containers. Overlays form an idempotent monoid, and putting a list of pairs
together is laying the parts of the list over one another. Two containers commute just when they are
compatible. The keys of a request fall into three parts, those that are met, missing or contradicted,
and to be compatible is to have nothing in the third.
-/

namespace ArtifactSelection.Attributes

variable {a b : Attributes}

section Overlay

variable (a b c : Attributes)

theorem overlay_eq_insertAll : a.overlay b = a.insertAll b.entries :=
  ext_get? fun k => (get?_overlay a b k).trans (get?_insertAll_entries a b k).symm

theorem overlay_assoc : (a.overlay b).overlay c = a.overlay (b.overlay c) :=
  ext_get? fun k => by simp only [get?_overlay, Option.or_assoc]

theorem overlay_self : a.overlay a = a :=
  ext_get? fun k => by rw [get?_overlay, Option.or_self]

theorem overlay_empty : a.overlay ∅ = a := rfl

theorem empty_overlay : (∅ : Attributes).overlay a = a :=
  ext_get? fun k => (get?_overlay ∅ a k).trans (Option.or_none ..)

end Overlay

theorem get?_ofList (l : List (String × String)) (k : String) :
    (ofList l).get? k = (l.reverse.find? (·.1 == k)).map Prod.snd := by
  rw [ofList, get?_insertAll, get?_empty, Option.or_none]

theorem ofList_congr {l l' : List (String × String)}
    (same : ∀ k, l'.filter (·.1 == k) = l.filter (·.1 == k)) : ofList l' = ofList l := by
  refine ext_get? fun k => ?_
  rw [get?_ofList, get?_ofList, ← List.head?_filter, ← List.head?_filter, List.filter_reverse,
    List.filter_reverse, same k]

theorem ofList_append (l l' : List (String × String)) :
    ofList (l ++ l') = (ofList l).overlay (ofList l') := by
  refine ext_get? fun k => ?_
  rw [get?_overlay, get?_ofList, get?_ofList, get?_ofList, List.reverse_append, List.find?_append,
    Option.map_or]

theorem admits_iff_overlay_comm : a.Admits b ↔ a.overlay b = b.overlay a := by
  constructor
  · intro fits
    refine ext_get? fun k => ?_
    rw [get?_overlay, get?_overlay]
    cases here : a.get? k with
    | none => rw [Option.or_none, Option.none_or]
    | some x =>
      cases there : b.get? k with
      | none => rfl
      | some y => rw [fits k x y here there, Option.some_or]
  · intro comm k x y here there
    have same := congrArg (·.get? k) comm
    simp only [get?_overlay, here, there, Option.some_or, Option.some.injEq] at same
    exact same.symm

theorem get?_overlay_of_get? (a : Attributes) {k y : String} (there : b.get? k = some y) :
    (a.overlay b).get? k = some y := by
  rw [get?_overlay, there, Option.some_or]

theorem admits_overlay (a b : Attributes) : (a.overlay b).Admits b := by
  intro k x y above there
  exact Option.some.inj (above.symm.trans (get?_overlay_of_get? a there))

@[simp] theorem length_keys (a : Attributes) : a.keys.length = a.size := List.length_map ..

theorem matchingKeys_overlay (a b : Attributes) : (a.overlay b).matchingKeys b = b.size := by
  have all : (a.overlay b).agreement b = b.keys := by
    refine List.filter_eq_self.2 fun k hk => ?_
    obtain ⟨y, there⟩ := mem_keys.1 hk
    rw [get?_overlay_of_get? a there, there, decide_eq_true_iff]
  rw [matchingKeys_eq, all, length_keys]

def missing (a requested : Attributes) : List String :=
  requested.keys.filter fun k => a.get? k = none

def contradicted (a requested : Attributes) : List String :=
  requested.keys.filter fun k => a.get? k ≠ none ∧ a.get? k ≠ requested.get? k

theorem contradicted_eq_nil_iff : a.contradicted b = [] ↔ a.Admits b := by
  rw [contradicted, List.filter_eq_nil_iff]
  constructor
  · intro nothing k x y here there
    have same := nothing k (mem_keys.2 ⟨y, there⟩)
    simpa [here, there] using same
  · intro fits k hk
    obtain ⟨y, there⟩ := mem_keys.1 hk
    cases here : a.get? k with
    | none => simp
    | some x => simp [there, fits k x y here there]

theorem size_eq (a b : Attributes) :
    b.size = (a.agreement b).length + ((a.missing b).length + (a.contradicted b).length) := by
  let unmet := b.keys.filter fun k => !decide (a.get? k = b.get? k)
  have missing : unmet.filter (fun k => a.get? k = none) = a.missing b := by
    rw [List.filter_filter, Attributes.missing]
    refine List.filter_congr fun k hk => ?_
    obtain ⟨y, there⟩ := mem_keys.1 hk
    cases here : a.get? k <;> simp [there]
  have contradicted : unmet.filter (fun k => !decide (a.get? k = none)) = a.contradicted b := by
    rw [List.filter_filter, Attributes.contradicted]
    exact List.filter_congr fun k _ => by simp
  rw [← missing, ← contradicted, ← List.length_eq_length_filter_add, ← length_keys]
  exact List.length_eq_length_filter_add _

theorem matchingKeys_add (a b : Attributes) :
    a.matchingKeys b + (a.contradicted b).length = b.size - (a.missing b).length := by
  have parts := size_eq a b
  rw [matchingKeys_eq]
  omega

/-- How overlays, compatibility and the count of matches go together. -/
theorem overlay_laws (a b c : Attributes) :
    (∀ k, (a.overlay b).get? k = (b.get? k).or (a.get? k)) ∧
    a.overlay b = a.insertAll b.entries ∧
    (a.overlay b).overlay c = a.overlay (b.overlay c) ∧
    a.overlay a = a ∧ a.overlay ∅ = a ∧ (∅ : Attributes).overlay a = a ∧
    (∀ l l', ofList (l ++ l') = (ofList l).overlay (ofList l')) ∧
    (a.isCompatibleWith b = true ↔ a.overlay b = b.overlay a) ∧
    (a.overlay b).isCompatibleWith b = true ∧ (a.overlay b).matchingKeys b = b.size ∧
    (a.isCompatibleWith b = true → a.matchingKeys b = b.size - (a.missing b).length) ∧
    (a.isCompatibleWith b = false → a.matchingKeys b < b.size - (a.missing b).length) := by
  have count := matchingKeys_add a b
  refine ⟨get?_overlay a b, overlay_eq_insertAll a b, overlay_assoc a b c, overlay_self a,
    overlay_empty a, empty_overlay a, ofList_append, ?_, ?_, matchingKeys_overlay a b, ?_, ?_⟩
  · rw [isCompatibleWith_iff, admits_iff_overlay_comm]
  · exact isCompatibleWith_iff.2 (admits_overlay a b)
  · intro fits
    rw [contradicted_eq_nil_iff.2 (isCompatibleWith_iff.1 fits)] at count
    exact count
  · intro differs
    have some : a.contradicted b ≠ [] := fun nothing =>
      Bool.eq_false_iff.1 differs (isCompatibleWith_iff.2 (contradicted_eq_nil_iff.1 nothing))
    have positive := List.length_pos_iff.2 some
    omega

end ArtifactSelection.Attributes
