import ArtifactSelection.Proofs.Attributes.Matching

/-!
Attributes laid over one another. On every key the upper container decides, where it has the key; so
the lower one shows through unchanged just when the two have no key with different values.
-/

namespace ArtifactSelection.Attributes

variable {a b : Attributes}

theorem get?_of_isEmpty (empty : a.isEmpty = true) (k : String) : a.get? k = none := by
  rw [get?, List.isEmpty_iff.1 empty]
  rfl

theorem get?_insertAll_entries (a b : Attributes) (k : String) :
    (a.insertAll b.entries).get? k = (b.get? k).or (a.get? k) := by
  rw [get?_insertAll]
  congr 1
  cases found : b.entries.reverse.find? (·.1 == k) with
  | none =>
    have absent : ∀ x, b.get? k ≠ some x := by
      intro x there
      have listed := List.mem_reverse.2 (mem_entries_iff.2 there)
      simpa using List.find?_eq_none.1 found _ listed
    exact (Option.eq_none_iff_forall_ne_some.2 absent).symm
  | some p =>
    have key : p.1 = k := by simpa using List.find?_some found
    have listed := List.mem_reverse.1 (List.mem_of_find?_eq_some found)
    rw [← key, mem_entries_iff.1 listed, Option.map_some]

/-- The shortcuts for an empty side make no difference. -/
theorem get?_overlay (a b : Attributes) (k : String) :
    (a.overlay b).get? k = (b.get? k).or (a.get? k) := by
  rw [overlay]
  split
  · next nothing => rw [get?_of_isEmpty nothing, Option.none_or]
  · split
    · next bare => rw [get?_of_isEmpty bare, Option.or_none]
    · exact get?_insertAll_entries a b k

theorem admits_iff_overlay :
    a.Admits b ↔ ∀ k x, a.get? k = some x → (a.overlay b).get? k = some x := by
  constructor
  · intro fits k x here
    rw [get?_overlay]
    cases there : b.get? k with
    | none => exact here
    | some y => rw [fits k x y here there, Option.some_or]
  · intro kept k x y here there
    have above := kept k x here
    rw [get?_overlay, there, Option.some_or] at above
    exact (Option.some.inj above).symm

end ArtifactSelection.Attributes
