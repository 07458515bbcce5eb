import ArtifactSelection.Attributes

/-!
How attributes fit what is requested of them. Both tests of a selection look at the keys that two
containers have in common: on none of them may the values differ, and it counts on how many they
are equal.
-/

namespace ArtifactSelection.Attributes

theorem mem_entries_iff {a : Attributes} {k x : String} :
    (k, x) ∈ a.entries ↔ a.get? k = some x := by
  rw [get?, Option.map_eq_some_iff]
  constructor
  · exact fun h => ⟨(k, x), KeyOrder.get?_of_mem a.increasing h, rfl⟩
  · rintro ⟨p, found, rfl⟩
    have key : p.1 = k := KeyOrder.key_of_get? found
    rw [← key]
    exact KeyOrder.mem_of_get? found

def keys (a : Attributes) : List String := a.entries.map Prod.fst

theorem nodup_keys (a : Attributes) : a.keys.Nodup := by
  refine List.pairwise_map.2 (a.increasing.imp ?_)
  intro p q less same
  rw [same] at less
  exact String.lt_irrefl _ less

theorem mem_keys {a : Attributes} {k : String} : k ∈ a.keys ↔ ∃ x, a.get? k = some x := by
  simp [keys, ← mem_entries_iff]

def Admits (a requested : Attributes) : Prop :=
  ∀ k x y, a.get? k = some x → requested.get? k = some y → x = y

theorem isCompatibleWith_iff {a requested : Attributes} :
    a.isCompatibleWith requested ↔ a.Admits requested := by
  have at_key (k y : String) :
      (a.get? k).all (· == y) = true ↔ ∀ x, a.get? k = some x → x = y := by
    cases a.get? k <;> simp
  rw [isCompatibleWith, List.all_eq_true]
  constructor
  · exact fun h k x y here there => (at_key k y).1 (h (k, y) (mem_entries_iff.2 there)) x here
  · exact fun h p hp => (at_key p.1 p.2).2 fun x here => h p.1 x p.2 here (mem_entries_iff.1 hp)

instance (a requested : Attributes) : Decidable (a.Admits requested) :=
  decidable_of_iff _ isCompatibleWith_iff

def agreement (a requested : Attributes) : List String :=
  requested.keys.filter fun k => a.get? k = requested.get? k

theorem mem_agreement {a requested : Attributes} {k : String} :
    k ∈ a.agreement requested ↔ ∃ x, a.get? k = some x ∧ requested.get? k = some x := by
  rw [agreement, List.mem_filter, mem_keys, decide_eq_true_iff]
  constructor
  · rintro ⟨⟨x, there⟩, same⟩
    exact ⟨x, same.trans there, there⟩
  · rintro ⟨x, here, there⟩
    exact ⟨⟨x, there⟩, here.trans there.symm⟩

theorem matchingKeys_eq (a requested : Attributes) :
    a.matchingKeys requested = (a.agreement requested).length := by
  rw [matchingKeys, List.countP_eq_length_filter, agreement, keys, List.filter_map, List.length_map]
  congr 1
  refine List.filter_congr fun p hp => ?_
  have there : requested.get? p.1 = some p.2 := mem_entries_iff.1 hp
  rw [Function.comp_apply, there, Bool.beq_eq_decide_eq]

theorem matchingKeys_eq_zero_iff {a requested : Attributes} :
    a.matchingKeys requested = 0 ↔ ∀ k x, a.get? k = some x → requested.get? k ≠ some x := by
  rw [matchingKeys_eq, List.length_eq_zero_iff, List.eq_nil_iff_forall_not_mem]
  simp only [mem_agreement, not_exists, not_and]

end ArtifactSelection.Attributes
