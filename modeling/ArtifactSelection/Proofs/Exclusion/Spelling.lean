import ArtifactSelection.Exclusion
import Mathlib.Data.List.TakeWhile

/-!
Rules read off a text. The text is divided at its first colon, and everything depends on what stands
on either side of it. What is read is the rule that the text spells, with one exception: a name
behind a leading colon is taken as it stands, further colons included, so that the rule can fit no
module whose name is free of colons.
-/

namespace ArtifactSelection.Exclusion

/-- The texts of a group, of a module of a group, and of a module of any group. -/
inductive Spells : Exclusion → String → Prop
  | group {g : String} : g ≠ "" → ':' ∉ g.toList → Spells (.group g) g
  | moduleOf {g n : String} : g ≠ "" → ':' ∉ g.toList → n ≠ "" → ':' ∉ n.toList →
      Spells (.moduleOf g n) (g ++ ":" ++ n)
  | module {n : String} : n ≠ "" → ':' ∉ n.toList → Spells (.module n) (":" ++ n)

/-- A module name with colons in it, behind a leading one. -/
def Overruns (e : Exclusion) (s : String) : Prop :=
  ∃ n : String, ':' ∈ n.toList ∧ s = ":" ++ n ∧ e = .module n

theorem Spells.count_colon_le {e : Exclusion} {s : String} (spells : Spells e s) :
    s.toList.count ':' ≤ 1 := by
  cases spells with
  | group _ plain => simp [List.count_eq_zero_of_not_mem plain]
  | moduleOf _ plain _ plain' =>
    simp [List.count_eq_zero_of_not_mem plain, List.count_eq_zero_of_not_mem plain']
  | module _ plain => simp [List.count_eq_zero_of_not_mem plain]

theorem exists_cut (s : String) :
    ':' ∉ s.toList ∨ ∃ g n : String, ':' ∉ g.toList ∧ s = g ++ ":" ++ n := by
  by_cases colon : ':' ∈ s.toList
  · obtain ⟨g, n, cut, plain⟩ := List.eq_append_cons_of_mem colon
    refine .inr ⟨.ofList g, .ofList n, by simpa using plain, ?_⟩
    rw [← String.toList_inj, cut]
    simp
  · exact .inl colon

theorem bne_of_plain {l : List Char} (plain : ':' ∉ l) : ∀ c ∈ l, (c != ':') = true :=
  fun _ hc => bne_iff_ne.2 fun same => plain (same ▸ hc)

theorem ofText?_of_notMem {s : String} (plain : ':' ∉ s.toList) :
    ofText? s = if s = "" then none else some (.group s) := by
  have all := bne_of_plain plain
  rw [ofText?, List.takeWhile_eq_self_iff.2 all, List.dropWhile_eq_nil_iff.2 all]
  cases chars : s.toList with
  | nil =>
    obtain rfl := String.toList_eq_nil_iff.1 chars
    rfl
  | cons c l =>
    have written : s ≠ "" := by
      rintro rfl
      cases chars
    simp [written, ← chars]

theorem ofText?_cut {g n : String} (plain : ':' ∉ g.toList) :
    ofText? (g ++ ":" ++ n) =
      if n = "" then none
      else if g = "" then some (.module n)
      else if ':' ∈ n.toList then none
      else some (.moduleOf g n) := by
  have all := bne_of_plain plain
  have chars : (g ++ ":" ++ n).toList = g.toList ++ ':' :: n.toList := by simp
  rw [ofText?, chars, List.takeWhile_append_of_pos all, List.dropWhile_append_of_pos all,
    List.takeWhile_cons_of_neg (by decide), List.dropWhile_cons_of_neg (by decide),
    List.append_nil]
  by_cases empty : n = ""
  · subst empty
    cases g.toList <;> rfl
  · have rest : n.toList ≠ [] := mt String.toList_eq_nil_iff.1 empty
    by_cases bare : g = ""
    · subst bare
      cases behind : n.toList with
      | nil => exact absurd behind rest
      | cons c l => simp [empty, ← behind]
    · have before : g.toList ≠ [] := mt String.toList_eq_nil_iff.1 bare
      cases front : g.toList with
      | nil => exact absurd front before
      | cons c l =>
        cases behind : n.toList with
        | nil => exact absurd behind rest
        | cons d r => simp [empty, bare, ← front, ← behind]

theorem ofText?_colon (n : String) :
    ofText? (":" ++ n) = if n = "" then none else some (.module n) := by
  have cut := ofText?_cut (g := "") (n := n) (by simp)
  rwa [String.empty_append, if_pos rfl] at cut

theorem ofText?_eq_some_iff {s : String} {e : Exclusion} :
    ofText? s = some e ↔ Spells e s ∨ Overruns e s := by
  constructor
  · intro rule
    rcases exists_cut s with plain | ⟨g, n, plain, rfl⟩
    · rw [ofText?_of_notMem plain, Option.ite_none_left_eq_some] at rule
      obtain ⟨written, rule⟩ := rule
      obtain rfl := Option.some.inj rule
      exact .inl (.group written plain)
    · rw [ofText?_cut plain, Option.ite_none_left_eq_some] at rule
      obtain ⟨named, rule⟩ := rule
      by_cases bare : g = ""
      · subst bare
        rw [if_pos rfl] at rule
        obtain rfl := Option.some.inj rule
        rw [String.empty_append]
        by_cases more : ':' ∈ n.toList
        · exact .inr ⟨n, more, rfl, rfl⟩
        · exact .inl (.module named more)
      · rw [if_neg bare, Option.ite_none_left_eq_some] at rule
        obtain ⟨single, rule⟩ := rule
        obtain rfl := Option.some.inj rule
        exact .inl (.moduleOf bare plain named single)
  · rintro (spells | ⟨n, more, rfl, rfl⟩)
    · cases spells with
      | group written plain => rw [ofText?_of_notMem plain, if_neg written]
      | moduleOf bare plain named single =>
        rw [ofText?_cut plain, if_neg named, if_neg bare, if_neg single]
      | module named _ => rw [ofText?_colon, if_neg named]
    · have named : n ≠ "" := by
        rintro rfl
        cases more
      rw [ofText?_colon, if_neg named]

theorem read_eq_ok_iff {s : String} {e : Exclusion} :
    read s = .ok e ↔ Spells e s ∨ Overruns e s := by
  rw [← ofText?_eq_some_iff, read]
  cases ofText? s <;> simp

theorem read_eq_error_iff {s told : String} :
    read s = .error told ↔ (∀ e, ¬ (Spells e s ∨ Overruns e s)) ∧ told = expected s := by
  simp only [← ofText?_eq_some_iff, read]
  cases ofText? s <;> simp [eq_comm]

/-- What is read is the rule that the text spells, or a module name that overruns; every other text
is refused and quoted, among them those with several colons and none at the head. -/
theorem read_spelled (s : String) :
    (∀ e, read s = .ok e ↔ Spells e s ∨ Overruns e s) ∧
    (∀ told, read s = .error told ↔ (∀ e, ¬ (Spells e s ∨ Overruns e s)) ∧
      told = "expected 'group', 'group:name' or ':name', got '" ++ s ++ "'") ∧
    (2 ≤ s.toList.count ':' → s.toList.head? ≠ some ':' →
      read s = .error ("expected 'group', 'group:name' or ':name', got '" ++ s ++ "'")) := by
  refine ⟨fun e => read_eq_ok_iff, fun told => read_eq_error_iff, fun several ahead => ?_⟩
  refine read_eq_error_iff.2 ⟨fun e => ?_, rfl⟩
  rintro (spells | ⟨n, _, rfl, _⟩)
  · exact Nat.not_lt_of_le spells.count_colon_le several
  · simp at ahead

theorem read_spelled_several :
    2 ≤ "a:b:c".toList.count ':' ∧ "a:b:c".toList.head? ≠ some ':' ∧
    read "a:b:c" = .error "expected 'group', 'group:name' or ':name', got 'a:b:c'" := by
  have several : 2 ≤ "a:b:c".toList.count ':' := by decide
  have ahead : "a:b:c".toList.head? ≠ some ':' := by decide
  exact ⟨several, ahead, (read_spelled "a:b:c").2.2 several ahead⟩

/-- A leading colon is enough for a text with further colons to be read, though it spells no rule. -/
theorem read_overrunning :
    read ":a:b" = .ok (.module "a:b") ∧ ¬ ∃ e, Spells e ":a:b" := by
  refine ⟨read_eq_ok_iff.2 (.inr ⟨"a:b", by decide, rfl, rfl⟩), ?_⟩
  rintro ⟨e, spells⟩
  exact absurd spells.count_colon_le (by decide)

end ArtifactSelection.Exclusion
