import ArtifactSelection.Component.Identity

/-!
Coordinates and their texts. A text is divided at its colons, and it is read where that gives three
parts with something in each. So a coordinate is read back from its text only if no field of it is
empty and none has a colon of its own; the text of any other coordinate is refused, though the
fields might be told apart in several ways.
-/

namespace ArtifactSelection.ModuleCoordinate

/-- A coordinate whose fields can be told apart in its text. -/
structure Legible (m : ModuleCoordinate) : Prop where
  written : m.group ≠ "" ∧ m.name ≠ "" ∧ m.version ≠ ""
  plain : ':' ∉ m.group.toList ∧ ':' ∉ m.name.toList ∧ ':' ∉ m.version.toList

theorem notMem_of_mem_splitOn {c : Char} {l part : List Char} (h : part ∈ l.splitOn c) :
    c ∉ part := by
  induction l generalizing part with
  | nil =>
    obtain rfl := List.mem_singleton.1 (List.splitOn_nil c ▸ h)
    exact List.not_mem_nil
  | cons d l ih =>
    rw [List.splitOn_cons_eq_if_modifyHead] at h
    split at h
    · rcases List.mem_cons.1 h with rfl | h
      · exact List.not_mem_nil
      · exact ih h
    · next other =>
      cases parts : l.splitOn c with
      | nil => exact absurd parts (List.splitOn_ne_nil c l)
      | cons first rest =>
        rw [parts, List.modifyHead_cons] at h
        rcases List.mem_cons.1 h with rfl | h
        · intro within
          rcases List.mem_cons.1 within with rfl | within
          · exact other (beq_self_eq_true _)
          · exact ih (parts ▸ List.mem_cons_self) within
        · exact ih (parts ▸ List.mem_cons_of_mem first h)

theorem toString_eq (m : ModuleCoordinate) :
    toString m = m.group ++ ":" ++ m.name ++ ":" ++ m.version := rfl

theorem toList_toString (m : ModuleCoordinate) :
    (toString m).toList = [':'].intercalate [m.group.toList, m.name.toList, m.version.toList] := by
  rw [toString_eq]
  simp [List.intercalate]

theorem count_toString (m : ModuleCoordinate) :
    (toString m).toList.count ':' =
      m.group.toList.count ':' + m.name.toList.count ':' + m.version.toList.count ':' + 2 := by
  rw [toString_eq]
  simp
  omega

theorem plain_iff_count (m : ModuleCoordinate) :
    (':' ∉ m.group.toList ∧ ':' ∉ m.name.toList ∧ ':' ∉ m.version.toList) ↔
      (toString m).toList.count ':' = 2 := by
  rw [count_toString, ← List.count_eq_zero, ← List.count_eq_zero, ← List.count_eq_zero]
  omega

theorem parts_toString {m : ModuleCoordinate} (two : (toString m).toList.count ':' = 2) :
    (toString m).toList.splitOn ':' = [m.group.toList, m.name.toList, m.version.toList] := by
  have plain := m.plain_iff_count.2 two
  rw [toList_toString]
  refine List.splitOn_intercalate _ (fun part h => ?_) (List.cons_ne_nil _ _)
  simp only [List.mem_cons, List.not_mem_nil, or_false] at h
  rcases h with rfl | rfl | rfl
  · exact plain.1
  · exact plain.2.1
  · exact plain.2.2

theorem ofText?_toString {m : ModuleCoordinate} (legible : m.Legible) :
    ofText? (toString m) = some m := by
  have written {s : String} (h : s ≠ "") : ∃ c l, s.toList = c :: l :=
    List.exists_cons_of_ne_nil (mt String.toList_eq_nil_iff.1 h)
  obtain ⟨a, g, group⟩ := written legible.written.1
  obtain ⟨b, n, name⟩ := written legible.written.2.1
  obtain ⟨c, v, version⟩ := written legible.written.2.2
  rw [ofText?, parts_toString (m.plain_iff_count.1 legible.plain)]
  simp only [group, name, version]
  simp [← group, ← name, ← version]

theorem legible_of_ofText? {s : String} {m : ModuleCoordinate} (read : ofText? s = some m) :
    m.Legible ∧ toString m = s := by
  rw [ofText?] at read
  split at read
  · next a g b n c v parts =>
    obtain rfl := Option.some.inj read
    have plain {part : List Char} (h : part ∈ [a :: g, b :: n, c :: v]) :
        ':' ∉ (String.ofList part).toList := by
      rw [String.toList_ofList]
      exact notMem_of_mem_splitOn (parts ▸ h)
    refine ⟨⟨?_, plain ?_, plain ?_, plain ?_⟩, ?_⟩
    · simp [← String.toList_inj]
    · simp
    · simp
    · simp
    · rw [← String.toList_inj, toList_toString]
      simp only [String.toList_ofList]
      rw [← parts, List.intercalate_splitOn]
  · cases read

theorem ofText?_eq_some_iff {s : String} {m : ModuleCoordinate} :
    ofText? s = some m ↔ m.Legible ∧ toString m = s := by
  constructor
  · exact legible_of_ofText?
  · rintro ⟨legible, rfl⟩
    exact ofText?_toString legible

theorem eq_of_toString {m n : ModuleCoordinate} (two : (toString m).toList.count ':' = 2)
    (same : toString n = toString m) : n = m := by
  have parts := parts_toString (m := n) (same ▸ two)
  rw [same, parts_toString two] at parts
  simp only [List.cons.injEq, String.toList_inj, and_true] at parts
  obtain ⟨group, name, version⟩ := parts
  cases m
  cases n
  simp_all

/-- A text is read just when it has two colons and something in each of the three parts between
them, and then it is the text of what is read. The text of a coordinate is read as that coordinate
if no field is empty or has a colon, and otherwise it is refused, never taken for another one. -/
theorem text_inverse :
    (∀ s, ((∃ m, ofText? s = some m) ↔ s.toList.count ':' = 2 ∧
        ∃ g n v : String, s = g ++ ":" ++ n ++ ":" ++ v ∧ g ≠ "" ∧ n ≠ "" ∧ v ≠ "") ∧
      ∀ m, ofText? s = some m → toString m = s) ∧
    ∀ m : ModuleCoordinate,
      (ofText? (toString m) = some m ↔ m.Legible) ∧
      (ofText? (toString m) = none ↔ ¬m.Legible) := by
  have own (m : ModuleCoordinate) : ofText? (toString m) = some m ↔ m.Legible := by
    rw [ofText?_eq_some_iff, and_iff_left rfl]
  refine ⟨fun s => ⟨⟨?_, ?_⟩, fun m read => (ofText?_eq_some_iff.1 read).2⟩, fun m => ⟨own m, ?_⟩⟩
  · rintro ⟨m, read⟩
    obtain ⟨legible, rfl⟩ := ofText?_eq_some_iff.1 read
    exact ⟨m.plain_iff_count.1 legible.plain, m.group, m.name, m.version, m.toString_eq,
      legible.written⟩
  · rintro ⟨two, g, n, v, text, written⟩
    let m : ModuleCoordinate := ⟨g, n, v⟩
    have own : toString m = s := m.toString_eq.trans text.symm
    rw [← own] at two ⊢
    exact ⟨m, ofText?_toString ⟨written, m.plain_iff_count.2 two⟩⟩
  · rw [← own]
    constructor
    · exact fun refused read => Option.some_ne_none m (read.symm.trans refused)
    · intro unread
      refine Option.eq_none_iff_forall_ne_some.2 fun other read => ?_
      -- Whatever else might be read has the same text, and so the same two colons in it.
      obtain ⟨legible, same⟩ := ofText?_eq_some_iff.1 read
      have two := other.plain_iff_count.1 legible.plain
      obtain rfl := eq_of_toString two same.symm
      exact unread read

/-- Read from the left this text would have a group, a name and a version. -/
example : ofText? (toString (⟨"org", "lib:1", "0"⟩ : ModuleCoordinate)) = none := by decide

end ArtifactSelection.ModuleCoordinate
