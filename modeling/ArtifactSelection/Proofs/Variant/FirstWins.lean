import ArtifactSelection.Proofs.Copy.Transformation
import Mathlib.Data.List.Nodup

/-!
Variant sets as tables. A table has a key beside each variant, and nothing in its type says that keys
ascend or that a variant stands under its own id. Whatever is done with sets comes to the same with
tables, so each table that comes about is in order. In what they hold, sets make an algebra: a union
prefers its left side, and it does not matter how unions are grouped.
-/

namespace ArtifactSelection

/-- What can be done with sets of variants, whatever they are made of. -/
structure SetOperations (α : Type) where
  empty : α
  insert : α → PhysicalVariant → Bool × α
  extend : α → List PhysicalVariant → α
  collect : List PhysicalVariant → α
  union : α → α → α
  mapArtifacts : (Artifact → Artifact) → α → α

structure VariantTable where
  entries : List (String × PhysicalVariant)

namespace VariantTable

def empty : VariantTable := ⟨[]⟩

def contains (t : VariantTable) (id : String) : Bool :=
  (KeyOrder.get? Prod.fst id t.entries).isSome

def insert (t : VariantTable) (v : PhysicalVariant) : Bool × VariantTable :=
  if t.contains v.id then (false, t)
  else (true, ⟨KeyOrder.replace Prod.fst (v.id, v) t.entries⟩)

def extend (t : VariantTable) (l : List PhysicalVariant) : VariantTable :=
  l.foldl (fun t v => (t.insert v).2) t

def collect (l : List PhysicalVariant) : VariantTable := empty.extend l

def union (t u : VariantTable) : VariantTable := t.extend (u.entries.map Prod.snd)

def mapArtifacts (f : Artifact → Artifact) (t : VariantTable) : VariantTable :=
  collect (t.entries.map (·.2.mapArtifacts f))

def operations : SetOperations VariantTable where
  empty := empty
  insert := insert
  extend := extend
  collect := collect
  union := union
  mapArtifacts := mapArtifacts

structure Ordered (t : VariantTable) : Prop where
  ascending : t.entries.Pairwise (·.1 < ·.1)
  own : ∀ e ∈ t.entries, e.2.id = e.1

end VariantTable

/-- A step of work with sets that are known by number. Insertions change a set in its place, the other
steps make a new one. -/
inductive SetStep where
  | create
  | insert (i : Nat) (v : PhysicalVariant)
  | extend (i : Nat) (l : List PhysicalVariant)
  | collect (l : List PhysicalVariant)
  | union (i j : Nat)
  | mapArtifacts (i : Nat) (f : Artifact → Artifact)

namespace SetOperations

variable {α β : Type}

def perform (K : SetOperations α) (sets : List α) : SetStep → Option Bool × List α
  | .create => (none, sets ++ [K.empty])
  | .insert i v =>
    match sets[i]? with
    | none => (none, sets)
    | some s => (some (K.insert s v).1, sets.set i (K.insert s v).2)
  | .extend i l =>
    match sets[i]? with
    | none => (none, sets)
    | some s => (none, sets.set i (K.extend s l))
  | .collect l => (none, sets ++ [K.collect l])
  | .union i j =>
    match sets[i]?, sets[j]? with
    | some s, some t => (none, sets ++ [K.union s t])
    | _, _ => (none, sets)
  | .mapArtifacts i f =>
    match sets[i]? with
    | none => (none, sets)
    | some s => (none, sets ++ [K.mapArtifacts f s])

def run (K : SetOperations α) : List α → List SetStep → List (Option Bool) × List α
  | sets, [] => ([], sets)
  | sets, x :: l =>
    let (answer, sets) := K.perform sets x
    let (answers, sets) := K.run sets l
    (answer :: answers, sets)

/-- A view of sets of one kind as sets of another, with which all operations agree. -/
structure Hom (K : SetOperations α) (L : SetOperations β) (φ : α → β) : Prop where
  empty : L.empty = φ K.empty
  insert : ∀ s v, L.insert (φ s) v = ((K.insert s v).1, φ (K.insert s v).2)
  extend : ∀ s l, L.extend (φ s) l = φ (K.extend s l)
  collect : ∀ l, L.collect l = φ (K.collect l)
  union : ∀ s t, L.union (φ s) (φ t) = φ (K.union s t)
  mapArtifacts : ∀ f s, L.mapArtifacts f (φ s) = φ (K.mapArtifacts f s)

namespace Hom

variable {K : SetOperations α} {L : SetOperations β} {φ : α → β}

theorem perform (hom : Hom K L φ) (sets : List α) (x : SetStep) :
    L.perform (sets.map φ) x = ((K.perform sets x).1, (K.perform sets x).2.map φ) := by
  cases x with
  | create => simp [SetOperations.perform, hom.empty]
  | insert i v => cases here : sets[i]? <;> simp [SetOperations.perform, here, hom.insert]
  | extend i l => cases here : sets[i]? <;> simp [SetOperations.perform, here, hom.extend]
  | collect l => simp [SetOperations.perform, hom.collect]
  | union i j =>
    cases here : sets[i]? <;> cases there : sets[j]? <;>
      simp [SetOperations.perform, here, there, hom.union]
  | mapArtifacts i f =>
    cases here : sets[i]? <;> simp [SetOperations.perform, here, hom.mapArtifacts]

theorem run (hom : Hom K L φ) (sets : List α) (l : List SetStep) :
    L.run (sets.map φ) l = ((K.run sets l).1, (K.run sets l).2.map φ) := by
  induction l generalizing sets with
  | nil => rfl
  | cons x l ih => simp only [SetOperations.run, hom.perform, ih]

end Hom

end SetOperations

namespace VariantSet

theorem insertIfNew_of_contains {s : VariantSet} {v : PhysicalVariant}
    (taken : s.contains v.id = true) : s.insertIfNew v = s := by
  obtain ⟨w, found⟩ := Option.isSome_iff_exists.1 taken
  refine ext_get? fun x => ?_
  rw [get?_insertIfNew]
  by_cases same : v.id = x
  · subst same
    rw [found, Option.some_or]
  · rw [if_neg same, Option.or_none]

theorem mem_variants_iff {s : VariantSet} {v : PhysicalVariant} :
    v ∈ s.variants ↔ s.get? v.id = some v :=
  ⟨KeyOrder.get?_of_mem s.increasing, KeyOrder.mem_of_get?⟩

theorem mem_ofList_iff {l : List PhysicalVariant} {v : PhysicalVariant} :
    v ∈ (ofList l).variants ↔ l.find? (·.id == v.id) = some v := by
  rw [mem_variants_iff, get?_ofList]

theorem perm_ofList {l : List PhysicalVariant} (distinct : (l.map (·.id)).Nodup) :
    (ofList l).variants.Perm l := by
  refine (List.perm_ext_iff_of_nodup (nodup_ids _).of_map distinct.of_map).2 fun v => ?_
  rw [mem_ofList_iff]
  exact (KeyOrder.get?_eq_some_iff distinct).trans (and_iff_left rfl)

theorem get?_of_new {s : VariantSet} {x : String} (new : s.contains x = false) : s.get? x = none :=
  Option.isNone_iff_eq_none.1 (Option.isSome_eq_false_iff.1 new)

theorem mem_insertIfNew_iff {s : VariantSet} {v : PhysicalVariant} (new : s.contains v.id = false)
    (w : PhysicalVariant) : w ∈ (s.insertIfNew v).variants ↔ w = v ∨ w ∈ s.variants := by
  rw [mem_variants_iff, mem_variants_iff, get?_insertIfNew]
  by_cases same : v.id = w.id
  · rw [← same, get?_of_new new, if_pos rfl, Option.none_or, Option.some.injEq]
    simp [eq_comm]
  · have other : w ≠ v := fun e => same (congrArg PhysicalVariant.id e.symm)
    simp [same, other]

section Union

variable (s t u : VariantSet)

theorem union_assoc : (s.union t).union u = s.union (t.union u) :=
  ext_get? fun x => by simp only [get?_union, Option.or_assoc]

theorem union_self : s.union s = s := ext_get? fun x => by rw [get?_union, Option.or_self]

theorem union_empty : s.union ∅ = s := rfl

theorem empty_union : (∅ : VariantSet).union s = s :=
  ext_get? fun x => (get?_union ∅ s x).trans (Option.none_or ..)

theorem contains_union (x : String) :
    (s.union t).contains x = (s.contains x || t.contains x) := by
  rw [contains, contains, contains, get?_union, Option.isSome_or]

end Union

theorem ofList_append (l l' : List PhysicalVariant) :
    ofList (l ++ l') = (ofList l).union (ofList l') := by
  refine ext_get? fun x => ?_
  rw [get?_union, get?_ofList, get?_ofList, get?_ofList, List.find?_append]

def table (s : VariantSet) : VariantTable := ⟨s.variants.map fun v => (v.id, v)⟩

theorem ordered_table (s : VariantSet) : s.table.Ordered where
  ascending := List.pairwise_map.2 s.increasing
  own := by
    intro e he
    obtain ⟨v, _, rfl⟩ := List.mem_map.1 he
    rfl

theorem get?_table (s : VariantSet) (x : String) :
    KeyOrder.get? Prod.fst x s.table.entries = (s.get? x).map fun v => (v.id, v) :=
  List.find?_map ..

theorem contains_table (s : VariantSet) (x : String) : s.table.contains x = s.contains x := by
  rw [VariantTable.contains, get?_table, Option.isSome_map]
  rfl

theorem map_snd_table (s : VariantSet) : s.table.entries.map Prod.snd = s.variants := by
  rw [table, List.map_map]
  exact List.map_id _

def insert (s : VariantSet) (v : PhysicalVariant) : Bool × VariantSet :=
  let (taken, s) := s.containsThenInsertIfNew v
  (!taken, s)

theorem insert_eq (s : VariantSet) (v : PhysicalVariant) :
    s.insert v = (!s.contains v.id, s.insertIfNew v) := rfl

theorem insert_table (s : VariantSet) (v : PhysicalVariant) :
    s.table.insert v = ((s.insert v).1, (s.insert v).2.table) := by
  rw [insert_eq, VariantTable.insert, contains_table]
  cases new : s.contains v.id with
  | true =>
    rw [if_pos rfl, insertIfNew_of_contains new]
    rfl
  | false =>
    rw [if_neg Bool.false_ne_true]
    have same : KeyOrder.replace Prod.fst (v.id, v) s.table.entries =
        (s.insertIfNew v).table.entries := by
      refine KeyOrder.ext (KeyOrder.pairwise_replace s.ordered_table.ascending)
        (s.insertIfNew v).ordered_table.ascending fun x => ?_
      rw [KeyOrder.get?_replace s.ordered_table.ascending, get?_table, get?_table, get?_insertIfNew]
      by_cases own : v.id = x
      · rw [← own, get?_of_new new, if_pos rfl, if_pos rfl]
        rfl
      · rw [if_neg own, if_neg own, Option.or_none]
    rw [same]
    rfl

theorem extend_table (s : VariantSet) (l : List PhysicalVariant) :
    s.table.extend l = (s.insertAll l).table := by
  induction l generalizing s with
  | nil => rfl
  | cons v l ih =>
    have step : s.table.extend (v :: l) = (s.table.insert v).2.extend l := rfl
    rw [step, insert_table]
    exact ih (s.insertIfNew v)

theorem collect_eq_table (l : List PhysicalVariant) : VariantTable.collect l = (ofList l).table :=
  extend_table empty l

def operations : SetOperations VariantSet where
  empty := empty
  insert := insert
  extend := insertAll
  collect := ofList
  union := union
  mapArtifacts := mapArtifacts

theorem union_table (s t : VariantSet) : s.table.union t.table = (s.union t).table := by
  rw [VariantTable.union, map_snd_table, extend_table]
  rfl

theorem mapArtifacts_table (f : Artifact → Artifact) (s : VariantSet) :
    s.table.mapArtifacts f = (s.mapArtifacts f).table := by
  have transformed :
      s.table.entries.map (·.2.mapArtifacts f) = s.variants.map (·.mapArtifacts f) := by
    rw [← map_snd_table s, List.map_map]
    rfl
  rw [VariantTable.mapArtifacts, transformed, collect_eq_table]
  rfl

theorem hom_table : SetOperations.Hom operations VariantTable.operations table :=
  ⟨rfl, insert_table, extend_table, collect_eq_table, union_table, mapArtifacts_table⟩

/-- Whatever is done with sets, they are tables in which keys ascend and are ids. An insertion brings in
a variant with a new id and refuses any other; a union holds the ids of both sides, the left one going
first, and comes to the sets that there were. Unions can be grouped in any way, repeated, and taken
with the empty set, and to collect two lists is to collect one after the other. -/
theorem run_first_wins (steps : List SetStep) :
    let sets := operations.run [] steps
    let tables := VariantTable.operations.run [] steps
    tables = (sets.1, sets.2.map table) ∧ (∀ t ∈ tables.2, t.Ordered) ∧
    (∀ (s : VariantSet) (v : PhysicalVariant),
      (s.contains v.id = false → (s.insert v).1 = true ∧
        ∀ w, w ∈ (s.insert v).2.variants ↔ w = v ∨ w ∈ s.variants) ∧
      (s.contains v.id = true → s.insert v = (false, s))) ∧
    (∀ i j (s t : VariantSet), sets.2[i]? = some s → sets.2[j]? = some t →
      operations.perform sets.2 (.union i j) = (none, sets.2 ++ [s.union t])) ∧
    (∀ (s t : VariantSet) (x : String),
      (s.union t).contains x = (s.contains x || t.contains x) ∧
      (s.union t).get? x = (s.get? x).or (t.get? x)) ∧
    (∀ s t u : VariantSet, (s.union t).union u = s.union (t.union u)) ∧
    (∀ s : VariantSet, s.union s = s ∧ s.union ∅ = s ∧ (∅ : VariantSet).union s = s) ∧
    ∀ l l' : List PhysicalVariant, ofList (l ++ l') = (ofList l).union (ofList l') := by
  intro sets tables
  have same : tables = (sets.1, sets.2.map table) := hom_table.run [] steps
  refine ⟨same, fun t ht => ?_, fun s v => ⟨fun new => ?_, fun taken => ?_⟩, ?_, ?_, union_assoc,
    fun s => ⟨union_self s, union_empty s, empty_union s⟩, ofList_append⟩
  · rw [same] at ht
    obtain ⟨s, _, rfl⟩ := List.mem_map.1 ht
    exact ordered_table s
  · exact ⟨(congrArg not new).trans rfl, mem_insertIfNew_iff new⟩
  · rw [insert_eq, taken, insertIfNew_of_contains taken]
    rfl
  · intro i j s t here there
    rw [SetOperations.perform, here, there]
    rfl
  · exact fun s t x => ⟨contains_union s t x, get?_union s t x⟩

end VariantSet

end ArtifactSelection
