import ArtifactSelection.Selection.Resolved
import Mathlib.Data.List.Basic

/-!
The joint list of artifacts. Of several artifacts with one identity the first counts, by the order of
the variants and then of the artifacts in each, and the identities stand in the order in which they
come first. The list is made once; what is answered does not tell when.
-/

namespace ArtifactSelection

namespace Artifact

variable {a b : Artifact} {l : List Artifact}

/-- No artifact before this one has its identity. -/
def FirstIn (a : Artifact) (l : List Artifact) : Prop :=
  ∃ before after, l = before ++ a :: after ∧ ∀ b ∈ before, b.id ≠ a.id

theorem firstIn_cons : a.FirstIn (b :: l) ↔ a = b ∨ a.FirstIn l ∧ b.id ≠ a.id := by
  constructor
  · rintro ⟨before, after, split, new⟩
    cases before with
    | nil => exact .inl (List.cons.inj split).1.symm
    | cons c before =>
      obtain ⟨rfl, rfl⟩ := List.cons.inj split
      obtain ⟨other, new⟩ := List.forall_mem_cons.1 new
      exact .inr ⟨⟨before, after, rfl, new⟩, other⟩
  · rintro (rfl | ⟨⟨before, after, rfl, new⟩, other⟩)
    · exact ⟨[], l, rfl, List.forall_mem_nil _⟩
    · exact ⟨b :: before, after, rfl, List.forall_mem_cons.2 ⟨other, new⟩⟩

theorem mem_distinct_iff : a ∈ distinct l ↔ a.FirstIn l := by
  induction l with
  | nil => simp [distinct, FirstIn]
  | cons b l ih => rw [distinct, List.mem_cons, List.mem_filter, ih, firstIn_cons, bne_iff_ne, ne_comm]

theorem ids_distinct_cons (b : Artifact) (l : List Artifact) :
    (distinct (b :: l)).map (·.id) = b.id :: ((distinct l).map (·.id)).filter (· != b.id) := by
  rw [distinct, List.map_cons, List.filter_map]
  rfl

theorem nodup_ids_distinct (l : List Artifact) : ((distinct l).map (·.id)).Nodup := by
  induction l with
  | nil => exact .nil
  | cons b l ih =>
    rw [ids_distinct_cons]
    exact List.nodup_cons.2 ⟨by simp, ih.filter _⟩

theorem mem_ids_distinct {i : ArtifactId} : i ∈ (distinct l).map (·.id) ↔ i ∈ l.map (·.id) := by
  induction l with
  | nil => rfl
  | cons b l ih =>
    rw [ids_distinct_cons, List.map_cons, List.mem_cons, List.mem_cons, List.mem_filter, ih,
      bne_iff_ne]
    by_cases same : i = b.id <;> simp [same]

theorem pairwise_ids_distinct (l : List Artifact) :
    ((distinct l).map (·.id)).Pairwise fun i j =>
      (l.map (·.id)).idxOf i < (l.map (·.id)).idxOf j := by
  induction l with
  | nil => exact .nil
  | cons b l ih =>
    have behind {i : ArtifactId} (other : i ≠ b.id) :
        ((b :: l).map (·.id)).idxOf i = (l.map (·.id)).idxOf i + 1 :=
      List.idxOf_cons_ne _ other.symm
    have later {i : ArtifactId} (hi : i ∈ ((distinct l).map (·.id)).filter (· != b.id)) :
        i ≠ b.id := bne_iff_ne.1 (List.mem_filter.1 hi).2
    rw [ids_distinct_cons, List.pairwise_cons]
    constructor
    · intro j hj
      rw [List.map_cons, List.idxOf_cons_self, ← List.map_cons, behind (later hj)]
      exact Nat.succ_pos _
    · refine (ih.filter _).imp_of_mem fun hi hj less => ?_
      rw [behind (later hi), behind (later hj)]
      exact Nat.succ_lt_succ less

theorem distinct_eq_nil_iff : distinct l = [] ↔ l = [] := by
  cases l <;> simp [distinct]

theorem distinct_filter {p : Artifact → Bool} (byId : ∀ {a b : Artifact}, a.id = b.id → p a = p b)
    (l : List Artifact) : distinct (l.filter p) = (distinct l).filter p := by
  induction l with
  | nil => rfl
  | cons b l ih =>
    cases kept : p b with
    | true =>
      rw [List.filter_cons_of_pos kept, distinct, distinct, List.filter_cons_of_pos kept, ih,
        List.filter_comm]
    | false =>
      -- Nothing that stays has the identity of `b`.
      have other : ∀ a ∈ (distinct l).filter p, (a.id != b.id) = true := fun a ha =>
        bne_iff_ne.2 fun same => Bool.eq_false_iff.1 ((byId same).trans kept) (List.mem_filter.1 ha).2
      rw [List.filter_cons_of_neg (Bool.eq_false_iff.1 kept), distinct,
        List.filter_cons_of_neg (Bool.eq_false_iff.1 kept), List.filter_comm,
        List.filter_eq_self.2 other, ih]

end Artifact

namespace Listing

inductive Query where
  | artifacts
  | isEmpty

def ask (l : Listing) : Query → Listing
  | .artifacts => l.artifacts.2.1
  | .isEmpty => l.isEmpty.2.1

def askAll (l : Listing) (queries : List Query) : Listing := queries.foldl ask l

def Sound (l : Listing) : Prop := ∀ list, l.kept = some list → list = l.set.artifacts

variable {l : Listing}

theorem Sound.artifacts (sound : l.Sound) : l.artifacts.1 = l.set.artifacts := by
  rw [Listing.artifacts]
  split
  · next kept => exact sound _ kept
  · rfl

theorem Sound.isEmpty (sound : l.Sound) : l.isEmpty.1 = l.set.isEmpty :=
  congrArg List.isEmpty sound.artifacts

theorem Sound.made (sound : l.Sound) : l.artifacts.2.1.Sound ∧ l.artifacts.2.1.set = l.set := by
  rw [Listing.artifacts]
  split
  · exact ⟨sound, rfl⟩
  · exact ⟨fun _ kept => (Option.some.inj kept).symm, rfl⟩

theorem Sound.ask (sound : l.Sound) (q : Query) : (l.ask q).Sound ∧ (l.ask q).set = l.set := by
  cases q <;> exact sound.made

theorem Sound.askAll (sound : l.Sound) (queries : List Query) :
    (l.askAll queries).Sound ∧ (l.askAll queries).set = l.set := by
  induction queries generalizing l with
  | nil => exact ⟨sound, rfl⟩
  | cons q queries ih =>
    obtain ⟨next, same⟩ := sound.ask q
    obtain ⟨last, same'⟩ := ih next
    exact ⟨last, same'.trans same⟩

end Listing

theorem ResolvedSet.isEmpty_iff {s : ResolvedSet} :
    s.isEmpty = true ↔ ∀ v ∈ s.variants, v.artifacts = [] := by
  rw [isEmpty, List.isEmpty_iff, artifacts, Artifact.distinct_eq_nil_iff, List.flatMap_eq_nil_iff]

/-- The list of artifacts of any resolved variants, whatever was asked before. It has each identity
once that one of the variants has, in the order in which the identities come first, and for each the
artifact that comes first. There is none just when no variant has any. -/
theorem Listing.artifacts_first (variants : List ResolvedVariant) (before : List Query) :
    let listing := ({ set := ⟨variants⟩ } : Listing).askAll before
    let list := listing.artifacts.1
    let all := variants.flatMap (·.artifacts)
    (list.map (·.id)).Nodup ∧
    (∀ i, i ∈ list.map (·.id) ↔ ∃ v ∈ variants, ∃ a ∈ v.artifacts, a.id = i) ∧
    (∀ a, a ∈ list ↔ a.FirstIn all) ∧
    ((list.map (·.id)).Pairwise fun i j =>
      (all.map (·.id)).idxOf i < (all.map (·.id)).idxOf j) ∧
    (listing.isEmpty.1 = true ↔ ∀ v ∈ variants, v.artifacts = []) := by
  intro listing list all
  have fresh : Sound { set := ⟨variants⟩ } := fun _ kept => nomatch kept
  obtain ⟨sound, same⟩ := fresh.askAll before
  have made : list = Artifact.distinct all :=
    sound.artifacts.trans (congrArg ResolvedSet.artifacts same)
  rw [made]
  refine ⟨Artifact.nodup_ids_distinct all, fun i => ?_, fun a => Artifact.mem_distinct_iff,
    Artifact.pairwise_ids_distinct all, ?_⟩
  · rw [Artifact.mem_ids_distinct]
    simp only [all, List.map_flatMap, List.mem_flatMap, List.mem_map]
  · rw [sound.isEmpty, same]
    exact ResolvedSet.isEmpty_iff

end ArtifactSelection
