import ArtifactSelection.Proofs.Selection.Relabelling

/-!
Overrides of a key that nothing carries. They contradict no variant and no variant meets them, so
neither test of a selection sees them, and the same variants are chosen with them as without. All they
do is to stand in the attributes that the chosen variants count as having. The one exception is the
first override of all: without any, nothing declared is nothing selected and not a refusal.
-/

namespace ArtifactSelection

namespace Attributes

variable {a o : Attributes} {k : String}

theorem nodup_agreement (a o : Attributes) : (a.agreement o).Nodup := o.nodup_keys.filter _

theorem isEmpty_insert (o : Attributes) (k x : String) : (o.insert k x).isEmpty = false := by
  refine Bool.eq_false_iff.2 fun empty => ?_
  have there : (o.insert k x).get? k = some x := by rw [get?_insert, if_pos rfl]
  cases (get?_of_isEmpty empty k).symm.trans there

theorem ne_of_absent (absent : a.get? k = none) {y z : String} (here : a.get? y = some z) :
    k ≠ y := by
  rintro rfl
  cases absent.symm.trans here

theorem admits_insert (absent : a.get? k = none) (x : String) :
    a.Admits (o.insert k x) ↔ a.Admits o := by
  constructor
  · intro fits y z w here there
    exact fits y z w here (by rw [get?_insert, if_neg (ne_of_absent absent here), there])
  · intro fits y z w here there
    rw [get?_insert, if_neg (ne_of_absent absent here)] at there
    exact fits y z w here there

theorem isCompatibleWith_insert (absent : a.get? k = none) (x : String) :
    a.isCompatibleWith (o.insert k x) = a.isCompatibleWith o := by
  rw [Bool.eq_iff_iff, isCompatibleWith_iff, isCompatibleWith_iff]
  exact admits_insert absent x

theorem matchingKeys_insert (absent : a.get? k = none) (x : String) :
    a.matchingKeys (o.insert k x) = a.matchingKeys o := by
  have same : (a.agreement (o.insert k x)).Perm (a.agreement o) := by
    rw [List.perm_ext_iff_of_nodup (nodup_agreement _ _) (nodup_agreement _ _)]
    intro y
    rw [mem_agreement, mem_agreement]
    refine exists_congr fun z => and_congr_right fun here => ?_
    rw [get?_insert, if_neg (ne_of_absent absent here)]
  rw [matchingKeys_eq, matchingKeys_eq, same.length_eq]

end Attributes

namespace VariantSet

def Lacks (s : VariantSet) (k : String) : Prop := ∀ v ∈ s.variants, v.attributes.get? k = none

instance (s : VariantSet) (k : String) : Decidable (s.Lacks k) :=
  inferInstanceAs (Decidable (∀ v ∈ s.variants, v.attributes.get? k = none))

variable {s declared : VariantSet} {overrides : Attributes} {k : String}

theorem Lacks.filter_insert (lacks : s.Lacks k) (x : String) :
    s.variants.filter (·.attributes.isCompatibleWith (overrides.insert k x)) =
      s.variants.filter (·.attributes.isCompatibleWith overrides) :=
  List.filter_congr fun v hv => Attributes.isCompatibleWith_insert (lacks v hv) x

theorem bestMatches_insert (lacks : s.Lacks k) (lacks' : declared.Lacks k) (x : String) :
    s.bestMatches declared (overrides.insert k x) = s.bestMatches declared overrides := by
  have score {v : PhysicalVariant}
      (hv : v ∈ s.variants.filter (·.attributes.isCompatibleWith overrides)) :
      v.attributes.matchingKeys (overrides.insert k x) = v.attributes.matchingKeys overrides :=
    Attributes.matchingKeys_insert (lacks v (List.mem_filter.1 hv).1) x
  have scores := List.map_congr_left fun v hv => score (v := v) hv
  simp only [bestMatches, lacks.filter_insert, lacks'.filter_insert, scores]
  split
  · rfl
  · exact List.filter_congr fun v hv => by rw [score hv]

theorem bestMatches_of_isEmpty (empty : overrides.isEmpty = true) :
    s.bestMatches declared overrides = declared.variants := by
  have none : ¬s.Shares overrides := by
    rintro ⟨v, _, _, k, x, _, there⟩
    cases (Attributes.get?_of_isEmpty empty k).symm.trans there
  rw [bestMatches_eq_filter none, List.filter_eq_self]
  refine fun v _ => Attributes.isCompatibleWith_iff.2 fun k x y _ there => ?_
  cases (Attributes.get?_of_isEmpty empty k).symm.trans there

end VariantSet

/-- The same variant with the same artifacts, and but for one key the same attributes. -/
structure ResolvedVariant.AlikeBut (k : String) (v w : ResolvedVariant) : Prop where
  variant : w.variant = v.variant
  artifacts : w.artifacts = v.artifacts
  attributes : ∀ y, y ≠ k → w.attributes.get? y = v.attributes.get? y

namespace SelectionRequest

variable {σ : Type}

def overriding (r : SelectionRequest σ) (k x : String) : SelectionRequest σ :=
  { r with overrides := r.overrides.insert k x }

def refusal (r : SelectionRequest σ) : Failure :=
  .noMatchingVariant (toString r.component.id) (toString r.overrides)

theorem alikeBut_resolvedThrough (r : SelectionRequest σ) (k x : String) (scratch : Scratch)
    (l : List PhysicalVariant) :
    List.Forall₂ (ResolvedVariant.AlikeBut k) (r.resolvedThrough scratch l).variants
      ((r.overriding k x).resolvedThrough scratch l).variants := by
  rw [resolvedThrough, resolvedThrough, List.forall₂_map_left_iff, List.forall₂_map_right_iff,
    List.forall₂_same]
  intro v _
  cases scratch.get? v.id with
  | some shared => exact ⟨rfl, rfl, fun _ _ => rfl⟩
  | none =>
    refine ⟨rfl, rfl, fun y other => ?_⟩
    have here := Attributes.get?_overlay v.attributes r.overrides y
    have there := Attributes.get?_overlay v.attributes (r.overrides.insert k x) y
    rw [Attributes.get?_insert, if_neg other.symm] at there
    exact there.trans here.symm

end SelectionRequest

namespace Policy

variable {σ : Type} {r : SelectionRequest σ} {s s' : σ} {c : VariantSet} {k : String}

theorem settle_overriding (p : Policy) (r : SelectionRequest σ) (k x : String)
    (l : List PhysicalVariant) :
    (∃ l', (p.settle r l).1 = .ok l' ∧ (p.settle (r.overriding k x) l).1 = .ok l') ∨
      ((p.settle r l).1 = .error r.refusal ∧
        (p.settle (r.overriding k x) l).1 = .error (r.overriding k x).refusal) := by
  rw [settle_eq, settle_eq]
  split
  · exact .inl ⟨l, rfl, rfl⟩
  · split
    · exact .inl ⟨r.declared.variants, rfl, rfl⟩
    · exact .inr ⟨rfl, rfl⟩

theorem chosen_of_supply (p : Policy)
    (included : r.exclusion.excludesModule r.component.coordinate = false)
    (present : r.overrides.isEmpty = false) (supply : (r.candidates s).1 = .ok c) :
    (p.choose r s).1 = (p.settle r (c.bestMatches r.declared r.overrides)).1 := by
  rw [chosen_eq, if_neg (Bool.eq_false_iff.1 included), if_neg (Bool.eq_false_iff.1 present), supply]
  rfl

theorem chosen_overriding (p : Policy) (x : String) (supply : (r.candidates s).1 = .ok c)
    (supply' : (r.candidates s').1 = .ok c) (lacks : c.Lacks k) (lacks' : r.declared.Lacks k)
    (given : r.overrides.isEmpty = false ∨ r.declared.isEmpty = false) :
    (∃ l, (p.choose r s).1 = .ok l ∧ (p.choose (r.overriding k x) s').1 = .ok l) ∨
      ((p.choose r s).1 = .error r.refusal ∧
        (p.choose (r.overriding k x) s').1 = .error (r.overriding k x).refusal) := by
  cases excluded : r.exclusion.excludesModule r.component.coordinate with
  | true =>
    rw [chosen_eq, chosen_eq, if_pos excluded]
    exact .inl ⟨[], rfl, if_pos excluded⟩
  | false =>
    have after : (p.choose (r.overriding k x) s').1 =
        (p.settle (r.overriding k x) (c.bestMatches r.declared r.overrides)).1 := by
      rw [← VariantSet.bestMatches_insert lacks lacks' x]
      exact p.chosen_of_supply excluded (Attributes.isEmpty_insert ..) supply'
    rw [after]
    cases empty : r.overrides.isEmpty with
    | false =>
      rw [p.chosen_of_supply excluded empty supply]
      exact p.settle_overriding r k x _
    | true =>
      -- This is the first override. All declared variants fit it, and there are some.
      have some : r.declared.variants ≠ [] := by
        rcases given with present | declared
        · cases empty.symm.trans present
        · exact List.isEmpty_eq_false_iff.1 declared
      rw [VariantSet.bestMatches_of_isEmpty empty, settle_eq, if_pos some, chosen_eq,
        if_neg (Bool.eq_false_iff.1 excluded), if_pos empty]
      exact .inl ⟨_, rfl, rfl⟩

/-- An override whose key neither a candidate nor a declared variant carries does not steer the
selection. With it and without it the same variants are selected with the same artifacts, their
attributes differing in that key alone, or both requests are refused. -/
theorem select_irrelevant (p : Policy) (x : String) (scratch : Scratch)
    (supply : (r.candidates s).1 = .ok c) (supply' : (r.candidates s').1 = .ok c)
    (lacks : c.Lacks k) (lacks' : r.declared.Lacks k)
    (given : r.overrides.isEmpty = false ∨ r.declared.isEmpty = false) :
    let answer := (p.select r scratch s).answer
    let answer' := (p.select (r.overriding k x) scratch s').answer
    (∃ set set', answer = .ok set ∧ answer' = .ok set' ∧
      set'.variants.map (·.variant.id) = set.variants.map (·.variant.id) ∧
      List.Forall₂ (ResolvedVariant.AlikeBut k) set.variants set'.variants ∧
      set'.artifacts = set.artifacts ∧
      (scratch = ∅ → ∀ v ∈ set'.variants, v.attributes.get? k = some x)) ∨
    (answer =
        .error (.noMatchingVariant (toString r.component.id) (toString r.overrides)) ∧
      answer' =
        .error (.noMatchingVariant (toString r.component.id) (toString (r.overrides.insert k x)))) := by
  intro answer answer'
  have first : answer = _ := p.answer_select_through r scratch s
  have second : answer' = _ := p.answer_select_through (r.overriding k x) scratch s'
  rcases p.chosen_overriding x supply supply' lacks lacks' given with
    ⟨l, chosen, chosen'⟩ | ⟨refused, refused'⟩
  · rw [chosen] at first
    rw [chosen'] at second
    have alike := r.alikeBut_resolvedThrough k x scratch l
    have ids := map_eq_of_forall₂ alike fun h => congrArg PhysicalVariant.id h.variant
    have artifacts := ResolvedSet.artifacts_eq_of_forall₂ alike (·.artifacts)
    refine .inl ⟨_, _, first, second, ids, alike, artifacts, ?_⟩
    rintro rfl v hv
    obtain ⟨w, _, rfl⟩ := List.mem_map.1 hv
    have above := Attributes.get?_overlay w.attributes (r.overrides.insert k x) k
    rw [Attributes.get?_insert, if_pos rfl, Option.some_or] at above
    exact above
  · rw [refused] at first
    rw [refused'] at second
    exact .inr ⟨first, second⟩

/-- Nothing here has a colour. The sibling is selected in any colour, with the usage or without; and
asking for a colour alone selects what is declared. -/
theorem select_irrelevant_steady :
    let m := ((Session.opened (Session.steady.component 0) none 0).run
      [.ask 0 .artifacts (Session.steadyVariant 0)]).memory
    let m' := ((Session.opened (Session.steady.component 0) none 0).run Session.busyWork).memory
    let main := Session.steadyHandle 0
    let r := main.request .nothing jsDocs
    let bare := main.request .nothing ∅
    ∃ c, (r.candidates m).1 = .ok c ∧ (r.candidates m').1 = .ok c ∧
      c.Lacks "colour" ∧ r.declared.Lacks "colour" ∧ r.declared.isEmpty = false ∧
      (∃ set set', (select {} r ∅ m).answer = .ok set ∧
        (select {} (r.overriding "colour" "red") ∅ m').answer = .ok set' ∧
        set.variants.map (·.variant.id) = ["test/js"] ∧ set'.artifacts = set.artifacts) ∧
      ∃ set set', (select {} bare ∅ m).answer = .ok set ∧
        (select {} (bare.overriding "colour" "red") ∅ m').answer = .ok set' ∧
        set.variants.map (·.variant.id) = ["main/jvm"] ∧ set'.artifacts = set.artifacts := by
  intro m m' main r bare
  obtain ⟨c, supply, supply', lacks, lacks'⟩ : ∃ c, (main.candidates m).1 = .ok c ∧
      (main.candidates m').1 = .ok c ∧ c.Lacks "colour" ∧ r.declared.Lacks "colour" :=
    ⟨_, rfl, rfl, by decide, by decide⟩
  have alike {overrides : Attributes} {ids : List String}
      (selected : ∃ set, (select {} (main.request .nothing overrides) ∅ m).answer = .ok set ∧
        set.variants.map (·.variant.id) = ids) :
      ∃ set set', (select {} (main.request .nothing overrides) ∅ m).answer = .ok set ∧
        (select {} ((main.request .nothing overrides).overriding "colour" "red") ∅ m').answer =
          .ok set' ∧
        set.variants.map (·.variant.id) = ids ∧ set'.artifacts = set.artifacts := by
    obtain ⟨set, ok, ids⟩ := selected
    rcases select_irrelevant {} "red" ∅ (r := main.request .nothing overrides) supply supply' lacks
      lacks' (.inr rfl) with ⟨set₁, set', ok₁, ok', _, _, artifacts, _⟩ | ⟨refused, _⟩
    · obtain rfl := Except.ok.inj (ok.symm.trans ok₁)
      exact ⟨set, set', ok, ok', ids, artifacts⟩
    · cases ok.symm.trans refused
  exact ⟨c, supply, supply', lacks, lacks', rfl, alike ⟨_, rfl, rfl⟩, alike ⟨_, rfl, rfl⟩⟩

end Policy

end ArtifactSelection
