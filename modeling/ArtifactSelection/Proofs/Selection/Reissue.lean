import ArtifactSelection.Proofs.Component.Places
import ArtifactSelection.Proofs.Exclusion.Agreement
import ArtifactSelection.Proofs.Selection.Parallel

/-!
What is issued again. A new version of a module has other files, and its artifacts may have other
classifiers and belong to another component; no rule looks at any of this. So a selection in the new
version chooses the same variants as before and leaves out of each the artifacts in the same places.
-/

namespace ArtifactSelection

/-! ### Names and rules -/

structure ModuleCoordinate.Reissued (m m' : ModuleCoordinate) : Prop where
  group : m'.group = m.group
  name : m'.name = m.name

structure ArtifactName.Reissued (a a' : ArtifactName) : Prop where
  name : a'.name = a.name
  type : a'.type = a.type
  extension : a'.extension = a.extension

namespace Exclusion

variable {m m' : ModuleCoordinate} {a a' : ArtifactName}

theorem any_congr {rules : List Exclusion} {p q : Exclusion → Bool}
    (same : ∀ r ∈ rules, p r = q r) : rules.any p = rules.any q := by
  rw [Bool.eq_iff_iff, List.any_eq_true, List.any_eq_true]
  exact exists_congr fun r => and_congr_right fun hr => by rw [same r hr]

theorem all_congr {rules : List Exclusion} {p q : Exclusion → Bool}
    (same : ∀ r ∈ rules, p r = q r) : rules.all p = rules.all q := by
  rw [Bool.eq_iff_iff, List.all_eq_true, List.all_eq_true]
  exact forall₂_congr fun r hr => by rw [same r hr]

theorem excludesModule_reissued (e : Exclusion) (module : m.Reissued m') :
    e.excludesModule m' = e.excludesModule m := by
  induction e using induction_on with
  | group g => rw [excludesModule, excludesModule, module.group]
  | module n => rw [excludesModule, excludesModule, module.name]
  | moduleOf g n =>
    rw [excludesModule, excludesModule, ModuleCoordinate.isOf, ModuleCoordinate.isOf, module.group,
      module.name]
  | anyOf rules ih =>
    rw [excludesModule, excludesModule, anyExcludesModule_eq_any, anyExcludesModule_eq_any]
    exact any_congr ih
  | allOf rules ih =>
    rw [excludesModule, excludesModule, allExcludeModule_eq_all, allExcludeModule_eq_all,
      all_congr ih]
  | _ => rfl

theorem excludesArtifact_reissued (e : Exclusion) (module : m.Reissued m')
    (artifact : a.Reissued a') : e.excludesArtifact m' a' = e.excludesArtifact m a := by
  induction e using induction_on with
  | artifact n t x =>
    rw [excludesArtifact, excludesArtifact, artifact.name, artifact.type, artifact.extension]
  | anyOf rules ih =>
    rw [excludesArtifact, excludesArtifact, anyExcludesArtifact_eq_any, anyExcludesArtifact_eq_any]
    exact any_congr ih
  | allOf rules ih =>
    rw [excludesArtifact, excludesArtifact, allExcludeArtifact_eq_all, allExcludeArtifact_eq_all,
      all_congr ih]
  | _ => exact excludesModule_reissued _ module

end Exclusion

/-! ### Places -/

def inPlaces {α : Type} (keep : Nat → Bool) (l : List α) : List α :=
  (l.zipIdx.filter fun p => keep p.2).map Prod.fst

section InPlaces

variable {α β : Type}

theorem inPlaces_cons (keep : Nat → Bool) (a : α) (l : List α) :
    inPlaces keep (a :: l) =
      (if keep 0 then [a] else []) ++ inPlaces (fun i => keep (i + 1)) l := by
  rw [inPlaces, inPlaces, List.zipIdx_cons, List.zipIdx_succ, List.filter_cons, List.filter_map]
  cases keep 0 <;> simp [Function.comp_def]

theorem exists_inPlaces {R : α → β → Prop} {l : List α} {l' : List β} {p : α → Bool} {q : β → Bool}
    (related : List.Forall₂ R l l') (same : ∀ {a b}, R a b → q b = p a) :
    ∃ keep, l.filter p = inPlaces keep l ∧ l'.filter q = inPlaces keep l' := by
  induction related with
  | nil => exact ⟨fun _ => false, rfl, rfl⟩
  | @cons a b l l' first _ ih =>
    obtain ⟨keep, left, right⟩ := ih
    refine ⟨fun i => i.casesOn (p a) keep, ?_, ?_⟩
    · rw [inPlaces_cons, List.filter_cons, left]
      cases p a <;> rfl
    · rw [inPlaces_cons, List.filter_cons, right, same first]
      cases p a <;> rfl

end InPlaces

/-! ### Outcomes -/

/-- Outcomes of two attempts. What both succeed with is related, and on an even footing both succeed
or both fail. -/
structure AlikeIf {α β : Type} (even : Prop) (R : α → β → Prop) (x : Except Failure α)
    (y : Except Failure β) : Prop where
  related : ∀ a b, x = .ok a → y = .ok b → R a b
  succeed : even → x.isOk = y.isOk

namespace AlikeIf

variable {α β γ δ : Type} {even : Prop} {R : α → β → Prop} {S : γ → δ → Prop}
  {x : Except Failure α} {y : Except Failure β}

theorem ok {a : α} {b : β} (h : R a b) : AlikeIf even R (.ok a) (.ok b) where
  related := by
    rintro _ _ ⟨⟩ ⟨⟩
    exact h
  succeed _ := rfl

theorem error (e f : Failure) : AlikeIf even R (.error e) (.error f) where
  related := by
    rintro _ _ ⟨⟩
  succeed _ := rfl

theorem bind (h : AlikeIf even R x y) {f : α → Except Failure γ} {g : β → Except Failure δ}
    (next : ∀ {a b}, R a b → AlikeIf even S (f a) (g b)) :
    AlikeIf even S (x.bind f) (y.bind g) := by
  cases x with
  | error e =>
    cases y with
    | error e' => exact error e e'
    | ok b => exact ⟨nofun, fun footing => nomatch h.succeed footing⟩
  | ok a =>
    cases y with
    | error e' => exact ⟨fun _ _ _ => nofun, fun footing => nomatch h.succeed footing⟩
    | ok b => exact next (h.related a b rfl rfl)

theorem map (h : AlikeIf even R x y) {f : α → γ} {g : β → δ}
    (next : ∀ {a b}, R a b → S (f a) (g b)) : AlikeIf even S (x.map f) (y.map g) := by
  have bound := h.bind (f := .ok ∘ f) (g := .ok ∘ g) fun related => ok (next related)
  cases x <;> cases y <;> exact bound

end AlikeIf

/-! ### Variants and selections -/

def Artifact.Reissued (a b : Artifact) : Prop := a.name.Reissued b.name

structure PhysicalVariant.Reissued (v w : PhysicalVariant) : Prop where
  id : w.id = v.id
  displayName : w.displayName = v.displayName
  attributes : w.attributes = v.attributes
  artifacts : List.Forall₂ Artifact.Reissued v.artifacts w.artifacts

structure ResolvedVariant.KeptAlike (v w : ResolvedVariant) : Prop where
  variant : v.variant.Reissued w.variant
  attributes : w.attributes = v.attributes
  places : ∃ keep, v.artifacts = inPlaces keep v.variant.artifacts ∧
    w.artifacts = inPlaces keep w.variant.artifacts

theorem ResolvedVariant.keptAlike_under {m m' : ModuleCoordinate} (module : m.Reissued m')
    (e : Exclusion) (overrides : Attributes) {v w : PhysicalVariant} (variant : v.Reissued w) :
    (under m e overrides v).KeptAlike (under m' e overrides w) where
  variant := variant
  attributes := congrArg (·.overlay overrides) variant.attributes
  places := exists_inPlaces variant.artifacts fun artifact =>
    congrArg not (e.excludesArtifact_reissued module artifact)

/-- Two selections, each from its own supply of candidates. What both select are the same variants
in the same order, with artifacts kept in the same places; and if both are supplied or neither is,
then both succeed or both are refused. -/
def SelectsAlike (supply supply' : Except Failure VariantSet)
    (answer answer' : Except Failure ResolvedSet) : Prop :=
  AlikeIf (supply.isOk = supply'.isOk)
    (fun set set' => List.Forall₂ ResolvedVariant.KeptAlike set.variants set'.variants)
    answer answer'

namespace SelectionRequest

variable {σ : Type} {r r' : SelectionRequest σ} {s s' : σ}

/-- A request in state `s`, and one in state `s'` about what was issued again. -/
structure Reissued (r : SelectionRequest σ) (s : σ) (r' : SelectionRequest σ) (s' : σ) : Prop where
  coordinate : r.component.coordinate.Reissued r'.component.coordinate
  exclusion : r'.exclusion = r.exclusion
  overrides : r'.overrides = r.overrides
  declared : List.Forall₂ PhysicalVariant.Reissued r.declared.variants r'.declared.variants
  candidates : ∀ c c', (r.candidates s).1 = .ok c → (r'.candidates s').1 = .ok c' →
    List.Forall₂ PhysicalVariant.Reissued c.variants c'.variants

namespace Reissued

theorem settle (h : r.Reissued s r' s') (p : Policy) (even : Prop) {l l' : List PhysicalVariant}
    (related : List.Forall₂ PhysicalVariant.Reissued l l') :
    AlikeIf even (List.Forall₂ PhysicalVariant.Reissued) (p.settle r l).1 (p.settle r' l').1 := by
  rcases p.forall₂_settle h.overrides h.declared related with
    ⟨k, k', settled, settled', related⟩ | ⟨refused, refused'⟩
  · rw [settled, settled']
    exact .ok related
  · rw [refused, refused']
    exact .error _ _

theorem choose (h : r.Reissued s r' s') (p : Policy) :
    AlikeIf ((r.candidates s).1.isOk = (r'.candidates s').1.isOk)
      (List.Forall₂ PhysicalVariant.Reissued) (p.choose r s).1 (p.choose r' s').1 := by
  have supply : AlikeIf ((r.candidates s).1.isOk = (r'.candidates s').1.isOk)
      (fun c c' : VariantSet => List.Forall₂ PhysicalVariant.Reissued c.variants c'.variants)
      (r.candidates s).1 (r'.candidates s').1 := ⟨h.candidates, fun even => even⟩
  rw [p.chosen_eq r, p.chosen_eq r', h.exclusion,
    r.exclusion.excludesModule_reissued h.coordinate, h.overrides]
  split
  · exact .ok .nil
  · split
    · exact .ok h.declared
    · refine supply.bind fun candidates => h.settle p _ ?_
      exact VariantSet.forall₂_bestMatches (·.attributes) candidates h.declared r.overrides

theorem keptAlike_resolved (h : r.Reissued s r' s') {l l' : List PhysicalVariant}
    (related : List.Forall₂ PhysicalVariant.Reissued l l') :
    List.Forall₂ ResolvedVariant.KeptAlike (r.resolved l).variants (r'.resolved l').variants := by
  rw [resolved, resolved, List.forall₂_map_left_iff, List.forall₂_map_right_iff, h.exclusion,
    h.overrides]
  exact related.imp fun _ _ variant =>
    ResolvedVariant.keptAlike_under h.coordinate r.exclusion r.overrides variant

theorem selectsAlike (h : r.Reissued s r' s') (p : Policy) :
    SelectsAlike (r.candidates s).1 (r'.candidates s').1 (p.select r ∅ s).answer
      (p.select r' ∅ s').answer := by
  rw [Policy.answer_select, Policy.answer_select]
  exact (h.choose p).map h.keptAlike_resolved

end Reissued

end SelectionRequest

/-! ### Components -/

structure Configuration.Reissued (c d : Configuration) : Prop where
  name : d.name = c.name
  attributes : d.attributes = c.attributes
  artifacts : List.Forall₂ Artifact.Reissued c.artifacts d.artifacts
  variants : c.Parallels PhysicalVariant.Reissued d

structure Variant.Reissued (v w : Variant) : Prop where
  label : w.label = v.label
  settles : ∀ {b c}, v.Settles b → w.Settles c → b.Reissued c

/-- Components that are the same up to their ids, the version of the module, and owners, classifiers
and files of artifacts. -/
structure Component.Reissued (c e : Component) : Prop where
  coordinate : c.coordinate.Reissued e.coordinate
  attributes : e.attributes = c.attributes
  configurations : List.Forall₂ Variant.Reissued c.configurations e.configurations
  graph : Option.Rel (List.Forall₂ Variant.Reissued) c.graph e.graph

theorem Component.Reissued.variant? {c e : Component} (h : c.Reissued e) (x : String) :
    Option.Rel Variant.Reissued (c.variant? x) (e.variant? x) :=
  rel_find? (forall₂_variants h.configurations h.graph) fun same => by
    rw [Variant.id, Variant.id, same.label]

end ArtifactSelection
