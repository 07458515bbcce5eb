import ArtifactSelection.Proofs.Selection.Choice

/-!
The outcome of a selection by a policy. An excluded module selects nothing, and without overrides
the declared variants are selected; neither asks for candidates. Otherwise the candidates are asked
for once, and the choice is among them if one of them shares a value with the overrides.
-/

namespace ArtifactSelection

namespace Scratch

theorem values_resolveAll (resolve : PhysicalVariant → ResolvedVariant)
    (events : PhysicalVariant → List Event) {l : List PhysicalVariant} (scratch : Scratch)
    (distinct : (l.map (·.id)).Nodup) :
    (scratch.resolveAll resolve events l).1.map (·.value) =
      l.map fun v => ((scratch.get? v.id).map (·.value)).getD (resolve v) := by
  induction l generalizing scratch with
  | nil => rfl
  | cons v l ih =>
    obtain ⟨new, distinct⟩ := List.nodup_cons.1 distinct
    rw [resolveAll, Cache.getOrInsert]
    cases found : scratch.get? v.id with
    | some shared => simp [ih scratch distinct, found]
    | none =>
      -- No later variant has the id that was resolved just now.
      have later : ∀ w ∈ l, (scratch.publish v.id (resolve v)).get? w.id = scratch.get? w.id := by
        intro w hw
        have different : v.id ≠ w.id := fun same => new (List.mem_map.2 ⟨w, hw, same.symm⟩)
        rw [Cache.get?_publish, if_neg different]
      simp only [List.map_cons, ih _ distinct, found, Option.map_none, Option.getD_none]
      congr 1
      exact List.map_congr_left fun w hw => by rw [later w hw]

end Scratch

namespace SelectionRequest

variable {σ : Type}

def counted (r : SelectionRequest σ) : SelectionRequest (σ × Nat) where
  component := r.component
  candidates s := ((r.candidates s.1).1, (r.candidates s.1).2, s.2 + 1)
  declared := r.declared
  exclusion := r.exclusion
  overrides := r.overrides

/-- The chosen variants as an answer: each with its effective attributes, and with those artifacts
that are not excluded. -/
def resolved (r : SelectionRequest σ) (l : List PhysicalVariant) : ResolvedSet :=
  ⟨l.map fun v =>
    { variant := v
      attributes := v.attributes.overlay r.overrides
      artifacts := v.artifacts.filter fun a =>
        !r.exclusion.excludesArtifact r.component.coordinate a.name }⟩

def resolvedThrough (r : SelectionRequest σ) (scratch : Scratch) (l : List PhysicalVariant) :
    ResolvedSet :=
  ⟨l.map fun v => ((scratch.get? v.id).map (·.value)).getD
    (.under r.component.coordinate r.exclusion r.overrides v)⟩

end SelectionRequest

namespace Policy

variable {σ : Type}

theorem nodup_ids_of_sublist {s : VariantSet} {l : List PhysicalVariant}
    (part : l.Sublist s.variants) : (l.map (·.id)).Nodup := s.nodup_ids.sublist (part.map _)

theorem chosen_eq (p : Policy) (r : SelectionRequest σ) (s : σ) :
    (p.choose r s).1 =
      if r.exclusion.excludesModule r.component.coordinate then .ok []
      else if r.overrides.isEmpty then .ok r.declared.variants
      else (r.candidates s).1.bind fun c =>
        (p.settle r (c.bestMatches r.declared r.overrides)).1 := by
  rw [choose]
  split
  · rfl
  · split
    · rfl
    · split
      · next supplied => rw [supplied]; rfl
      · next supplied => rw [supplied]; rfl

theorem settle_eq (p : Policy) (r : SelectionRequest σ) (l : List PhysicalVariant) :
    (p.settle r l).1 =
      if l ≠ [] then .ok l
      else if p.lenient then .ok r.declared.variants
      else .error (.noMatchingVariant (toString r.component.id) (toString r.overrides)) := by
  rw [settle]
  cases l with
  | nil => cases p.lenient <;> rfl
  | cons => rfl

theorem sublist_settle {p : Policy} {r : SelectionRequest σ} {l l' : List PhysicalVariant}
    (settled : (p.settle r l).1 = .ok l') : l' = l ∨ l' = r.declared.variants := by
  rw [settle_eq] at settled
  split at settled
  · exact .inl (Except.ok.inj settled).symm
  · split at settled
    · exact .inr (Except.ok.inj settled).symm
    · cases settled

theorem nodup_ids_choose (p : Policy) (r : SelectionRequest σ) (s : σ) {l : List PhysicalVariant}
    (chosen : (p.choose r s).1 = .ok l) : (l.map (·.id)).Nodup := by
  rw [chosen_eq] at chosen
  split at chosen
  · obtain rfl := Except.ok.inj chosen
    exact .nil
  · split at chosen
    · obtain rfl := Except.ok.inj chosen
      exact r.declared.nodup_ids
    · cases supplied : (r.candidates s).1 with
      | error e => simp [supplied, Except.bind] at chosen
      | ok c =>
        rw [supplied] at chosen
        rcases sublist_settle chosen with rfl | rfl
        · by_cases shares : c.Shares r.overrides
          · exact nodup_ids_of_sublist (VariantSet.bestMatches_of_shares shares _).sublist
          · exact nodup_ids_of_sublist (VariantSet.bestMatches_of_not_shares shares _).sublist
        · exact r.declared.nodup_ids

theorem answer_select_through (p : Policy) (r : SelectionRequest σ) (scratch : Scratch) (s : σ) :
    (p.select r scratch s).answer = (p.choose r s).1.map (r.resolvedThrough scratch) := by
  rw [select]
  split
  · next chosen => rw [chosen]; rfl
  · next l _ _ chosen =>
    have distinct := p.nodup_ids_choose r s (congrArg Prod.fst chosen)
    have values := Scratch.values_resolveAll
      (.under r.component.coordinate r.exclusion r.overrides)
      (ResolvedVariant.events r.component.coordinate r.exclusion) scratch distinct
    rw [chosen]
    exact congrArg (fun l => Except.ok (ResolvedSet.mk l)) values

theorem answer_select (p : Policy) (r : SelectionRequest σ) (s : σ) :
    (p.select r ∅ s).answer = (p.choose r s).1.map r.resolved := p.answer_select_through r ∅ s

theorem answer_of_candidates (p : Policy) {r : SelectionRequest σ} {s : σ}
    (included : r.exclusion.excludesModule r.component.coordinate = false)
    (overrides : r.overrides.isEmpty = false) :
    (p.select r ∅ s).answer = (r.candidates s).1.bind fun c =>
      (p.settle r (c.bestMatches r.declared r.overrides)).1.map r.resolved := by
  rw [answer_select, chosen_eq, if_neg (Bool.eq_false_iff.1 included),
    if_neg (Bool.eq_false_iff.1 overrides)]
  cases (r.candidates s).1 <;> rfl

/-- The answer to every request, and how often the candidates are asked for on the way. -/
theorem select_outcome (p : Policy) (r : SelectionRequest σ) (s : σ) :
    let excluded := r.exclusion.excludesModule r.component.coordinate
    let answer := (p.select r ∅ s).answer
    let asked := (p.select r.counted ∅ (s, 0)).state
    (excluded = true → answer = .ok ∅ ∧ asked = (s, 0)) ∧
    (excluded = false → r.overrides.isEmpty = true →
      answer = .ok (r.resolved r.declared.variants) ∧ asked = (s, 0)) ∧
    (excluded = false → r.overrides.isEmpty = false →
      asked = ((r.candidates s).2, 1) ∧
      (∀ e, (r.candidates s).1 = .error e → answer = .error e) ∧
      ∀ c, (r.candidates s).1 = .ok c →
        (c.Shares r.overrides →
          ∃ l, c.Picks (c.IsBest r.overrides) l ∧ answer = .ok (r.resolved l)) ∧
        (¬c.Shares r.overrides →
          ∃ l, r.declared.Picks (fun v => v.attributes.Admits r.overrides) l ∧
            (l ≠ [] → answer = .ok (r.resolved l)) ∧
            (l = [] → p.lenient = true → answer = .ok (r.resolved r.declared.variants)) ∧
            (l = [] → p.lenient = false → answer =
              .error (.noMatchingVariant (toString r.component.id) (toString r.overrides))))) := by
  intro excluded answer asked
  have chosen : answer = _ := (p.answer_select r s).trans (congrArg _ (p.chosen_eq r s))
  have state : asked =
      if excluded || r.overrides.isEmpty then (s, 0) else ((r.candidates s).2, 1) :=
    (p.state_select r.counted ∅ (s, 0)).trans (p.state_choose r.counted (s, 0))
  refine ⟨fun excl => ?_, fun incl empty => ?_, fun incl overrides => ?_⟩
  · rw [chosen, if_pos excl, state, excl]
    exact ⟨rfl, rfl⟩
  · rw [chosen, if_neg (Bool.eq_false_iff.1 incl), if_pos empty, state, incl, empty]
    exact ⟨rfl, rfl⟩
  · have supplied : answer = _ := p.answer_of_candidates incl overrides
    refine ⟨by rw [state, incl, overrides]; rfl, fun e fails => ?_, fun c offer => ?_⟩
    · rw [supplied, fails]
      rfl
    · have settled : answer =
          (p.settle r (c.bestMatches r.declared r.overrides)).1.map r.resolved := by
        rw [supplied, offer]
        rfl
      rw [settle_eq] at settled
      refine ⟨fun shares => ?_, fun unmatched => ?_⟩
      · rw [if_pos (VariantSet.bestMatches_ne_nil shares r.declared)] at settled
        exact ⟨_, VariantSet.bestMatches_of_shares shares r.declared, settled⟩
      · refine ⟨_, VariantSet.bestMatches_of_not_shares unmatched r.declared, ?_, ?_, ?_⟩
        · intro some
          rw [settled, if_pos some]
          rfl
        · intro none lenient
          rw [settled, if_neg (not_not_intro none), if_pos lenient]
          rfl
        · intro none strict
          rw [settled, if_neg (not_not_intro none), if_neg (Bool.eq_false_iff.1 strict)]
          rfl

end Policy

end ArtifactSelection
