import ArtifactSelection.Proofs.Session.Effect
import Mathlib.Data.Set.Basic

/-!
Soundness of a session. Variants and their copies share one memory; a session is sound when that
memory is right about all of them and every handle holds what is kept for its variant. No operation
makes a sound session unsound.
-/

namespace ArtifactSelection

theorem Memory.Reaches.known {m m' : Memory} {U : Set Variant} (h : m.Reaches U m')
    {k : VariantKey} {c : Configuration} (kept : m'.configuration? k = some c) :
    m.configuration? k = some c ∨ ∃ v ∈ U, ∃ w ∈ v.ancestry, w.key = k := by
  by_cases prepared : ∃ v ∈ U, ∃ w ∈ v.ancestry, w.key = k
  · exact .inr prepared
  · refine .inl ((h.configuration?_of_ne fun v hv w hw same => ?_).symm.trans kept)
    exact prepared ⟨v, hv, w, hw, same⟩

namespace Session

/-- What holds of a session whatever is done in it. -/
structure Sound (s : Session) : Prop where
  family : Variant.Coherent s.ancestry
  numbered : ∀ {k f v}, .copied k f v ∈ s.ancestry → k < s.copyings
  known : ∀ {k c}, s.memory.configuration? k = some c → ∃ v ∈ s.ancestry, v.key = k
  right : ∀ v ∈ s.ancestry, s.memory.Records v
  faithful : ∀ d ∈ s.desks, d.Faithful s.memory

theorem ancestry_closed {s : Session} {v w : Variant} (hv : v ∈ s.ancestry)
    (hw : w ∈ v.ancestry) : w ∈ s.ancestry := by
  obtain ⟨d, hd, below⟩ := hv
  exact ⟨d, hd, Component.ancestry_closed below hw⟩

theorem Sound.worked {s : Session} (sound : s.Sound) {m : Memory}
    (work : s.memory.Reaches s.ancestry m) : Sound { s with memory := m } where
  family := sound.family
  numbered := sound.numbered
  known := by
    intro k c kept
    rcases work.known kept with before | ⟨v, hv, w, hw, same⟩
    · exact sound.known before
    · exact ⟨w, ancestry_closed hv hw, same⟩
  right := work.records sound.family (fun _ hv => hv) sound.right
  faithful := fun d hd => (sound.faithful d hd).grows work.grows

theorem Sound.of_ancestry {s t : Session} (sound : s.Sound) (same : t.ancestry = s.ancestry)
    (memory : t.memory = s.memory) (copyings : t.copyings = s.copyings)
    (faithful : ∀ d ∈ t.desks, d.Faithful t.memory) : t.Sound where
  family := by
    rw [same]
    exact sound.family
  numbered := by
    rw [same, copyings]
    exact sound.numbered
  known := by
    rw [same, memory]
    exact sound.known
  right := by
    rw [same, memory]
    exact sound.right
  faithful := faithful

theorem components_set {s : Session} {i : Nat} {d d' : Desk} (found : s.desks[i]? = some d)
    (same : d'.component = d.component) :
    (s.desks.set i d').map (·.component) = s.desks.map (·.component) := by
  obtain ⟨bound, rfl⟩ := List.getElem?_eq_some_iff.1 found
  have inside : i < (s.desks.map (·.component)).length := by simpa using bound
  have here : d'.component = (s.desks.map (·.component))[i] := by simp [same]
  rw [List.map_set, here, List.set_getElem_self]

theorem ancestry_eq_of_components {s t : Session}
    (same : s.desks.map (·.component) = t.desks.map (·.component)) : s.ancestry = t.ancestry := by
  have read (s : Session) :
      s.ancestry = {v | ∃ c ∈ s.desks.map (·.component), v ∈ c.ancestry} := by
    ext v
    constructor
    · rintro ⟨d, hd, hv⟩
      exact ⟨d.component, List.mem_map_of_mem hd, hv⟩
    · rintro ⟨c, hc, hv⟩
      obtain ⟨d, hd, rfl⟩ := List.mem_map.1 hc
      exact ⟨d, hd, hv⟩
  rw [read, read, same]

theorem Sound.asked {s : Session} (sound : s.Sound) {i : Nat} {d d' : Desk} {v : Variant}
    {r : Except Failure (Shared Handle)} {m : Memory} (found : s.desks[i]? = some d)
    (step : d.Requests v s.memory r d' m) :
    Sound { s with desks := s.desks.set i d', memory := m } := by
  have work : s.memory.Reaches s.ancestry m := step.reaches.mono fun w hw =>
    mem_ancestry (mem_of_desk? found) (Component.mem_variants_of_variant? hw)
  have after := sound.worked work
  have same : ancestry { s with desks := s.desks.set i d', memory := m } = s.ancestry :=
    ancestry_eq_of_components (components_set found step.component)
  refine after.of_ancestry same rfl rfl fun e he => ?_
  rcases List.mem_or_eq_of_mem_set he with earlier | rfl
  · exact after.faithful e earlier
  · exact step.faithful (sound.faithful d (mem_of_desk? found))

theorem ancestry_append (s : Session) (d : Desk) (m : Memory) (n : Nat) :
    ancestry { s with desks := s.desks ++ [d], memory := m, copyings := n } =
      {v | v ∈ s.ancestry ∨ v ∈ d.component.ancestry} := by
  ext v
  constructor
  · rintro ⟨e, he, hv⟩
    rcases List.mem_append.1 he with earlier | new
    · exact .inl ⟨e, earlier, hv⟩
    · obtain rfl := List.mem_singleton.1 new
      exact .inr hv
  · rintro (⟨e, he, hv⟩ | hv)
    · exact ⟨e, List.mem_append_left _ he, hv⟩
    · exact ⟨d, List.mem_append_right _ (List.mem_singleton_self _), hv⟩

theorem Sound.reopened {s : Session} (sound : s.Sound) {d : Desk} (hd : d ∈ s.desks)
    (settings : Option CacheSettings) :
    Sound { s with desks := s.desks ++ [.opened d.component settings] } := by
  have same :
      ancestry { s with desks := s.desks ++ [.opened d.component settings] } = s.ancestry := by
    rw [ancestry_append]
    ext v
    exact ⟨fun hv => hv.elim id fun hv => ⟨d, hd, hv⟩, .inl⟩
  refine sound.of_ancestry same rfl rfl fun e he => ?_
  rcases List.mem_append.1 he with earlier | new
  · exact sound.faithful e earlier
  · obtain rfl := List.mem_singleton.1 new
    exact Desk.faithful_opened _ _ _

theorem Sound.fresh {s : Session} (sound : s.Sound) {v : Variant} (hv : v ∈ s.ancestry)
    (k : VariantKey) : v.key ≠ .copied s.copyings k := by
  intro same
  cases v with
  | original => cases same
  | copied j f w =>
    obtain ⟨rfl, _⟩ := VariantKey.copied.inj same
    exact Nat.lt_irrefl _ (sound.numbered hv)

theorem mem_ancestry_withCopy {s : Session} {d : Desk} (hd : d ∈ s.desks) {id : ComponentId}
    {f : Artifact → Artifact} {v : Variant} (hv : v ∈ (s.withCopy d id f).ancestry) :
    (∃ w ∈ s.ancestry, v = .copied s.copyings f w) ∨ v ∈ s.ancestry := by
  rw [withCopy, ancestry_append] at hv
  rcases hv with before | copied
  · exact .inr before
  · rcases Component.mem_ancestry_copy copied with ⟨w, hw, rfl⟩ | below
    · exact .inl ⟨w, mem_ancestry hd hw, rfl⟩
    · exact .inr ⟨d, hd, below⟩

theorem ancestry_subset_withCopy (s : Session) (d : Desk) (id : ComponentId)
    (f : Artifact → Artifact) : ∀ v ∈ s.ancestry, v ∈ (s.withCopy d id f).ancestry := by
  rw [withCopy, ancestry_append]
  exact fun v hv => .inl hv

theorem Sound.copied {s : Session} (sound : s.Sound) {d : Desk} (hd : d ∈ s.desks)
    (id : ComponentId) (f : Artifact → Artifact) : (s.withCopy d id f).Sound where
  family := by
    refine ⟨fun hv => ancestry_closed hv ?_, ?_⟩
    · exact List.mem_cons_of_mem _ (Variant.mem_ancestry_self _)
    · intro v w hv hw alike
      -- The number of the copying stands in the key, so no older variant has the key of a new one.
      rcases mem_ancestry_withCopy hd hv with ⟨a, ha, rfl⟩ | hv' <;>
        rcases mem_ancestry_withCopy hd hw with ⟨b, hb, rfl⟩ | hw'
      · obtain ⟨_, sources⟩ := VariantKey.copied.inj alike
        rw [sound.family.eq_of_key ha hb sources]
      · exact absurd alike.symm (sound.fresh hw' a.key)
      · exact absurd alike (sound.fresh hv' b.key)
      · exact sound.family.eq_of_key hv' hw' alike
  numbered := by
    intro k g v hv
    rcases mem_ancestry_withCopy hd hv with ⟨w, _, copy⟩ | before
    · obtain ⟨rfl, _, _⟩ := Variant.copied.inj copy
      exact Nat.lt_succ_self _
    · exact Nat.lt_succ_of_lt (sound.numbered before)
  known := by
    intro k c kept
    obtain ⟨v, hv, key⟩ := sound.known kept
    exact ⟨v, ancestry_subset_withCopy s d id f v hv, key⟩
  right := by
    intro v hv
    rcases mem_ancestry_withCopy hd hv with ⟨w, hw, rfl⟩ | before
    · refine .copyPending (Option.eq_none_iff_forall_ne_some.2 fun c kept => ?_)
      obtain ⟨u, hu, key⟩ := sound.known kept
      exact sound.fresh hu w.key key
    · exact (sound.right v before).note _
  faithful := by
    intro e he
    rcases List.mem_append.1 he with earlier | new
    · exact (sound.faithful e earlier).grows fun _ _ kept => kept
    · obtain rfl := List.mem_singleton.1 new
      exact Desk.faithful_opened _ none _

theorem sound_opened {c : Component} {n : Nat} (numbered : c.Numbered n)
    (settings : Option CacheSettings) : (opened c settings n).Sound := by
  have same : (opened c settings n).ancestry = c.ancestry := by
    ext v
    constructor
    · rintro ⟨d, hd, hv⟩
      obtain rfl := List.mem_singleton.1 hd
      exact hv
    · exact fun hv => ⟨_, List.mem_singleton_self _, hv⟩
  constructor
  · rw [same]
    exact numbered.family
  · rw [same]
    exact numbered.below
  · intro k c kept
    cases kept
  · exact fun v _ => Memory.records_empty v
  · intro d hd
    obtain rfl := List.mem_singleton.1 hd
    exact Desk.faithful_opened _ _ _

theorem Performs.sound {s t : Session} (step : s.Performs t) (sound : s.Sound) : t.Sound := by
  cases step with
  | idle => exact sound
  | asked found step => exact sound.asked found step
  | worked work => exact sound.worked work
  | copied id f hd => exact sound.copied hd id f
  | reopened settings hd => exact sound.reopened hd settings

end Session

end ArtifactSelection
