import ArtifactSelection.Desk
import ArtifactSelection.Proofs.Cache.Publication
import ArtifactSelection.Proofs.Component.Variants

/-!
One request at a desk. It ends in one of four ways; in each of them the desk stays faithful, which
means that every handle is the component's own variant with the configuration kept for it.
-/

namespace ArtifactSelection

/-- A handle of `c` for the id `x`, with what the memory keeps for its variant. -/
structure Handle.Serves (h : Handle) (c : Component) (x : String) (m : Memory) : Prop where
  component : h.component = c
  own : c.variant? x = some h.variant
  kept : m.configuration? h.variant.key = some h.configuration

namespace Desk

def Faithful (d : Desk) (m : Memory) : Prop :=
  ∀ ⦃x h⦄, d.handles.get? x = some h → h.value.Serves d.component x m

theorem faithful_opened (c : Component) (settings : Option CacheSettings) (m : Memory) :
    (opened c settings).Faithful m := by
  intro x h found
  cases found

theorem Faithful.grows {d : Desk} {m m' : Memory} (right : d.Faithful m) (grows : m.Extends m') :
    d.Faithful m' := by
  intro x h found
  have serves := right found
  exact ⟨serves.component, serves.own, grows serves.kept⟩

/-- The ways in which a request can end, with the desk and the memory left behind. -/
inductive Requests (d : Desk) (v : Variant) (m : Memory) :
    Except Failure (Shared Handle) → Desk → Memory → Prop
  | unknown : d.component.variant? v.id = none →
      Requests d v m (.error (.unknownVariant (toString d.component.id) v.id)) d m
  | reused {own : Variant} {h : Shared Handle} : d.component.variant? v.id = some own →
      d.handles.get? v.id = some h → Requests d v m (.ok h) d (m.note (.reused v.id))
  | published {own : Variant} {c : Configuration} {m' : Memory} :
      d.component.variant? v.id = some own → d.handles.get? v.id = none →
      own.Prepares (m.note (.building v.id)) (.ok c) m' →
      Requests d v m (.ok ⟨d.handles.size, ⟨d.component, own, c⟩⟩)
        { d with handles := d.handles.publish v.id ⟨d.component, own, c⟩ } m'
  | failed {own : Variant} {e : Failure} {m' : Memory} :
      d.component.variant? v.id = some own → d.handles.get? v.id = none →
      own.Prepares (m.note (.building v.id)) (.error e) m' →
      Requests d v m (.error e) d (m'.note (.notBuilt v.id))

theorem requests (d : Desk) (v : Variant) (m : Memory) :
    d.Requests v m (d.request v m).1 (d.request v m).2.1 (d.request v m).2.2 := by
  cases known : d.component.variant? v.id with
  | none => simpa [request, known] using Requests.unknown (m := m) known
  | some own =>
    have id := Component.id_of_variant? known
    cases found : d.handles.get? v.id with
    | some h => simpa [request, known, id, Cache.contains, Cache.getOrBuild, found] using
        Requests.reused (m := m) known found
    | none =>
      have outcome := own.prepares (m.note (.building v.id))
      cases run : own.prepare (m.note (.building v.id)) with
      | mk answer m' =>
        rw [run] at outcome
        cases answer with
        | ok c => simpa [request, known, id, Cache.contains, Cache.getOrBuild, found, build, run]
            using Requests.published known found outcome
        | error e => simpa [request, known, id, Cache.contains, Cache.getOrBuild, found, build, run]
            using Requests.failed known found outcome

namespace Requests

variable {d d' : Desk} {v : Variant} {m m' : Memory} {r : Except Failure (Shared Handle)}

theorem component (h : d.Requests v m r d' m') : d'.component = d.component := by
  cases h <;> rfl

theorem reaches (h : d.Requests v m r d' m') :
    m.Reaches {own | d.component.variant? v.id = some own} m' := by
  have begun (e : Event) :=
    (Memory.Reaches.refl m {own | d.component.variant? v.id = some own}).note e
  cases h with
  | unknown => exact .refl _ _
  | reused => exact begun _
  | @published own c _ known _ outcome =>
    have ended := (begun (.building v.id)).prepare (v := own) known
    rwa [outcome.prepare_eq] at ended
  | @failed own e m' known _ outcome =>
    have ended := (begun (.building v.id)).prepare (v := own) known
    rw [outcome.prepare_eq] at ended
    exact ended.note _

theorem get?_answer {shared : Shared Handle} (h : d.Requests v m (.ok shared) d' m') :
    d'.handles.get? v.id = some shared := by
  cases h with
  | reused _ found => exact found
  | published => simp [Cache.get?_publish]

theorem get?_of_get? (h : d.Requests v m r d' m') {x : String} {shared : Shared Handle}
    (found : d.handles.get? x = some shared) : d'.handles.get? x = some shared := by
  cases h with
  | published _ new _ => exact Cache.get?_publish_of_get? new found _
  | _ => exact found

theorem get?_cases (h : d.Requests v m r d' m') {x : String} {shared : Shared Handle}
    (found : d'.handles.get? x = some shared) :
    d.handles.get? x = some shared ∨ x = v.id ∧ r = .ok shared := by
  cases h with
  | published _ new _ =>
    rw [Cache.get?_publish] at found
    split at found
    · next same =>
      obtain rfl := Option.some.inj found
      exact .inr ⟨same.symm, rfl⟩
    · exact .inl found
  | _ => exact .inl found

theorem get?_of_ne (h : d.Requests v m r d' m') {x : String} (other : x ≠ v.id) :
    d'.handles.get? x = d.handles.get? x := by
  cases h with
  | published => simp [Cache.get?_publish, other.symm]
  | _ => rfl

/-- A request that fails leaves the desk and all that is kept as they were. -/
theorem unchanged_of_error {e : Failure} (h : d.Requests v m (.error e) d' m') :
    d' = d ∧ ∀ k, m'.configuration? k = m.configuration? k := by
  cases h with
  | unknown => exact ⟨rfl, fun _ => rfl⟩
  | failed _ _ outcome => exact ⟨rfl, fun k => outcome.configuration?_of_error k⟩

theorem nodup_keys (h : d.Requests v m r d' m') (distinct : d.handles.keys.Nodup) :
    d'.handles.keys.Nodup := by
  cases h with
  | published _ new _ => exact Cache.nodup_keys_publish new distinct _
  | _ => exact distinct

theorem faithful (h : d.Requests v m r d' m') (right : d.Faithful m) : d'.Faithful m' := by
  have grown := right.grows h.reaches.grows
  cases h with
  | @published own c _ known new outcome =>
    intro x shared found
    rw [Cache.get?_publish] at found
    split at found
    · next same =>
      obtain rfl := Option.some.inj found
      exact ⟨rfl, same ▸ known, outcome.configuration?_key⟩
    · exact grown found
  | _ => exact grown

theorem unknown_iff (h : d.Requests v m r d' m') :
    (∃ component variant, r = .error (.unknownVariant component variant)) ↔
      d.component.variant? v.id = none := by
  cases h with
  | unknown none => simp [none]
  | reused known => simp [known]
  | published known => simp [known]
  | @failed own e _ known _ outcome =>
    obtain ⟨cause, rfl⟩ := outcome.error_eq
    simp [known]

theorem ok_of_ready (h : d.Requests v m r d' m') {own : Variant}
    (known : d.component.variant? v.id = some own)
    (ready : own.Ready (m.note (.building v.id))) : ∃ shared, r = .ok shared := by
  cases h with
  | unknown none => cases none.symm.trans known
  | reused => exact ⟨_, rfl⟩
  | published => exact ⟨_, rfl⟩
  | failed known' _ outcome =>
    obtain rfl := Option.some.inj (known.symm.trans known')
    obtain ⟨c, ok⟩ := ready
    rw [outcome.prepare_eq] at ok
    cases ok

end Requests

end Desk

end ArtifactSelection
