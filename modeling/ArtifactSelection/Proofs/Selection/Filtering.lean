import ArtifactSelection.Proofs.Exclusion.Agreement
import ArtifactSelection.Proofs.Exclusion.Combination
import ArtifactSelection.Proofs.Selection.Listing
import ArtifactSelection.Proofs.Session.Frame

/-!
Selections under two rules together. The second rule chooses no other variants, so it takes artifacts
out of the joint list and does nothing else. Where the two exclude the module, nothing is chosen at
all, which comes to the same. It does not matter which of the two rules is the second.
-/

namespace ArtifactSelection

namespace Exclusion

/-- Two rules exclude the same of a module, as a whole and artifact by artifact. -/
structure Agree (m : ModuleCoordinate) (e e' : Exclusion) : Prop where
  whole : e.excludesModule m = e'.excludesModule m
  artifact : ∀ a, e.excludesArtifact m a = e'.excludesArtifact m a

theorem agree_combine_swap (m : ModuleCoordinate) (s t : Exclusion) :
    Agree m (combine [t, s]) (combine [s, t]) where
  whole := by
    have modules := distributes_excludesModule m
    rw [modules.combine_pair, modules.combine_pair, Bool.or_comm]
  artifact a := by
    have artifacts := distributes_excludesArtifact m a
    rw [artifacts.combine_pair, artifacts.combine_pair, Bool.or_comm]

end Exclusion

namespace Handle

variable {h : Handle} {p : Policy} {e e' : Exclusion} {overrides : Attributes} {m : Memory}

theorem chosen_congr
    (same : e.excludesModule h.component.coordinate = e'.excludesModule h.component.coordinate) :
    (p.choose (h.request e overrides) m).1 = (p.choose (h.request e' overrides) m).1 := by
  simp only [Policy.chosen_eq, Policy.settle_eq, request, same]

theorem resolve_of_agree (agree : Exclusion.Agree h.component.coordinate e e') :
    (h.resolve p.select e overrides m).1 = (h.resolve p.select e' overrides m).1 := by
  have resolved : (h.request e overrides).resolved = (h.request e' overrides).resolved := by
    funext l
    simp only [SelectionRequest.resolved, request, agree.artifact]
  rw [resolve, resolve, p.answer_select, p.answer_select, chosen_congr agree.whole, resolved]

theorem artifacts_resolved_combine (h : Handle) (s t : Exclusion) (overrides : Attributes)
    (l : List PhysicalVariant) :
    ((h.request (.combine [s, t]) overrides).resolved l).artifacts =
      ((h.request s overrides).resolved l).artifacts.filter fun a =>
        !t.excludesArtifact h.component.coordinate a.name := by
  have each (v : PhysicalVariant) :
      (v.artifacts.filter fun a =>
          !(Exclusion.combine [s, t]).excludesArtifact h.component.coordinate a.name) =
        (v.artifacts.filter fun a => !s.excludesArtifact h.component.coordinate a.name).filter
          fun a => !t.excludesArtifact h.component.coordinate a.name := by
    rw [List.filter_filter]
    refine List.filter_congr fun a _ => ?_
    rw [(Exclusion.distributes_excludesArtifact _ _).combine_pair, Bool.not_or, Bool.and_comm]
  have joint : ((h.request (.combine [s, t]) overrides).resolved l).variants.flatMap (·.artifacts) =
      (((h.request s overrides).resolved l).variants.flatMap (·.artifacts)).filter fun a =>
        !t.excludesArtifact h.component.coordinate a.name := by
    simp only [SelectionRequest.resolved, List.flatMap_map, List.filter_flatMap, request, each]
  rw [ResolvedSet.artifacts, joint, ResolvedSet.artifacts]
  refine Artifact.distinct_filter (fun same => ?_) _
  rw [(ArtifactId.mk.inj same).2]

variable {s t : Exclusion} {set : ResolvedSet}

theorem chosen_combine (included :
      (Exclusion.combine [s, t]).excludesModule h.component.coordinate = false) :
    (p.choose (h.request (.combine [s, t]) overrides) m).1 =
      (p.choose (h.request s overrides) m).1 := by
  refine chosen_congr (included.trans ?_)
  rw [(Exclusion.distributes_excludesModule _).combine_pair] at included
  exact (Bool.or_eq_false_iff.1 included).1.symm

theorem exists_resolve_combine (t : Exclusion)
    (ok : (h.resolve p.select s overrides m).1 = .ok set) :
    ∃ set', (h.resolve p.select (.combine [s, t]) overrides m).1 = .ok set' := by
  obtain ⟨l, chosen, _⟩ := resolve_eq_ok_iff.1 ok
  cases whole : (Exclusion.combine [s, t]).excludesModule h.component.coordinate with
  | true =>
    have nothing : (p.choose (h.request (.combine [s, t]) overrides) m).1 = .ok [] :=
      (p.chosen_eq _ m).trans (if_pos whole)
    exact ⟨_, resolve_eq_ok_iff.2 ⟨[], nothing, rfl⟩⟩
  | false => exact ⟨_, resolve_eq_ok_iff.2 ⟨l, (chosen_combine whole).trans chosen, rfl⟩⟩

theorem filter_artifacts_of_excluded (ok : (h.resolve p.select s overrides m).1 = .ok set)
    (whole : (Exclusion.combine [s, t]).excludesModule h.component.coordinate = true) :
    (set.artifacts.filter fun a => !t.excludesArtifact h.component.coordinate a.name) = [] := by
  obtain ⟨l, _, rfl⟩ := resolve_eq_ok_iff.1 ok
  rw [← artifacts_resolved_combine]
  exact SelectionRequest.artifacts_resolved_of_excluded whole l

end Handle

namespace Session

/-- Whatever came before, a selection under two rules together gives the artifacts that one rule
gives, in their order, without those that the other rule excludes; it never fails where the one rule
does not. The order of the two rules changes neither the artifacts nor the variants, nor a failure. -/
theorem combined_rules_filter {c : Component} {n : Nat} (numbered : c.Numbered n)
    (settings settings' : Option CacheSettings) (first second : List Operation) :
    let a := (opened c settings n).run first
    let b := (opened c settings' n).run second
    ∀ h : Handle, (∃ d ∈ a.desks, d.component = h.component) →
      (∃ d ∈ b.desks, d.component = h.component) →
      ∀ (p : Policy) (s t : Exclusion) (overrides : Attributes),
        (∀ set, (h.resolve p.select s overrides a.memory).1 = .ok set →
          (∃ set', (h.resolve p.select (.combine [s, t]) overrides a.memory).1 = .ok set') ∧
          ∀ set', (h.resolve p.select (.combine [s, t]) overrides b.memory).1 = .ok set' →
            set'.artifacts = set.artifacts.filter fun x =>
              !t.excludesArtifact h.component.coordinate x.name) ∧
        (h.resolve p.select (.combine [t, s]) overrides a.memory).1 =
          (h.resolve p.select (.combine [s, t]) overrides a.memory).1 ∧
        ∀ set set', (h.resolve p.select (.combine [s, t]) overrides a.memory).1 = .ok set →
          (h.resolve p.select (.combine [t, s]) overrides b.memory).1 = .ok set' → set' = set := by
  intro a b h servedA servedB p s t overrides
  have soundA : a.Sound := ((sound_opened numbered settings).run first).1
  have soundB : b.Sound := ((sound_opened numbered settings').run second).1
  have swap (m : Memory) :
      (h.resolve p.select (.combine [t, s]) overrides m).1 =
        (h.resolve p.select (.combine [s, t]) overrides m).1 :=
    Handle.resolve_of_agree (Exclusion.agree_combine_swap _ s t)
  refine ⟨fun set ok => ⟨Handle.exists_resolve_combine t ok, fun set' ok' => ?_⟩, swap _,
    fun set set' ok ok' => ?_⟩
  · obtain ⟨l, chosen, rfl⟩ := Handle.resolve_eq_ok_iff.1 ok'
    cases whole : (Exclusion.combine [s, t]).excludesModule h.component.coordinate with
    | true =>
      rw [SelectionRequest.artifacts_resolved_of_excluded whole,
        Handle.filter_artifacts_of_excluded ok whole]
    | false =>
      rw [Handle.chosen_combine whole] at chosen
      obtain rfl := soundA.resolve_unique soundB servedA servedB p s overrides ok
        (Handle.resolve_eq_ok_iff.2 ⟨l, chosen, rfl⟩)
      exact h.artifacts_resolved_combine s t overrides l
  · rw [swap] at ok'
    exact soundA.resolve_unique soundB servedA servedB p _ overrides ok ok'

def sharing : Sketch where
  projectPath := ":lib"
  configurations :=
    [{ name := "main"
       variants := [{ name := "jvm", attributes := [("kind", "lib")]
                      artifacts := [.jar "common", .jar "jvm"] }] },
      { name := "test"
        variants := [{ name := "js", attributes := [("kind", "lib")]
                       artifacts := [.jar "common", .jar "js"] }] }]
  graph := some ["main", "test"]

def sharingMain : Handle where
  component := sharing.component 0
  variant := .original ⟨0, 0⟩ ⟨"main", "main", ∅⟩ (sharing.configurations[0].strategy sharing.id)
  configuration := sharing.configurations[0].configuration sharing.id

def lib : Attributes := .ofList [("kind", "lib")]

/-- One rule takes the artifact that both siblings have, the other one the artifact of one. -/
theorem combined_rules_filter_sharing :
    let a := (opened (sharing.component 0) none 0).run []
    let b := (opened (sharing.component 0) none 0).run [.candidates 0 sharingMain.configuration]
    let s := Exclusion.artifact "js" none none
    let t := Exclusion.artifact "common" (some "jar") none
    (sharing.component 0).Numbered 0 ∧ ∃ set set',
      (sharingMain.resolve (Policy.select {}) s lib a.memory).1 = .ok set ∧
      (sharingMain.resolve (Policy.select {}) (.combine [s, t]) lib b.memory).1 = .ok set' ∧
      set.artifacts.map (·.name) = [.jar "common", .jar "jvm"] ∧
      set'.artifacts.map (·.name) = [.jar "jvm"] ∧
      set'.artifacts = set.artifacts.filter fun x =>
        !t.excludesArtifact (sharing.component 0).coordinate x.name := by
  intro a b s t
  have numbered := sharing.numbered_component 0 0
  obtain ⟨set, ok, names⟩ : ∃ set,
      (sharingMain.resolve (Policy.select {}) s lib a.memory).1 = .ok set ∧
      set.artifacts.map (·.name) = [.jar "common", .jar "jvm"] := ⟨_, rfl, rfl⟩
  obtain ⟨set', ok', names'⟩ : ∃ set',
      (sharingMain.resolve (Policy.select {}) (.combine [s, t]) lib b.memory).1 = .ok set' ∧
      set'.artifacts.map (·.name) = [.jar "jvm"] := ⟨_, rfl, rfl⟩
  obtain ⟨filters, _⟩ := combined_rules_filter numbered none none []
    [.candidates 0 sharingMain.configuration] sharingMain ⟨_, List.mem_singleton_self _, rfl⟩
    ⟨_, List.mem_singleton_self _, rfl⟩ {} s t lib
  exact ⟨numbered, set, set', ok, ok', names, names', (filters set ok).2 set' ok'⟩

end Session

end ArtifactSelection
