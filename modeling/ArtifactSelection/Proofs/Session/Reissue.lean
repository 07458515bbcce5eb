import ArtifactSelection.Proofs.Descriptor.Reissue
import ArtifactSelection.Proofs.Session.Frame

/-!
Components that are issued again. However two sessions were spent, what is selected with a handle of
one version and with one of another differs in what the artifacts are and not in which they are: the
same variants are selected, and in each of them artifacts in the same places are left out.
-/

namespace ArtifactSelection

namespace Session

variable {a b : Session} {i j : Nat} {d d' : Desk} {x : String} {h g : Handle}

theorem Sound.reissued (soundA : a.Sound) (soundB : b.Sound) (here : a.desks[i]? = some d)
    (there : b.desks[j]? = some d') (same : d.component.Reissued d'.component)
    (given : a.handle? i x = some h) (given' : b.handle? j x = some g) :
    h.configuration.Reissued g.configuration := by
  have found := same.variant? x
  rw [(soundA.serves here given).own, (soundB.serves there given').own] at found
  obtain ⟨alike⟩ := found
  exact alike.settles (soundA.settles_handle here given) (soundB.settles_handle there given')

theorem Sound.reissued_request (soundA : a.Sound) (soundB : b.Sound) (here : a.desks[i]? = some d)
    (there : b.desks[j]? = some d') (same : d.component.Reissued d'.component)
    (given : a.handle? i x = some h) (given' : b.handle? j x = some g) (exclusion : Exclusion)
    (overrides : Attributes) :
    (h.request exclusion overrides).Reissued a.memory (g.request exclusion overrides) b.memory := by
  have component := (soundA.serves here given).component
  have component' := (soundB.serves there given').component
  have configuration := soundA.reissued soundB here there same given given'
  rw [← component, ← component'] at same
  refine ⟨same.coordinate, rfl, rfl, configuration.variants, fun s s' supply supply' => ?_⟩
  have offers := soundA.offers ⟨d, mem_of_desk? here, component.symm⟩ supply
  have offers' := soundB.offers ⟨d', mem_of_desk? there, component'.symm⟩ supply'
  exact Component.forall₂_offers (·.id)
    (fun alike _ _ settles settles' => (alike.settles settles settles').variants) same.graph
    configuration.variants offers offers'

/-- Versions, classifiers, owners and files are seen by no rule of a tree, whether it is asked about
a module or about an artifact. So selections about what was issued again select alike, whatever
policy makes them; and so do selections with handles of one id, given out in two sessions for
components of which one is the other one issued again, however either session was spent. -/
theorem reissue_unseen :
    (∀ (e : Exclusion) (m m' : ModuleCoordinate), m.Reissued m' →
      e.excludesModule m' = e.excludesModule m ∧
      ∀ a a' : ArtifactName, a.Reissued a' → e.excludesArtifact m' a' = e.excludesArtifact m a) ∧
    (∀ (σ : Type) (r r' : SelectionRequest σ) (s s' : σ), r.Reissued s r' s' → ∀ p : Policy,
      SelectsAlike (r.candidates s).1 (r'.candidates s').1 (p.select r ∅ s).answer
        (p.select r' ∅ s').answer) ∧
    ∀ (c c' : Component) (n n' : Nat), c.Numbered n → c'.Numbered n' →
      ∀ settings settings' first second,
        let a := (opened c settings n).run first
        let b := (opened c' settings' n').run second
        ∀ i j d d', a.desks[i]? = some d → b.desks[j]? = some d' →
          d.component.Reissued d'.component →
          ∀ x h g, a.handle? i x = some h → b.handle? j x = some g →
            ∀ (p : Policy) exclusion overrides,
              SelectsAlike (h.candidates a.memory).1 (g.candidates b.memory).1
                (h.resolve p.select exclusion overrides a.memory).1
                (g.resolve p.select exclusion overrides b.memory).1 := by
  refine ⟨fun e m m' module => ?_, fun σ r r' s s' same => same.selectsAlike, ?_⟩
  · exact ⟨e.excludesModule_reissued module, fun a a' => e.excludesArtifact_reissued module⟩
  · intro c c' n n' numbered numbered' settings settings' first second a b i j d d' here there same
      x h g given given' p exclusion overrides
    have soundA := ((sound_opened numbered settings).run first).1
    have soundB := ((sound_opened numbered' settings').run second).1
    exact (soundA.reissued_request soundB here there same given given' exclusion
      overrides).selectsAlike p

def published : Descriptor where
  component := { group := "org", name := "lib", version := "1.0" }
  graphVariants := some ["api"]
  configurations :=
    [{ name := "api"
       attributes := .ofList [("usage", "api")]
       artifacts := [{ name := "guide", type := "html" }, { name := "lib" }] }]

def upcoming : Descriptor where
  component := { group := "org", name := "lib", version := "2.0", project := some ":lib" }
  graphVariants := some ["api"]
  configurations :=
    [{ name := "api"
       attributes := .ofList [("usage", "api")]
       artifacts :=
        [{ name := "guide", type := "html", classifier := some "draft" },
          { name := "lib", file := some "build/lib.jar" }] }]

theorem reissued_upcoming : published.Reissued upcoming where
  coordinate := ⟨rfl, rfl⟩
  attributes := rfl
  graph := rfl
  configurations :=
    .cons ⟨rfl, rfl, .cons ⟨rfl, rfl, rfl⟩ (.cons ⟨rfl, rfl, rfl⟩ .nil), .nil⟩ .nil

def askForApi (d : Descriptor) : List Operation :=
  [.ask 0 .handle (ConfigurationDeclaration.variant { name := "api" } d.id ⟨0, 0⟩)]

def kept (answer : Except Failure ResolvedSet) : Option (List (List ArtifactName)) :=
  answer.toOption.map fun set => set.variants.map fun v => v.artifacts.map (·.name)

theorem reissue_unseen_upcoming :
    let a := (opened (published.toComponent 0) none 0).run (askForApi published)
    let b := (opened (upcoming.toComponent 0) none 0).run (askForApi upcoming)
    let library : Exclusion := .artifact "lib" (some "jar") none
    let usage : Attributes := .ofList [("usage", "api")]
    (published.toComponent 0).Numbered 0 ∧ (upcoming.toComponent 0).Numbered 0 ∧
    (published.toComponent 0).Reissued (upcoming.toComponent 0) ∧
    ∃ h g, a.handle? 0 "api" = some h ∧ b.handle? 0 "api" = some g ∧
      SelectsAlike (h.candidates a.memory).1 (g.candidates b.memory).1
        (h.resolve (Policy.select {}) library usage a.memory).1
        (g.resolve (Policy.select {}) library usage b.memory).1 ∧
      kept (h.resolve (Policy.select {}) library usage a.memory).1 =
        some [[⟨"guide", "html", "html", none⟩]] ∧
      kept (g.resolve (Policy.select {}) library usage b.memory).1 =
        some [[⟨"guide", "html", "html", some "draft"⟩]] := by
  intro a b library usage
  have numbered := published.numbered_toComponent 0 0
  have numbered' := upcoming.numbered_toComponent 0 0
  have reissued := reissued_upcoming.toComponent 0 0
  have alike := reissue_unseen.2.2 _ _ _ _ numbered numbered' none none (askForApi published)
    (askForApi upcoming) 0 0 _ _ rfl rfl reissued "api" _ _ rfl rfl {} library usage
  exact ⟨numbered, numbered', reissued, _, _, rfl, rfl, alike, rfl, rfl⟩

end Session

end ArtifactSelection
