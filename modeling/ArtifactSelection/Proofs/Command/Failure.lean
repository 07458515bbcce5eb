import ArtifactSelection.Command.Run
import ArtifactSelection.Proofs.Descriptor.Lookup
import ArtifactSelection.Proofs.Descriptor.Universe
import ArtifactSelection.Proofs.Session.Unfailing

/-!
How commands on a described component can fail. Once a command is loaded it has its handle, because
the name by which its variant was found is the id by which it is asked for, and a variant that is
prepared from its declaration never fails. What is left are artifacts that are not there and
selections without a match, and these are what is left for copies too. Loading a command for a
declared configuration does not fail, but the program breaks down there if the settings ask for a
layout in which the map of the desk cannot be had.
-/

namespace ArtifactSelection

theorem Memory.configuration?_noteAll_empty (l : List Event) (k : VariantKey) :
    ((∅ : Memory).noteAll l).configuration? k = none := by
  rw [configuration?_noteAll]
  rfl

namespace Command

/-- The context of commands on one configuration of a descriptor. -/
structure Context.IsFor (context : Context) (settings : Settings) (d : Descriptor)
    (c : ConfigurationDeclaration) : Prop where
  settings : context.settings = settings
  desk : context.desk = .opened (d.toComponent 0) (some context.settings.cache)
  variant : (d.toComponent 0).configuration? c.name = some context.variant

namespace Action

theorem report_resolve (context : Context) (h : Handle) (m : Memory) (o : ResolveOptions) :
    (report context h m (.resolve o)).1 =
      (h.resolve (policy context.settings o).select o.exclusion o.overrides m).1.map .resolved := by
  rw [report]
  split <;> simp_all [Except.map]

theorem report_variants (context : Context) (h : Handle) (m : Memory) :
    (report context h m .variants).1 = (h.candidates m).1.map
      (.candidates context.variant.name h.component.graph.isSome) := by
  rw [report]
  split <;> simp_all [Except.map]

section Perform

variable {context : Context} {a a' : Action} {m m' : Memory} {desk : Desk}

theorem perform_of_error {e : Failure}
    (asked : context.desk.request context.variant m = (.error e, desk, m')) :
    a.perform context m = (.error e, m') := by
  rw [perform, asked]

theorem perform_of_ok {shared : Shared Handle}
    (asked : context.desk.request context.variant m = (.ok shared, desk, m')) :
    a.perform context m = a.report context shared.value m' := by
  rw [perform, asked]

theorem perform_congr
    (same : ∀ h m, (a.report context h m).1 = (a'.report context h m).1) (m : Memory) :
    (a.perform context m).1 = (a'.perform context m).1 := by
  unfold perform
  split
  · rfl
  · exact same _ _

end Perform

end Action

namespace Invocation

theorem answer_run (i : Invocation) (libraries : Libraries) (environment : Option String)
    (files : Files) :
    (i.run libraries environment files).answer =
      ((Settings.inForce libraries.toml files i.config environment).1.mapError .failure).bind
        fun settings => (Context.load libraries files settings i.target).bind fun context =>
          (i.action.perform context ((∅ : Memory).noteAll
            (Settings.inForce libraries.toml files i.config environment).2)).1.mapError .failure := by
  rw [run]
  rcases Settings.inForce libraries.toml files i.config environment with ⟨e | settings, events⟩
  · rfl
  · simp only [Except.mapError, Except.bind]
    cases Context.load libraries files settings i.target <;> rfl

end Invocation

theorem map_eq_error_iff {α β ε : Type} {r : Except ε α} {g : α → β} {e : ε} :
    r.map g = .error e ↔ r = .error e := by
  cases r <;> simp [Except.map]

section Load

variable {libraries : Libraries} {files : Files} {settings : Settings} {t : Target}

theorem openDesk_of_grants (c : Component) {cache : CacheSettings}
    (grants : libraries.Grants cache.layout) :
    openDesk libraries c cache = .ok (.opened c (some cache)) := by
  rw [openDesk, grants]

theorem openDesk_of_breakdown (c : Component) {cache : CacheSettings} {code : Nat}
    (breaks : libraries.breakdown? cache.layout = some code) :
    openDesk libraries c cache = .error (.breakdown code) := by
  rw [openDesk, breaks]

theorem Context.load_of_loaded {d : Descriptor} (format : (Format.ofText? t.format).isSome)
    (loaded : loadDescriptor libraries.toml files t.descriptor = .ok d) :
    load libraries files settings t =
      (openDesk libraries (d.toComponent 0) settings.cache).bind fun desk =>
        match desk.component.configuration? t.variant with
        | some variant => .ok { settings, desk, variant }
        | none => .error (.failure (undeclared t desk.component)) := by
  have known := Option.isNone_eq_false_iff.2 format
  simp only [load, known, loaded]
  rfl

/-- The program breaks down over the map of the desk, and nowhere else. -/
theorem Context.load_eq_breakdown_iff {code : Nat} :
    load libraries files settings t = .error (.breakdown code) ↔
      (Format.ofText? t.format).isSome ∧
        (∃ d, loadDescriptor libraries.toml files t.descriptor = .ok d) ∧
          libraries.breakdown? settings.cache.layout = some code := by
  cases format : (Format.ofText? t.format).isSome with
  | false =>
    have unknown := Option.isSome_eq_false_iff.1 format
    simp [load, unknown, throw, throwThe, MonadExceptOf.throw, bind, Except.bind]
  | true =>
    cases loaded : loadDescriptor libraries.toml files t.descriptor with
    | error e =>
      have known := Option.isNone_eq_false_iff.2 format
      simp [load, known, loaded, bind, Except.bind, Except.mapError]
    | ok d =>
      rw [load_of_loaded format loaded]
      cases breaks : libraries.breakdown? settings.cache.layout with
      | some code' =>
        rw [openDesk_of_breakdown _ breaks]
        simp [Except.bind]
      | none =>
        rw [openDesk_of_grants _ breaks]
        simp only [Except.bind]
        split <;> simp

/-- A run breaks down over the map of its desk, once all that comes before has succeeded. -/
theorem Invocation.answer_run_eq_breakdown_iff {i : Invocation} {environment : Option String}
    {code : Nat} : (i.run libraries environment files).answer = .error (.breakdown code) ↔
      ∃ s, (Settings.inForce libraries.toml files i.config environment).1 = .ok s ∧
        (Format.ofText? i.target.format).isSome ∧
        (∃ d, loadDescriptor libraries.toml files i.target.descriptor = .ok d) ∧
          libraries.breakdown? s.cache.layout = some code := by
  simp only [answer_run, ← Context.load_eq_breakdown_iff]
  cases (Settings.inForce libraries.toml files i.config environment).1 with
  | error e => simp [Except.mapError, Except.bind]
  | ok s =>
    simp only [Except.mapError, Except.bind, Except.ok.injEq, exists_eq_left']
    cases Context.load libraries files s i.target with
    | error stop => simp
    | ok context =>
      dsimp only
      split <;> simp

end Load

variable {d : Descriptor} {c : ConfigurationDeclaration} {settings : Settings} {context : Context}
  {libraries : Libraries}

theorem Context.isFor_load (consistent : d.Consistent) (hc : c ∈ d.configurations) {files : Files}
    {t : Target} (format : (Format.ofText? t.format).isSome)
    (loaded : loadDescriptor libraries.toml files t.descriptor = .ok d) (name : t.variant = c.name)
    (grants : libraries.Grants settings.cache.layout) :
    ∃ context, Context.load libraries files settings t = .ok context ∧
      context.IsFor settings d c := by
  obtain ⟨o, found⟩ := consistent.configuration?_toComponent hc 0
  refine ⟨⟨settings, .opened (d.toComponent 0) (some settings.cache), c.variant d.id o⟩, ?_,
    rfl, rfl, found⟩
  have declared : (Desk.opened (d.toComponent 0) (some settings.cache)).component.configuration?
      t.variant = some (c.variant d.id o) := by
    rw [name]
    exact found
  rw [load_of_loaded format loaded, openDesk_of_grants _ grants, Except.bind]
  simp only [declared]

namespace Context.IsFor

theorem exists_handle (fits : context.IsFor settings d c) (consistent : d.Consistent)
    (hc : c ∈ d.configurations) {m : Memory} (fresh : ∀ k, m.configuration? k = none) :
    ∃ h m', h.component = d.toComponent 0 ∧ h.variant = context.variant ∧
      h.configuration = c.configuration d.id ∧
      ∀ a : Action, a.perform context m = a.report context h m' := by
  obtain ⟨o, found⟩ := consistent.configuration?_toComponent hc 0
  have own : context.variant = c.variant d.id o :=
    Option.some.inj (fits.variant.symm.trans found)
  have component : context.desk.component = d.toComponent 0 := by
    rw [fits.desk]
    rfl
  have known : context.desk.component.variant? context.variant.id = some (c.variant d.id o) := by
    rw [component, own]
    exact (d.variant?_toComponent 0 c.name).trans found
  have settled := c.prepare_variant d.id (o := o) (m := m.note (.building context.variant.id))
    (fresh _)
  have step := context.desk.requests context.variant m
  rcases outcome : context.desk.request context.variant m with ⟨answer, desk, m'⟩
  rw [outcome] at step
  dsimp only at step
  cases step with
  | unknown none => cases known.symm.trans none
  | reused _ held =>
    rw [fits.desk] at held
    cases held
  | failed known' _ prepared =>
    obtain rfl := Option.some.inj (known.symm.trans known')
    rw [prepared.prepare_eq] at settled
    cases settled
  | published known' _ prepared =>
    obtain rfl := Option.some.inj (known.symm.trans known')
    rw [prepared.prepare_eq] at settled
    refine ⟨⟨context.desk.component, c.variant d.id o, _⟩, m', component, own.symm,
      Except.ok.inj settled, fun a => ?_⟩
    simp only [Action.perform, outcome]

theorem name_variant (fits : context.IsFor settings d c) : context.variant.name = c.name := by
  simpa using List.find?_some fits.variant

theorem id_variant (fits : context.IsFor settings d c) : context.variant.id = c.name :=
  Component.id_of_variant? ((d.variant?_toComponent 0 c.name).trans fits.variant)

theorem answers (fits : context.IsFor settings d c) (consistent : d.Consistent)
    (hc : c ∈ d.configurations) {m : Memory} (fresh : ∀ k, m.configuration? k = none) :
    let answer (a : Action) := (a.perform context m).1
    answer .artifacts = .ok (.artifacts c.name d.id (c.artifacts.map (·.artifact d.id))) ∧
    (∃ set, answer .variants = .ok (.candidates c.name d.graphVariants.isSome set)) ∧
    (∀ o f, answer (.lookup o) = .error f ↔
      (∀ a ∈ c.artifacts, a.artifactName ≠ o.artifactName) ∧
        f = .artifactNotFound c.name (toString o.artifactName)) ∧
    ∀ o f, answer (.resolve o) = .error f →
      f = .noMatchingVariant (toString d.id) (toString o.overrides) := by
  intro answer
  obtain ⟨h, m', component, variant, configuration, perform⟩ :=
    fits.exists_handle consistent hc fresh
  have id : h.component.id = d.id := by rw [component, Descriptor.toComponent]
  have graph : h.component.graph.isSome = d.graphVariants.isSome := by
    rw [component, Descriptor.toComponent, Option.isSome_map]
  have artifacts : h.artifacts = c.artifacts.map (·.artifact d.id) := by
    rw [Handle.artifacts, configuration, ConfigurationDeclaration.configuration]
  obtain ⟨set, supply⟩ : ∃ set, (h.candidates m').1 = .ok set := by
    refine Component.candidates_of_unfailing (fun v hv => ?_) h.configuration m'
    rw [component] at hv
    exact d.unfailing_toComponent 0 v ((d.toComponent 0).graph_subset_variants hv)
  refine ⟨?_, ⟨set, ?_⟩, fun o f => ?_, fun o f fails => ?_⟩
  · simp only [answer, perform, Action.report, fits.name_variant, id, artifacts]
  · simp only [answer, perform, Action.report_variants, fits.name_variant, graph, supply]
    rfl
  · simp only [answer, perform, Action.report, map_eq_error_iff, Handle.lookup_eq_error_iff,
      artifacts, variant, fits.id_variant, List.forall_mem_map]
    rfl
  · simp only [answer, perform, Action.report_resolve, map_eq_error_iff] at fails
    rw [← id]
    exact ((h.resolve_eq_error_iff supply _ _ _).1 fails).2

end Context.IsFor

theorem isSome_variant?_run (consistent : d.Consistent) (hc : c ∈ d.configurations) (number n : Nat)
    (settings : Option CacheSettings) (work : List Operation) {e : Desk}
    (he : e ∈ ((Session.opened (d.toComponent number) settings n).run work).desks) :
    (e.component.variant? c.name).isSome := by
  have start := Session.sound_opened (d.numbered_toComponent number n) settings
  refine start.forall_component_run (P := fun b => (b.variant? c.name).isSome)
    (fun b k id f known => ?_) (fun e he => ?_) work e he
  · rwa [Component.variant?_copy, Option.isSome_map]
  · obtain rfl := List.mem_singleton.1 he
    obtain ⟨o, found⟩ := consistent.configuration?_toComponent hc number
    exact Option.isSome_of_eq_some ((d.variant?_toComponent number c.name).trans found)

/-- A command is loaded for a configuration of a descriptor in order, unless the program breaks down
because the settings ask for a map that cannot be had. Then it can fail in two ways: a lookup fails
where no artifact has the name, and a selection for want of a match. At the desks for the component,
its copies and their copies there is one more way, a request with an id that nothing has; a request
with the id of a configuration always gets its handle. -/
theorem failures_after_load (libraries : Libraries) (valid : d.validate = .ok ())
    (hc : c ∈ d.configurations) :
    (∀ files settings t, (Format.ofText? t.format).isSome →
      loadDescriptor libraries.toml files t.descriptor = .ok d → t.variant = c.name →
        (libraries.Grants settings.cache.layout →
          ∃ context, Context.load libraries files settings t = .ok context ∧
            context.IsFor settings d c) ∧
        ∀ code, libraries.breakdown? settings.cache.layout = some code →
          Context.load libraries files settings t = .error (.breakdown code)) ∧
    (∀ settings context events, Context.IsFor context settings d c →
      let answer (a : Action) := (a.perform context ((∅ : Memory).noteAll events)).1
      answer .artifacts = .ok (.artifacts c.name d.id (c.artifacts.map (·.artifact d.id))) ∧
      (∃ set, answer .variants = .ok (.candidates c.name d.graphVariants.isSome set)) ∧
      (∀ o f, answer (.lookup o) = .error f ↔
        (∀ a ∈ c.artifacts, a.artifactName ≠ o.artifactName) ∧
          f = .artifactNotFound c.name (toString o.artifactName)) ∧
      ∀ o f, answer (.resolve o) = .error f →
        f = .noMatchingVariant (toString d.id) (toString o.overrides)) ∧
    ∀ number n settings work,
      let s := (Session.opened (d.toComponent number) settings n).run work
      (∀ e ∈ s.desks, ∀ entry v, Variant.id v = c.name →
        ∃ h, (e.ask entry v s.memory).1 = .ok h) ∧
      ∀ o f, o.ByPolicy → (s.failure? o = some f ↔ s.Declines o f) := by
  have consistent := Descriptor.validate_eq_ok_iff.1 valid
  refine ⟨fun files settings t format loaded name => ⟨fun grants => ?_, fun code breaks => ?_⟩,
    fun settings context events fits => ?_, fun number n settings work => ?_⟩
  · exact Context.isFor_load consistent hc format loaded name grants
  · exact Context.load_eq_breakdown_iff.2 ⟨format, ⟨d, loaded⟩, breaks⟩
  · exact fits.answers consistent hc (Memory.configuration?_noteAll_empty events)
  · intro s
    have numbered := d.numbered_toComponent number n
    obtain ⟨sound, _⟩ := (Session.sound_opened numbered settings).run work
    have unfailing := Session.unfailing_run numbered (d.unfailing_toComponent number) settings work
    refine ⟨fun e he entry v id => ?_, fun o f policy => ?_⟩
    · have known := isSome_variant?_run consistent hc number n settings work he
      cases answer : (e.ask entry v s.memory).1 with
      | ok h => exact ⟨h, rfl⟩
      | error f =>
        rw [Desk.ask_eq_request, Desk.request_eq_error_iff (fun v hv =>
          unfailing v (Session.mem_ancestry he hv)), id] at answer
        rw [answer.1] at known
        cases known
    · exact sound.failure?_eq_some_iff unfailing policy

def sources : ConfigurationDeclaration := Descriptor.plain.configurations[0]

def sourcesContext : Context where
  settings := {}
  desk := .opened (Descriptor.plain.toComponent 0) (some {})
  variant := sources.variant Descriptor.plain.id ⟨0, 0⟩

def otherSources : Variant := .original ⟨1, 0⟩ ⟨"sources", "", ∅⟩ fun _ => .error (.plain "other")

def copying : List Operation :=
  [.copy 0 (.project ":" ":first") id, .copy 1 (.project ":" ":second") Session.moved]

theorem failures_after_load_plain :
    let answer (a : Action) := (a.perform sourcesContext ((∅ : Memory).noteAll [])).1
    let s := (Session.opened (Descriptor.plain.toComponent 0) none 0).run copying
    Descriptor.plain.validate = .ok () ∧ sources ∈ Descriptor.plain.configurations ∧
    sourcesContext.IsFor {} Descriptor.plain sources ∧
    (∃ set, answer .variants = .ok (.candidates "sources" true set)) ∧
    (∀ f, answer (.lookup { artifact := "lib", classifier := some "sources" }) ≠ .error f) ∧
    answer (.lookup { artifact := "lib" }) =
      .error (.artifactNotFound "sources" (toString (ArtifactName.jar "lib"))) ∧
    ∃ e h, s.desks[2]? = some e ∧ (e.ask .handle otherSources s.memory).1 = .ok h := by
  intro answer s
  have valid : Descriptor.plain.validate = .ok () := rfl
  have declared : sources ∈ Descriptor.plain.configurations := List.mem_cons_self
  have fits : sourcesContext.IsFor {} Descriptor.plain sources := ⟨rfl, rfl, rfl⟩
  obtain ⟨_, commands, sessions⟩ := failures_after_load .usual valid declared
  obtain ⟨_, candidates, lookup, _⟩ := commands {} sourcesContext [] fits
  obtain ⟨requests, _⟩ := sessions 0 0 none copying
  refine ⟨valid, declared, fits, candidates, fun f fails => ?_, ?_, ?_⟩
  · exact absurd ((lookup _ f).1 fails).1 (by decide)
  · exact (lookup _ _).2 ⟨by decide, rfl⟩
  · obtain ⟨h, given⟩ := requests _ (Session.mem_of_desk? (i := 2) rfl) .handle otherSources rfl
    exact ⟨_, h, rfl, given⟩

def unroomy : Settings where
  cache := { shardAmount := some 4611686018427387904 }

def lone : Descriptor where
  component := { group := "org", name := "lib", version := "1" }
  configurations := [{ name := "main" }]

def loneFiles : Files where
  leads _ := true
  read path :=
    if path = "resolve.toml" then .ok "[cache]\nshard_amount = 4611686018427387904\n"
    else .ok ("component = \x7bgroup=\"org\",name=\"lib\",version=\"1\"\x7d\n" ++
      "[[configurations]]\nname = \"main\"\n")

theorem loadDescriptor_loneFiles :
    loadDescriptor Libraries.usual.toml loneFiles "lib.toml" = .ok lone := by
  decide +kernel

/-- Settings that are in order do not always load a command for a declared configuration. -/
theorem breakdown_after_validation :
    unroomy.validate = .ok () ∧ lone.validate = .ok () ∧
    lone.configurations.map (·.name) = ["main"] ∧
    loadDescriptor Libraries.usual.toml loneFiles "lib.toml" = .ok lone ∧
    Context.load .usual loneFiles unroomy ⟨"lib.toml", "main", "text"⟩ =
      .error (.breakdown 101) := by
  refine ⟨by decide +kernel, rfl, rfl, loadDescriptor_loneFiles, ?_⟩
  exact Context.load_eq_breakdown_iff.2 ⟨rfl, ⟨lone, loadDescriptor_loneFiles⟩, by decide +kernel⟩

end Command

end ArtifactSelection
