import ArtifactSelection.Proofs.Command.Failure
import ArtifactSelection.Proofs.Command.Line
import ArtifactSelection.Proofs.Value.RoundTrip

/-!
Looking up what is declared. A declaration and a lookup leave out the same fields and fill them in
alike, so the fields of a declaration, given to a lookup as they stand, make the full name of the
artifact. A lookup finds the first artifact of exactly that name; a name that shows like it is
another name.
-/

namespace ArtifactSelection

structure ArtifactFields where
  name : String
  type : Option String := none
  extension : Option String := none
  classifier : Option String := none

namespace ArtifactFields

/-- A data value that declares an artifact by these fields; perhaps it has a file besides. -/
structure WrittenIn (x : ArtifactFields) (surplus : Value.Surplus) (v : Value) : Prop where
  fields : ∃ field,
    v.fields? ["name", "type", "extension", "classifier", "file"] true surplus = some field ∧
      field "name" = some (.text x.name) ∧ field "type" = x.type.map .text ∧
      field "extension" = x.extension.map .text ∧ field "classifier" = x.classifier.map .text

def options (x : ArtifactFields) : Command.LookupOptions where
  artifact := x.name
  classifier := x.classifier
  type := x.type.getD "jar"
  extension := x.extension

variable {x : ArtifactFields}

theorem defaulted_text (default : String) (s : Option String) :
    Value.defaulted default Value.text? (s.map .text) = some (s.getD default) := by
  cases s <;> rfl

theorem artifactName_options {surplus : Value.Surplus} {v : Value} {a : ArtifactDeclaration}
    (written : x.WrittenIn surplus v) (decoded : ArtifactDeclaration.decode? surplus v = some a) :
    x.options.artifactName = a.artifactName := by
  obtain ⟨field, fields, name, type, extension, classifier⟩ := written.fields
  have named : Value.required Value.text? (some (.text x.name)) = some x.name := rfl
  simp only [ArtifactDeclaration.decode?, fields, name, type, extension, classifier, named,
    Value.optional_text, defaulted_text, Option.bind_eq_bind, Option.bind_some] at decoded
  obtain ⟨_, _, decoded⟩ := Option.bind_eq_some_iff.1 decoded
  cases decoded
  rfl

variable (x) (variant path : String)

def pairs : List (String × String) :=
  [("variant", variant), ("artifact", x.name)] ++ x.type.toList.map ("type", ·) ++
    x.extension.toList.map ("extension", ·) ++ x.classifier.toList.map ("classifier", ·)

def arguments : List String :=
  (x.pairs variant).map (fun p => Command.assignment p.1 p.2) ++ ["--", path]

open Command

/-- What a lookup is given is what the fields say, and nothing else. -/
structure GivenBy (p : Progress) : Prop where
  name : p.values "artifact" = [x.name]
  type : p.values "type" = x.type.toList
  extension : p.values "extension" = x.extension.toList
  classifier : p.values "classifier" = x.classifier.toList

theorem actionOf_lookup {p : Progress} (given : x.GivenBy p) :
    actionOf "lookup" p = .lookup x.options := by
  have first (s : Option String) : s.toList.head? = s := by cases s <;> rfl
  simp only [actionOf, Progress.value?_eq_head?, given.name, given.type, given.extension,
    given.classifier, first]
  rfl

def names : List String := ["variant", "artifact", "type", "extension", "classifier"]

theorem sublist_names : ((x.pairs variant).map (·.1)).Sublist names := by
  obtain ⟨_, _ | _, _ | _, _ | _⟩ := x <;> simp [pairs, names]

theorem fst_mem_names {p : String × String} (hp : p ∈ x.pairs variant) : p.1 ∈ names :=
  (x.sublist_names variant).subset (List.mem_map_of_mem hp)

theorem find?_of_mem_names : ∀ n ∈ names,
    (grammarOf "lookup").options.find? (·.name == n) = some { name := n } := by
  simp [names, grammarOf, commandGrammar, commonOptions]

def line : CommandLine where
  before := []
  command := "lookup"
  rest := x.arguments variant path
  leading := []
  items := (x.pairs variant).map Item.ofPair ++
    [{ rule := { name := "descriptor", fault := pathFault }, value := some path, isOperand := true }]
  known := by decide
  leads := .nil
  spells := by
    have plain : ∀ n ∈ names, '=' ∉ n.toList := by decide
    refine Grammar.spells_assignments (fun p hp => plain _ (x.fst_mem_names variant hp))
      (fun p hp => find?_of_mem_names _ (x.fst_mem_names variant hp)) ?_
    exact .behind (l := [path]) (r := { name := "descriptor", fault := pathFault }) rfl

theorem givenBy_line : x.GivenBy (x.line variant path).given := by
  obtain ⟨_, _ | _, _ | _, _ | _⟩ := x <;> exact ⟨rfl, rfl, rfl, rfl⟩

theorem judge_line : (grammarOf "lookup").judge (x.line variant path).given = .ok () := by
  obtain ⟨_, _ | _, _ | _, _ | _⟩ := x <;> rfl

theorem follow_line : (x.line variant path).items.Pairwise fun t u => u.Follows t := by
  have distinct : ((x.pairs variant).map (·.1)).Nodup :=
    (x.sublist_names variant).nodup (by decide)
  refine List.pairwise_append.2 ⟨?_, List.pairwise_singleton _ _, ?_⟩
  · rw [List.pairwise_map]
    rw [List.Nodup, List.pairwise_map] at distinct
    exact distinct.imp fun apart => ⟨fun _ => apart, fun both => Bool.false_ne_true both.1⟩
  · intro t ht u hu
    obtain ⟨p, hp, rfl⟩ := List.mem_map.1 ht
    obtain rfl := List.mem_singleton.1 hu
    refine ⟨fun _ same => ?_, fun both => Bool.false_ne_true both.1⟩
    have listed := x.fst_mem_names variant hp
    rw [show p.1 = "descriptor" from same] at listed
    exact absurd listed (by decide)

variable {environment : Option String}

theorem parse_line (parser : LineParser) (fit : pathFault path = none)
    (named : ∀ path, environment = some path → pathFault path = none) :
    ∃ i, parser.parse environment (x.line variant path).arguments = .ok i ∧
      i.action = .lookup x.options ∧ i.target = ⟨path, variant, "text"⟩ ∧
        i.config = environment := by
  have accepted : (x.line variant path).Accepted environment := by
    have command : "lookup" ≠ "help" := by decide
    refine ⟨command, ⟨nofun, .nil, fun p known _ => named p known, rfl⟩, fun t ht => ?_,
      x.follow_line variant path, fun p known _ => named p known, x.judge_line variant path⟩
    rcases List.mem_append.1 ht with option | operand
    · obtain ⟨p, _, rfl⟩ := List.mem_map.1 option
      exact ⟨p.2, rfl, rfl⟩
    · obtain rfl := List.mem_singleton.1 operand
      exact ⟨path, rfl, fit⟩
  refine ⟨_, (parser.parse_eq_ok_iff (x.line variant path)).2 ⟨accepted, rfl⟩, ?_, ?_, ?_⟩
  · exact x.actionOf_lookup (x.givenBy_line variant path)
  · obtain ⟨_, _ | _, _ | _, _ | _⟩ := x <;> rfl
  · obtain ⟨_, _ | _, _ | _, _ | _⟩ := x <;> rfl

end ArtifactFields

namespace Command

variable {d : Descriptor} {c : ConfigurationDeclaration} {libraries : Libraries}
  {environment : Option String} {files : Files} {i : Invocation}

/-- A command on a configuration of a descriptor, with everything there that comes before its own
work. -/
structure Invocation.IsOn (i : Invocation) (d : Descriptor) (c : ConfigurationDeclaration)
    (libraries : Libraries) (environment : Option String) (files : Files) : Prop where
  settings : ∃ s, (Settings.inForce libraries.toml files i.config environment).1 = .ok s ∧
    libraries.Grants s.cache.layout
  format : (Format.ofText? i.target.format).isSome
  descriptor : loadDescriptor libraries.toml files i.target.descriptor = .ok d
  variant : i.target.variant = c.name

theorem answer_lookup (consistent : d.Consistent) (hc : c ∈ d.configurations)
    (on : i.IsOn d c libraries environment files) {o : LookupOptions}
    (action : i.action = .lookup o) :
    (i.run libraries environment files).answer =
      match c.artifacts.find? (·.artifactName == o.artifactName) with
      | some b => .ok (.artifact (b.artifact d.id))
      | none => .error (.failure (.artifactNotFound c.name (toString o.artifactName))) := by
  obtain ⟨settings, inForce, grants⟩ := on.settings
  obtain ⟨context, loaded, fits⟩ :=
    Context.isFor_load consistent hc on.format on.descriptor on.variant grants
  obtain ⟨h, m', component, variant, configuration, perform⟩ :=
    fits.exists_handle consistent hc (Memory.configuration?_noteAll_empty
      (Settings.inForce libraries.toml files i.config environment).2)
  have found : h.configuration.artifact? o.artifactName =
      (c.artifacts.find? (·.artifactName == o.artifactName)).map (·.artifact d.id) := by
    rw [configuration, Configuration.artifact?, ConfigurationDeclaration.configuration,
      List.find?_map]
    rfl
  have id : h.variant.id = c.name := by rw [variant, fits.id_variant]
  simp only [Invocation.answer_run, inForce, loaded, Except.mapError, Except.bind, action, perform,
    Action.report, Handle.lookup, found, id]
  cases c.artifacts.find? (·.artifactName == o.artifactName) <;> rfl

/-- What is declared is found by the fields of its declaration, given to the lookup as they stand,
and such a lookup is always accepted. A name that none of the artifacts has is not found, however
it shows. -/
theorem declared_artifacts_are_found (libraries : Libraries) (parser : LineParser)
    (valid : d.validate = .ok ()) (hc : c ∈ d.configurations) (environment : Option String)
    (files : Files) :
    (∀ a ∈ c.artifacts, ∀ surplus v (x : ArtifactFields), x.WrittenIn surplus v →
      ArtifactDeclaration.decode? surplus v = some a →
        ∃ l b l', c.artifacts = l ++ b :: l' ∧ b.artifactName = a.artifactName ∧
          (∀ e ∈ l, e.artifactName ≠ a.artifactName) ∧
          ∀ (line : CommandLine) i, line.command = "lookup" → x.GivenBy line.given →
            parser.parse environment line.arguments = .ok i →
              i.IsOn d c libraries environment files →
                (i.run libraries environment files).answer =
                  .ok (.artifact (b.artifact d.id))) ∧
    (∀ (i : Invocation) o, i.action = .lookup o → i.IsOn d c libraries environment files →
      (∀ a ∈ c.artifacts, a.artifactName ≠ o.artifactName) →
        (i.run libraries environment files).answer =
          .error (.failure (.artifactNotFound c.name (toString o.artifactName)))) ∧
    ∀ path (x : ArtifactFields), pathFault path = none →
      (∀ path, environment = some path → pathFault path = none) →
        ∃ (line : CommandLine) (i : Invocation), line.command = "lookup" ∧ x.GivenBy line.given ∧
          parser.parse environment line.arguments = .ok i ∧ i.action = .lookup x.options ∧
            i.target = ⟨path, c.name, "text"⟩ ∧ i.config = environment := by
  have consistent := Descriptor.validate_eq_ok_iff.1 valid
  refine ⟨fun a ha surplus v x written decoded => ?_, fun i o action on absent => ?_,
    fun path x fit named => ?_⟩
  · have same := x.artifactName_options written decoded
    obtain ⟨b, found⟩ : ∃ b, c.artifacts.find? (·.artifactName == a.artifactName) = some b :=
      Option.isSome_iff_exists.1 (List.find?_isSome.2 ⟨a, ha, beq_self_eq_true _⟩)
    obtain ⟨named, l, l', cut, earlier⟩ := List.find?_eq_some_iff_append.1 found
    refine ⟨l, b, l', cut, eq_of_beq named, fun e he => ?_, fun line i lookup given parsed on => ?_⟩
    · exact bne_iff_ne.1 (earlier e he)
    · obtain ⟨_, rfl⟩ := (parser.parse_eq_ok_iff line).1 parsed
      have action : actionOf line.command line.given = .lookup x.options := by
        rw [lookup, x.actionOf_lookup given]
      rw [answer_lookup consistent hc on action, same, found]
  · have none : c.artifacts.find? (·.artifactName == o.artifactName) = none :=
      List.find?_eq_none.2 fun a ha => by simpa using absent a ha
    rw [answer_lookup consistent hc on action, none]
  · obtain ⟨i, parsed, action, target, config⟩ := x.parse_line c.name path parser fit named
    exact ⟨_, i, rfl, x.givenBy_line c.name path, parsed, action, target, config⟩

def alike : Descriptor where
  component := { group := "org", name := "lib", version := "1" }
  configurations := [
    { name := "main"
      artifacts := [{ name := "lib" }, { name := "lib", type := "war", extension := some "jar" }] }]

def alikeFiles : Files where
  leads _ := true
  read _ := .ok ("\n".intercalate [
    "component = \x7bgroup=\"org\",name=\"lib\",version=\"1\"\x7d",
    "[[configurations]]",
    "name = \"main\"",
    "artifacts = [\x7bname=\"lib\"\x7d,\x7bname=\"lib\",type=\"war\",extension=\"jar\"\x7d]"])

theorem loadDescriptor_alikeFiles :
    loadDescriptor Libraries.usual.toml alikeFiles "lib.toml" = .ok alike := by
  decide +kernel

/-- The second artifact is found, and a third one that would show like it is not. -/
theorem alike_artifacts_are_told_apart :
    let war : ArtifactFields := { name := "lib", type := some "war", extension := some "jar" }
    let zip : ArtifactFields := { name := "lib", type := some "zip", extension := some "jar" }
    toString zip.options.artifactName = toString war.options.artifactName ∧
    ∃ i j : Invocation, i.action = .lookup war.options ∧ j.action = .lookup zip.options ∧
      (∃ b : ArtifactDeclaration, b.artifactName = ⟨"lib", "war", "jar", none⟩ ∧
        (i.run .usual none alikeFiles).answer = .ok (.artifact (b.artifact alike.id))) ∧
      (j.run .usual none alikeFiles).answer =
        .error (.failure (.artifactNotFound "main" "lib.jar")) := by
  intro war zip
  obtain ⟨found, absent, lines⟩ := declared_artifacts_are_found .usual .stepwise (d := alike)
    (c := alike.configurations[0]) rfl List.mem_cons_self none alikeFiles
  have on {i : Invocation} (target : i.target = ⟨"lib.toml", "main", "text"⟩)
      (config : i.config = none) : i.IsOn alike alike.configurations[0] .usual none alikeFiles := by
    refine ⟨⟨{}, by rw [config]; rfl, rfl⟩, by rw [target]; rfl, ?_, by rw [target]; rfl⟩
    rw [target]
    exact loadDescriptor_alikeFiles
  obtain ⟨line, i, lookup, given, parsed, action, target, config⟩ :=
    lines "lib.toml" war rfl (by simp)
  obtain ⟨_, j, _, _, _, action', target', config'⟩ := lines "lib.toml" zip rfl (by simp)
  obtain ⟨_, b, _, _, named, _, finds⟩ := found
    { name := "lib", type := "war", extension := some "jar" } (by simp [alike]) .refused
    (.table [("name", .text "lib"), ("type", .text "war"), ("extension", .text "jar")]) war
    ⟨_, rfl, rfl, rfl, rfl, rfl⟩ rfl
  refine ⟨rfl, i, j, action, action', ⟨b, named, ?_⟩, ?_⟩
  · exact finds line i lookup given parsed (on target config)
  · exact absent j _ action' (on target' config') (by decide)

end Command

end ArtifactSelection
