import ArtifactSelection.Proofs.Command.Line
import ArtifactSelection.Proofs.Command.Printing

/-!
The form of the output. Lines that differ in nothing but the form that they ask for are accepted
alike, and for either of the two forms a command ends in the same way: with the same report, the same
failure or the same breakdown.
-/

namespace ArtifactSelection.Command

namespace Item

variable {t : Item} {command format : String}

theorem of_knows_format (knows : (grammarOf command).Knows t) (named : t.rule.name = "format") :
    t.rule = { name := "format", letter := some 'f' } ∧ t.isOperand = false := by
  unfold Grammar.Knows at knows
  cases operand : t.isOperand with
  | true =>
    rw [operand, if_pos rfl, operand_grammarOf] at knows
    rw [← Option.some.inj knows] at named
    simp at named
  | false =>
    rw [operand, if_neg Bool.false_ne_true] at knows
    have options : ∀ r ∈ (grammarOf command).options, r.name = "format" →
        r = { name := "format", letter := some 'f' } := by
      unfold grammarOf
      split <;> simp [commandGrammar, commonOptions]
    exact ⟨options t.rule knows named, rfl⟩

/-- Two lists of items that differ in the form that they ask for. -/
structure Reformatted (format : String) (items items' : List Item) : Prop where
  others : items'.filter (·.rule.name != "format") = items.filter (·.rule.name != "format")
  asks : (items'.filter (·.rule.name == "format")).map (·.value) = [some format]

namespace Reformatted

variable {items items' : List Item} (reformatted : Reformatted format items items')
include reformatted

theorem fit (knows : ∀ t ∈ items', (grammarOf command).Knows t) (fit : ∀ t ∈ items, t.Fit) :
    ∀ t ∈ items', t.Fit := by
  intro t ht
  by_cases named : t.rule.name = "format"
  · have value : t.value ∈ (items'.filter (·.rule.name == "format")).map (·.value) :=
      List.mem_map.2 ⟨t, List.mem_filter.2 ⟨ht, beq_iff_eq.2 named⟩, rfl⟩
    rw [reformatted.asks] at value
    rw [Fit, (of_knows_format (knows t ht) named).1]
    exact ⟨format, List.mem_singleton.1 value, rfl⟩
  · have other : t ∈ items'.filter (·.rule.name != "format") :=
      List.mem_filter.2 ⟨ht, bne_iff_ne.2 named⟩
    rw [reformatted.others] at other
    exact fit t (List.mem_filter.1 other).1

theorem follow (knows : ∀ t ∈ items', (grammarOf command).Knows t)
    (follow : items.Pairwise fun t u => u.Follows t) :
    items'.Pairwise fun t u => u.Follows t := by
  have others := follow.filter (·.rule.name != "format")
  rw [← reformatted.others, List.pairwise_filter] at others
  have single : (items'.filter (·.rule.name == "format")).Pairwise fun t u => u.Follows t := by
    obtain ⟨t, asks, _⟩ := List.map_eq_singleton_iff.1 reformatted.asks
    rw [asks]
    exact List.pairwise_singleton _ _
  rw [List.pairwise_filter] at single
  refine (others.and single).imp_of_mem fun {t u} ht hu ⟨apart, once⟩ => ?_
  by_cases first : t.rule.name = "format"
  · by_cases second : u.rule.name = "format"
    · exact once (beq_iff_eq.2 first) (beq_iff_eq.2 second)
    · refine ⟨fun _ same => second (same ▸ first), fun ⟨operand, _⟩ => ?_⟩
      exact absurd (of_knows_format (knows t ht) first).2 (ne_false_of_eq_true operand)
  · by_cases second : u.rule.name = "format"
    · refine ⟨fun _ same => first (same.trans second), fun ⟨_, operand⟩ => ?_⟩
      exact absurd (of_knows_format (knows u hu) second).2 (ne_false_of_eq_true operand)
    · exact apart (bne_iff_ne.2 first) (bne_iff_ne.2 second)

theorem values_eq {n : String} (other : n ≠ "format") :
    (Progress.ofItems items').values n = (Progress.ofItems items).values n := by
  refine Progress.values_ofItems_congr reformatted.others fun t named => ?_
  rw [named]
  exact bne_iff_ne.2 other

theorem values_format (knows : ∀ t ∈ items', (grammarOf command).Knows t) :
    (Progress.ofItems items').values "format" = [format] := by
  obtain ⟨t, asks, value⟩ := List.map_eq_singleton_iff.1 reformatted.asks
  have ht : t ∈ items'.filter (·.rule.name == "format") := by
    rw [asks]
    exact List.mem_singleton_self t
  obtain ⟨ht, named⟩ := List.mem_filter.1 ht
  rw [Progress.values_ofItems, asks, List.map_singleton, given,
    (of_knows_format (knows t ht) (eq_of_beq named)).1, value]
  rfl

end Reformatted

end Item

def Invocation.inFormat (i : Invocation) (format : String) : Invocation :=
  { i with target := { i.target with format } }

theorem Invocation.ofGiven_reformatted {p q : Progress} {environment : Option String}
    {command format : String} {top : Progress}
    (same : ∀ n, n ≠ "format" → q.values n = p.values n) (asks : q.values "format" = [format]) :
    ofGiven environment command top q = (ofGiven environment command top p).inFormat format := by
  have action : actionOf command q = actionOf command p := by
    unfold actionOf
    split
    · simp only [Progress.value?_eq_head?]
      rw [same "artifact" (by decide), same "classifier" (by decide), same "type" (by decide),
        same "extension" (by decide)]
    · rw [Progress.isGiven_eq, Progress.isGiven_eq, same "attribute" (by decide),
        same "exclude" (by decide), same "exclude-artifact" (by decide),
        same "lenient" (by decide)]
    · rfl
    · rfl
  simp only [ofGiven, inFormat, Progress.value?_eq_head?, Progress.isGiven_eq, action, asks]
  rw [same "descriptor" (by decide), same "variant" (by decide), same "verbose" (by decide),
    same "quiet" (by decide), same "config" (by decide)]
  rfl

theorem LineParser.parse_reformatted (parser : LineParser) (line : CommandLine)
    {environment : Option String} {i : Invocation}
    (parsed : parser.parse environment line.arguments = .ok i) {rest : List String}
    {items : List Item} {format : String} (spells : (grammarOf line.command).Spells items rest)
    (reformatted : Item.Reformatted format line.items items) :
    parser.parse environment (line.before ++ line.command :: rest) = .ok (i.inFormat format) := by
  obtain ⟨accepted, rfl⟩ := (parser.parse_eq_ok_iff line).1 parsed
  have minded : "format" ∉ (grammarOf line.command).minded := by
    unfold grammarOf
    split <;> decide
  have parsed' := parser.parse_continued line spells
    (reformatted.fit spells.knows accepted.items.fit)
    (reformatted.follow spells.knows accepted.items.follow)
    (fun n hn => Progress.isGiven_congr (reformatted.values_eq (ne_of_mem_of_not_mem hn minded)))
    parsed
  rw [parsed']
  exact congrArg Except.ok (Invocation.ofGiven_reformatted
    (fun n other => reformatted.values_eq other) (reformatted.values_format spells.knows))

theorem Context.load_inFormat (libraries : Libraries) (files : Files) (settings : Settings)
    (i : Invocation) {f g : String} (known : (Format.ofText? f).isSome)
    (known' : (Format.ofText? g).isSome) :
    Context.load libraries files settings (i.inFormat f).target =
      Context.load libraries files settings (i.inFormat g).target := by
  unfold load Invocation.inFormat
  simp only [Option.isNone_eq_false_iff.2 known, Option.isNone_eq_false_iff.2 known']
  rfl

theorem Invocation.run_inFormat (i : Invocation) (libraries : Libraries)
    (environment : Option String) (files : Files) :
    (i.inFormat "text").run libraries environment files =
      (i.inFormat "json").run libraries environment files := by
  have load (settings : Settings) := Context.load_inFormat libraries files settings i
    (f := "text") (g := "json") rfl rfl
  unfold run
  simp only [load]
  rfl

/-- Commands that print as they go print what their reports are rendered as. One that does not get to
its end has printed nothing. If it fails its exit code is 1; but where all is in order up to the map
of the desk, and that cannot be had, the program breaks down, with an exit code of that. A line that
asks for the other form stands for the same command in that form, and this ends alike: in success,
with the same failure, or with the same breakdown. -/
theorem failing_commands_print_nothing (libraries : Libraries) (parser : LineParser)
    {environment : Option String} {arguments : List String} {i : Invocation}
    (parsed : parser.parse environment arguments = .ok i) (files : Files) :
    let started := (i.print libraries environment files).start
    let run := i.run libraries environment files
    (∃ m, started = (run.answer.map fun _ => (), ⟨m, run.output i.format⟩)) ∧
    (∀ stop, started.1 = .error stop →
      started.2.printed = "" ∧ run.exitCode = stop.exitCode) ∧
    (∀ e, started.1 = .error (.failure e) → run.exitCode = 1) ∧
    (∀ code, started.1 = .error (.breakdown code) ↔
      ∃ s, (Settings.inForce libraries.toml files i.config environment).1 = .ok s ∧
        (Format.ofText? i.target.format).isSome ∧
        (∃ d, loadDescriptor libraries.toml files i.target.descriptor = .ok d) ∧
          libraries.breakdown? s.cache.layout = some code) ∧
    (∃ line : CommandLine, line.arguments = arguments) ∧
    (∀ line : CommandLine, line.arguments = arguments → ∀ format rest items,
      (grammarOf line.command).Spells items rest → Item.Reformatted format line.items items →
        parser.parse environment (line.before ++ line.command :: rest) = .ok (i.inFormat format)) ∧
    let text := i.inFormat "text"
    let json := i.inFormat "json"
    (text.print libraries environment files).start.1 =
        (json.print libraries environment files).start.1 ∧
      (text.run libraries environment files).exitCode =
        (json.run libraries environment files).exitCode ∧
      (text.run libraries environment files).complaint =
        (json.run libraries environment files).complaint := by
  intro started run
  obtain ⟨m, start⟩ : ∃ m, started = (run.answer.map fun _ => (), ⟨m, run.output i.format⟩) :=
    i.start_print libraries environment files
  have ends (stop : Stop) : started.1 = .error stop ↔ run.answer = .error stop := by
    rw [start]
    exact map_eq_error_iff
  have code {stop : Stop} (stopped : started.1 = .error stop) : run.exitCode = stop.exitCode := by
    rw [Outcome.exitCode, (ends stop).1 stopped]
  refine ⟨⟨m, start⟩, fun stop stopped => ⟨?_, code stopped⟩, fun e fails => code fails,
    fun code => ?_, parser.exists_line parsed, ?_, ?_, ?_, ?_⟩
  · rw [start, Outcome.output, (ends stop).1 stopped]
  · exact (ends _).trans Invocation.answer_run_eq_breakdown_iff
  · rintro line rfl format rest items spells reformatted
    exact parser.parse_reformatted line parsed spells reformatted
  · obtain ⟨_, text⟩ := (i.inFormat "text").start_print libraries environment files
    obtain ⟨_, json⟩ := (i.inFormat "json").start_print libraries environment files
    rw [text, json, i.run_inFormat]
  · rw [i.run_inFormat]
  · rw [i.run_inFormat]

def noFiles : Files where
  leads _ := false
  read _ := .error Files.noSuchFile

def listing : List String := ["variants", "lib.toml", "--variant", "main"]

def listingLine : CommandLine where
  before := []
  command := "variants"
  rest := ["lib.toml", "--variant", "main"]
  leading := []
  items := _
  known := by decide
  leads := .nil
  spells := .alone rfl <| .apart rfl rfl .nil

theorem failing_listing_prints_nothing :
    ∃ i, LineParser.stepwise.parse none listing = .ok i ∧
      (i.print .usual none noFiles).start.1 =
        .error (.failure (.plain "Descriptor file lib.toml not found")) ∧
      (i.print .usual none noFiles).start.2.printed = "" ∧
      LineParser.stepwise.parse none (listing ++ ["-fjson"]) = .ok (i.inFormat "json") ∧
      ((i.inFormat "json").print .usual none noFiles).start.1 =
        .error (.failure (.plain "Descriptor file lib.toml not found")) := by
  obtain ⟨i, parsed, fails, fails'⟩ : ∃ i, LineParser.stepwise.parse none listing = .ok i ∧
      (i.print .usual none noFiles).start.1 =
        .error (.failure (.plain "Descriptor file lib.toml not found")) ∧
      ((i.inFormat "text").print .usual none noFiles).start.1 =
        .error (.failure (.plain "Descriptor file lib.toml not found")) := ⟨_, rfl, rfl, rfl⟩
  obtain ⟨_, nothing, _, _, _, lines, same, _⟩ :=
    failing_commands_print_nothing .usual .stepwise parsed noFiles
  refine ⟨i, parsed, fails, (nothing _ fails).1, ?_, same ▸ fails'⟩
  refine lines listingLine rfl "json" ["lib.toml", "--variant", "main", "-fjson"] _
    (.alone rfl <| .apart rfl rfl <| .alone rfl .nil) ⟨rfl, rfl⟩

def roomlessListing : List String :=
  ["artifacts", "lib.toml", "--variant", "main", "--config", "resolve.toml"]

/-- A command that does not get to its end need not have the exit code 1. -/
theorem breakdown_exits_otherwise :
    ∃ i, LineParser.stepwise.parse none roomlessListing = .ok i ∧
      (i.print .usual none loneFiles).start.1 = .error (.breakdown 101) ∧
      (i.run .usual none loneFiles).exitCode = 101 := by
  obtain ⟨i, parsed, format, target, config⟩ : ∃ i,
      LineParser.stepwise.parse none roomlessListing = .ok i ∧
        (Format.ofText? i.target.format).isSome ∧ i.target.descriptor = "lib.toml" ∧
          i.config = some "resolve.toml" := ⟨_, rfl, rfl, rfl, rfl⟩
  have settings : (Settings.inForce Libraries.usual.toml loneFiles i.config none).1 = .ok unroomy := by
    rw [config]
    decide +kernel
  have breaks : (i.run .usual none loneFiles).answer = .error (.breakdown 101) := by
    refine Invocation.answer_run_eq_breakdown_iff.2 ⟨unroomy, settings, format, ⟨lone, ?_⟩, ?_⟩
    · rw [target]
      exact loadDescriptor_loneFiles
    · decide +kernel
  obtain ⟨_, start⟩ := i.start_print .usual none loneFiles
  refine ⟨i, parsed, ?_, ?_⟩
  · rw [start, breaks]
    rfl
  · rw [Outcome.exitCode, breaks]
    rfl

end ArtifactSelection.Command
