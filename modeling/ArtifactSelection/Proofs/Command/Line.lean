import ArtifactSelection.Proofs.Command.Spelling

/-!
Accepted command lines. Before and behind the command a line spells items, and whether it is accepted,
and as what, depends on nothing but what these give. A parser of command lines is anything that
accepts lines by this; reading argument by argument is one way to be one.
-/

namespace ArtifactSelection.Command

theorem operand_grammarOf (command : String) :
    (grammarOf command).operand = some { name := "descriptor", fault := pathFault } := by
  unfold grammarOf
  split <;> rfl

theorem isSome_operand_grammarOf (command : String) : (grammarOf command).operand.isSome := by
  rw [operand_grammarOf]
  rfl

theorem commands_grammarOf (command : String) : (grammarOf command).commands = [] := by
  unfold grammarOf
  split <;> rfl

theorem isDivided_grammarOf (command : String) : (grammarOf command).IsDivided := by
  intro c known
  rw [commands_grammarOf] at known
  cases known

theorem isDivided_topGrammar : topGrammar.IsDivided := by
  have plain : ∀ c ∈ topGrammar.commands, Form.ofText c = .plain := by
    simp only [topGrammar, List.forall_mem_cons]
    exact ⟨rfl, rfl, rfl, rfl, rfl, nofun⟩
  exact fun c known => ⟨plain c known, rfl⟩

def Closes (environment : Option String) (p : Progress) : Prop :=
  ∀ path, environment = some path → p.isGiven "config" = false → pathFault path = none

theorem close_eq_ok_iff {environment : Option String} {p q : Progress} :
    close environment p = .ok q ↔ p.settle = .ok q ∧ Closes environment q := by
  refine Progress.bind_eq_ok_iff.trans ?_
  constructor
  · rintro ⟨p', settled, closed⟩
    unfold Closes
    cases environment with
    | none =>
      cases closed
      exact ⟨settled, by simp⟩
    | some path =>
      cases given : p'.isGiven "config" with
      | true =>
        rw [given] at closed
        cases closed
        exact ⟨settled, by simp [given]⟩
      | false =>
        rw [given] at closed
        cases fault : pathFault path with
        | some mistake => simp [fault] at closed
        | none =>
          simp only [fault] at closed
          cases closed
          exact ⟨settled, by simp [fault]⟩
  · rintro ⟨settled, closes⟩
    refine ⟨q, settled, ?_⟩
    cases environment with
    | none => rfl
    | some path =>
      cases given : q.isGiven "config" with
      | true => rfl
      | false =>
        simp only [closes path rfl given]
        rfl

theorem none_of_read {command : String} {arguments : List String} {p q : Progress}
    {o : Option (String × List String)}
    (read : (grammarOf command).read arguments {} = .ok (p, o)) (settled : p.settle = .ok q) :
    o = none := by
  obtain ⟨known, _⟩ := Grammar.exists_spells (fun _ => isSome_operand_grammarOf command) arguments
    ⟨rfl, rfl⟩ ⟨p, read, settled⟩
  rw [commands_grammarOf] at known
  cases o with
  | none => rfl
  | some x => cases known x rfl

theorem exists_spells_of_readCommand {environment : Option String} {command : String}
    {arguments : List String} {p : Progress}
    (read : readCommand environment command arguments = .ok p) :
    ∃ items, (grammarOf command).Spells items arguments := by
  unfold readCommand at read
  split at read
  · cases read
  · obtain ⟨⟨p₁, o⟩, read, rest⟩ := Progress.bind_eq_ok_iff.1 read
    obtain ⟨p₂, closed, _⟩ := Progress.bind_eq_ok_iff.1 rest
    have settled := (close_eq_ok_iff.1 closed).1
    obtain rfl := none_of_read read settled
    obtain ⟨_, before, items, spells, rfl⟩ := Grammar.exists_spells
      (fun _ => isSome_operand_grammarOf command) arguments ⟨rfl, rfl⟩ ⟨p₁, read, settled⟩
    exact ⟨items, by simpa using spells⟩

def Progress.ofItems (items : List Item) : Progress := { given := items.map Item.given }

theorem Progress.values_ofItems (items : List Item) (n : String) :
    (ofItems items).values n = (items.filter (·.rule.name == n)).map (·.given.2) := by
  rw [values, ofItems, List.filter_map, List.map_map]
  rfl

theorem Item.filter_through {p keep : Item → Bool} (kept : ∀ t, p t = true → keep t = true)
    (l : List Item) : l.filter p = (l.filter keep).filter p := by
  rw [List.filter_filter]
  refine List.filter_congr fun t _ => ?_
  cases passes : p t with
  | false => rfl
  | true => rw [kept t passes, Bool.and_true]

theorem Progress.values_ofItems_congr {items items' : List Item} {keep : Item → Bool} {n : String}
    (same : items'.filter keep = items.filter keep) (kept : ∀ t, t.rule.name = n → keep t = true) :
    (ofItems items').values n = (ofItems items).values n := by
  have named (t : Item) (passes : (t.rule.name == n) = true) : keep t = true :=
    kept t (eq_of_beq passes)
  rw [values_ofItems, values_ofItems, Item.filter_through named items',
    Item.filter_through named items, same]

def Invocation.ofGiven (environment : Option String) (command : String) (top p : Progress) :
    Invocation where
  target :=
    { descriptor := (p.value? "descriptor").getD ""
      variant := (p.value? "variant").getD ""
      format := (p.value? "format").getD "text" }
  action := actionOf command p
  verbose := top.isGiven "verbose" || p.isGiven "verbose"
  quiet := top.isGiven "quiet" || p.isGiven "quiet"
  config := (p.value? "config").or ((top.value? "config").or environment)

/-- Nothing is wrong with the items of a level, nor with their standing together. -/
structure Grammar.Accepts (g : Grammar) (items : List Item) (environment : Option String) :
    Prop where
  fit : ∀ t ∈ items, t.Fit
  follow : items.Pairwise fun t u => u.Follows t
  closes : Closes environment (.ofItems items)
  judged : g.judge (.ofItems items) = .ok ()

theorem Progress.takeAll_empty_iff {items : List Item} {q : Progress} :
    ({} : Progress).takeAll items = .ok q ↔ (∀ t ∈ items, t.Fit) ∧
      (items.Pairwise fun t u => u.Follows t) ∧
        q = { ofItems items with operandRead := items.any (·.isOperand) } := by
  rw [takeAll_eq_ok_iff]
  constructor
  · rintro ⟨fit, follow, _, _, rfl⟩
    exact ⟨fit, follow, rfl⟩
  · rintro ⟨fit, follow, rfl⟩
    exact ⟨fit, follow, by simp [isGiven], by simp, rfl⟩

theorem readCommand_eq_ok_iff {environment : Option String} {command : String}
    {arguments : List String} {items : List Item} {p : Progress}
    (spells : (grammarOf command).Spells items arguments) :
    readCommand environment command arguments = .ok p ↔
      (command ≠ "help" ∧ (grammarOf command).Accepts items environment) ∧
        p = { Progress.ofItems items with
          operandRead := items.any (·.isOperand), operandsOnly := arguments.contains "--" } := by
  unfold readCommand
  by_cases help : command = "help"
  · subst help
    constructor
    · intro read
      cases read
    · rintro ⟨⟨proper, _⟩, _⟩
      exact absurd rfl proper
  have reads {q : Progress} := Grammar.reads_iff_of_spells (q := q) (isDivided_grammarOf command)
    spells (p := {}) ⟨rfl, rfl⟩
  simp only [Progress.takeAll_empty_iff] at reads
  rw [if_neg (by simpa using help)]
  refine Progress.bind_eq_ok_iff.trans ?_
  constructor
  · rintro ⟨⟨p₁, o⟩, read, rest⟩
    obtain ⟨p₂, closed, rest⟩ := Progress.bind_eq_ok_iff.1 rest
    obtain ⟨_, judged, rest⟩ := Progress.bind_eq_ok_iff.1 rest
    cases rest
    obtain ⟨settled, closes⟩ := close_eq_ok_iff.1 closed
    obtain rfl := none_of_read read settled
    obtain ⟨_, ⟨fit, follow, rfl⟩, rfl⟩ := reads.1 ⟨p₁, read, settled⟩
    exact ⟨⟨help, fit, follow, closes, judged⟩, rfl⟩
  · rintro ⟨⟨_, fit, follow, closes, judged⟩, rfl⟩
    obtain ⟨p₁, read, settled⟩ := reads.2 ⟨_, ⟨fit, follow, rfl⟩, rfl⟩
    have closed := close_eq_ok_iff.2 ⟨settled, closes⟩
    refine ⟨⟨p₁, none⟩, read, Progress.bind_eq_ok_iff.2 ⟨_, closed, ?_⟩⟩
    exact Progress.bind_eq_ok_iff.2 ⟨(), judged, rfl⟩

/-- A command line: the items that stand before its command, and those behind it. -/
structure CommandLine where
  before : List String
  command : String
  rest : List String
  leading : List Item
  items : List Item
  known : command ∈ topGrammar.commands
  leads : topGrammar.Spells leading before
  spells : (grammarOf command).Spells items rest

namespace CommandLine

variable {environment : Option String} {i : Invocation}

def arguments (line : CommandLine) : List String := line.before ++ line.command :: line.rest

def top (line : CommandLine) : Progress := .ofItems line.leading

def given (line : CommandLine) : Progress := .ofItems line.items

structure Accepted (line : CommandLine) (environment : Option String) : Prop where
  command : line.command ≠ "help"
  leading : topGrammar.Accepts line.leading environment
  items : (grammarOf line.command).Accepts line.items environment

def invocation (line : CommandLine) (environment : Option String) : Invocation :=
  .ofGiven environment line.command line.top line.given

def continued (line : CommandLine) {rest : List String} {items : List Item}
    (spells : (grammarOf line.command).Spells items rest) : CommandLine :=
  { line with rest, items, spells }

/-- Reading argument by argument accepts a line when neither level has a mistake, and then as what
the two give. -/
theorem parse_arguments_eq_ok_iff (line : CommandLine) :
    Invocation.parse environment line.arguments = .ok i ↔
      line.Accepted environment ∧ i = line.invocation environment := by
  have reads {o : Option (String × List String)} {q : Progress} :=
    Grammar.reads_command_iff_of_spells (o := o) (q := q) isDivided_topGrammar line.known line.leads
      line.rest (p := {}) ⟨rfl, rfl⟩
  simp only [Progress.takeAll_empty_iff] at reads
  unfold Invocation.parse
  refine Progress.bind_eq_ok_iff.trans ?_
  constructor
  · rintro ⟨⟨top, o⟩, read, parsed⟩
    cases o with
    | none =>
      obtain ⟨_, _, parsed⟩ := Progress.bind_eq_ok_iff.1 parsed
      cases parsed
    | some x =>
      obtain ⟨p, level, parsed⟩ := Progress.bind_eq_ok_iff.1 parsed
      obtain ⟨q, closed, parsed⟩ := Progress.bind_eq_ok_iff.1 parsed
      obtain ⟨_, judged, parsed⟩ := Progress.bind_eq_ok_iff.1 parsed
      cases parsed
      obtain ⟨settled, closes⟩ := close_eq_ok_iff.1 closed
      obtain ⟨same, fit, follow, rfl⟩ := reads.1 ⟨top, read, settled⟩
      obtain rfl := Option.some.inj same
      obtain ⟨⟨command, accepts⟩, rfl⟩ := (readCommand_eq_ok_iff line.spells).1 level
      exact ⟨⟨command, ⟨fit, follow, closes, judged⟩, accepts⟩, rfl⟩
  · rintro ⟨⟨command, ⟨fit, follow, closes, judged⟩, accepts⟩, rfl⟩
    obtain ⟨top, read, settled⟩ := reads.2 ⟨rfl, fit, follow, rfl⟩
    have level := (readCommand_eq_ok_iff line.spells).2 ⟨⟨command, accepts⟩, rfl⟩
    refine ⟨_, read, Progress.bind_eq_ok_iff.2 ⟨_, level, ?_⟩⟩
    refine Progress.bind_eq_ok_iff.2 ⟨_, close_eq_ok_iff.2 ⟨settled, closes⟩, ?_⟩
    exact Progress.bind_eq_ok_iff.2 ⟨(), judged, rfl⟩

theorem exists_of_parse {arguments : List String}
    (parsed : Invocation.parse environment arguments = .ok i) :
    ∃ line : CommandLine, line.arguments = arguments := by
  obtain ⟨⟨top, o⟩, read, parsed⟩ := Progress.bind_eq_ok_iff.1 parsed
  cases o with
  | none =>
    obtain ⟨_, _, parsed⟩ := Progress.bind_eq_ok_iff.1 parsed
    cases parsed
  | some x =>
    obtain ⟨p, level, parsed⟩ := Progress.bind_eq_ok_iff.1 parsed
    obtain ⟨q, closed, _⟩ := Progress.bind_eq_ok_iff.1 parsed
    have reads : topGrammar.Reads arguments (some x) {} q :=
      ⟨top, read, (close_eq_ok_iff.1 closed).1⟩
    obtain ⟨known, before, leading, leads, rfl⟩ :=
      Grammar.exists_spells (o := some x) nofun arguments ⟨rfl, rfl⟩ reads
    obtain ⟨items, spells⟩ := exists_spells_of_readCommand level
    exact ⟨⟨before, x.1, x.2, leading, items, known x rfl, leads, spells⟩, rfl⟩

end CommandLine

/-- A parser of command lines. What it accepts are command lines with which nothing is wrong, all of
them, and each as what it says. -/
structure LineParser where
  parse : Option String → List String → Except Usage Invocation
  exists_line {environment : Option String} {arguments : List String} {i : Invocation} :
    parse environment arguments = .ok i → ∃ line : CommandLine, line.arguments = arguments
  parse_eq_ok_iff {environment : Option String} {i : Invocation} (line : CommandLine) :
    parse environment line.arguments = .ok i ↔
      line.Accepted environment ∧ i = line.invocation environment

def LineParser.stepwise : LineParser where
  parse := Invocation.parse
  exists_line := CommandLine.exists_of_parse
  parse_eq_ok_iff := CommandLine.parse_arguments_eq_ok_iff

namespace Progress

variable {p q : Progress} {n : String}

theorem value?_eq_head? (p : Progress) (n : String) : p.value? n = (p.values n).head? := by
  rw [value?, values]
  induction p.given with
  | nil => rfl
  | cons x l ih =>
    obtain ⟨k, v⟩ := x
    by_cases same : k = n
    · simp [same]
    · simp [List.lookup_cons, same, beq_false_of_ne (Ne.symm same), ih]

theorem isGiven_eq (p : Progress) (n : String) : p.isGiven n = !(p.values n).isEmpty := by
  rw [isGiven, values, List.isEmpty_map, Bool.eq_iff_iff]
  simp

theorem isGiven_congr (same : p.values n = q.values n) : p.isGiven n = q.isGiven n := by
  rw [isGiven_eq, isGiven_eq, same]

end Progress

theorem Invocation.ofGiven_congr {p q : Progress} {environment : Option String} {command : String}
    {top : Progress} (same : ∀ n ∈ ["descriptor", "variant", "format", "verbose", "quiet", "config"],
      q.values n = p.values n) :
    ofGiven environment command top q =
      { ofGiven environment command top p with action := actionOf command q } := by
  simp only [ofGiven, Progress.value?_eq_head?, Progress.isGiven_eq]
  rw [same "descriptor" (by simp), same "variant" (by simp), same "format" (by simp),
    same "verbose" (by simp), same "quiet" (by simp), same "config" (by simp)]

def Grammar.minded (g : Grammar) : List String :=
  "config" :: g.required ++ g.exclusive.flatMap fun e => [e.1, e.2]

theorem Grammar.judge_congr {g : Grammar} {p q : Progress}
    (same : ∀ n ∈ g.minded, p.isGiven n = q.isGiven n) : g.judge p = g.judge q := by
  have required : g.required.all p.isGiven = g.required.all q.isGiven := by
    rw [Bool.eq_iff_iff, List.all_eq_true, List.all_eq_true]
    refine forall₂_congr fun n hn => ?_
    rw [same n (List.mem_append_left _ (List.mem_cons_of_mem _ hn))]
  have exclusive : (g.exclusive.any fun e => p.isGiven e.1 && p.isGiven e.2) =
      g.exclusive.any fun e => q.isGiven e.1 && q.isGiven e.2 := by
    rw [Bool.eq_iff_iff, List.any_eq_true, List.any_eq_true]
    refine exists_congr fun e => and_congr_right fun he => ?_
    have both : ∀ n ∈ [e.1, e.2], p.isGiven n = q.isGiven n := fun n hn =>
      same n (List.mem_append_right _ (List.mem_flatMap.2 ⟨e, he, hn⟩))
    rw [both e.1 (by simp), both e.2 (by simp)]
  rw [judge, judge, required, exclusive]

theorem LineParser.parse_continued (parser : LineParser) (line : CommandLine)
    {environment : Option String} {i : Invocation} {rest : List String} {items : List Item}
    (spells : (grammarOf line.command).Spells items rest) (fit : ∀ t ∈ items, t.Fit)
    (follow : items.Pairwise fun t u => u.Follows t)
    (same : ∀ n ∈ (grammarOf line.command).minded,
      (line.continued spells).given.isGiven n = line.given.isGiven n)
    (parsed : parser.parse environment line.arguments = .ok i) :
    parser.parse environment (line.before ++ line.command :: rest) =
      .ok ((line.continued spells).invocation environment) := by
  obtain ⟨accepted, rfl⟩ := (parser.parse_eq_ok_iff line).1 parsed
  refine (parser.parse_eq_ok_iff (line.continued spells)).2 ⟨?_, rfl⟩
  refine ⟨accepted.command, accepted.leading, fit, follow, fun path named absent => ?_, ?_⟩
  · exact accepted.items.closes path named ((same "config" List.mem_cons_self).symm.trans absent)
  · exact (Grammar.judge_congr same).trans accepted.items.judged

end ArtifactSelection.Command
