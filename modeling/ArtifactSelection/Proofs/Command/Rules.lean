import ArtifactSelection.Proofs.Attributes.Algebra
import ArtifactSelection.Proofs.Command.Failure
import ArtifactSelection.Proofs.Command.Line
import ArtifactSelection.Proofs.Selection.Filtering

/-!
Rules and overrides of a command line. The rules of exclusion make one rule that excludes what any of
them does, so neither their order nor their number matters. The overrides are those of the last
attribute of every key, so only the order among attributes of one key matters. Lines that differ in
nothing else are accepted alike, and what they print is the same.
-/

namespace ArtifactSelection.Command

section Attribute

variable {s k v : String}

/-- What an attribute's text says: the key before its first `=`, and the value behind it. -/
def Sets (s k v : String) : Prop :=
  ∃ key value, s.toList = key ++ '=' :: value ∧ '=' ∉ key ∧ Text.trim key = k.toList ∧
    Text.trim value = v.toList

theorem attribute?_of_notMem (plain : '=' ∉ s.toList) : attribute? s = none := by
  rw [attribute?, List.dropWhile_eq_nil_iff.2 (bne_equals_of_notMem plain)]

theorem attribute?_cut {key value : List Char} (cut : s.toList = key ++ '=' :: value)
    (plain : '=' ∉ key) :
    attribute? s = if Text.trim key = [] then none
      else some (.ofList (Text.trim key), .ofList (Text.trim value)) := by
  have all := bne_equals_of_notMem plain
  rw [attribute?, cut, List.dropWhile_append_of_pos all, List.takeWhile_append_of_pos all,
    List.dropWhile_cons_of_neg (by decide), List.takeWhile_cons_of_neg (by decide),
    List.append_nil]
  simp

theorem attribute?_of_sets (said : Sets s k v) :
    attribute? s = if k = "" then none else some (k, v) := by
  obtain ⟨key, value, cut, plain, front, back⟩ := said
  rw [attribute?_cut cut plain, front, back, String.ofList_toList, String.ofList_toList]
  simp only [String.toList_eq_nil_iff]

theorem sets_of_attribute? (read : attribute? s = some (k, v)) : Sets s k v := by
  by_cases equals : '=' ∈ s.toList
  · obtain ⟨key, value, cut, plain⟩ := List.eq_append_cons_of_mem equals
    rw [attribute?_cut cut plain] at read
    obtain ⟨_, read⟩ := Option.ite_none_left_eq_some.1 read
    cases read
    exact ⟨key, value, cut, plain, String.toList_ofList.symm, String.toList_ofList.symm⟩
  · rw [attribute?_of_notMem equals] at read
    cases read

theorem attribute?_eq_some_iff (told : (attribute? s).isSome) :
    attribute? s = some (k, v) ↔ Sets s k v := by
  constructor
  · exact sets_of_attribute?
  · intro said
    rw [attribute?_of_sets said, Option.isSome_ite'] at told
    rw [attribute?_of_sets said, if_neg told]

theorem any_attribute?_iff (told : (attribute? s).isSome) :
    (attribute? s).any (·.1 == k) = true ↔ ∃ w, Sets s k w := by
  simp only [← attribute?_eq_some_iff told, Option.any_eq_true, beq_iff_eq, Prod.exists,
    exists_and_right, exists_eq_right]

theorem get?_attributes_eq_some_iff {texts : List String}
    (told : ∀ s ∈ texts, (attribute? s).isSome) :
    (Attributes.ofList (texts.filterMap attribute?)).get? k = some v ↔
      ∃ l s l', texts = l ++ s :: l' ∧ Sets s k v ∧ ∀ u ∈ l', ∀ w, ¬ Sets u k w := by
  have silent {u : String} (hu : u ∈ texts) :
      (!(attribute? u).any (·.1 == k)) = true ↔ ∀ w, ¬ Sets u k w := by
    rw [Bool.not_eq_true', ← Bool.not_eq_true, any_attribute?_iff (told u hu), not_exists]
  rw [Attributes.get?_ofList, ← List.filterMap_reverse, List.find?_filterMap]
  constructor
  · intro found
    obtain ⟨⟨_, w⟩, known, rfl⟩ := Option.map_eq_some_iff.1 found
    obtain ⟨s, first, read⟩ := Option.bind_eq_some_iff.1 known
    obtain ⟨here, later, earlier, cut, last⟩ := List.find?_eq_some_iff_append.1 first
    have whole : texts = earlier.reverse ++ s :: later.reverse := by
      rw [← List.reverse_reverse texts, cut]
      simp
    refine ⟨earlier.reverse, s, later.reverse, whole, ?_, fun u hu => ?_⟩
    · rw [read, Option.any_some] at here
      obtain rfl := eq_of_beq here
      exact sets_of_attribute? read
    · refine (silent ?_).1 (last u (List.mem_reverse.1 hu))
      rw [whole]
      exact List.mem_append_right _ (List.mem_cons_of_mem _ hu)
  · rintro ⟨l, s, l', rfl, said, last⟩
    have here : s ∈ l ++ s :: l' := List.mem_append_right _ List.mem_cons_self
    have found : (l ++ s :: l').reverse.find? (fun u => (attribute? u).any (·.1 == k)) = some s := by
      refine List.find?_eq_some_iff_append.2
        ⟨(any_attribute?_iff (told s here)).2 ⟨v, said⟩, l'.reverse, l.reverse, by simp, ?_⟩
      intro u hu
      have later := List.mem_reverse.1 hu
      exact (silent (List.mem_append_right _ (List.mem_cons_of_mem _ later))).2 (last u later)
    rw [found, Option.bind_some, (attribute?_eq_some_iff (told s here)).2 said]
    rfl

end Attribute

namespace Item

def isExclusion (t : Item) : Bool := t.rule.name == "exclude" || t.rule.name == "exclude-artifact"

def isAttribute (t : Item) : Bool := t.rule.name == "attribute"

def isRepeatable (t : Item) : Bool := t.isExclusion || t.isAttribute

def exclusion? (t : Item) : Option Exclusion :=
  if t.rule.name = "exclude" then t.value.bind Exclusion.ofText?
  else if t.rule.name = "exclude-artifact" then t.value.map fun n => .artifact n none none
  else none

theorem exclusion?_eq_some_iff {t : Item} {e : Exclusion} :
    t.exclusion? = some e ↔
      (∃ v, t.rule.name = "exclude" ∧ t.value = some v ∧ Exclusion.ofText? v = some e) ∨
        ∃ n, t.rule.name = "exclude-artifact" ∧ t.value = some n ∧ .artifact n none none = e := by
  unfold exclusion?
  by_cases whole : t.rule.name = "exclude"
  · simp [whole, Option.bind_eq_some_iff]
  · by_cases single : t.rule.name = "exclude-artifact"
    · simp [single]
    · simp [whole, single]

def key? (t : Item) : Option String :=
  if t.isAttribute then t.value.bind fun s => (attribute? s).map (·.1) else none

variable {t : Item}

theorem of_knows (knows : (grammarOf "resolve").Knows t) :
    (t.rule.takes = .values ↔ t.isRepeatable = true) ∧
      (t.isAttribute = true → t.rule.fault = attributeFault) := by
  unfold Grammar.Knows at knows
  unfold isRepeatable isExclusion isAttribute
  cases operand : t.isOperand with
  | true =>
    rw [operand, if_pos rfl, operand_grammarOf] at knows
    simp [← Option.some.inj knows]
  | false =>
    rw [operand, if_neg Bool.false_ne_true] at knows
    simp only [grammarOf, commandGrammar, commonOptions, List.cons_append, List.nil_append,
      List.mem_cons, List.not_mem_nil, or_false] at knows
    rcases knows with h | h | h | h | h | h | h | h | h | h <;> simp [h]

theorem takes_values_iff (knows : (grammarOf "resolve").Knows t) :
    t.rule.takes = .values ↔ t.isRepeatable = true :=
  (of_knows knows).1

theorem value_of_isRepeatable (knows : (grammarOf "resolve").Knows t) (fit : t.Fit)
    (repeatable : t.isRepeatable = true) : ∃ v, t.value = some v ∧ t.given = (t.rule.name, v) := by
  have takes := (takes_values_iff knows).2 repeatable
  rw [Fit, takes] at fit
  obtain ⟨v, value, _⟩ := fit
  refine ⟨v, value, ?_⟩
  rw [given, takes, value]
  rfl

theorem isOperand_of_isRepeatable (knows : (grammarOf "resolve").Knows t)
    (repeatable : t.isRepeatable = true) : t.isOperand = false := by
  have takes := (takes_values_iff knows).2 repeatable
  apply Bool.eq_false_iff.2
  intro operand
  rw [Grammar.Knows, operand, if_pos rfl, operand_grammarOf] at knows
  rw [← Option.some.inj knows] at takes
  cases takes

theorem follows_of_isRepeatable {u : Item} (knows : (grammarOf "resolve").Knows t)
    (knows' : (grammarOf "resolve").Knows u)
    (repeatable : t.isRepeatable = true ∨ u.isRepeatable = true) : u.Follows t := by
  constructor
  · intro single same
    have alike : t.isRepeatable = u.isRepeatable := by
      unfold isRepeatable isExclusion isAttribute
      rw [same]
    rw [alike, or_self] at repeatable
    exact single ((takes_values_iff knows').2 repeatable)
  · rintro ⟨first, second⟩
    rcases repeatable with repeatable | repeatable
    · exact absurd (isOperand_of_isRepeatable knows repeatable) (ne_false_of_eq_true first)
    · exact absurd (isOperand_of_isRepeatable knows' repeatable) (ne_false_of_eq_true second)

theorem isAttribute_of_key? {k : String} (key : t.key? = some k) : t.isAttribute = true := by
  unfold key? at key
  split at key
  · assumption
  · cases key

/-- Two lists of items that differ in their repeated options only: in the order and the number of
rules of exclusion, and in the order of attributes. Attributes of one key keep theirs. -/
structure Rearranged (items items' : List Item) : Prop where
  others : items'.filter (!·.isRepeatable) = items.filter (!·.isRepeatable)
  exclusions : ∀ t, t.isExclusion = true → (t ∈ items' ↔ t ∈ items)
  attributes : (items'.filter (·.isAttribute)).Perm (items.filter (·.isAttribute))
  keys : (items.filter (·.isAttribute)).Pairwise (fun t u => t.key? ≠ u.key?) ∨
    ∀ k, items'.filter (·.key? = some k) = items.filter (·.key? = some k)

namespace Rearranged

variable {items items' : List Item} (rearranged : Rearranged items items')
include rearranged

theorem filter_key?_eq (k : String) :
    items'.filter (·.key? = some k) = items.filter (·.key? = some k) := by
  refine rearranged.keys.elim (fun distinct => ?_) (· k)
  have sets (t : Item) (key : decide (t.key? = some k) = true) : t.isAttribute = true :=
    isAttribute_of_key? (of_decide_eq_true key)
  have perm := rearranged.attributes.filter fun t => decide (t.key? = some k)
  rw [filter_through sets items', filter_through sets items]
  cases found : (items.filter (·.isAttribute)).filter (·.key? = some k) with
  | nil =>
    rw [found] at perm
    exact perm.eq_nil
  | cons t l =>
    have apart := distinct.filter fun t => decide (t.key? = some k)
    rw [found] at apart perm
    cases l with
    | nil => exact perm.eq_singleton
    | cons u l =>
      have keyed : ∀ x ∈ t :: u :: l, x.key? = some k := fun x hx => by
        rw [← found] at hx
        exact of_decide_eq_true (List.mem_filter.1 hx).2
      have differ := List.rel_of_pairwise_cons apart List.mem_cons_self
      rw [keyed t (by simp), keyed u (by simp)] at differ
      exact absurd rfl differ

theorem mem_iff (t : Item) : t ∈ items' ↔ t ∈ items := by
  cases repeatable : t.isRepeatable with
  | false =>
    have alike : t ∈ items'.filter (!·.isRepeatable) ↔ t ∈ items.filter (!·.isRepeatable) := by
      rw [rearranged.others]
    simpa [repeatable] using alike
  | true =>
    rcases Bool.or_eq_true_iff.1 repeatable with exclusion | override
    · exact rearranged.exclusions t exclusion
    · have alike := rearranged.attributes.mem_iff (a := t)
      simpa [override] using alike

theorem values_eq {n : String} (once : n ∉ ["exclude", "exclude-artifact", "attribute"]) :
    (Progress.ofItems items').values n = (Progress.ofItems items).values n := by
  refine Progress.values_ofItems_congr rearranged.others fun t named => ?_
  rw [← named] at once
  simpa [isRepeatable, isExclusion, isAttribute, and_assoc] using once

theorem follow (knows : ∀ t ∈ items, (grammarOf "resolve").Knows t)
    (follow : items.Pairwise fun t u => u.Follows t) :
    items'.Pairwise fun t u => u.Follows t := by
  have others := follow.filter (!·.isRepeatable)
  rw [← rearranged.others, List.pairwise_filter] at others
  refine others.imp_of_mem fun {t u} ht hu apart => ?_
  by_cases once : t.isRepeatable = false ∧ u.isRepeatable = false
  · exact apart (by rw [once.1]; rfl) (by rw [once.2]; rfl)
  · rw [not_and_or, Bool.not_eq_false, Bool.not_eq_false] at once
    exact follows_of_isRepeatable (knows t ((rearranged.mem_iff t).1 ht))
      (knows u ((rearranged.mem_iff u).1 hu)) once

end Rearranged

end Item

def ResolveOptions.ofGiven (p : Progress) : ResolveOptions where
  attributes := (p.values "attribute").filterMap attribute?
  exclusions := (p.values "exclude").filterMap Exclusion.ofText?
  excludedArtifacts := p.values "exclude-artifact"
  lenient := p.isGiven "lenient"

theorem actionOf_resolve (p : Progress) : actionOf "resolve" p = .resolve (.ofGiven p) := rfl

namespace ResolveOptions

variable {items : List Item} (knows : ∀ t ∈ items, (grammarOf "resolve").Knows t)
  (fit : ∀ t ∈ items, t.Fit)
include knows fit

theorem mem_values_iff {n : String} (repeatable : n ∈ ["exclude", "exclude-artifact", "attribute"])
    {v : String} : v ∈ (Progress.ofItems items).values n ↔
      ∃ t ∈ items, t.rule.name = n ∧ t.value = some v := by
  have value {t : Item} (ht : t ∈ items) (named : t.rule.name = n) :
      ∃ v, t.value = some v ∧ t.given = (t.rule.name, v) := by
    refine Item.value_of_isRepeatable (knows t ht) (fit t ht) ?_
    rw [← named] at repeatable
    simpa [Item.isRepeatable, Item.isExclusion, Item.isAttribute, or_assoc] using repeatable
  rw [Progress.values_ofItems, List.mem_map]
  constructor
  · rintro ⟨t, ht, rfl⟩
    obtain ⟨ht, named⟩ := List.mem_filter.1 ht
    obtain ⟨v, known, given⟩ := value ht (eq_of_beq named)
    exact ⟨t, ht, eq_of_beq named, by rw [known, given]⟩
  · rintro ⟨t, ht, named, known⟩
    obtain ⟨v', known', given⟩ := value ht named
    refine ⟨t, List.mem_filter.2 ⟨ht, beq_iff_eq.2 named⟩, ?_⟩
    rw [given]
    exact Option.some.inj (known'.symm.trans known)

theorem exclusion_ofGiven {q : Exclusion → Bool} (distributes : Exclusion.Distributes q) :
    q (ofGiven (.ofItems items)).exclusion = true ↔
      ∃ t ∈ items, ∃ e, t.exclusion? = some e ∧ q e = true := by
  have mem (e : Exclusion) : e ∈ (ofGiven (.ofItems items)).exclusions ++
      (ofGiven (.ofItems items)).excludedArtifacts.map (fun n => .artifact n none none) ↔
        ∃ t ∈ items, t.exclusion? = some e := by
    rw [List.mem_append, ofGiven, List.mem_filterMap, List.mem_map]
    simp only [mem_values_iff knows fit (n := "exclude") (by simp),
      mem_values_iff knows fit (n := "exclude-artifact") (by simp), Item.exclusion?_eq_some_iff]
    constructor
    · rintro (⟨v, ⟨t, ht, named, value⟩, read⟩ | ⟨n, ⟨t, ht, named, value⟩, rfl⟩)
      · exact ⟨t, ht, .inl ⟨v, named, value, read⟩⟩
      · exact ⟨t, ht, .inr ⟨n, named, value, rfl⟩⟩
    · rintro ⟨t, ht, ⟨v, named, value, read⟩ | ⟨n, named, value, rfl⟩⟩
      · exact .inl ⟨v, ⟨t, ht, named, value⟩, read⟩
      · exact .inr ⟨n, ⟨t, ht, named, value⟩, rfl⟩
  rw [exclusion, distributes.combine, List.any_eq_true]
  constructor
  · rintro ⟨e, he, excluded⟩
    obtain ⟨t, ht, rule⟩ := (mem e).1 he
    exact ⟨t, ht, e, rule, excluded⟩
  · rintro ⟨t, ht, e, rule, excluded⟩
    exact ⟨e, (mem e).2 ⟨t, ht, rule⟩, excluded⟩

theorem filter_attributes_ofGiven (k : String) :
    (ofGiven (.ofItems items)).attributes.filter (·.1 == k) =
      (items.filter (·.key? = some k)).filterMap fun t => attribute? t.given.2 := by
  rw [ofGiven, Progress.values_ofItems, List.filterMap_map, List.filterMap_filter,
    List.filterMap_filter, List.filter_filterMap]
  refine List.filterMap_congr fun t ht => ?_
  have named : (t.rule.name == "attribute") = t.isAttribute := rfl
  cases override : t.isAttribute with
  | false => simp [named, Item.key?, override]
  | true =>
    obtain ⟨v, value, given⟩ := Item.value_of_isRepeatable (knows t ht) (fit t ht)
      (by rw [Item.isRepeatable, override, Bool.or_true])
    cases read : attribute? v with
    | none => simp [named, Item.key?, override, value, given, read]
    | some x =>
      by_cases key : x.1 = k
      · simp [named, Item.key?, override, value, given, read, key]
      · simp [named, Item.key?, override, value, given, read, key]

theorem isSome_attribute? : ∀ s ∈ (Progress.ofItems items).values "attribute",
    (attribute? s).isSome := by
  intro s hs
  obtain ⟨t, ht, named, value⟩ := (mem_values_iff knows fit (by simp)).1 hs
  have takes : t.rule.takes = .values :=
    (Item.takes_values_iff (knows t ht)).2 (by simp [Item.isRepeatable, Item.isAttribute, named])
  have proper := fit t ht
  rw [Item.Fit, takes, value] at proper
  obtain ⟨_, same, proper⟩ := proper
  obtain rfl := Option.some.inj same
  rw [(Item.of_knows (knows t ht)).2 (beq_iff_eq.2 named), attributeFault] at proper
  cases read : attribute? s with
  | none => simp [read] at proper
  | some x => rfl

theorem overrides_of_rearranged {items' : List Item} (rearranged : Item.Rearranged items items') :
    (ofGiven (.ofItems items')).overrides = (ofGiven (.ofItems items)).overrides := by
  refine Attributes.ofList_congr fun k => ?_
  rw [filter_attributes_ofGiven knows fit, filter_attributes_ofGiven, rearranged.filter_key?_eq]
  · exact fun t ht => knows t ((rearranged.mem_iff t).1 ht)
  · exact fun t ht => fit t ((rearranged.mem_iff t).1 ht)

theorem agree_of_rearranged {items' : List Item} (rearranged : Item.Rearranged items items')
    (m : ModuleCoordinate) : Exclusion.Agree m (ofGiven (.ofItems items')).exclusion
      (ofGiven (.ofItems items)).exclusion := by
  have decides {q : Exclusion → Bool} (distributes : Exclusion.Distributes q) :
      q (ofGiven (.ofItems items')).exclusion = q (ofGiven (.ofItems items)).exclusion := by
    rw [Bool.eq_iff_iff, exclusion_ofGiven knows fit distributes, exclusion_ofGiven _ _ distributes]
    · simp only [rearranged.mem_iff]
    · exact fun t ht => knows t ((rearranged.mem_iff t).1 ht)
    · exact fun t ht => fit t ((rearranged.mem_iff t).1 ht)
  constructor
  · exact decides (Exclusion.distributes_excludesModule m)
  · intro a
    exact decides (Exclusion.distributes_excludesArtifact m a)

end ResolveOptions

/-- The same selection under other options comes to the same if these decide alike. -/
theorem Invocation.answer_run_of_agree {i : Invocation} {o o' : ResolveOptions}
    (action : i.action = .resolve o) (lenient : o'.lenient = o.lenient)
    (overrides : o'.overrides = o.overrides)
    (agree : ∀ m, Exclusion.Agree m o'.exclusion o.exclusion) (libraries : Libraries)
    (environment : Option String) (files : Files) :
    (({ i with action := .resolve o' } : Invocation).run libraries environment files).answer =
      (i.run libraries environment files).answer := by
  have same (context : Context) (m : Memory) :
      ((Action.resolve o').perform context m).1 = (i.action.perform context m).1 := by
    rw [action]
    refine Action.perform_congr (fun h m => ?_) m
    have policies : policy context.settings o' = policy context.settings o := by
      rw [policy, policy, lenient]
    rw [Action.report_resolve, Action.report_resolve, policies, overrides,
      Handle.resolve_of_agree (agree _)]
  rw [answer_run, answer_run]
  simp only [same]

theorem command_of_actionOf {command : String} {p : Progress} {o : ResolveOptions}
    (action : actionOf command p = .resolve o) : command = "resolve" ∧ o = .ofGiven p := by
  unfold actionOf at action
  split at action
  all_goals cases action
  exact ⟨rfl, rfl⟩

theorem LineParser.parse_rearranged (parser : LineParser) (line : CommandLine)
    (selects : line.command = "resolve") {environment : Option String} {i : Invocation}
    (parsed : parser.parse environment line.arguments = .ok i) {rest : List String}
    {items : List Item} (spells : (grammarOf line.command).Spells items rest)
    (rearranged : Item.Rearranged line.items items) :
    parser.parse environment (line.before ++ line.command :: rest) =
      .ok { i with action := .resolve (.ofGiven (.ofItems items)) } := by
  obtain ⟨accepted, rfl⟩ := (parser.parse_eq_ok_iff line).1 parsed
  have knows := line.spells.knows
  rw [selects] at knows
  have minded : ∀ n ∈ (grammarOf line.command).minded,
      n ∉ ["exclude", "exclude-artifact", "attribute"] := by
    rw [selects]
    decide
  have parsed' := parser.parse_continued line spells
    (fun t ht => accepted.items.fit t ((rearranged.mem_iff t).1 ht))
    (rearranged.follow knows accepted.items.follow)
    (fun n hn => Progress.isGiven_congr (rearranged.values_eq (minded n hn))) parsed
  have common : ∀ n ∈ ["descriptor", "variant", "format", "verbose", "quiet", "config"],
      (Progress.ofItems items).values n = line.given.values n := by
    refine fun n hn => rearranged.values_eq ?_
    revert n
    decide
  have action : actionOf line.command (.ofItems items) = .resolve (.ofGiven (.ofItems items)) := by
    rw [selects, actionOf_resolve]
  rw [parsed', ← action]
  exact congrArg Except.ok (Invocation.ofGiven_congr common)

/-- Rules of exclusion and overrides of every accepted line. The rule that is formed excludes what
one of the given ones does; a key is overridden by the last attribute that sets it; and a line that
has its rules in another order or number, and its attributes in another order that keeps those of one
key as they are, has the same outcome. -/
theorem rules_combine_in_any_order (parser : LineParser) {environment : Option String}
    {arguments : List String} {i : Invocation} {o : ResolveOptions}
    (parsed : parser.parse environment arguments = .ok i) (action : i.action = .resolve o) :
    (∃ line : CommandLine, line.arguments = arguments) ∧
    ∀ line : CommandLine, line.arguments = arguments → line.command = "resolve" ∧
      (∀ m, o.exclusion.excludesModule m = true ↔
        ∃ t ∈ line.items, ∃ e, t.exclusion? = some e ∧ e.excludesModule m = true) ∧
      (∀ m a, o.exclusion.excludesArtifact m a = true ↔
        ∃ t ∈ line.items, ∃ e, t.exclusion? = some e ∧ e.excludesArtifact m a = true) ∧
      (∀ k v, o.overrides.get? k = some v ↔
        ∃ l s l', line.given.values "attribute" = l ++ s :: l' ∧ Sets s k v ∧
          ∀ u ∈ l', ∀ w, ¬ Sets u k w) ∧
      ∀ rest items, (grammarOf "resolve").Spells items rest → Item.Rearranged line.items items →
        ∃ o', let j : Invocation := { i with action := .resolve o' }
          parser.parse environment (line.before ++ "resolve" :: rest) = .ok j ∧
          ∀ libraries files, let run := i.run libraries environment files
            let run' := j.run libraries environment files
            run'.exitCode = run.exitCode ∧ run'.output j.format = run.output i.format := by
  refine ⟨parser.exists_line parsed, ?_⟩
  rintro line rfl
  obtain ⟨accepted, rfl⟩ := (parser.parse_eq_ok_iff line).1 parsed
  obtain ⟨selects, rfl⟩ := command_of_actionOf action
  have fit := accepted.items.fit
  have knows := line.spells.knows
  rw [selects] at knows
  refine ⟨selects, fun m => ?_, fun m a => ?_, fun k v => ?_, fun rest items spells rearranged => ?_⟩
  · exact ResolveOptions.exclusion_ofGiven knows fit (Exclusion.distributes_excludesModule m)
  · exact ResolveOptions.exclusion_ofGiven knows fit (Exclusion.distributes_excludesArtifact m a)
  · exact get?_attributes_eq_some_iff (ResolveOptions.isSome_attribute? knows fit)
  · rw [← selects] at spells
    have parsed' := parser.parse_rearranged line selects parsed spells rearranged
    rw [selects] at parsed'
    refine ⟨_, parsed', fun libraries files => ?_⟩
    have lenient : (ResolveOptions.ofGiven (.ofItems items)).lenient =
        (ResolveOptions.ofGiven line.given).lenient :=
      Progress.isGiven_congr (rearranged.values_eq (by decide))
    have answer := Invocation.answer_run_of_agree action lenient
      (ResolveOptions.overrides_of_rearranged knows fit rearranged)
      (ResolveOptions.agree_of_rearranged knows fit rearranged) libraries environment files
    constructor
    · rw [Outcome.exitCode, Outcome.exitCode, answer]
    · rw [Outcome.output, Outcome.output, answer]
      rfl

def selection : List String :=
  ["lib.toml", "--variant", "main", "--exclude", "org:lib", "--attribute", "kind=lib",
    "--exclude-artifact=js", "--attribute", " lang = kotlin=2 "]

def rearrangedSelection : List String :=
  ["lib.toml", "--attribute", " lang = kotlin=2 ", "--exclude-artifact=js", "--variant", "main",
    "--exclude", "org:lib", "--exclude-artifact=js", "--attribute", "kind=lib"]

def selectionLine : CommandLine where
  before := []
  command := "resolve"
  rest := selection
  leading := []
  items := _
  known := by decide
  leads := .nil
  spells := .alone rfl <| .apart rfl rfl <| .apart rfl rfl <| .apart rfl rfl <| .alone rfl <|
    .apart rfl rfl .nil

theorem exists_rearranged_selectionLine :
    ∃ items, (grammarOf "resolve").Spells items rearrangedSelection ∧
      Item.Rearranged selectionLine.items items := by
  refine ⟨_, .alone rfl <| .apart rfl rfl <| .alone rfl <| .apart rfl rfl <| .apart rfl rfl <|
    .alone rfl <| .apart rfl rfl .nil, rfl, fun t _ => ?_, .swap _ _ _, .inl (by decide)⟩
  simp only [selectionLine, List.nil_append, List.cons_append, List.mem_cons, List.not_mem_nil,
    or_false]
  constructor
  · rintro (rfl | rfl | rfl | rfl | rfl | rfl | rfl) <;> simp
  · rintro (rfl | rfl | rfl | rfl | rfl | rfl) <;> simp

/-- The value of an override may have further equals signs. -/
theorem rules_combine_selection :
    ∃ i o o', LineParser.stepwise.parse none ("resolve" :: selection) = .ok i ∧ i.action = .resolve o ∧
      o.exclusion.excludesModule ⟨"org", "lib", "1.0"⟩ = true ∧
      o.overrides.get? "lang" = some "kotlin=2" ∧
      let j : Invocation := { i with action := .resolve o' }
      LineParser.stepwise.parse none ("resolve" :: rearrangedSelection) = .ok j ∧
      ∀ files, (j.run .usual none files).exitCode = (i.run .usual none files).exitCode ∧
        (j.run .usual none files).output j.format = (i.run .usual none files).output i.format := by
  obtain ⟨i, o, parsed, action⟩ : ∃ i o,
      LineParser.stepwise.parse none ("resolve" :: selection) = .ok i ∧ i.action = .resolve o :=
    ⟨_, _, rfl, rfl⟩
  obtain ⟨_, rules, _, overrides, same⟩ :=
    (rules_combine_in_any_order .stepwise parsed action).2 selectionLine rfl
  obtain ⟨items, spells, rearranged⟩ := exists_rearranged_selectionLine
  obtain ⟨o', parsed', outcomes⟩ := same rearrangedSelection items spells rearranged
  refine ⟨i, o, o', parsed, action, (rules _).2 ?_, (overrides _ _).2 ?_, parsed',
    outcomes .usual⟩
  · let rule : OptionRule := { name := "exclude", takes := .values, fault := exclusionFault }
    refine ⟨{ rule, value := some "org:lib" }, ?_, .moduleOf "org" "lib", rfl, rfl⟩
    simp [selectionLine, rule]
  · refine ⟨["kind=lib"], " lang = kotlin=2 ", [], rfl, ?_, by simp⟩
    exact ⟨" lang ".toList, " kotlin=2 ".toList, by decide, by decide, by decide, by decide⟩

end ArtifactSelection.Command
