import ArtifactSelection.Command.Invocation

/-!
What a level of a command line reads. An option that is complete is taken in at once; one that waits
for its value, and an operand, is taken in by what comes next. Whether that is an option, an operand
or the end, it makes no difference to take in first what is pending, so what has been read is a list
of items that were taken in one after the other.
-/

namespace ArtifactSelection.Command

/-- An option or an operand, with its value where it has one, however it is written. -/
structure Item where
  rule : OptionRule
  value : Option String := none
  isOperand : Bool := false

namespace Item

def given (t : Item) : String × String :=
  (t.rule.name, if t.rule.takes = .nothing then "" else t.value.getD "")

def Fit (t : Item) : Prop :=
  match t.rule.takes with
  | .nothing => True
  | .oneValue | .values => ∃ v, t.value = some v ∧ t.rule.fault v = none
  | .askHelp | .askVersion => False

/-- Whether an item may come behind another one. -/
def Follows (u t : Item) : Prop :=
  (u.rule.takes ≠ .values → t.rule.name ≠ u.rule.name) ∧ ¬ (t.isOperand = true ∧ u.isOperand = true)

end Item

namespace Progress

variable {p q : Progress} {r : OptionRule} {v : Option String}

def take (p : Progress) (t : Item) : Except Usage Progress :=
  if t.isOperand then
    if p.operandRead then .error .unknownArgument
    else ({ p with operandRead := true } : Progress).accept t.rule t.value
  else p.accept t.rule t.value

def takeAll (p : Progress) : List Item → Except Usage Progress
  | [] => .ok p
  | t :: l => (p.take t).bind (·.takeAll l)

theorem accept_eq_ok_iff :
    p.accept r v = .ok q ↔ (Item.mk r v false).Fit ∧ (r.takes ≠ .values → p.isGiven r.name = false) ∧
      q = { p with given := p.given ++ [(Item.mk r v false).given] } := by
  cases takes : r.takes with
  | nothing =>
    simp only [accept, takes, Item.Fit, Item.given]
    cases p.isGiven r.name <;> simp [eq_comm]
  | oneValue =>
    simp only [accept, takes, Item.Fit, Item.given]
    cases v with
    | none => simp
    | some v =>
      dsimp only
      cases p.isGiven r.name <;> cases fault : r.fault v <;> simp [fault, eq_comm]
  | values =>
    simp only [accept, takes, Item.Fit, Item.given]
    cases v with
    | none => simp
    | some v =>
      dsimp only
      cases fault : r.fault v with
      | some mistake => simp [fault]
      | none => simpa [fault] using eq_comm
  | askHelp => simp [accept, takes, Item.Fit]
  | askVersion => simp [accept, takes, Item.Fit]

theorem take_eq_ok_iff {t : Item} :
    p.take t = .ok q ↔ t.Fit ∧ (t.rule.takes ≠ .values → p.isGiven t.rule.name = false) ∧
      (t.isOperand = true → p.operandRead = false) ∧
      q = { p with given := p.given ++ [t.given], operandRead := p.operandRead || t.isOperand } := by
  obtain ⟨r, v, _ | _⟩ := t
  · simp only [take, Bool.false_eq_true, if_false, accept_eq_ok_iff]
    simp [Item.Fit, Item.given]
  · cases read : p.operandRead with
    | true => simp [take, read]
    | false =>
      simp only [take, read, if_true, Bool.false_eq_true, if_false, accept_eq_ok_iff]
      simp [Item.Fit, Item.given, isGiven]

theorem takeAll_append (l l' : List Item) :
    p.takeAll (l ++ l') = (p.takeAll l).bind (·.takeAll l') := by
  induction l generalizing p with
  | nil => rfl
  | cons t l ih =>
    rw [List.cons_append, takeAll, takeAll]
    cases p.take t with
    | error e => rfl
    | ok p' => exact ih

theorem bind_eq_ok_iff {α β : Type} {x : Except Usage α} {f : α → Except Usage β} {b : β} :
    x.bind f = .ok b ↔ ∃ a, x = .ok a ∧ f a = .ok b := by
  cases x <;> simp [Except.bind]

theorem isGiven_take {t : Item} (taken : p.take t = .ok q) (n : String) :
    q.isGiven n = (p.isGiven n || t.rule.name == n) := by
  obtain ⟨_, _, _, rfl⟩ := take_eq_ok_iff.1 taken
  simp [isGiven, Item.given]

theorem takeAll_eq_ok_iff {l : List Item} :
    p.takeAll l = .ok q ↔ (∀ t ∈ l, t.Fit) ∧ l.Pairwise (fun t u => u.Follows t) ∧
      (∀ t ∈ l, t.rule.takes ≠ .values → p.isGiven t.rule.name = false) ∧
      (∀ t ∈ l, t.isOperand = true → p.operandRead = false) ∧
      q = { p with given := p.given ++ l.map Item.given
                   operandRead := p.operandRead || l.any (·.isOperand) } := by
  induction l generalizing p with
  | nil => simpa [takeAll] using eq_comm
  | cons t l ih =>
    rw [takeAll, bind_eq_ok_iff]
    constructor
    · rintro ⟨p', taken, rest⟩
      have new := isGiven_take taken
      obtain ⟨fit, once, unread, rfl⟩ := take_eq_ok_iff.1 taken
      obtain ⟨fits, apart, others, unreads, rfl⟩ := ih.1 rest
      refine ⟨List.forall_mem_cons.2 ⟨fit, fits⟩, List.pairwise_cons.2 ⟨fun u hu => ?_, apart⟩,
        List.forall_mem_cons.2 ⟨once, fun u hu single => ?_⟩,
        List.forall_mem_cons.2 ⟨unread, fun u hu operand => ?_⟩, ?_⟩
      · refine ⟨fun single same => ?_, fun ⟨first, second⟩ => ?_⟩
        · have fresh := others u hu single
          rw [new, same] at fresh
          simp at fresh
        · have unread := unreads u hu second
          simp [first] at unread
      · have fresh := others u hu single
        rw [new, Bool.or_eq_false_iff] at fresh
        exact fresh.1
      · have unread := unreads u hu operand
        rw [Bool.or_eq_false_iff] at unread
        exact unread.1
      · simp [Bool.or_assoc]
    · rintro ⟨fits, apart, fresh, unread, rfl⟩
      obtain ⟨fit, fits⟩ := List.forall_mem_cons.1 fits
      obtain ⟨behind, apart⟩ := List.pairwise_cons.1 apart
      obtain ⟨once, others⟩ := List.forall_mem_cons.1 fresh
      obtain ⟨first, unreads⟩ := List.forall_mem_cons.1 unread
      have taken := take_eq_ok_iff.2 ⟨fit, once, first, rfl⟩
      refine ⟨_, taken, ih.2 ⟨fits, apart, fun u hu single => ?_, fun u hu operand => ?_, ?_⟩⟩
      · rw [isGiven_take taken, others u hu single, Bool.false_or]
        exact beq_false_of_ne ((behind u hu).1 single)
      · rw [Bool.or_eq_false_iff]
        refine ⟨unreads u hu operand, Bool.eq_false_iff.2 fun given => ?_⟩
        exact (behind u hu).2 ⟨given, operand⟩
      · simp [Bool.or_assoc]

def waiting (p : Progress) : List Item := p.pending.toList.map fun x => ⟨x.1, x.2, false⟩

theorem settle_eq_ok_iff :
    p.settle = .ok q ↔
      (∀ t ∈ p.waiting, t.Fit ∧ (t.rule.takes ≠ .values → p.isGiven t.rule.name = false)) ∧
        q = { p with given := p.given ++ p.waiting.map Item.given, pending := none } := by
  rcases pending : p.pending with _ | ⟨r, v⟩
  · have same : { p with pending := none } = p := by rw [← pending]
    simpa [settle, waiting, pending, same] using eq_comm
  · simp [settle, waiting, pending, accept_eq_ok_iff, isGiven, and_assoc]

theorem settle_operandRead (b : Bool) :
    ({ p with operandRead := b } : Progress).settle = .ok q ↔
      ∃ p₀, p.settle = .ok p₀ ∧ q = { p₀ with operandRead := b } := by
  simp only [settle_eq_ok_iff, waiting, isGiven]
  constructor
  · rintro ⟨fit, rfl⟩
    exact ⟨_, ⟨fit, rfl⟩, rfl⟩
  · rintro ⟨_, ⟨fit, rfl⟩, rfl⟩
    exact ⟨fit, rfl⟩

theorem settle_operandsOnly (b : Bool) :
    ({ p with operandsOnly := b } : Progress).settle = .ok q ↔
      ∃ p₀, p.settle = .ok p₀ ∧ q = { p₀ with operandsOnly := b } := by
  simp only [settle_eq_ok_iff, waiting, isGiven]
  constructor
  · rintro ⟨fit, rfl⟩
    exact ⟨_, ⟨fit, rfl⟩, rfl⟩
  · rintro ⟨_, ⟨fit, rfl⟩, rfl⟩
    exact ⟨fit, rfl⟩

theorem settle_of_settled (settled : p.pending = none) : p.settle = .ok p := by
  rw [settle, settled]

theorem of_settle (settled : p.settle = .ok q) :
    q.pending = none ∧ q.operandRead = p.operandRead ∧ q.operandsOnly = p.operandsOnly ∧
      q.settle = .ok q := by
  obtain ⟨_, rfl⟩ := settle_eq_ok_iff.1 settled
  exact ⟨rfl, rfl, rfl, settle_of_settled rfl⟩

theorem await_eq_ok_iff :
    p.await r v = .ok q ↔ ∃ p', p.settle = .ok p' ∧ q = { p' with pending := some (r, v) } := by
  rw [await]
  refine bind_eq_ok_iff.trans ?_
  simp [pure, Except.pure, eq_comm]

/-- A reading that first takes in what is pending. -/
def Settles (f : Progress → Except Usage Progress) : Prop :=
  ∀ p q, f p = .ok q ↔ ∃ p₀, p.settle = .ok p₀ ∧ f p₀ = .ok q

theorem settles_error (e : Usage) : Settles fun _ => .error e := by
  intro p q
  simp

theorem settles_settle : Settles settle := by
  intro p q
  constructor
  · intro settled
    exact ⟨q, settled, (of_settle settled).2.2.2⟩
  · rintro ⟨p₀, settled, same⟩
    rw [(of_settle settled).2.2.2] at same
    rw [settled, same]

theorem settles_bind (f : Progress → Except Usage Progress) : Settles fun p => p.settle.bind f := by
  intro p q
  simp only [bind_eq_ok_iff]
  constructor
  · rintro ⟨p₀, settled, rest⟩
    exact ⟨p₀, settled, p₀, (of_settle settled).2.2.2, rest⟩
  · rintro ⟨p₀, settled, p₁, again, rest⟩
    rw [(of_settle settled).2.2.2] at again
    obtain rfl := Except.ok.inj again
    exact ⟨p₀, settled, rest⟩

theorem settles_complete (r : OptionRule) (v : Option String) : Settles (·.complete r v) :=
  settles_bind (·.accept r v)

theorem settles_await (r : OptionRule) (v : Option String) : Settles (·.await r v) :=
  settles_bind fun p => .ok { p with pending := some (r, v) }

theorem Settles.bind {f : Progress → Except Usage Progress} (settles : Settles f)
    (f' : Progress → Except Usage Progress) : Settles fun p => (f p).bind f' := by
  intro p q
  simp only [bind_eq_ok_iff]
  constructor
  · rintro ⟨p', step, rest⟩
    obtain ⟨p₀, settled, step⟩ := (settles p p').1 step
    exact ⟨p₀, settled, p', step, rest⟩
  · rintro ⟨p₀, settled, p', step, rest⟩
    exact ⟨p', (settles p p').2 ⟨p₀, settled, step⟩, rest⟩

end Progress

namespace Grammar

variable {g : Grammar} {p q : Progress}

/-- Reading arguments leads from `p` to `q`, with what is pending taken in; it ends where they end,
or at a command with more arguments behind it. -/
def Reads (g : Grammar) (l : List String) (o : Option (String × List String))
    (p q : Progress) : Prop :=
  ∃ p', g.read l p = .ok (p', o) ∧ p'.settle = .ok q

/-- Where a command may stand, reading ends at it. -/
structure Stops (g : Grammar) (s : String) (p : Progress) : Prop where
  known : s ∈ g.commands
  proper : p.operandsOnly = false
  idle : p.isAwaiting = false

variable {o : Option (String × List String)}

theorem stops_iff {s : String} :
    (!p.operandsOnly && !p.isAwaiting && g.commands.contains s) = true ↔ g.Stops s p := by
  rw [Bool.and_eq_true, Bool.and_eq_true, Bool.not_eq_true', Bool.not_eq_true',
    List.contains_iff_mem]
  constructor
  · intro ⟨⟨proper, idle⟩, known⟩
    exact ⟨known, proper, idle⟩
  · intro stops
    exact ⟨⟨stops.proper, stops.idle⟩, stops.known⟩

theorem stops_settle {s : String} {p₀ : Progress} (idle : p.isAwaiting = false)
    (settled : p.settle = .ok p₀) : g.Stops s p₀ ↔ g.Stops s p := by
  obtain ⟨free, _, same, _⟩ := Progress.of_settle settled
  constructor
  · intro stops
    exact ⟨stops.known, same.symm.trans stops.proper, idle⟩
  · intro stops
    refine ⟨stops.known, same.trans stops.proper, ?_⟩
    rw [Progress.isAwaiting, free]

theorem reads_nil : g.Reads [] o p q ↔ o = none ∧ p.settle = .ok q := by
  rw [Reads, read]
  constructor
  · rintro ⟨p', same, settled⟩
    cases same
    exact ⟨rfl, settled⟩
  · rintro ⟨rfl, settled⟩
    exact ⟨p, rfl, settled⟩

theorem reads_stop {s : String} (stops : g.Stops s p) (l : List String) :
    g.Reads (s :: l) o p q ↔ o = some (s, l) ∧ p.settle = .ok q := by
  rw [Reads, read, if_pos (stops_iff.2 stops)]
  constructor
  · rintro ⟨p', same, settled⟩
    cases same
    exact ⟨rfl, settled⟩
  · rintro ⟨rfl, settled⟩
    exact ⟨p, rfl, settled⟩

theorem reads_cons {s : String} (goes : ¬ g.Stops s p) (l : List String) :
    g.Reads (s :: l) o p q ↔ ∃ p', g.readArgument s p = .ok p' ∧ g.Reads l o p' q := by
  rw [Reads, read, if_neg (mt stops_iff.1 goes)]
  cases g.readArgument s p <;> simp [Reads]

theorem readOperand_eq_ok_iff {s : String} :
    g.readOperand s p = .ok q ↔ ∃ r p', g.operand = some r ∧ p.operandRead = false ∧
      p.settle = .ok p' ∧ q = { p' with operandRead := true, pending := some (r, some s) } := by
  rw [readOperand]
  cases operand : g.operand with
  | none => cases (g.commands.isEmpty || p.operandsOnly && g.commands.contains s) <;> simp
  | some r =>
    cases read : p.operandRead with
    | true => cases (g.commands.isEmpty || p.operandsOnly && g.commands.contains s) <;> simp
    | false =>
      simp only [Progress.await_eq_ok_iff, Progress.settle_operandRead]
      constructor
      · rintro ⟨_, ⟨p₀, settled, rfl⟩, rfl⟩
        exact ⟨r, p₀, rfl, trivial, settled, rfl⟩
      · rintro ⟨_, p₀, same, _, settled, rfl⟩
        obtain rfl := Option.some.inj same
        exact ⟨_, ⟨p₀, settled, rfl⟩, rfl⟩

theorem ne_nil_of_letters {s : String} {l : List Char} (form : Form.ofText s = .letters l) :
    l ≠ [] := by
  rw [Form.ofText] at form
  split at form
  next => cases form
  next => cases form
  next =>
    cases form
    exact List.cons_ne_nil _ _
  next => cases form

theorem settles_readLong (g : Grammar) (name : String) (value : Option String) :
    Progress.Settles (g.readLong name value) := by
  unfold readLong
  cases g.options.find? (·.name == name) with
  | none => exact Progress.settles_error _
  | some r =>
    dsimp only
    cases r.takesValue <;> cases value
    · exact Progress.settles_complete r none
    · exact Progress.settles_error _
    · exact Progress.settles_await r none
    · exact Progress.settles_complete r _

def attachedValue : List Char → String
  | '=' :: v => .ofList v
  | v => .ofList v

section Letters

variable {c : Char} {l : List Char} {r : OptionRule}

theorem readLetters_unknown (unknown : g.options.find? (·.letter == some c) = none) :
    g.readLetters (c :: l) = fun _ => .error .unknownArgument := by
  funext p
  rw [readLetters, unknown]

theorem readLetters_flag (known : g.options.find? (·.letter == some c) = some r)
    (flag : r.takesValue = false) :
    g.readLetters (c :: l) = fun p => (p.complete r none).bind (g.readLetters l) := by
  funext p
  rw [readLetters, known]
  simp only [flag, Bool.false_eq_true, if_false]
  cases p.complete r none <;> rfl

theorem readLetters_open (known : g.options.find? (·.letter == some c) = some r)
    (valued : r.takesValue = true) : g.readLetters [c] = (·.await r none) := by
  funext p
  rw [readLetters, known]
  simp only [valued, if_true]

theorem readLetters_valued (known : g.options.find? (·.letter == some c) = some r)
    (valued : r.takesValue = true) (behind : l ≠ []) :
    g.readLetters (c :: l) = (·.complete r (some (attachedValue l))) := by
  funext p
  rw [readLetters, known]
  simp only [valued, if_true]
  unfold attachedValue
  split <;> split <;> simp_all

end Letters

theorem settles_readLetters (g : Grammar) (c : Char) (l : List Char) :
    Progress.Settles (g.readLetters (c :: l)) := by
  cases known : g.options.find? (·.letter == some c) with
  | none =>
    rw [readLetters_unknown known]
    exact Progress.settles_error _
  | some r =>
    cases valued : r.takesValue with
    | false =>
      rw [readLetters_flag known valued]
      exact (Progress.settles_complete r none).bind _
    | true =>
      by_cases behind : l = []
      · subst behind
        rw [readLetters_open known valued]
        exact Progress.settles_await r none
      · rw [readLetters_valued known valued behind]
        exact Progress.settles_complete r _

theorem settles_readOperand (g : Grammar) (s : String) :
    Progress.Settles (g.readOperand s) := by
  intro p q
  simp only [readOperand_eq_ok_iff]
  constructor
  · rintro ⟨r, p₀, operand, unread, settled, rfl⟩
    obtain ⟨_, same, _, again⟩ := Progress.of_settle settled
    exact ⟨p₀, settled, r, p₀, operand, same.trans unread, again, rfl⟩
  · rintro ⟨p₀, settled, r, p₁, operand, unread, again, rfl⟩
    obtain ⟨_, same, _, settled₀⟩ := Progress.of_settle settled
    rw [settled₀] at again
    obtain rfl := Except.ok.inj again
    exact ⟨r, p₀, operand, same.symm.trans unread, settled, rfl⟩

section Argument

variable {s : String}

theorem readArgument_of_operandsOnly (only : p.operandsOnly = true) :
    g.readArgument s p = g.readOperand s p := if_pos only

variable (proper : p.operandsOnly = false)
include proper

theorem readArgument_escape (form : Form.ofText s = .escape) :
    g.readArgument s p = .ok { p with operandsOnly := true } := by
  rw [readArgument, if_neg (ne_true_of_eq_false proper), form]

theorem readArgument_long {name : String} {value : Option String}
    (form : Form.ofText s = .long name value) :
    g.readArgument s p = g.readLong name value p := by
  rw [readArgument, if_neg (ne_true_of_eq_false proper), form]

theorem readArgument_letters {l : List Char} (form : Form.ofText s = .letters l) :
    g.readArgument s p = g.readLetters l p := by
  rw [readArgument, if_neg (ne_true_of_eq_false proper), form]

theorem readArgument_operand (form : Form.ofText s = .plain) (idle : p.isAwaiting = false) :
    g.readArgument s p = g.readOperand s p := by
  rw [readArgument, if_neg (ne_true_of_eq_false proper), form]
  rcases pending : p.pending with _ | ⟨r, _ | v⟩
  · rfl
  · simp [Progress.isAwaiting, pending, proper] at idle
  · rfl

theorem readArgument_value (form : Form.ofText s = .plain) {r : OptionRule}
    (pending : p.pending = some (r, none)) :
    g.readArgument s p = .ok { p with pending := some (r, some s) } := by
  rw [readArgument, if_neg (ne_true_of_eq_false proper), form, pending]

end Argument

theorem settles_readArgument_of {s : String} {f : Progress → Except Usage Progress}
    (settles : Progress.Settles f) {only : Bool}
    (reads : ∀ p, p.operandsOnly = only → p.isAwaiting = false → g.readArgument s p = f p)
    (here : p.operandsOnly = only) (idle : p.isAwaiting = false) :
    g.readArgument s p = .ok q ↔ ∃ p₀, p.settle = .ok p₀ ∧ g.readArgument s p₀ = .ok q := by
  rw [reads p here idle, settles p q]
  refine exists_congr fun p₀ => and_congr_right fun settled => ?_
  obtain ⟨free, _, same, _⟩ := Progress.of_settle settled
  rw [reads p₀ (same.trans here) (by rw [Progress.isAwaiting, free])]

theorem settles_readArgument {s : String} (idle : p.isAwaiting = false)
    (follows : p.operandsOnly = true ∨ Form.ofText s ≠ .escape) :
    g.readArgument s p = .ok q ↔ ∃ p₀, p.settle = .ok p₀ ∧ g.readArgument s p₀ = .ok q := by
  cases only : p.operandsOnly with
  | true =>
    exact settles_readArgument_of (settles_readOperand g s)
      (fun _ only _ => readArgument_of_operandsOnly only) only idle
  | false =>
    have proper := follows.resolve_left (ne_true_of_eq_false only)
    cases form : Form.ofText s with
    | escape => exact absurd form proper
    | long name value =>
      exact settles_readArgument_of (settles_readLong g name value)
        (fun _ only _ => readArgument_long only form) only idle
    | letters l =>
      obtain ⟨c, l, rfl⟩ := List.exists_cons_of_ne_nil (ne_nil_of_letters form)
      exact settles_readArgument_of (settles_readLetters g c l)
        (fun _ only _ => readArgument_letters only form) only idle
    | plain =>
      exact settles_readArgument_of (settles_readOperand g s)
        (fun _ only idle => readArgument_operand only form idle) only idle

theorem reads_settled (l : List String) (idle : p.isAwaiting = false) :
    g.Reads l o p q ↔ ∃ p₀, p.settle = .ok p₀ ∧ g.Reads l o p₀ q := by
  induction l generalizing p with
  | nil =>
    rw [reads_nil, Progress.settles_settle]
    simp only [reads_nil, and_left_comm, exists_and_left]
  | cons s l ih =>
    by_cases stops : g.Stops s p
    · rw [reads_stop stops, Progress.settles_settle]
      constructor
      · rintro ⟨ends, p₀, settled, same⟩
        exact ⟨p₀, settled, (reads_stop ((stops_settle idle settled).2 stops) l).2 ⟨ends, same⟩⟩
      · rintro ⟨p₀, settled, rest⟩
        obtain ⟨ends, same⟩ := (reads_stop ((stops_settle idle settled).2 stops) l).1 rest
        exact ⟨ends, p₀, settled, same⟩
    · have goes {p₀ : Progress} (settled : p.settle = .ok p₀) : ¬ g.Stops s p₀ :=
        mt (stops_settle idle settled).1 stops
      rw [reads_cons stops]
      by_cases follows : p.operandsOnly = true ∨ Form.ofText s ≠ .escape
      · simp only [settles_readArgument idle follows]
        constructor
        · rintro ⟨p', ⟨p₀, settled, step⟩, rest⟩
          exact ⟨p₀, settled, (reads_cons (goes settled) l).2 ⟨p', step, rest⟩⟩
        · rintro ⟨p₀, settled, reads⟩
          obtain ⟨p', step, rest⟩ := (reads_cons (goes settled) l).1 reads
          exact ⟨p', ⟨p₀, settled, step⟩, rest⟩
      · obtain ⟨only, escape⟩ := not_or.1 follows
        have proper := Bool.eq_false_iff.2 only
        have escape := Classical.not_not.1 escape
        have waits : ({ p with operandsOnly := true } : Progress).isAwaiting = false := by
          rw [Progress.isAwaiting]
          split <;> rfl
        simp only [readArgument_escape proper escape, Except.ok.injEq, exists_eq_left', ih waits,
          Progress.settle_operandsOnly]
        constructor
        · rintro ⟨_, ⟨p₀, settled, rfl⟩, rest⟩
          have same := (Progress.of_settle settled).2.2.1
          refine ⟨p₀, settled, (reads_cons (goes settled) l).2 ⟨_, ?_, rest⟩⟩
          exact readArgument_escape (same.trans proper) escape
        · rintro ⟨p₀, settled, reads⟩
          obtain ⟨p', step, rest⟩ := (reads_cons (goes settled) l).1 reads
          have same := (Progress.of_settle settled).2.2.1
          rw [readArgument_escape (same.trans proper) escape] at step
          obtain rfl := Except.ok.inj step
          exact ⟨_, ⟨p₀, settled, rfl⟩, rest⟩

end Grammar

end ArtifactSelection.Command
