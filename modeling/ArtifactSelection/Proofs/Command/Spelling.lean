import ArtifactSelection.Proofs.Command.Reading
import Mathlib.Data.List.TakeWhile

/-!
How command lines are spelled. An argument stands for items and perhaps for an option that waits for
its value, which is then the next argument; behind `--` every argument is an operand. What a level
reads off its arguments, up to a command if it has commands, is what they spell, taken in one item
after the other, and nothing that spells no items is read.
-/

namespace ArtifactSelection.Command

namespace Progress

def waitingFor (p : Progress) : Option OptionRule → Progress
  | none => p
  | some r => { p with pending := some (r, none) }

end Progress

namespace Grammar

def scanLong? (g : Grammar) (name : String) (value : Option String) :
    Option (List Item × Option OptionRule) :=
  match g.options.find? (·.name == name) with
  | none => none
  | some r =>
    match r.takesValue, value with
    | true, some v => some ([{ rule := r, value := some v }], none)
    | true, none => some ([], some r)
    | false, some _ => none
    | false, none => some ([{ rule := r }], none)

def scanLetters? (g : Grammar) : List Char → Option (List Item × Option OptionRule)
  | [] => some ([], none)
  | c :: l =>
    match g.options.find? (·.letter == some c) with
    | none => none
    | some r =>
      if r.takesValue then
        if l.isEmpty then some ([], some r)
        else some ([{ rule := r, value := some (attachedValue l) }], none)
      else (g.scanLetters? l).map fun x => ({ rule := r } :: x.1, x.2)

/-- The items that an argument stands for, and the option that waits for its value, if one does. -/
def scan? (g : Grammar) (s : String) : Option (List Item × Option OptionRule) :=
  match Form.ofText s with
  | .plain => g.operand.map fun r => ([{ rule := r, value := some s, isOperand := true }], none)
  | .escape => none
  | .long name value => g.scanLong? name value
  | .letters l => g.scanLetters? l

/-- The items that the arguments of a level spell. -/
inductive Spells (g : Grammar) : List Item → List String → Prop
  | nil : Spells g [] []
  | alone {s : String} {l : List String} {items rest : List Item} :
      g.scan? s = some (items, none) → Spells g rest l → Spells g (items ++ rest) (s :: l)
  | apart {s v : String} {l : List String} {items rest : List Item} {r : OptionRule} :
      g.scan? s = some (items, some r) → Form.ofText v = .plain → Spells g rest l →
        Spells g (items ++ { rule := r, value := some v } :: rest) (s :: v :: l)
  | behind {l : List String} {r : OptionRule} :
      g.operand = some r →
        Spells g (l.map fun s => { rule := r, value := some s, isOperand := true }) ("--" :: l)

/-- No command can be taken for anything else: it is plain, and beside it there is no operand. -/
def IsDivided (g : Grammar) : Prop :=
  ∀ c ∈ g.commands, Form.ofText c = .plain ∧ g.operand = none

variable {g : Grammar} {p q : Progress} {s : String} {l : List String}
  {o : Option (String × List String)}

theorem ofText_eq_escape_iff : Form.ofText s = .escape ↔ s = "--" := by
  constructor
  · intro form
    rw [Form.ofText] at form
    split at form
    next chars => exact String.toList_inj.1 chars
    all_goals cases form
  · rintro rfl
    rfl

theorem complete_of_free {r : OptionRule} {v : Option String} (free : p.pending = none) :
    p.complete r v = p.take { rule := r, value := v } := by
  rw [Progress.complete, Progress.settle_of_settled free]
  rfl

theorem await_of_free {r : OptionRule} (free : p.pending = none) :
    p.await r none = .ok (p.waitingFor (some r)) := by
  rw [Progress.await, Progress.settle_of_settled free]
  rfl

theorem of_take {t : Item} (taken : p.take t = .ok q) :
    q.pending = p.pending ∧ q.operandsOnly = p.operandsOnly := by
  obtain ⟨_, _, _, rfl⟩ := Progress.take_eq_ok_iff.1 taken
  exact ⟨rfl, rfl⟩

def Reaches (p : Progress) (scan : Option (List Item × Option OptionRule)) (q : Progress) : Prop :=
  ∃ items o p', scan = some (items, o) ∧ p.takeAll items = .ok p' ∧ q = p'.waitingFor o

theorem reaches_none : ¬ Reaches p none q := by
  rintro ⟨_, _, _, scanned, _⟩
  cases scanned

theorem reaches_nil {o : Option OptionRule} :
    Reaches p (some ([], o)) q ↔ q = p.waitingFor o := by
  constructor
  · rintro ⟨_, _, _, scanned, taken, rfl⟩
    cases scanned
    cases taken
    rfl
  · rintro rfl
    exact ⟨[], o, p, rfl, rfl, rfl⟩

theorem reaches_cons {t : Item} {o : Option (List Item × Option OptionRule)} :
    Reaches p (o.map fun x => (t :: x.1, x.2)) q ↔ ∃ p', p.take t = .ok p' ∧ Reaches p' o q := by
  constructor
  · rintro ⟨_, _, p', scanned, taken, rfl⟩
    obtain ⟨⟨items, o⟩, rest, same⟩ := Option.map_eq_some_iff.1 scanned
    cases same
    obtain ⟨p₁, first, others⟩ := Progress.bind_eq_ok_iff.1 taken
    exact ⟨p₁, first, items, o, p', rest, others, rfl⟩
  · rintro ⟨p₁, first, items, o, p', rfl, rest, rfl⟩
    exact ⟨t :: items, o, p', rfl, Progress.bind_eq_ok_iff.2 ⟨p₁, first, rest⟩, rfl⟩

theorem reaches_singleton {t : Item} :
    Reaches p (some ([t], none)) q ↔ p.take t = .ok q := by
  have scan := reaches_cons (p := p) (q := q) (t := t) (o := some ([], none))
  simp only [reaches_nil, Progress.waitingFor] at scan
  exact scan.trans ⟨fun ⟨_, taken, same⟩ => same ▸ taken, fun taken => ⟨q, taken, rfl⟩⟩

theorem readLong_eq_ok_iff {name : String} {value : Option String} (free : p.pending = none) :
    g.readLong name value p = .ok q ↔ Reaches p (g.scanLong? name value) q := by
  unfold readLong scanLong?
  cases g.options.find? (·.name == name) with
  | none => simp [reaches_none]
  | some r =>
    dsimp only
    cases r.takesValue <;> cases value
    · rw [reaches_singleton]
      simp only [complete_of_free free]
    · simp [reaches_none]
    · rw [reaches_nil]
      simp only [await_of_free free, Except.ok.injEq, eq_comm]
    · rw [reaches_singleton]
      simp only [complete_of_free free]

theorem readLetters_eq_ok_iff {l : List Char} (free : p.pending = none) :
    g.readLetters l p = .ok q ↔ Reaches p (g.scanLetters? l) q := by
  induction l generalizing p with
  | nil =>
    rw [readLetters, scanLetters?, reaches_nil]
    simp only [Progress.waitingFor, Except.ok.injEq, eq_comm]
  | cons c l ih =>
    rw [scanLetters?]
    cases known : g.options.find? (·.letter == some c) with
    | none => simp [readLetters_unknown known, reaches_none]
    | some r =>
      cases valued : r.takesValue with
      | false =>
        simp only [readLetters_flag known valued, valued, Bool.false_eq_true, if_false,
          complete_of_free free, Progress.bind_eq_ok_iff, reaches_cons]
        refine exists_congr fun p' => and_congr_right fun taken => ih ?_
        rw [(of_take taken).1, free]
      | true =>
        by_cases behind : l = []
        · subst behind
          simp only [readLetters_open known valued, valued, if_true, List.isEmpty_nil, reaches_nil,
            await_of_free free, Except.ok.injEq, eq_comm]
        · simp only [readLetters_valued known valued behind, valued, if_true,
            List.isEmpty_eq_false_iff.2 behind, Bool.false_eq_true, if_false, reaches_singleton,
            complete_of_free free]

theorem settle_pending {r : OptionRule} {v : Option String} (free : p.pending = none) :
    ({ p with pending := some (r, v) } : Progress).settle = p.accept r v := by
  have same : { p with pending := none } = p := by rw [← free]
  rw [Progress.settle]
  exact congrArg (Progress.accept · r v) same

theorem reads_operand (goes : ¬ g.Stops s p) (free : p.pending = none)
    (reads : g.readArgument s p = g.readOperand s p) :
    g.Reads (s :: l) o p q ↔ ∃ r p', g.operand = some r ∧
      p.take { rule := r, value := some s, isOperand := true } = .ok p' ∧ g.Reads l o p' q := by
  have settled := Progress.settle_of_settled free
  rw [reads_cons goes]
  simp only [reads, readOperand_eq_ok_iff, settled, Except.ok.injEq]
  constructor
  · rintro ⟨_, ⟨r, _, operand, unread, rfl, rfl⟩, rest⟩
    obtain ⟨p', taken, rest⟩ := (reads_settled l rfl).1 rest
    rw [settle_pending (p := { p with operandRead := true }) free] at taken
    refine ⟨r, p', operand, ?_, rest⟩
    rwa [Progress.take, if_pos rfl, unread, if_neg Bool.false_ne_true]
  · rintro ⟨r, p', operand, taken, rest⟩
    have unread := (Progress.take_eq_ok_iff.1 taken).2.2.1 rfl
    rw [Progress.take, if_pos rfl, unread, if_neg Bool.false_ne_true] at taken
    refine ⟨_, ⟨r, p, operand, unread, rfl, rfl⟩, (reads_settled l rfl).2 ⟨p', ?_, rest⟩⟩
    rwa [settle_pending (p := { p with operandRead := true }) free]

structure IsReady (p : Progress) : Prop where
  free : p.pending = none
  proper : p.operandsOnly = false

theorem IsReady.take {t : Item} (ready : IsReady p) (taken : p.take t = .ok q) : IsReady q := by
  obtain ⟨free, proper⟩ := of_take taken
  exact ⟨free.trans ready.free, proper.trans ready.proper⟩

theorem IsReady.takeAll {items : List Item} (ready : IsReady p)
    (taken : p.takeAll items = .ok q) : IsReady q := by
  obtain ⟨_, _, _, _, rfl⟩ := Progress.takeAll_eq_ok_iff.1 taken
  exact ⟨ready.free, ready.proper⟩

theorem reads_scan (goes : ¬ g.Stops s p) (ready : IsReady p) (follows : s ≠ "--") :
    g.Reads (s :: l) o p q ↔ ∃ p', Reaches p (g.scan? s) p' ∧ g.Reads l o p' q := by
  obtain ⟨free, proper⟩ := ready
  cases form : Form.ofText s with
  | escape => exact absurd (ofText_eq_escape_iff.1 form) follows
  | long name value =>
    rw [reads_cons goes]
    simp only [readArgument_long proper form, scan?, form, readLong_eq_ok_iff free]
  | letters l =>
    rw [reads_cons goes]
    simp only [readArgument_letters proper form, scan?, form, readLetters_eq_ok_iff free]
  | plain =>
    have idle : p.isAwaiting = false := by rw [Progress.isAwaiting, free]
    rw [reads_operand goes free (readArgument_operand proper form idle), scan?, form]
    cases g.operand with
    | none => simp [reaches_none]
    | some r => simp [reaches_singleton]

theorem not_stops_of_operandsOnly (only : p.operandsOnly = true) : ¬ g.Stops s p :=
  fun stops => Bool.false_ne_true (stops.proper.symm.trans only)

theorem reads_behind {r : OptionRule} (operand : g.operand = some r) (tail : List String)
    (free : p.pending = none) (only : p.operandsOnly = true) :
    g.Reads (l ++ tail) o p q ↔
      ∃ p', p.takeAll (l.map fun s => { rule := r, value := some s, isOperand := true }) = .ok p' ∧
        g.Reads tail o p' q := by
  induction l generalizing p with
  | nil => simp [Progress.takeAll]
  | cons s l ih =>
    rw [List.cons_append, reads_operand (not_stops_of_operandsOnly only) free
      (readArgument_of_operandsOnly only)]
    simp only [List.map_cons, Progress.takeAll, Progress.bind_eq_ok_iff]
    constructor
    · rintro ⟨r', p₁, same, taken, reads⟩
      obtain rfl := Option.some.inj (operand.symm.trans same)
      obtain ⟨free', only'⟩ := of_take taken
      obtain ⟨p', others, rest⟩ := (ih (free'.trans free) (only'.trans only)).1 reads
      exact ⟨p', ⟨p₁, taken, others⟩, rest⟩
    · rintro ⟨p', ⟨p₁, taken, others⟩, rest⟩
      obtain ⟨free', only'⟩ := of_take taken
      exact ⟨r, p₁, operand, taken, (ih (free'.trans free) (only'.trans only)).2 ⟨p', others, rest⟩⟩

theorem not_reads_command {x : String × List String} (only : p.operandsOnly = true) :
    ¬ g.Reads l (some x) p q := by
  induction l generalizing p with
  | nil => simp [reads_nil]
  | cons s l ih =>
    rw [reads_cons (not_stops_of_operandsOnly only), readArgument_of_operandsOnly only]
    rintro ⟨_, step, rest⟩
    obtain ⟨_, _, _, _, settled, rfl⟩ := readOperand_eq_ok_iff.1 step
    refine ih ?_ rest
    exact (Progress.of_settle settled).2.2.1.trans only

theorem not_fit_of_takesValue {r : OptionRule} (valued : r.takesValue = true) :
    ¬ ({ rule := r } : Item).Fit := by
  unfold Item.Fit
  unfold OptionRule.takesValue at valued
  cases takes : r.takes <;> simp_all

section Waiting

variable (ready : IsReady p) {r : OptionRule}
include ready

theorem not_stops_waitingFor : ¬ g.Stops s (p.waitingFor (some r)) := by
  intro stops
  have idle := stops.idle
  simp [Progress.isAwaiting, Progress.waitingFor, ready.proper] at idle

theorem reads_waitingFor {v : String} (plain : Form.ofText v = .plain) :
    g.Reads (v :: l) o (p.waitingFor (some r)) q ↔
      ∃ p', p.take { rule := r, value := some v } = .ok p' ∧ g.Reads l o p' q := by
  have read : g.readArgument v (p.waitingFor (some r)) =
      .ok { p with pending := some (r, some v) } :=
    readArgument_value (p := p.waitingFor (some r)) ready.proper plain rfl
  rw [reads_cons (not_stops_waitingFor ready)]
  simp only [read, Except.ok.injEq, exists_eq_left']
  rw [reads_settled l rfl, settle_pending ready.free]
  rfl

theorem exists_value_of_reads (valued : r.takesValue = true)
    (reads : g.Reads l o (p.waitingFor (some r)) q) :
    ∃ v l', l = v :: l' ∧ Form.ofText v = .plain := by
  have lacking (p₀ : Progress) : (p.waitingFor (some r)).settle ≠ .ok p₀ := by
    rw [Progress.waitingFor, settle_pending ready.free]
    intro taken
    exact not_fit_of_takesValue valued (Progress.accept_eq_ok_iff.1 taken).1
  have lacks {f : Progress → Except Usage Progress} (settles : Progress.Settles f)
      (p' : Progress) : f (p.waitingFor (some r)) ≠ .ok p' := by
    intro step
    obtain ⟨p₀, settled, _⟩ := (settles _ _).1 step
    exact lacking p₀ settled
  cases l with
  | nil => exact absurd (reads_nil.1 reads).2 (lacking q)
  | cons s l =>
    refine ⟨s, l, rfl, ?_⟩
    obtain ⟨p', step, rest⟩ := (reads_cons (not_stops_waitingFor ready) l).1 reads
    have proper : (p.waitingFor (some r)).operandsOnly = false := ready.proper
    cases form : Form.ofText s with
    | plain => rfl
    | long name value =>
      rw [readArgument_long proper form] at step
      exact absurd step (lacks (settles_readLong g name value) p')
    | letters l =>
      obtain ⟨c, l, rfl⟩ := List.exists_cons_of_ne_nil (ne_nil_of_letters form)
      rw [readArgument_letters proper form] at step
      exact absurd step (lacks (settles_readLetters g c l) p')
    | escape =>
      rw [readArgument_escape proper form] at step
      obtain rfl := Except.ok.inj step
      obtain ⟨_, settled, _⟩ := (reads_settled l rfl).1 rest
      obtain ⟨p₀, settled, _⟩ := (Progress.settle_operandsOnly true).1 settled
      exact absurd settled (lacking p₀)

end Waiting

def Knows (g : Grammar) (t : Item) : Prop :=
  if t.isOperand then g.operand = some t.rule else t.rule ∈ g.options

structure Scans (g : Grammar) (scan : List Item × Option OptionRule) : Prop where
  knows : ∀ t ∈ scan.1, g.Knows t
  waiting : ∀ r, scan.2 = some r → r ∈ g.options ∧ r.takesValue = true

variable {scan : List Item × Option OptionRule}

theorem scans_option {t : Item} (option : t.isOperand = false) (known : t.rule ∈ g.options) :
    g.Scans ([t], none) where
  knows := by simpa [Knows, option] using known
  waiting _ none := by cases none

theorem scans_waiting {r : OptionRule} (known : r ∈ g.options) (valued : r.takesValue = true) :
    g.Scans ([], some r) where
  knows _ none := by cases none
  waiting _ same := by
    cases same
    exact ⟨known, valued⟩

theorem scans_of_scanLong? {name : String} {value : Option String}
    (scanned : g.scanLong? name value = some scan) : g.Scans scan := by
  unfold scanLong? at scanned
  split at scanned
  next => cases scanned
  next r found =>
    have known := List.mem_of_find?_eq_some found
    split at scanned
    all_goals cases scanned
    next => exact scans_option rfl known
    next valued => exact scans_waiting known valued
    next => exact scans_option rfl known

theorem scans_of_scanLetters? {l : List Char} (scanned : g.scanLetters? l = some scan) :
    g.Scans scan := by
  induction l generalizing scan with
  | nil =>
    cases scanned
    exact ⟨by simp, by simp⟩
  | cons c l ih =>
    rw [scanLetters?] at scanned
    split at scanned
    next => cases scanned
    next r found =>
      have known := List.mem_of_find?_eq_some found
      split at scanned
      next valued =>
        split at scanned
        all_goals cases scanned
        · exact scans_waiting known valued
        · exact scans_option rfl known
      next =>
        obtain ⟨_, rest, rfl⟩ := Option.map_eq_some_iff.1 scanned
        have others := ih rest
        have first : g.Knows { rule := r } := by simpa [Knows] using known
        exact ⟨List.forall_mem_cons.2 ⟨first, others.knows⟩, others.waiting⟩

theorem scans_of_scan? (scanned : g.scan? s = some scan) : g.Scans scan := by
  rw [scan?] at scanned
  split at scanned
  next =>
    obtain ⟨r, operand, rfl⟩ := Option.map_eq_some_iff.1 scanned
    exact ⟨by simpa [Knows] using operand, by simp⟩
  next => cases scanned
  next => exact scans_of_scanLong? scanned
  next => exact scans_of_scanLetters? scanned

theorem Spells.knows {items : List Item} (spells : g.Spells items l) : ∀ t ∈ items, g.Knows t := by
  induction spells with
  | nil => simp
  | alone scanned _ ih => exact List.forall_mem_append.2 ⟨(scans_of_scan? scanned).knows, ih⟩
  | @apart _ v _ _ _ r scanned _ _ ih =>
    have scans := scans_of_scan? scanned
    have value : g.Knows { rule := r, value := some v } := by
      simpa [Knows] using (scans.waiting _ rfl).1
    exact List.forall_mem_append.2 ⟨scans.knows, List.forall_mem_cons.2 ⟨value, ih⟩⟩
  | behind operand => simpa [Knows] using fun _ _ => operand

theorem ne_of_scan? {scan : List Item × Option OptionRule} (scanned : g.scan? s = some scan) :
    s ≠ "--" := by
  rintro rfl
  cases scanned

theorem takeAll_operandsOnly (items : List Item) (b : Bool) :
    ({ p with operandsOnly := b } : Progress).takeAll items = .ok q ↔
      ∃ p', p.takeAll items = .ok p' ∧ q = { p' with operandsOnly := b } := by
  simp only [Progress.takeAll_eq_ok_iff, Progress.isGiven]
  constructor
  · rintro ⟨fits, follow, new, unread, rfl⟩
    exact ⟨_, ⟨fits, follow, new, unread, rfl⟩, rfl⟩
  · rintro ⟨_, ⟨fits, follow, new, unread, rfl⟩, rfl⟩
    exact ⟨fits, follow, new, unread, rfl⟩

theorem Spells.notMem {items : List Item} (spells : g.Spells items l) (none : g.operand = none) :
    "--" ∉ l := by
  induction spells with
  | nil => exact List.not_mem_nil
  | alone scanned _ ih =>
    exact List.not_mem_cons_of_ne_of_not_mem (ne_of_scan? scanned).symm ih
  | @apart _ v _ _ _ _ scanned plain _ ih =>
    have value : "--" ≠ v := by
      rintro rfl
      cases plain
    exact List.not_mem_cons_of_ne_of_not_mem (ne_of_scan? scanned).symm
      (List.not_mem_cons_of_ne_of_not_mem value ih)
  | behind operand => cases none.symm.trans operand

section Spelled

variable (divided : g.IsDivided) {items rest : List Item}
include divided

theorem not_stops_of_scan? (scanned : g.scan? s = some scan) : ¬ g.Stops s p := by
  intro stops
  obtain ⟨plain, none⟩ := divided s stops.known
  rw [scan?, plain, none] at scanned
  cases scanned

theorem not_stops_escape : ¬ g.Stops "--" p := by
  intro stops
  have plain := (divided _ stops.known).1
  rw [ofText_eq_escape_iff.2 rfl] at plain
  cases plain

theorem reads_of_scan? {w : Option OptionRule} (ready : IsReady p)
    (scanned : g.scan? s = some (items, w)) :
    g.Reads (s :: l) o p q ↔
      ∃ p', p.takeAll items = .ok p' ∧ g.Reads l o (p'.waitingFor w) q := by
  rw [reads_scan (not_stops_of_scan? divided scanned) ready (ne_of_scan? scanned), scanned]
  constructor
  · rintro ⟨_, ⟨_, _, p', same, taken, rfl⟩, rest⟩
    cases same
    exact ⟨p', taken, rest⟩
  · rintro ⟨p', taken, rest⟩
    exact ⟨_, ⟨items, w, p', rfl, taken, rfl⟩, rest⟩

/-- What a level reads off its arguments is what they spell, taken in item by item. -/
theorem reads_append_iff_of_spells (spells : g.Spells items l) (tail : List String)
    (ready : IsReady p) :
    g.Reads (l ++ tail) o p q ↔ ∃ p', p.takeAll items = .ok p' ∧
      g.Reads tail o { p' with operandsOnly := l.contains "--" } q := by
  induction spells generalizing p with
  | nil =>
    have same : { p with operandsOnly := false } = p := by rw [← ready.proper]
    simp [Progress.takeAll, same]
  | @alone s l items rest scanned _ ih =>
    rw [List.cons_append, reads_of_scan? divided ready scanned, List.contains_cons,
      beq_false_of_ne (ne_of_scan? scanned).symm, Bool.false_or]
    simp only [Progress.takeAll_append, Progress.bind_eq_ok_iff]
    constructor
    · rintro ⟨p₁, first, reads⟩
      obtain ⟨p', second, same⟩ := (ih (ready.takeAll first)).1 reads
      exact ⟨p', ⟨p₁, first, second⟩, same⟩
    · rintro ⟨p', ⟨p₁, first, second⟩, same⟩
      exact ⟨p₁, first, (ih (ready.takeAll first)).2 ⟨p', second, same⟩⟩
  | @apart s v l items rest r scanned plain _ ih =>
    have value : v ≠ "--" := by
      rintro rfl
      cases plain
    rw [List.cons_append, List.cons_append, reads_of_scan? divided ready scanned,
      List.contains_cons, List.contains_cons, beq_false_of_ne (ne_of_scan? scanned).symm,
      beq_false_of_ne value.symm, Bool.false_or, Bool.false_or]
    simp only [Progress.takeAll_append, Progress.bind_eq_ok_iff, Progress.takeAll]
    constructor
    · rintro ⟨p₁, first, reads⟩
      have ready₁ := ready.takeAll first
      obtain ⟨p₂, given, reads⟩ := (reads_waitingFor ready₁ plain).1 reads
      obtain ⟨p', second, same⟩ := (ih (ready₁.take given)).1 reads
      exact ⟨p', ⟨p₁, first, p₂, given, second⟩, same⟩
    · rintro ⟨p', ⟨p₁, first, p₂, given, second⟩, same⟩
      have ready₁ := ready.takeAll first
      have reads := (ih (ready₁.take given)).2 ⟨p', second, same⟩
      exact ⟨p₁, first, (reads_waitingFor ready₁ plain).2 ⟨p₂, given, reads⟩⟩
  | behind operand =>
    rw [List.cons_append, reads_cons (not_stops_escape divided), readArgument_escape ready.proper rfl,
      List.contains_cons, beq_self_eq_true, Bool.true_or]
    simp only [Except.ok.injEq, exists_eq_left']
    rw [reads_behind operand tail (p := { p with operandsOnly := true }) ready.free rfl]
    simp only [takeAll_operandsOnly]
    constructor
    · rintro ⟨_, ⟨p', taken, rfl⟩, rest⟩
      exact ⟨p', taken, rest⟩
    · rintro ⟨p', taken, rest⟩
      exact ⟨_, ⟨p', taken, rfl⟩, rest⟩

theorem reads_iff_of_spells (spells : g.Spells items l) (ready : IsReady p) :
    g.Reads l none p q ↔
      ∃ p', p.takeAll items = .ok p' ∧ q = { p' with operandsOnly := l.contains "--" } := by
  have reads := reads_append_iff_of_spells (o := none) (q := q) divided spells [] ready
  rw [List.append_nil] at reads
  refine reads.trans (exists_congr fun p' => and_congr_right fun taken => ?_)
  have free : ({ p' with operandsOnly := l.contains "--" } : Progress).pending = none :=
    (ready.takeAll taken).free
  rw [reads_nil, Progress.settle_of_settled free]
  simp [eq_comm]

theorem reads_command_iff_of_spells {c : String} (known : c ∈ g.commands)
    (spells : g.Spells items l) (tail : List String) (ready : IsReady p) :
    g.Reads (l ++ c :: tail) o p q ↔ o = some (c, tail) ∧ p.takeAll items = .ok q := by
  have proper : l.contains "--" = false := by
    rw [← Bool.not_eq_true, List.contains_iff_mem]
    exact spells.notMem (divided c known).2
  rw [reads_append_iff_of_spells divided spells (c :: tail) ready, proper]
  have ends {p' : Progress} (taken : p.takeAll items = .ok p') :
      g.Reads (c :: tail) o { p' with operandsOnly := false } q ↔
        o = some (c, tail) ∧ p' = q := by
    obtain ⟨free, proper⟩ := ready.takeAll taken
    have same : { p' with operandsOnly := false } = p' := by rw [← proper]
    have idle : p'.isAwaiting = false := by rw [Progress.isAwaiting, free]
    rw [same, reads_stop ⟨known, proper, idle⟩, Progress.settle_of_settled free, Except.ok.injEq]
  constructor
  · rintro ⟨p', taken, reads⟩
    obtain ⟨rfl, rfl⟩ := (ends taken).1 reads
    exact ⟨rfl, taken⟩
  · rintro ⟨rfl, taken⟩
    exact ⟨q, taken, (ends taken).2 ⟨rfl, rfl⟩⟩

end Spelled

theorem exists_spells (ends : o = none → g.operand.isSome) :
    ∀ (l : List String) {p q : Progress}, IsReady p → g.Reads l o p q →
      (∀ x ∈ o, x.1 ∈ g.commands) ∧ ∃ before items, g.Spells items before ∧
        l = before ++ o.elim [] fun x => x.1 :: x.2
  | [], p, q, _, reads => by
    obtain ⟨rfl, _⟩ := reads_nil.1 reads
    exact ⟨nofun, [], [], .nil, rfl⟩
  | s :: l, p, q, ready, reads => by
    by_cases stops : g.Stops s p
    · obtain ⟨rfl, _⟩ := (reads_stop stops l).1 reads
      refine ⟨fun x same => ?_, [], [], .nil, rfl⟩
      obtain rfl := Option.some.inj same
      exact stops.known
    by_cases behind : s = "--"
    · subst behind
      cases o with
      | none =>
        obtain ⟨r, operand⟩ := Option.isSome_iff_exists.1 (ends rfl)
        exact ⟨nofun, _, _, .behind operand, (List.append_nil _).symm⟩
      | some x =>
        rw [reads_cons stops, readArgument_escape ready.proper rfl] at reads
        obtain ⟨_, same, rest⟩ := reads
        obtain rfl := Except.ok.inj same
        exact absurd rest (not_reads_command rfl)
    · obtain ⟨_, ⟨items, w, p', scanned, taken, rfl⟩, rest⟩ := (reads_scan stops ready behind).1 reads
      have ready' := ready.takeAll taken
      cases w with
      | none =>
        obtain ⟨known, before, others, spells, rfl⟩ := exists_spells ends l ready' rest
        exact ⟨known, s :: before, _, .alone scanned spells, rfl⟩
      | some r =>
        obtain ⟨v, l', rfl, plain⟩ :=
          exists_value_of_reads ready' ((scans_of_scan? scanned).waiting _ rfl).2 rest
        obtain ⟨p₂, given, rest⟩ := (reads_waitingFor ready' plain).1 rest
        obtain ⟨known, before, others, spells, rfl⟩ :=
          exists_spells ends l' (ready'.take given) rest
        exact ⟨known, s :: v :: before, _, .apart scanned plain spells, rfl⟩

end Grammar

theorem bne_equals_of_notMem {l : List Char} (plain : '=' ∉ l) : ∀ c ∈ l, (c != '=') = true :=
  fun _ hc => bne_iff_ne.2 (ne_of_mem_of_not_mem hc plain)

def assignment (name value : String) : String := "--" ++ name ++ "=" ++ value

theorem ofText_assignment {name : String} (plain : '=' ∉ name.toList) (value : String) :
    Form.ofText (assignment name value) = .long name (some value) := by
  have bne := bne_equals_of_notMem plain
  have chars : (assignment name value).toList = '-' :: '-' :: (name.toList ++ '=' :: value.toList) := by
    simp [assignment]
  have taken : (name.toList ++ '=' :: value.toList).takeWhile (· != '=') = name.toList := by
    rw [List.takeWhile_append_of_pos bne, List.takeWhile_cons_of_neg (by decide), List.append_nil]
  have left : (name.toList ++ '=' :: value.toList).dropWhile (· != '=') = '=' :: value.toList := by
    rw [List.dropWhile_append_of_pos bne, List.dropWhile_cons_of_neg (by decide)]
  obtain ⟨c, l, behind⟩ := List.exists_cons_of_ne_nil
    (List.append_ne_nil_of_right_ne_nil name.toList (List.cons_ne_nil '=' value.toList))
  rw [behind] at chars taken left
  simp [Form.ofText, chars, taken, left]

def Item.ofPair (p : String × String) : Item := { rule := { name := p.1 }, value := some p.2 }

theorem Grammar.spells_assignments {g : Grammar} {pairs : List (String × String)}
    (plain : ∀ p ∈ pairs, '=' ∉ p.1.toList)
    (known : ∀ p ∈ pairs, g.options.find? (·.name == p.1) = some { name := p.1 })
    {items : List Item} {l : List String} (behind : g.Spells items l) :
    g.Spells (pairs.map Item.ofPair ++ items) (pairs.map (fun p => assignment p.1 p.2) ++ l) := by
  induction pairs with
  | nil => exact behind
  | cons p pairs ih =>
    obtain ⟨plain, others⟩ := List.forall_mem_cons.1 plain
    obtain ⟨known, knowns⟩ := List.forall_mem_cons.1 known
    have scanned : g.scan? (assignment p.1 p.2) = some ([Item.ofPair p], none) := by
      rw [scan?, ofText_assignment plain]
      simp only [scanLong?, known]
      rfl
    have first : g.Spells ([Item.ofPair p] ++ _) (assignment p.1 p.2 :: _) :=
      .alone scanned (ih others knowns)
    exact first

end ArtifactSelection.Command
