import ArtifactSelection.Loading
import Mathlib.Algebra.Group.Nat.Defs

/-!
Settings that are loaded can be used. A file gives settings only if the number of shards in it, when
there is one, is a power of two greater than one, and settings of default leave that number open. So
the settings in force, which are judged once more behind the loading, pass every time: what can fail
is the one file that they come from.
-/

namespace ArtifactSelection

namespace CacheSettings

theorem isValidShardAmount_iff {n : UInt64} :
    isValidShardAmount n = true ↔ ∃ k, 1 ≤ k ∧ n.toNat = 2 ^ k := by
  have several : 1 < n ↔ 1 < n.toNat := UInt64.lt_iff_toNat_lt
  have power : (Nat.pow 2 n.toNat.log2 == n.toNat) = true ↔ 2 ^ n.toNat.log2 = n.toNat := beq_iff_eq
  rw [isValidShardAmount, Bool.and_eq_true, decide_eq_true_iff, several, power]
  constructor
  · intro ⟨more, power⟩
    have exponent : n.toNat.log2 ≠ 0 := by
      intro zero
      rw [zero] at power
      omega
    exact ⟨n.toNat.log2, Nat.one_le_iff_ne_zero.2 exponent, power.symm⟩
  · intro ⟨k, positive, power⟩
    have exponent : n.toNat.log2 = k := by rw [power, Nat.log2_two_pow]
    rw [exponent, power]
    exact ⟨Nat.one_lt_two_pow (Nat.one_le_iff_ne_zero.1 positive), rfl⟩

/-- The number of shards is left open, or it is a power of two greater than one. -/
def Usable (c : CacheSettings) : Prop :=
  c.shardAmount = none ∨ ∃ n k, c.shardAmount = some n ∧ 1 ≤ k ∧ n.toNat = 2 ^ k

def unusable (n : UInt64) : Failure :=
  .inconsistent ("cache.shard_amount must be a power of two greater than one, got " ++ toString n)

variable {c : CacheSettings} {n : UInt64}

theorem usable_of_shardAmount (amount : c.shardAmount = some n) :
    c.Usable ↔ isValidShardAmount n = true := by
  rw [isValidShardAmount_iff, Usable, amount]
  simp

theorem validate_of_shardAmount (amount : c.shardAmount = some n) :
    c.validate = if isValidShardAmount n then .ok () else .error (unusable n) := by
  rw [validate, amount]
  rfl

theorem validate_eq_ok_iff : c.validate = .ok () ↔ c.Usable := by
  cases amount : c.shardAmount with
  | none => simp [validate, Usable, amount]
  | some n =>
    rw [usable_of_shardAmount amount, validate_of_shardAmount amount]
    cases isValidShardAmount n <;> simp

theorem validate_eq_error_iff {f : Failure} :
    c.validate = .error f ↔ ¬ c.Usable ∧ ∃ n, c.shardAmount = some n ∧ f = unusable n := by
  cases amount : c.shardAmount with
  | none => simp [validate, amount]
  | some n =>
    rw [usable_of_shardAmount amount, validate_of_shardAmount amount]
    cases isValidShardAmount n <;> simp [eq_comm]

end CacheSettings

namespace Settings

def ofText? (toml : String → Option Value) (text : String) : Option Settings :=
  (toml text).bind (decode? .passedOver)

/-- Why no settings come from a file. -/
inductive Refuses (toml : String → Option Value) (files : Files) (path : String) : Failure → Prop
  | unreadable {reason : String} : files.read path = .error reason →
      Refuses toml files path (.unreadable path reason)
  | malformed {text : String} : files.read path = .ok text → ofText? toml text = none →
      Refuses toml files path (.malformed path)
  | unusable {text : String} {s : Settings} {n : UInt64} : files.read path = .ok text →
      ofText? toml text = some s → ¬ s.cache.Usable → s.cache.shardAmount = some n →
      Refuses toml files path (CacheSettings.unusable n)

variable {toml : String → Option Value} {files : Files} {path : String} {s : Settings} {f : Failure}

theorem validated_eq_ok_iff {t : Settings} : validated t = .ok s ↔ t.cache.Usable ∧ t = s := by
  rw [← CacheSettings.validate_eq_ok_iff, validated, validate]
  cases t.cache.validate <;> simp

theorem validated_eq_error_iff {t : Settings} :
    validated t = .error f ↔
      ¬ t.cache.Usable ∧ ∃ n, t.cache.shardAmount = some n ∧ f = CacheSettings.unusable n := by
  rw [← CacheSettings.validate_eq_error_iff, validated, validate]
  cases t.cache.validate <;> simp

theorem load_of_read {text : String} (read : files.read path = .ok text) :
    load toml files path = (ofText? toml text).elim (.error (.malformed path)) validated := by
  rw [load, loadFile, read]
  dsimp only
  rw [decodeFile, ← ofText?]
  cases ofText? toml text <;> rfl

theorem load_eq_ok_iff :
    load toml files path = .ok s ↔
      ∃ text, files.read path = .ok text ∧ ofText? toml text = some s ∧ s.cache.Usable := by
  cases read : files.read path with
  | error reason => simp [load, loadFile, read, Except.bind]
  | ok text =>
    rw [load_of_read read]
    cases content : ofText? toml text with
    | none => simp [content]
    | some t =>
      rw [Option.elim_some, validated_eq_ok_iff]
      constructor
      · rintro ⟨usable, rfl⟩
        exact ⟨text, rfl, content, usable⟩
      · rintro ⟨text', read', same, usable⟩
        obtain rfl := Except.ok.inj read'
        obtain rfl := Option.some.inj (content.symm.trans same)
        exact ⟨usable, rfl⟩

theorem load_eq_error_iff : load toml files path = .error f ↔ Refuses toml files path f := by
  constructor
  · intro fails
    cases read : files.read path with
    | error reason =>
      rw [load, loadFile, read] at fails
      obtain rfl := Except.error.inj fails
      exact .unreadable read
    | ok text =>
      rw [load_of_read read] at fails
      cases content : ofText? toml text with
      | none =>
        rw [content] at fails
        obtain rfl := Except.error.inj fails
        exact .malformed read content
      | some t =>
        rw [content, Option.elim_some, validated_eq_error_iff] at fails
        obtain ⟨useless, n, amount, rfl⟩ := fails
        exact .unusable read content useless amount
  · intro refuses
    cases refuses with
    | unreadable read =>
      rw [load, loadFile, read]
      rfl
    | malformed read content =>
      rw [load_of_read read, content]
      rfl
    | unusable read content useless amount =>
      rw [load_of_read read, content, Option.elim_some, validated_eq_error_iff]
      exact ⟨useless, _, amount, rfl⟩

theorem mapError_eq_ok_iff {α : Type} {r : Except Failure α} {g : Failure → Failure} {a : α} :
    r.mapError g = .ok a ↔ r = .ok a := by
  cases r with
  | error e => exact ⟨nofun, nofun⟩
  | ok b => exact Iff.rfl

theorem mapError_eq_error_iff {α : Type} {r : Except Failure α} {g : Failure → Failure} :
    r.mapError g = .error f ↔ ∃ e, r = .error e ∧ f = g e := by
  cases r with
  | error e =>
    constructor
    · intro fails
      exact ⟨e, rfl, (Except.error.inj fails).symm⟩
    · rintro ⟨_, same, rfl⟩
      obtain rfl := Except.error.inj same
      rfl
  | ok a =>
    constructor
    · exact nofun
    · rintro ⟨_, same, _⟩
      cases same

variable {named environment : Option String}

theorem answer_loadOrDefault (toml : String → Option Value) (files : Files)
    (named environment : Option String) :
    (loadOrDefault toml files named environment).1 =
      (named.or environment).elim (.ok {}) (load toml files) := by
  rw [loadOrDefault, source?]
  cases named.or environment with
  | none => rfl
  | some path =>
    dsimp only
    rw [Option.elim_some]
    cases load toml files path <;> rfl

theorem usable_of_loadOrDefault (loaded : (loadOrDefault toml files named environment).1 = .ok s) :
    s.cache.Usable := by
  rw [answer_loadOrDefault] at loaded
  cases source : named.or environment with
  | none =>
    rw [source] at loaded
    obtain rfl := Except.ok.inj loaded
    exact .inl rfl
  | some path =>
    rw [source, Option.elim_some, load_eq_ok_iff] at loaded
    obtain ⟨_, _, _, usable⟩ := loaded
    exact usable

theorem answer_inForce (toml : String → Option Value) (files : Files)
    (named environment : Option String) :
    (inForce toml files named environment).1 =
      (loadOrDefault toml files named environment).1.mapError
        (.within "Failed to load resolution settings") := by
  rw [inForce]
  rcases outcome : loadOrDefault toml files named environment with ⟨f | s, events⟩
  · rfl
  · have usable : s.cache.Usable := usable_of_loadOrDefault (congrArg Prod.fst outcome)
    have fit : s.validate = .ok () := CacheSettings.validate_eq_ok_iff.2 usable
    simp only [fit]
    rfl

theorem loadOrDefault_congr {files' : Files}
    (same : ∀ path ∈ named.or environment, files'.read path = files.read path) :
    loadOrDefault toml files' named environment = loadOrDefault toml files named environment := by
  rw [loadOrDefault, loadOrDefault, source?]
  cases source : named.or environment with
  | none => rfl
  | some path =>
    have content : load toml files' path = load toml files path := by
      rw [load, load, loadFile, loadFile, same path source]
    simp only [content]

/-- Settings come from the file that is named, else from the one that the environment names, and
from no other file; where none is named they are those of default. The number of shards in them is
open or a power of two greater than one, so that the second judgement of the settings in force never
finds anything, and a failure is always that of the one file: it cannot be read, it holds no
settings, or its number of shards is of no use. Whatever reads the file may have its own idea of the
texts that are settings. -/
theorem loaded_usable (toml : String → Option Value) (files : Files)
    (named environment : Option String) :
    let loaded := (loadOrDefault toml files named environment).1
    let answer := (inForce toml files named environment).1
    (∀ path, named = some path → loaded = load toml files path) ∧
    (∀ path, named = none → environment = some path → loaded = load toml files path) ∧
    (named = none → environment = none → loaded = .ok {}) ∧
    (∀ files' : Files, (∀ path ∈ named.or environment, files'.read path = files.read path) →
      inForce toml files' named environment = inForce toml files named environment) ∧
    (∀ s, loaded = .ok s ∨ answer = .ok s →
      s.cache.shardAmount = none ∨ ∃ n k, s.cache.shardAmount = some n ∧ 1 ≤ k ∧ n.toNat = 2 ^ k) ∧
    (∀ f, answer = .error f ↔ ∃ path e, named.or environment = some path ∧
      load toml files path = .error e ∧ f = .within "Failed to load resolution settings" e) ∧
    (∀ path e, load toml files path = .error e ↔ Refuses toml files path e) ∧
    ∀ e, answer ≠ .error (.within "Invalid resolution settings" e) := by
  intro loaded answer
  have source : loaded = (named.or environment).elim (.ok {}) (load toml files) :=
    answer_loadOrDefault toml files named environment
  have judged : answer = loaded.mapError (.within "Failed to load resolution settings") :=
    answer_inForce toml files named environment
  have failure (f : Failure) : answer = .error f ↔ ∃ path e, named.or environment = some path ∧
      load toml files path = .error e ∧ f = .within "Failed to load resolution settings" e := by
    rw [judged, mapError_eq_error_iff, source]
    cases named.or environment <;> simp
  refine ⟨?_, ?_, ?_, fun files' same => ?_, fun s given => ?_, failure,
    fun path e => load_eq_error_iff, fun e fails => ?_⟩
  · rintro path rfl
    exact source
  · rintro path rfl rfl
    exact source
  · rintro rfl rfl
    exact source
  · simp only [inForce, loadOrDefault_congr same]
  · have ok : loaded = .ok s := by
      rcases given with ok | ok
      · exact ok
      · rwa [judged, mapError_eq_ok_iff] at ok
    exact usable_of_loadOrDefault ok
  · obtain ⟨_, _, _, _, other⟩ := (failure _).1 fails
    exact absurd (Failure.within.inj other).1 (by decide)

end Settings

end ArtifactSelection
