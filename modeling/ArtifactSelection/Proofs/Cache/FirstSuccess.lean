import ArtifactSelection.Proofs.Cache.Publication
import Mathlib.Data.List.Nodup

/-!
Histories of a cache. Calls of every kind come to one cache one after the other; each is served with
what the first successful build of its key has come to, and a builder runs only while there is none.
So a cache is told from the list of its successful builds by no call.
-/

namespace ArtifactSelection.Cache

inductive Call (κ α ε σ : Type) where
  | request (k : κ) (build : σ → Except ε α × σ)
  | get (k : κ)
  | contains (k : κ)
  | size
  | isEmpty

inductive Reply (α ε : Type) where
  | answer (r : Except ε (Shared α))
  | value (h : Option (Shared α))
  | truth (b : Bool)
  | number (n : Nat)

structure Served (κ α ε σ : Type) where
  call : Call κ α ε σ
  reply : Reply α ε
  ran : List (Except ε α) := []

variable {κ α ε σ : Type}

def noting (build : σ → Except ε α × σ) (s : σ × List (Except ε α)) :
    Except ε α × σ × List (Except ε α) :=
  let (r, x) := build s.1
  (r, x, s.2 ++ [r])

namespace Served

def build? : Served κ α ε σ → Option (κ × Shared α)
  | ⟨.request k _, .answer (.ok h), [.ok _]⟩ => some (k, h)
  | _ => none

def Gives (e : Served κ α ε σ) (k : κ) (h : Shared α) : Prop :=
  (∃ build, e.call = .request k build ∧ e.reply = .answer (.ok h)) ∨
    e.call = .get k ∧ e.reply = .value (some h)

end Served

def builds (log : List (Served κ α ε σ)) : List (κ × Shared α) := log.filterMap Served.build?

@[simp] theorem builds_append (log log' : List (Served κ α ε σ)) :
    builds (log ++ log') = builds log ++ builds log' := List.filterMap_append

variable [DecidableEq κ]

/-- The value of the first successful build of a key. -/
def first? (log : List (Served κ α ε σ)) (k : κ) : Option (Shared α) := (builds log).lookup k

theorem first?_append (log log' : List (Served κ α ε σ)) (k : κ) :
    first? (log ++ log') k = (first? log k).or (first? log' k) := by
  rw [first?, builds_append, List.lookup_append, first?, first?]

theorem first?_of_prefix {log : List (Served κ α ε σ)} {k : κ} {h : Shared α}
    (first : first? log k = some h) (log' : List (Served κ α ε σ)) :
    first? (log ++ log') k = some h := by
  rw [first?_append, first, Option.some_or]

theorem first?_of_build? {e : Served κ α ε σ} {k : κ} {h : Shared α}
    (built : e.build? = some (k, h)) (x : κ) : first? [e] x = if x = k then some h else none := by
  have single : builds [e] = [(k, h)] := by simp [builds, built]
  rw [first?, single]
  by_cases here : x = k
  · simp [here]
  · simp [List.lookup_cons, beq_false_of_ne here, here]

/-- What a call comes to behind a history. -/
def Served.Follows (e : Served κ α ε σ) (log : List (Served κ α ε σ)) : Prop :=
  match e.call with
  | .request k build =>
    match first? log k with
    | some h => e.ran = [] ∧ e.reply = .answer (.ok h)
    | none => ∃ x, e.ran = [(build x).1] ∧
        e.reply = .answer ((build x).1.map fun a => ⟨(builds log).length, a⟩)
  | .get k => e.ran = [] ∧ e.reply = .value (first? log k)
  | .contains k => e.ran = [] ∧ e.reply = .truth (decide (k ∈ (builds log).map Prod.fst))
  | .size => e.ran = [] ∧ e.reply = .number (builds log).length
  | .isEmpty => e.ran = [] ∧ e.reply = .truth (builds log).isEmpty

def serve (c : Cache κ α) (x : σ) : Call κ α ε σ → Served κ α ε σ × Cache κ α × σ
  | .request k build =>
    let (answer, c, x, ran) := c.getOrBuild k (noting build) (x, [])
    (⟨.request k build, .answer answer, ran⟩, c, x)
  | .get k => ({ call := .get k, reply := .value (c.get? k) }, c, x)
  | .contains k => ({ call := .contains k, reply := .truth (c.contains k) }, c, x)
  | .size => ({ call := .size, reply := .number c.size }, c, x)
  | .isEmpty => ({ call := .isEmpty, reply := .truth c.isEmpty }, c, x)

def serveAll : List (Call κ α ε σ) → Cache κ α → σ → List (Served κ α ε σ) × Cache κ α × σ
  | [], c, x => ([], c, x)
  | call :: calls, c, x =>
    let (e, c, x) := c.serve x call
    let (log, c, x) := serveAll calls c x
    (e :: log, c, x)

section Request

variable {c : Cache κ α} {k : κ} {build : σ → Except ε α × σ} {x : σ}

theorem serve_request_of_get? {h : Shared α} (found : c.get? k = some h) :
    c.serve x (.request k build) = (⟨.request k build, .answer (.ok h), []⟩, c, x) := by
  rw [serve, getOrBuild_of_get? found]

theorem serve_request_of_ok {a : α} (new : c.get? k = none) (ok : (build x).1 = .ok a) :
    c.serve x (.request k build) =
      (⟨.request k build, .answer (.ok ⟨c.size, a⟩), [.ok a]⟩, c.publish k a, (build x).2) := by
  have noted : noting build (x, []) = (.ok a, (build x).2, [.ok a]) := by simp [noting, ok]
  rw [serve, getOrBuild_of_ok new noted]

theorem serve_request_of_error {e : ε} (new : c.get? k = none) (fails : (build x).1 = .error e) :
    c.serve x (.request k build) =
      (⟨.request k build, .answer (.error e), [.error e]⟩, c, (build x).2) := by
  have noted : noting build (x, []) = (.error e, (build x).2, [.error e]) := by
    simp [noting, fails]
  rw [serve, getOrBuild_of_error new noted]

end Request

/-- A cache has what a history built, each key once. -/
structure Agrees (c : Cache κ α) (log : List (Served κ α ε σ)) : Prop where
  get? : ∀ k, c.get? k = first? log k
  keys : c.keys = ((builds log).map Prod.fst).reverse
  single : c.keys.Nodup

variable {c : Cache κ α} {log : List (Served κ α ε σ)} {e : Served κ α ε σ}

theorem agrees_empty : (∅ : Cache κ α).Agrees ([] : List (Served κ α ε σ)) :=
  ⟨fun _ => rfl, rfl, .nil⟩

namespace Agrees

theorem size (agrees : c.Agrees log) : c.size = (builds log).length := by
  rw [← length_keys, agrees.keys, List.length_reverse, List.length_map]

theorem mem_keys (agrees : c.Agrees log) {k : κ} : k ∈ (builds log).map Prod.fst ↔
    (first? log k).isSome := by
  rw [← List.mem_reverse, ← agrees.keys, Cache.mem_keys, ← agrees.get?, Option.isSome_iff_exists]

theorem of_idle (agrees : c.Agrees log) (idle : e.build? = none) : c.Agrees (log ++ [e]) := by
  have same : builds (log ++ [e]) = builds log := by simp [builds, idle]
  exact ⟨by simpa only [first?, same] using agrees.get?, by rw [same, agrees.keys], agrees.single⟩

theorem of_build (agrees : c.Agrees log) {k : κ} {a : α} (new : c.get? k = none)
    (built : e.build? = some (k, ⟨c.size, a⟩)) : (c.publish k a).Agrees (log ++ [e]) where
  get? := by
    intro x
    rw [get?_publish, first?_append, first?_of_build? built, ← agrees.get?]
    by_cases here : k = x
    · rw [if_pos here, if_pos here.symm, ← here, new, Option.none_or]
    · rw [if_neg here, if_neg (Ne.symm here), Option.or_none]
  keys := by simp [builds, built, agrees.keys]
  single := nodup_keys_publish new agrees.single a

/-- What a call comes to is what the history before it says, and behind it the cache agrees with the
history and the call. -/
theorem serve (agrees : c.Agrees log) (x : σ) (call : Call κ α ε σ) :
    (c.serve x call).1.Follows log ∧ (c.serve x call).2.1.Agrees (log ++ [(c.serve x call).1]) := by
  cases call with
  | request k build =>
    -- Only a build that succeeds changes the cache, and only it counts in the history.
    have first := agrees.get? k
    cases found : c.get? k with
    | some h =>
      rw [serve_request_of_get? found]
      rw [found] at first
      exact ⟨by simp [Served.Follows, ← first], agrees.of_idle rfl⟩
    | none =>
      rw [found] at first
      cases outcome : (build x).1 with
      | ok a =>
        rw [serve_request_of_ok found outcome]
        refine ⟨?_, agrees.of_build found rfl⟩
        simp only [Served.Follows, ← first, agrees.size]
        exact ⟨x, by rw [outcome], by rw [outcome]; rfl⟩
      | error e =>
        rw [serve_request_of_error found outcome]
        refine ⟨?_, agrees.of_idle rfl⟩
        simp only [Served.Follows, ← first]
        exact ⟨x, by rw [outcome], by rw [outcome]; rfl⟩
  | get k => exact ⟨⟨rfl, congrArg Reply.value (agrees.get? k)⟩, agrees.of_idle rfl⟩
  | contains k =>
    refine ⟨⟨rfl, congrArg Reply.truth ?_⟩, agrees.of_idle rfl⟩
    rw [Bool.eq_iff_iff, decide_eq_true_iff, agrees.mem_keys, contains, agrees.get?]
  | size => exact ⟨⟨rfl, congrArg Reply.number agrees.size⟩, agrees.of_idle rfl⟩
  | isEmpty =>
    refine ⟨⟨rfl, congrArg Reply.truth ?_⟩, agrees.of_idle rfl⟩
    rw [Bool.eq_iff_iff, isEmpty, List.isEmpty_iff_length_eq_zero, List.isEmpty_iff_length_eq_zero,
      ← agrees.size, Cache.size]

theorem serveAll (agrees : c.Agrees log) (calls : List (Call κ α ε σ)) (x : σ) :
    (Cache.serveAll calls c x).2.1.Agrees (log ++ (Cache.serveAll calls c x).1) ∧
      ∀ before e after, (Cache.serveAll calls c x).1 = before ++ e :: after →
        e.Follows (log ++ before) := by
  induction calls generalizing c log x with
  | nil =>
    refine ⟨by simpa [Cache.serveAll] using agrees, fun before e after split => ?_⟩
    simp [Cache.serveAll] at split
  | cons call calls ih =>
    obtain ⟨follows, next⟩ := agrees.serve x call
    obtain ⟨last, rest⟩ := ih next (c.serve x call).2.2
    rw [List.append_assoc, List.singleton_append] at last
    refine ⟨last, fun before e after split => ?_⟩
    rw [Cache.serveAll] at split
    cases before with
    | nil =>
      obtain ⟨rfl, _⟩ := List.cons.inj split
      rw [List.append_nil]
      exact follows
    | cons e' before =>
      obtain ⟨rfl, tail⟩ := List.cons.inj split
      have behind := rest before e after tail
      rw [List.append_assoc, List.singleton_append] at behind
      exact behind

end Agrees

theorem calls_serveAll (calls : List (Call κ α ε σ)) (c : Cache κ α) (x : σ) :
    (serveAll calls c x).1.map (·.call) = calls := by
  induction calls generalizing c x with
  | nil => rfl
  | cons call calls ih =>
    rw [serveAll, List.map_cons, ih]
    cases call <;> rfl

namespace Served.Follows

theorem first?_of_gives (follows : e.Follows log) {k : κ} {h : Shared α} (gives : e.Gives k h) :
    first? (log ++ [e]) k = some h := by
  obtain ⟨call, reply, ran⟩ := e
  rcases gives with ⟨build, rfl, rfl⟩ | ⟨rfl, rfl⟩
  · simp only [Served.Follows] at follows
    split at follows
    · next before =>
      obtain ⟨rfl, same⟩ := follows
      obtain rfl := Except.ok.inj (Reply.answer.inj same)
      exact first?_of_prefix before _
    · next new =>
      obtain ⟨x, rfl, answer⟩ := follows
      cases outcome : (build x).1 with
      | ok a =>
        rw [first?_append, new, Option.none_or, first?_of_build? rfl, if_pos rfl]
      | error error =>
        rw [outcome] at answer
        cases answer
  · obtain ⟨_, same⟩ := follows
    exact first?_of_prefix (Reply.value.inj same).symm _

theorem of_error (follows : e.Follows log) {error : ε} (fails : e.reply = .answer (.error error)) :
    e.ran = [.error error] ∧ builds (log ++ [e]) = builds log := by
  obtain ⟨call, reply, ran⟩ := e
  subst fails
  cases call with
  | request k build =>
    simp only [Served.Follows] at follows
    split at follows
    · cases follows.2
    · obtain ⟨x, rfl, answer⟩ := follows
      cases outcome : (build x).1 with
      | ok a =>
        rw [outcome] at answer
        cases answer
      | error error' =>
        rw [outcome] at answer
        obtain rfl := Except.error.inj (Reply.answer.inj answer)
        simp [builds, build?]
  | get | contains | size | isEmpty => cases follows.2

end Served.Follows

theorem serve_of_error {x : σ} {call : Call κ α ε σ} {error : ε}
    (fails : (c.serve x call).1.reply = .answer (.error error)) : (c.serve x call).2.1 = c := by
  cases call with
  | request k build =>
    rcases c.getOrBuild_cases k (noting build) (x, []) with
        ⟨h, _, go⟩ | ⟨a, y, _, _, go⟩ | ⟨e, y, _, _, go⟩ <;>
      rw [serve, go] at fails ⊢
    cases fails
  | get | contains | size | isEmpty => rfl

/-- A cache answers every sequence of calls by the first successful build of each key, and keeps that
and nothing else. A builder runs, once, exactly when there is none so far; if it fails, the call
fails with what it says and leaves the cache as it was. -/
theorem serveAll_first_success (calls : List (Call κ α ε σ)) (x : σ) :
    let log := (serveAll calls (∅ : Cache κ α) x).1
    let c := (serveAll calls (∅ : Cache κ α) x).2.1
    log.map (·.call) = calls ∧
    (∀ before e after, log = before ++ e :: after → e.Follows before ∧
      ∀ error, e.reply = .answer (.error error) →
        e.ran = [.error error] ∧ builds (before ++ [e]) = builds before) ∧
    (∀ e ∈ log, ∀ k h, e.Gives k h → first? log k = some h) ∧
    ((builds log).map Prod.fst).Nodup ∧
    (∀ k h k' h', first? log k = some h → first? log k' = some h' →
      (h.serial = h'.serial ↔ k = k')) ∧
    (∀ k, c.get? k = first? log k) ∧ c.size = (builds log).length ∧
    ∀ (y : σ) (call : Call κ α ε σ) (error : ε),
      (c.serve y call).1.reply = .answer (.error error) → (c.serve y call).2.1 = c := by
  intro log c
  obtain ⟨agrees, follows⟩ := agrees_empty.serveAll calls x
  rw [List.nil_append] at agrees
  refine ⟨calls_serveAll calls ∅ x, fun before e after split => ?_, ?_, ?_, ?_, agrees.get?,
    agrees.size, fun y call error => serve_of_error⟩
  · have follow : e.Follows before := follows before e after split
    exact ⟨follow, fun error => follow.of_error⟩
  · intro e he k h gives
    obtain ⟨before, after, split⟩ := List.append_of_mem he
    have now := Served.Follows.first?_of_gives (follows before e after split) gives
    rw [List.nil_append] at now
    rw [split, ← List.singleton_append, ← List.append_assoc]
    exact first?_of_prefix now after
  · rw [← List.nodup_reverse, ← agrees.keys]
    exact agrees.single
  · intro k h k' h' first first'
    rw [← agrees.get?] at first first'
    refine ⟨key_of_serial first first', fun same => ?_⟩
    subst same
    rw [Option.some.inj (first.symm.trans first')]

/-- A failed build is tried again, a later build of the same key is not, and another key that comes to
the same value has an instance of its own. -/
example :
    let fails : Unit → Except String Nat × Unit := fun _ => (.error "refused", ())
    let gives (n : Nat) : Unit → Except String Nat × Unit := fun _ => (.ok n, ())
    let calls : List (Call String Nat String Unit) :=
      [.request "a" fails, .contains "a", .request "a" (gives 1), .request "a" (gives 2),
        .request "b" (gives 1), .get "a", .size]
    (serveAll calls ∅ ()).1.map (fun e => (e.reply, e.ran)) =
      [(.answer (.error "refused"), [.error "refused"]), (.truth false, []),
        (.answer (.ok ⟨0, 1⟩), [.ok 1]), (.answer (.ok ⟨0, 1⟩), []),
        (.answer (.ok ⟨1, 1⟩), [.ok 1]), (.value (some ⟨0, 1⟩), []), (.number 2, [])] := by
  rfl

end ArtifactSelection.Cache
