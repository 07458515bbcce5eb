import ArtifactSelection.Proofs.Cache.Publication
import ArtifactSelection.Selection.Resolved
import Mathlib.Data.List.Nodup

/-!
Calls to a scratch. A call for the resolved form of a variant is known by the id of the variant
alone: what the scratch has under the id is given out as it stands, however it was made, and the
resolver of the call runs only where there is nothing. So a run of calls adds one entry for each id
that was asked for and was not there, and all calls for one id are given one instance.
-/

namespace ArtifactSelection

namespace Cache

variable {κ α : Type} [DecidableEq κ]

/-- The cache with further values, published in this order, each under a key that was new then. -/
inductive Extends (c : Cache κ α) : List (κ × α) → Cache κ α → Prop
  | refl : Extends c [] c
  | publish {added : List (κ × α)} {c' : Cache κ α} {k : κ} (before : Extends c added c')
      (new : c'.get? k = none) (a : α) : Extends c (added ++ [(k, a)]) (c'.publish k a)

namespace Extends

variable {c c' : Cache κ α} {added : List (κ × α)} {k : κ}

theorem get?_of_get? (h : c.Extends added c') {s : Shared α} (found : c.get? k = some s) :
    c'.get? k = some s := by
  induction h with
  | refl => exact found
  | publish _ new a ih => exact get?_publish_of_get? new ih a

theorem get?_eq_none (h : c.Extends added c') (new : c'.get? k = none) : c.get? k = none := by
  cases found : c.get? k with
  | none => rfl
  | some s => cases new.symm.trans (h.get?_of_get? found)

theorem keys_eq (h : c.Extends added c') : c'.keys = (added.map Prod.fst).reverse ++ c.keys := by
  induction h with
  | refl => rfl
  | publish _ _ _ ih => simp [ih]

theorem size_eq (h : c.Extends added c') : c'.size = c.size + added.length := by
  rw [← length_keys, h.keys_eq, List.length_append, List.length_reverse, List.length_map,
    length_keys, Nat.add_comm]

theorem mem_added (h : c.Extends added c') {s : Shared α} (found : c'.get? k = some s)
    (new : c.get? k = none) : k ∈ added.map Prod.fst := by
  have listed : k ∈ c'.keys := mem_keys.2 ⟨s, found⟩
  rw [h.keys_eq, List.mem_append, List.mem_reverse] at listed
  refine listed.resolve_right fun old => ?_
  obtain ⟨t, there⟩ := mem_keys.1 old
  cases new.symm.trans there

theorem notMem_added (h : c.Extends added c') (new : c'.get? k = none) :
    k ∉ added.map Prod.fst := by
  intro listed
  have there : k ∈ c'.keys := by
    rw [h.keys_eq, List.mem_append, List.mem_reverse]
    exact .inl listed
  obtain ⟨s, found⟩ := mem_keys.1 there
  cases new.symm.trans found

theorem nodup_added (h : c.Extends added c') : (added.map Prod.fst).Nodup := by
  induction h with
  | refl => exact .nil
  | publish before new _ ih =>
    rw [List.map_append, List.map_singleton, ← List.concat_eq_append, List.nodup_concat]
    exact ⟨before.notMem_added new, ih⟩

end Extends

end Cache

namespace Scratch

structure Call (τ : Type) where
  variant : PhysicalVariant
  resolve : τ → ResolvedVariant × τ

structure Served (τ : Type) where
  call : Call τ
  given : Shared ResolvedVariant
  runs : List ResolvedVariant

variable {τ : Type}

def Served.id (e : Served τ) : String := e.call.variant.id

def Call.noting (call : Call τ) (x : τ × List ResolvedVariant) :
    ResolvedVariant × τ × List ResolvedVariant :=
  let (a, y) := call.resolve x.1
  (a, y, x.2 ++ [a])

def serve (scratch : Scratch) (x : τ) (call : Call τ) : Served τ × Scratch × τ :=
  let (given, scratch, x, runs) := Cache.getOrInsert scratch call.variant.id call.noting (x, [])
  (⟨call, given, runs⟩, scratch, x)

def serveAll : List (Call τ) → Scratch → τ → List (Served τ) × Scratch × τ
  | [], scratch, x => ([], scratch, x)
  | call :: calls, scratch, x =>
    let (e, scratch, x) := serve scratch x call
    let (log, scratch, x) := serveAll calls scratch x
    (e :: log, scratch, x)

def made (log : List (Served τ)) : List (String × ResolvedVariant) :=
  log.flatMap fun e => e.runs.map fun a => (e.id, a)

@[simp] theorem made_append (log log' : List (Served τ)) :
    made (log ++ log') = made log ++ made log' := List.flatMap_append

theorem exists_of_mem_made {log : List (Served τ)} {id : String}
    (h : id ∈ (made log).map Prod.fst) : ∃ e ∈ log, e.id = id := by
  obtain ⟨p, hp, rfl⟩ := List.mem_map.1 h
  obtain ⟨e, he, hp⟩ := List.mem_flatMap.1 hp
  obtain ⟨a, _, rfl⟩ := List.mem_map.1 hp
  exact ⟨e, he, rfl⟩

/-- How a call goes behind the calls of a log, for a scratch that held `start` before them. -/
inductive Served.Follows (start : Scratch) (log : List (Served τ)) (e : Served τ) : Prop
  | stored (found : start.get? e.id = some e.given) (idle : e.runs = [])
  | repeated (new : start.get? e.id = none) {e' : Served τ} (earlier : e' ∈ log)
      (same : e'.id = e.id) (given : e.given = e'.given) (idle : e.runs = [])
  | first (new : start.get? e.id = none) (unasked : ∀ e' ∈ log, e'.id ≠ e.id) (x : τ)
      (once : e.runs = [(e.call.resolve x).1])
      (given : e.given = ⟨start.size + (made log).length, (e.call.resolve x).1⟩)

section Serve

variable {scratch : Scratch} {call : Call τ} {x : τ}

theorem serve_of_get? {h : Shared ResolvedVariant} (found : scratch.get? call.variant.id = some h) :
    serve scratch x call = (⟨call, h, []⟩, scratch, x) := by
  rw [serve, Cache.getOrInsert_of_get? found]

theorem serve_of_new (new : scratch.get? call.variant.id = none) :
    serve scratch x call =
      (⟨call, ⟨scratch.size, (call.resolve x).1⟩, [(call.resolve x).1]⟩,
        scratch.publish call.variant.id (call.resolve x).1, (call.resolve x).2) := by
  rw [serve, Cache.getOrInsert_of_new new]
  rfl

theorem get?_of_serve :
    (serve scratch x call).2.1.get? call.variant.id = some (serve scratch x call).1.given := by
  rw [serve]
  exact Cache.get?_of_getOrInsert

theorem get?_serve {id : String} {h : Shared ResolvedVariant} (found : scratch.get? id = some h) :
    (serve scratch x call).2.1.get? id = some h := by
  rw [serve]
  exact Cache.get?_getOrInsert found

end Serve

/-- A scratch that held `start` before the calls of a log, behind them. -/
structure Agrees (start : Scratch) (log : List (Served τ)) (scratch : Scratch) : Prop where
  grown : start.Extends (made log) scratch
  given : ∀ e ∈ log, scratch.get? e.id = some e.given
  follows : ∀ before e after, log = before ++ e :: after → e.Follows start before

theorem agrees_self (start : Scratch) : start.Agrees ([] : List (Served τ)) start where
  grown := .refl
  given := by simp
  follows := by simp

namespace Agrees

variable {start scratch : Scratch} {log : List (Served τ)}

theorem unasked (agrees : start.Agrees log scratch) {id : String} (new : scratch.get? id = none) :
    ∀ e ∈ log, e.id ≠ id := by
  rintro e he rfl
  cases new.symm.trans (agrees.given e he)

theorem follows_serve (agrees : start.Agrees log scratch) (x : τ) (call : Call τ) :
    (serve scratch x call).1.Follows start log := by
  cases found : scratch.get? call.variant.id with
  | none =>
    rw [serve_of_new found]
    refine .first (agrees.grown.get?_eq_none found) (agrees.unasked found) x rfl ?_
    rw [← agrees.grown.size_eq]
  | some h =>
    rw [serve_of_get? found]
    cases there : start.get? call.variant.id with
    | some h' =>
      have same := found.symm.trans (agrees.grown.get?_of_get? there)
      exact .stored (there.trans same.symm) rfl
    | none =>
      -- What was not there at first was made for an earlier call.
      obtain ⟨e, earlier, same⟩ := exists_of_mem_made (agrees.grown.mem_added found there)
      have given : scratch.get? call.variant.id = some e.given := same ▸ agrees.given e earlier
      exact .repeated there earlier same (Option.some.inj (found.symm.trans given)) rfl

theorem follows_append (agrees : start.Agrees log scratch) {e : Served τ}
    (next : e.Follows start log) :
    ∀ before e' after, log ++ [e] = before ++ e' :: after → e'.Follows start before := by
  intro before e' after split
  rcases List.eq_nil_or_concat after with rfl | ⟨after, last, rfl⟩
  · obtain ⟨rfl, same⟩ := List.append_inj' split rfl
    obtain rfl := List.singleton_inj.1 same
    exact next
  · rw [List.concat_eq_append, ← List.cons_append, ← List.append_assoc] at split
    exact agrees.follows before e' after (List.append_inj' split rfl).1

theorem grown_serve (agrees : start.Agrees log scratch) (x : τ) (call : Call τ) :
    start.Extends (made (log ++ [(serve scratch x call).1])) (serve scratch x call).2.1 := by
  rw [made_append]
  cases found : scratch.get? call.variant.id with
  | none =>
    rw [serve_of_new found]
    exact agrees.grown.publish found _
  | some h =>
    rw [serve_of_get? found]
    simpa [made] using agrees.grown

theorem serve (agrees : start.Agrees log scratch) (x : τ) (call : Call τ) :
    start.Agrees (log ++ [(Scratch.serve scratch x call).1])
      (Scratch.serve scratch x call).2.1 where
  grown := agrees.grown_serve x call
  given := by
    intro e he
    rcases List.mem_append.1 he with he | he
    · exact get?_serve (agrees.given e he)
    · obtain rfl := List.mem_singleton.1 he
      exact get?_of_serve
  follows := agrees.follows_append (agrees.follows_serve x call)

theorem serveAll (agrees : start.Agrees log scratch) (calls : List (Call τ)) (x : τ) :
    start.Agrees (log ++ (Scratch.serveAll calls scratch x).1)
      (Scratch.serveAll calls scratch x).2.1 := by
  induction calls generalizing scratch log x with
  | nil =>
    rw [Scratch.serveAll, List.append_nil]
    exact agrees
  | cons call calls ih =>
    have rest := ih (agrees.serve x call) (Scratch.serve scratch x call).2.2
    rw [List.append_assoc, List.singleton_append] at rest
    exact rest

theorem given_eq (agrees : start.Agrees log scratch) {e e' : Served τ} (he : e ∈ log)
    (he' : e' ∈ log) (same : e.id = e'.id) : e.given = e'.given :=
  Option.some.inj ((same ▸ agrees.given e he).symm.trans (agrees.given e' he'))

theorem serial_eq_iff (agrees : start.Agrees log scratch) {e e' : Served τ} (he : e ∈ log)
    (he' : e' ∈ log) : e.given.serial = e'.given.serial ↔ e.id = e'.id :=
  ⟨Cache.key_of_serial (agrees.given e he) (agrees.given e' he'),
    fun same => congrArg Shared.serial (agrees.given_eq he he' same)⟩

end Agrees

theorem calls_serveAll (calls : List (Call τ)) (scratch : Scratch) (x : τ) :
    (serveAll calls scratch x).1.map (·.call) = calls := by
  induction calls generalizing scratch x with
  | nil => rfl
  | cons call calls ih => rw [serveAll, List.map_cons, ih, serve]

end Scratch

end ArtifactSelection
