/-
**Requests that call a remote system.**

A request works in a database transaction and sends calls to a remote system on the way. Where it
raises, or the remote system refuses one of its calls, the transaction is rolled back and the calls
accepted by then have been made. `Calls C α` is what a request sends when nothing is refused, in order,
and how it ends: with a value, or with a raise after the last of them.

* `Calls.bind` — one request after another; `send`, `check`, `ofOption` — the steps.
* `Stops` — the request ends in an error after so many accepted calls.
* `harmless_iff` — **a request that fails is without a trace exactly when** it sends nothing, or a single
  call with nothing after it that raises — provided the calls have an effect.
* `Settled`, `settled_iff` — **only the last call changes anything**, so the state is the first one
  wherever the calls break off.
* `batches` — a list cut in pieces, as `range(0, len(keys), size)` cuts it.
-/

import Mathlib.Data.List.Basic
import Mathlib.Data.List.Flatten
import Mathlib.Algebra.Order.Group.Nat

namespace SuiteCloud.Library

variable {C α β : Type*}

/-- The calls a request sends, and how it ends. -/
structure Calls (C α : Type*) where
  sent : List C
  /-- `none` is a raise. -/
  ends : Option α

namespace Calls

/-- A request that is done. -/
def done (value : α) : Calls C α := ⟨[], some value⟩

/-- Calls, one after the other. -/
def send (calls : List C) : Calls C Unit := ⟨calls, some ()⟩

/-- A value that may be missing, which raises. -/
def ofOption (value : Option α) : Calls C α := ⟨[], value⟩

/-- A check, which raises where it fails. -/
def check (passes : Bool) : Calls C Unit := ⟨[], if passes then some () else none⟩

/-- A request, and what follows it. -/
def bind (first : Calls C α) (next : α → Calls C β) : Calls C β :=
  match first.ends with
  | none => ⟨first.sent, none⟩
  | some value => ⟨first.sent ++ (next value).sent, (next value).ends⟩

instance : Monad (Calls C) where
  pure := done
  bind := bind

variable {first : Calls C α} {next : α → Calls C β}

@[simp] theorem ofOption_none_bind : (ofOption none : Calls C α).bind next = ⟨[], none⟩ := rfl

@[simp] theorem ofOption_some_bind (value : α) : (ofOption (some value)).bind next = next value := rfl

@[simp] theorem done_bind (value : α) : (done value).bind next = next value := rfl

theorem bind_done (turn : α → β) :
    (first.bind fun value => done (turn value)) = ⟨first.sent, first.ends.map turn⟩ := by
  rw [bind]
  cases ending : first.ends with
  | none => rfl
  | some value => simp only [done, List.append_nil, Option.map_some]

theorem send_bind_done (calls : List C) (value : β) :
    (send calls).bind (fun _ => done value) = ⟨calls, some value⟩ := by
  simp only [send, bind, done, List.append_nil]

theorem bind_of_ends {value : α} (ending : first.ends = some value) :
    first.bind next = ⟨first.sent ++ (next value).sent, (next value).ends⟩ := by
  rw [bind, ending]

/-- A request that is not broken off: neither part is. -/
theorem ends_bind_eq_some {value : β} :
    (first.bind next).ends = some value ↔
      ∃ middle, first.ends = some middle ∧ (next middle).ends = some value := by
  rw [bind]
  cases ending : first.ends with
  | none => simp
  | some middle => simp

/-- **The request ends in an error** after so many calls were accepted: the next one is refused, or
there is none and it raises. -/
def Stops (calls : Calls C α) (accepted : ℕ) : Prop :=
  accepted < calls.sent.length ∨ (accepted = calls.sent.length ∧ calls.ends = none)

/-- **A failed request leaves no trace exactly when** it sends nothing, or one call and does not raise
after it: where the calls accepted are never without effect. -/
theorem harmless_iff {R : Type*} {calls : Calls C α} (after : List C → R) {before : R}
    (nothing : after [] = before)
    (effective : ∀ n, 0 < n → n ≤ calls.sent.length → after (calls.sent.take n) ≠ before) :
    (∀ n, calls.Stops n → after (calls.sent.take n) = before) ↔
      calls.sent = [] ∨ (calls.sent.length = 1 ∧ calls.ends ≠ none) := by
  constructor
  · intro harmless
    by_cases few : calls.sent.length ≤ 1
    · rcases Nat.le_one_iff_eq_zero_or_eq_one.mp few with none | one
      · exact Or.inl (List.length_eq_zero_iff.mp none)
      · refine Or.inr ⟨one, fun raises => ?_⟩
        exact effective 1 Nat.one_pos one.ge (harmless 1 (Or.inr ⟨one.symm, raises⟩))
    · have two : 1 < calls.sent.length := Nat.lt_of_not_le few
      exact absurd (harmless 1 (Or.inl two)) (effective 1 Nat.one_pos two.le)
  · rintro (none | ⟨one, ends⟩) n stops
    · rw [none, List.take_nil]
      exact nothing
    · rcases stops with early | ⟨-, raises⟩
      · obtain rfl : n = 0 := by omega
        exact nothing
      · exact absurd raises ends

end Calls

/-! ### Calls some of which change nothing -/

/-- Every call but the last leaves the state it starts from. -/
def Settled {S : Type*} (act : S → C → S) (start : S) (calls : List C) : Prop :=
  ∀ call ∈ calls.dropLast, act start call = start

section Settled

variable {S : Type*} {act : S → C → S} {start : S} {calls rest : List C}

theorem settled_nil : Settled act start [] := fun _ member => nomatch member

theorem settled_singleton (call : C) : Settled act start [call] := fun _ member => nomatch member

/-- A call with others after it must leave the state. -/
theorem settled_cons {call : C} : Settled act start (call :: rest) ↔
    (rest = [] ∨ act start call = start) ∧ Settled act start rest := by
  cases rest with
  | nil => simp only [settled_nil, settled_singleton, true_or, and_self]
  | cons second rest =>
    unfold Settled
    rw [List.dropLast_cons_cons, List.forall_mem_cons]
    simp only [List.cons_ne_nil, false_or]

/-- **The state is the first one wherever the calls break off, exactly when** only the last call
changes it. -/
theorem settled_iff :
    Settled act start calls ↔ ∀ n < calls.length, (calls.take n).foldl act start = start := by
  induction calls with
  | nil => simp [Settled]
  | cons call rest ih =>
    rw [settled_cons, ih]
    constructor
    · rintro ⟨first, later⟩ n short
      cases n with
      | zero => rfl
      | succ n =>
        have inside : n < rest.length := Nat.lt_of_succ_lt_succ short
        have quiet := first.resolve_left (List.ne_nil_of_length_pos (Nat.zero_lt_of_lt inside))
        rw [List.take_succ_cons, List.foldl_cons, quiet]
        exact later n inside
    · intro broken
      have first : rest = [] ∨ act start call = start := by
        refine or_iff_not_imp_left.mpr fun more => broken 1 ?_
        exact Nat.succ_lt_succ (List.length_pos_of_ne_nil more)
      refine ⟨first, fun n short => ?_⟩
      have quiet := first.resolve_left (List.ne_nil_of_length_pos (Nat.zero_lt_of_lt short))
      have later := broken (n + 1) (Nat.succ_lt_succ short)
      rwa [List.take_succ_cons, List.foldl_cons, quiet] at later

/-- Calls with others after them must all leave the state. -/
theorem settled_append : Settled act start (calls ++ rest) ↔
    ((rest = [] ∧ Settled act start calls) ∨ ∀ call ∈ calls, act start call = start) ∧
      Settled act start rest := by
  by_cases none : rest = []
  · subst none
    rw [List.append_nil]
    refine ⟨fun settled => ⟨.inl ⟨rfl, settled⟩, settled_nil⟩, ?_⟩
    rintro ⟨⟨-, settled⟩ | quiet, -⟩
    · exact settled
    · exact fun call member => quiet call (List.dropLast_subset calls member)
  · unfold Settled
    rw [List.dropLast_append_of_ne_nil none, List.forall_mem_append]
    simp [none]

/-- A call that leaves the state, before others. -/
theorem settled_cons_of_quiet {call : C} (quiet : act start call = start) :
    Settled act start (call :: rest) ↔ Settled act start rest := by
  rw [settled_cons, and_iff_right (Or.inr quiet)]

end Settled

/-! ### Batches -/

/-- `keys[start : start + size]` for `start in range(0, len(keys), size)`. -/
def batches (size : ℕ) (keys : List α) : List (List α) :=
  (List.range ((keys.length + size - 1) / size)).map fun i => (keys.drop (i * size)).take size

variable {size : ℕ} {keys : List α}

theorem length_batches : (batches size keys).length = (keys.length + size - 1) / size := by
  rw [batches, List.length_map, List.length_range]

theorem flatten_take_drop (n : ℕ) :
    ((List.range n).map fun i => (keys.drop (i * size)).take size).flatten = keys.take (n * size) := by
  induction n with
  | zero => simp
  | succ n ih =>
    rw [List.range_succ, List.map_append, List.flatten_append, ih, List.map_singleton,
      List.flatten_singleton, Nat.succ_mul, List.take_add]

/-- **The batches make up the list.** -/
theorem flatten_batches (positive : 0 < size) : (batches size keys).flatten = keys := by
  rw [batches, flatten_take_drop]
  refine List.take_of_length_le ?_
  have := Nat.div_add_mod (keys.length + size - 1) size
  have := Nat.mod_lt (keys.length + size - 1) positive
  rw [Nat.mul_comm]
  omega

/-- No batch is empty. -/
theorem batches_ne_nil (positive : 0 < size) {batch : List α} (member : batch ∈ batches size keys) :
    batch ≠ [] := by
  rw [batches, List.mem_map] at member
  obtain ⟨i, inside, rfl⟩ := member
  rw [List.mem_range] at inside
  have room : i * size < keys.length := by
    have least : (i + 1) * size ≤ keys.length + size - 1 :=
      (Nat.mul_le_mul_right size inside).trans (Nat.div_mul_le_self _ _)
    rw [Nat.succ_mul] at least
    omega
  rw [← List.length_pos_iff, List.length_take, List.length_drop]
  omega

end SuiteCloud.Library
