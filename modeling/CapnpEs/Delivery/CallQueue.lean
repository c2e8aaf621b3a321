import CapnpEs.Library.CyclicWindow
import CapnpEs.Library.Transition
import CapnpEs.Rpc.Calls

/-! The ring behind every queue of calls: `queue.ts` and `call-queue.ts` on their own. -/

namespace CapnpEs.Delivery

open CyclicWindow Transition
open Rpc (callQueueSize RPC_CALL_QUEUE_FULL)

class QueueStorage (σ : Type) where
  len : σ → Nat
  clear : Nat → σ → σ

structure Queue (σ : Type) where
  q : σ
  n : Nat
  start : Nat := 0
  cap : Nat

namespace Queue

variable {σ : Type} [QueueStorage σ]

def new (q : σ) (n : Nat) : Queue σ := { q := q, n := n, cap := QueueStorage.len q }

/-- `none` for the index -1 -/
def push (queue : Queue σ) : Option Nat × Queue σ :=
  if queue.n ≥ queue.cap then
    (none, queue)
  else
    (some ((queue.start + queue.n) % queue.cap), { queue with n := queue.n + 1 })

def front (queue : Queue σ) : Option Nat := if queue.n = 0 then none else some queue.start

def pop (queue : Queue σ) : Bool × Queue σ :=
  if queue.n = 0 then
    (false, queue)
  else
    (true,
      { queue with
        q := QueueStorage.clear queue.start queue.q
        start := (queue.start + 1) % queue.cap
        n := queue.n - 1 })

end Queue

variable {α : Type}

/-- A call with its parameters, or with what `paramsFunc` makes of them: it may throw. -/
inductive Call (α : Type)
  | data (params : α)
  | func (placed : Except String α)

def copyCall : Call α → Except String (Call α)
  | .data params => .ok (.data params)
  | .func placed => placed.map .data

inductive AnswerQCall (α : Type)
  | remoteCall (call : Call α) (a : Nat)
  | localCall (call : Call α) (f : Nat)
  | disembargo (embargoID embargoTarget : Nat)

structure CallQueueStorage (α : Type) where
  data : List (Option (AnswerQCall α))

instance : QueueStorage (CallQueueStorage α) where
  len storage := storage.data.length
  clear i storage := ⟨storage.data.set i none⟩

structure CallQueue (α : Type) where
  cap : Nat
  q : Queue (CallQueueStorage α)

/-- What a queue answers a call with: its fulfiller, or an `ErrorAnswer`. -/
inductive QueuedAnswer
  | fulfiller (f : Nat)
  | error (reason : String)

inductive Fate
  | delivered
  | rejected
  | passed

/-- A run of the loop of `flushTo` or `rejectAll`: the slots it popped, and whether it ended with an exception. -/
structure Consumed (α : Type) where
  done : List (AnswerQCall α × Fate)
  threw : Bool
  queue : CallQueue α

namespace CallQueue

def fill (data : List (Option (AnswerQCall α))) : Nat → List (AnswerQCall α) → List (Option (AnswerQCall α))
  | _, [] => data
  | i, slot :: slots => fill (data.set i (some slot)) (i + 1) slots

def new (cap : Nat) (initial : List (AnswerQCall α)) : CallQueue α :=
  let cap := max cap initial.length
  { cap := cap, q := .new ⟨fill (List.replicate cap none) 0 initial⟩ initial.length }

def length (c : CallQueue α) : Nat := c.q.n

def pushSlot (c : CallQueue α) (slot : AnswerQCall α) : Bool × CallQueue α :=
  match c.q.push with
  | (none, _) => (false, c)
  | (some i, q) => (true, { c with q := { q with q := ⟨q.q.data.set i (some slot)⟩ } })

def pushPreparedLocal (c : CallQueue α) (call : Call α) (f : Nat) : Bool × CallQueue α := c.pushSlot (.localCall call f)

def pushDisembargo (c : CallQueue α) (id target : Nat) : Bool × CallQueue α := c.pushSlot (.disembargo id target)

/-- `push`, where `f` is the fulfiller that it makes. -/
def push (c : CallQueue α) (call : Call α) (f : Nat) : QueuedAnswer × CallQueue α :=
  match copyCall call with
  | .error reason => (.error reason, c)
  | .ok copied =>
      match c.pushPreparedLocal copied f with
      | (false, after) => (.error RPC_CALL_QUEUE_FULL, after)
      | (true, after) => (.fulfiller f, after)

def front (c : CallQueue α) : Option (AnswerQCall α) := c.q.front.bind fun i => (c.q.q.data[i]?).join

def pop (c : CallQueue α) : CallQueue α := { c with q := c.q.pop.2 }

theorem length_pop_lt {c : CallQueue α} (nonempty : 0 < c.length) : c.pop.length < c.length := by
  unfold pop Queue.pop length at *
  rw [if_neg (by omega)]
  exact Nat.sub_lt nonempty (by omega)

/-- The loop of `flushTo` and `rejectAll`; `consume` is what they do with the slot at the front in each round, `none`
when it throws. -/
def consumeAll (consume : Nat → AnswerQCall α → Option Fate) (round : Nat) (c : CallQueue α) : Consumed α :=
  if _ : 0 < c.length then
    match c.front with
    | none => ⟨[], false, c⟩
    | some slot =>
        match consume round slot with
        | none => ⟨[], true, c⟩
        | some fate =>
            let rest := consumeAll consume (round + 1) c.pop
            { rest with done := (slot, fate) :: rest.done }
  else
    ⟨[], false, c⟩
termination_by c.length
decreasing_by exact length_pop_lt ‹0 < c.length›

/-- `target` and `handleDisembargo` say for each round whether the call returns. -/
def flushSlot (target : Nat → Bool) (handleDisembargo : Option (Nat → Bool)) (round : Nat) :
    AnswerQCall α → Option Fate
  | .localCall _ _ | .remoteCall _ _ => if target round then some .delivered else none
  | .disembargo _ _ =>
      match handleDisembargo with
      | none => some .passed
      | some handle => if handle round then some .passed else none

def flushTo (c : CallQueue α) (target : Nat → Bool) (handleDisembargo : Option (Nat → Bool)) : Consumed α :=
  c.consumeAll (flushSlot target handleDisembargo) 0

/-- `reject` of an answer may throw, `tryReject` of a fulfiller does not. -/
def rejectSlot (reject : Nat → Bool) (round : Nat) : AnswerQCall α → Option Fate
  | .localCall _ _ => some .rejected
  | .remoteCall _ _ => if reject round then some .rejected else none
  | .disembargo _ _ => some .passed

def rejectAll (c : CallQueue α) (reject : Nat → Bool) : Consumed α := c.consumeAll (rejectSlot reject) 0

def snapshot (c : CallQueue α) : List (AnswerQCall α) :=
  (List.range c.length).filterMap fun n => (c.q.q.data[(c.q.start + n) % c.q.cap]?).join

def copy (c : CallQueue α) : CallQueue α := .new c.cap c.snapshot

structure Holds (c : CallQueue α) (held : List (AnswerQCall α)) : Prop where
  cells : window c.q.q.data c.q.start c.q.n = held.map some
  size : c.q.q.data.length = c.q.cap
  cap : c.cap = c.q.cap
  fits : c.q.n ≤ c.q.cap
  start : 0 < c.q.cap → c.q.start < c.q.cap

variable {c : CallQueue α} {held : List (AnswerQCall α)}

theorem Holds.length (holds : c.Holds held) : c.length = held.length := by
  have same := congrArg List.length holds.cells
  rwa [length_window, List.length_map] at same

theorem fill_append (front rest : List (Option (AnswerQCall α))) (slots : List (AnswerQCall α))
    (fits : slots.length ≤ rest.length) :
    fill (front ++ rest) front.length slots = front ++ (slots.map some ++ rest.drop slots.length) := by
  induction slots generalizing front rest with
  | nil => rfl
  | cons slot slots ih =>
      cases rest with
      | nil => simp at fits
      | cons cell rest =>
          have placed : (front ++ cell :: rest).set front.length (some slot) = (front ++ [some slot]) ++ rest := by
            simp
          have next : front.length + 1 = (front ++ [some slot]).length := by simp
          rw [fill, placed, next, ih _ _ (Nat.le_of_succ_le_succ fits)]
          simp

theorem holds_new (cap : Nat) (initial : List (AnswerQCall α)) : (new cap initial).Holds initial := by
  have filled : fill (List.replicate (max cap initial.length) none) 0 initial =
      initial.map some ++ (List.replicate (max cap initial.length) none).drop initial.length :=
    fill_append [] _ initial (by rw [List.length_replicate]; exact Nat.le_max_right _ _)
  have size : (fill (List.replicate (max cap initial.length) none) 0 initial).length = max cap initial.length := by
    rw [filled, List.length_append, List.length_map, List.length_drop, List.length_replicate]
    omega
  refine ⟨?_, rfl, size.symm, ?_, id⟩
  · change window (fill (List.replicate (max cap initial.length) none) 0 initial) 0 initial.length = _
    rw [filled, window_start]
  · change initial.length ≤ (fill (List.replicate (max cap initial.length) none) 0 initial).length
    rw [size]
    exact Nat.le_max_right _ _

theorem Holds.snapshot (holds : c.Holds held) : c.snapshot = held := by
  have cells : c.snapshot = (window c.q.q.data c.q.start c.q.n).filterMap id := by
    unfold CallQueue.snapshot window
    rw [List.filterMap_map, holds.size]
    rfl
  rw [cells, holds.cells, List.filterMap_map]
  exact List.filterMap_some

theorem Holds.full (holds : c.Holds held) : held.length ≤ c.cap := by
  rw [← holds.length, holds.cap]
  exact holds.fits

theorem Holds.pushSlot_full (holds : c.Holds held) (full : held.length = c.cap) (slot : AnswerQCall α) :
    c.pushSlot slot = (false, c) := by
  have refused : c.q.push = (none, c.q) := if_pos (by
    have count : c.q.n = held.length := holds.length
    rw [← holds.cap, count, full])
  unfold pushSlot
  rw [refused]

theorem Holds.pushSlot (holds : c.Holds held) (room : held.length < c.cap) (slot : AnswerQCall α) :
    ∃ after, c.pushSlot slot = (true, after) ∧ after.cap = c.cap ∧ after.Holds (held ++ [slot]) := by
  have count : c.q.n = held.length := holds.length
  have free : c.q.n < c.q.cap := by
    rw [count, ← holds.cap]
    exact room
  have taken : c.q.push = (some ((c.q.start + c.q.n) % c.q.cap), { c.q with n := c.q.n + 1 }) := if_neg (by omega)
  unfold CallQueue.pushSlot
  rw [taken]
  refine ⟨_, rfl, rfl, ?_, ?_, holds.cap, free, holds.start⟩
  · have pushed : window (c.q.q.data.set ((c.q.start + c.q.n) % c.q.q.data.length) (some slot)) c.q.start (c.q.n + 1) =
        window c.q.q.data c.q.start c.q.n ++ [some slot] := window_push (holds.size ▸ free) slot
    rw [holds.size, holds.cells] at pushed
    rw [List.map_append]
    exact pushed
  · change (c.q.q.data.set _ _).length = c.q.cap
    rw [List.length_set, holds.size]

theorem Holds.front (holds : c.Holds held) : c.front = held.head? := by
  have count : c.q.n = held.length := holds.length
  unfold CallQueue.front Queue.front
  cases held with
  | nil =>
      rw [List.length_nil] at count
      rw [if_pos count, Option.bind_none, List.head?_nil]
  | cons slot rest =>
      rw [List.length_cons] at count
      have cells := holds.cells
      have inside := holds.start (by have := holds.fits; omega)
      rw [count, window_cons, List.map_cons, List.cons.injEq, holds.size, Nat.mod_eq_of_lt inside] at cells
      rw [if_neg (by omega), Option.bind_some, cells.1, List.head?_cons]

theorem Holds.pop {slot : AnswerQCall α} (holds : c.Holds (slot :: held)) :
    c.pop.Holds held ∧ c.pop.cap = c.cap := by
  have count : c.q.n = held.length + 1 := holds.length
  have fits := holds.fits
  have inside := holds.start (by omega)
  have popped : c.q.pop.2 = { c.q with
      q := ⟨c.q.q.data.set c.q.start none⟩
      start := (c.q.start + 1) % c.q.cap
      n := c.q.n - 1 } := by
    unfold Queue.pop
    rw [if_neg (by omega)]
    rfl
  have cells := holds.cells
  rw [count, window_cons, List.map_cons, List.cons.injEq] at cells
  unfold CallQueue.pop
  rw [popped]
  refine ⟨⟨?_, ?_, holds.cap, ?_, fun some => Nat.mod_lt _ some⟩, rfl⟩
  · change window (c.q.q.data.set c.q.start none) ((c.q.start + 1) % c.q.cap) (c.q.n - 1) = held.map some
    rw [← holds.size, count, Nat.add_sub_cancel, window_pop (by rw [holds.size]; exact inside)
      (by rw [holds.size]; omega), cells.2]
  · change (c.q.q.data.set _ _).length = c.q.cap
    rw [List.length_set, holds.size]
  · change c.q.n - 1 ≤ c.q.cap
    omega

def taken (consume : Nat → AnswerQCall α → Option Fate) : Nat → List (AnswerQCall α) → List (AnswerQCall α × Fate)
  | _, [] => []
  | round, slot :: rest =>
      match consume round slot with
      | none => []
      | some fate => (slot, fate) :: taken consume (round + 1) rest

variable {consume : Nat → AnswerQCall α → Option Fate} {round : Nat}

theorem taken_none {slot : AnswerQCall α} (throws : consume round slot = none) :
    taken consume round (slot :: held) = [] := by
  simp only [taken, throws]

theorem taken_some {slot : AnswerQCall α} {fate : Fate} (returns : consume round slot = some fate) :
    taken consume round (slot :: held) = (slot, fate) :: taken consume (round + 1) held := by
  simp only [taken, returns]

theorem length_taken_le (round : Nat) (held : List (AnswerQCall α)) :
    (taken consume round held).length ≤ held.length := by
  induction held generalizing round with
  | nil => exact Nat.le_refl _
  | cons slot rest ih =>
      cases found : consume round slot with
      | none =>
          rw [taken_none found]
          exact Nat.zero_le _
      | some fate =>
          rw [taken_some found]
          exact Nat.succ_le_succ (ih (round + 1))

theorem taken_inOrder (round : Nat) (held : List (AnswerQCall α)) :
    (taken consume round held).map Prod.fst ++ held.drop (taken consume round held).length = held := by
  induction held generalizing round with
  | nil => rfl
  | cons slot rest ih =>
      cases found : consume round slot with
      | none =>
          rw [taken_none found]
          rfl
      | some fate =>
          rw [taken_some found]
          exact congrArg (slot :: ·) (ih (round + 1))

theorem taken_returned {index : Nat} {slot : AnswerQCall α} {fate : Fate}
    (found : (taken consume round held)[index]? = some (slot, fate)) : consume (round + index) slot = some fate := by
  induction held generalizing round index with
  | nil => simp [taken] at found
  | cons first rest ih =>
      cases outcome : consume round first with
      | none => simp [taken_none outcome] at found
      | some which =>
          rw [taken_some outcome] at found
          cases index with
          | zero =>
              rw [List.getElem?_cons_zero, Option.some.injEq, Prod.mk.injEq] at found
              rw [← found.1, ← found.2]
              exact outcome
          | succ index =>
              rw [List.getElem?_cons_succ] at found
              have later := ih found
              rwa [Nat.add_right_comm] at later

theorem taken_atFront (less : (taken consume round held).length < held.length) :
    ∃ slot rest, held.drop (taken consume round held).length = slot :: rest ∧
      consume (round + (taken consume round held).length) slot = none := by
  induction held generalizing round with
  | nil => simp at less
  | cons first rest ih =>
      cases outcome : consume round first with
      | none =>
          rw [taken_none outcome]
          exact ⟨first, rest, rfl, outcome⟩
      | some which =>
          rw [taken_some outcome] at less ⊢
          obtain ⟨slot, more, dropped, throws⟩ := ih (Nat.lt_of_succ_lt_succ less)
          refine ⟨slot, more, dropped, ?_⟩
          rw [List.length_cons, ← Nat.add_assoc, Nat.add_right_comm]
          exact throws

theorem Holds.consumeAll (holds : c.Holds held) (consume : Nat → AnswerQCall α → Option Fate) (round : Nat) :
    (c.consumeAll consume round).done = taken consume round held ∧
    (c.consumeAll consume round).queue.Holds (held.drop (taken consume round held).length) ∧
    (c.consumeAll consume round).queue.cap = c.cap ∧
    ((c.consumeAll consume round).threw = true ↔ (taken consume round held).length < held.length) := by
  induction held generalizing c round with
  | nil =>
      have empty : ¬0 < c.length := by
        rw [holds.length]
        exact Nat.lt_irrefl 0
      rw [CallQueue.consumeAll, dif_neg empty]
      exact ⟨rfl, holds, rfl, by simp [taken]⟩
  | cons slot rest ih =>
      have nonempty : 0 < c.length := by
        rw [holds.length]
        exact Nat.succ_pos _
      have first : c.front = some slot := holds.front
      rw [CallQueue.consumeAll, dif_pos nonempty]
      simp only [first]
      cases outcome : consume round slot with
      | none =>
          rw [taken_none outcome]
          exact ⟨rfl, holds, rfl, by simp⟩
      | some fate =>
          obtain ⟨later, cap⟩ := holds.pop
          obtain ⟨done, left, same, threw⟩ := ih later (round + 1)
          rw [taken_some outcome]
          refine ⟨congrArg ((slot, fate) :: ·) done, left, same.trans cap, threw.trans ?_⟩
          simp

/-- A run of a loop, seen from the slots that were held: those that returned are gone, in order, and a slot that throws
stays in front. -/
structure Consumes (consume : Nat → AnswerQCall α → Option Fate) (held : List (AnswerQCall α)) (r : Consumed α) :
    Prop where
  inOrder : r.done.map Prod.fst ++ r.queue.snapshot = held
  returned : ∀ index slot fate, r.done[index]? = some (slot, fate) → consume index slot = some fate
  atFront : r.threw = true → ∃ slot rest, r.queue.snapshot = slot :: rest ∧ consume r.done.length slot = none
  emptied : r.threw = false → r.queue.snapshot = []

theorem Holds.consumes (holds : c.Holds held) (consume : Nat → AnswerQCall α → Option Fate) :
    Consumes consume held (c.consumeAll consume 0) := by
  obtain ⟨done, left, -, threw⟩ := holds.consumeAll consume 0
  have all : (taken consume 0 held).length ≤ held.length := length_taken_le 0 held
  refine ⟨?_, fun index slot fate found => ?_, fun stopped => ?_, fun ended => ?_⟩
  · rw [done, left.snapshot]
    exact taken_inOrder 0 held
  · rw [done] at found
    have returned := taken_returned found
    rwa [Nat.zero_add] at returned
  · rw [left.snapshot, done]
    have next := taken_atFront (threw.mp stopped)
    rwa [Nat.zero_add] at next
  · rw [left.snapshot]
    refine List.drop_eq_nil_of_le (Nat.le_of_not_lt fun less => ?_)
    rw [threw.mpr less] at ended
    contradiction

/-- A queue of at most `cap` slots, first in first out. -/
structure BoundedFifo (c : CallQueue α) (held : List (AnswerQCall α)) : Prop where
  length : c.length = held.length
  bounded : held.length ≤ c.cap
  notCopied : ∀ call f reason, copyCall call = .error reason → c.push call f = (.error reason, c)
  push : ∀ call f copied, copyCall call = .ok copied →
    (c.push call f).1 = (if held.length < c.cap then .fulfiller f else .error RPC_CALL_QUEUE_FULL) ∧
    (c.push call f).2.snapshot = (if held.length < c.cap then held ++ [.localCall copied f] else held)
  pushPreparedLocal : ∀ call f, (c.pushPreparedLocal call f).1 = decide (held.length < c.cap) ∧
    (c.pushPreparedLocal call f).2.snapshot = if held.length < c.cap then held ++ [.localCall call f] else held
  pushDisembargo : ∀ id target, (c.pushDisembargo id target).1 = decide (held.length < c.cap) ∧
    (c.pushDisembargo id target).2.snapshot = if held.length < c.cap then held ++ [.disembargo id target] else held
  flushTo : ∀ target handleDisembargo,
    Consumes (flushSlot target handleDisembargo) held (c.flushTo target handleDisembargo)
  rejectAll : ∀ reject, Consumes (rejectSlot reject) held (c.rejectAll reject)
  copy : c.copy.snapshot = held ∧ c.cap ≤ c.copy.cap

theorem Holds.pushSlot_snapshot (holds : c.Holds held) (slot : AnswerQCall α) :
    (c.pushSlot slot).1 = decide (held.length < c.cap) ∧
    (c.pushSlot slot).2.snapshot = if held.length < c.cap then held ++ [slot] else held := by
  by_cases room : held.length < c.cap
  · obtain ⟨after, pushed, -, more⟩ := holds.pushSlot room slot
    rw [pushed, if_pos room, decide_eq_true room]
    exact ⟨rfl, more.snapshot⟩
  · have full : held.length = c.cap := Nat.le_antisymm holds.full (Nat.le_of_not_lt room)
    rw [holds.pushSlot_full full, if_neg room, decide_eq_false room]
    exact ⟨rfl, holds.snapshot⟩

theorem push_notCopied {call : Call α} {reason : String} (failed : copyCall call = .error reason) (f : Nat) :
    c.push call f = (.error reason, c) := by
  unfold CallQueue.push
  rw [failed]

theorem push_copied {call copied : Call α} (fine : copyCall call = .ok copied) (f : Nat) :
    c.push call f = (if (c.pushSlot (.localCall copied f)).1 then .fulfiller f else .error RPC_CALL_QUEUE_FULL,
      (c.pushSlot (.localCall copied f)).2) := by
  unfold CallQueue.push
  rw [fine]
  change (match c.pushSlot (.localCall copied f) with
    | (false, after) => (QueuedAnswer.error RPC_CALL_QUEUE_FULL, after)
    | (true, after) => (QueuedAnswer.fulfiller f, after)) = _
  cases c.pushSlot (.localCall copied f) with
  | mk pushed after => cases pushed <;> rfl

theorem Holds.boundedFifo (holds : c.Holds held) : c.BoundedFifo held where
  length := holds.length
  bounded := holds.full
  notCopied _ f _ failed := push_notCopied failed f
  push call f copied fine := by
    obtain ⟨answer, left⟩ := holds.pushSlot_snapshot (.localCall copied f)
    rw [push_copied fine]
    refine ⟨?_, left⟩
    simp only [answer, decide_eq_true_eq]
  pushPreparedLocal call f := holds.pushSlot_snapshot (.localCall call f)
  pushDisembargo id target := holds.pushSlot_snapshot (.disembargo id target)
  flushTo target handleDisembargo := holds.consumes (flushSlot target handleDisembargo)
  rejectAll reject := holds.consumes (rejectSlot reject)
  copy := by
    unfold CallQueue.copy
    exact ⟨(holds_new _ _).snapshot.trans holds.snapshot, Nat.le_max_left _ _⟩

/-! A queue with its copies, and what became of the slots that each of them took. -/

structure Ledger (α : Type) where
  queue : CallQueue α
  accepted : List (AnswerQCall α)
  consumed : List (AnswerQCall α × Fate) := []

inductive Op (α : Type)
  | push (call : Call α) (f : Nat)
  | pushPreparedLocal (call : Call α) (f : Nat)
  | pushDisembargo (id target : Nat)
  | flushTo (target : Nat → Bool) (handleDisembargo : Option (Nat → Bool))
  | rejectAll (reject : Nat → Bool)
  | copy

namespace Ledger

/-- A push of `slot` that has ended with `result`. -/
def pushed (ledger : Ledger α) (slot : AnswerQCall α) (result : Bool × CallQueue α) : Ledger α :=
  match result with
  | (false, after) => { ledger with queue := after }
  | (true, after) => { ledger with queue := after, accepted := ledger.accepted ++ [slot] }

def settle (ledger : Ledger α) (r : Consumed α) : Ledger α :=
  { ledger with queue := r.queue, consumed := ledger.consumed ++ r.done }

/-- What an operation makes of a queue, with the copy that it returns. -/
def apply (ledger : Ledger α) : Op α → Ledger α × List (Ledger α)
  | .push call f =>
      match copyCall call, ledger.queue.push call f with
      | .ok copied, (.fulfiller _, after) =>
          ({ ledger with queue := after, accepted := ledger.accepted ++ [.localCall copied f] }, [])
      | _, (_, after) => ({ ledger with queue := after }, [])
  | .pushPreparedLocal call f => (ledger.pushed (.localCall call f) (ledger.queue.pushPreparedLocal call f), [])
  | .pushDisembargo id target => (ledger.pushed (.disembargo id target) (ledger.queue.pushDisembargo id target), [])
  | .flushTo target handleDisembargo => (ledger.settle (ledger.queue.flushTo target handleDisembargo), [])
  | .rejectAll reject => (ledger.settle (ledger.queue.rejectAll reject), [])
  | .copy => (ledger, [{ queue := ledger.queue.copy, accepted := ledger.queue.snapshot }])

/-- Nothing that was taken is lost, doubled or out of order. -/
def Balanced (ledger : Ledger α) : Prop :=
  ∃ held, ledger.queue.Holds held ∧ ledger.accepted = ledger.consumed.map Prod.fst ++ held

variable {ledger : Ledger α}

theorem Balanced.pushed (balanced : ledger.Balanced) (slot : AnswerQCall α) :
    (ledger.pushed slot (ledger.queue.pushSlot slot)).Balanced := by
  obtain ⟨held, holds, accepted⟩ := balanced
  unfold Ledger.pushed
  by_cases room : held.length < ledger.queue.cap
  · obtain ⟨after, pushed, -, more⟩ := holds.pushSlot room slot
    rw [pushed]
    refine ⟨held ++ [slot], more, ?_⟩
    rw [accepted, List.append_assoc]
  · have full : held.length = ledger.queue.cap := Nat.le_antisymm holds.full (Nat.le_of_not_lt room)
    rw [holds.pushSlot_full full]
    exact ⟨held, holds, accepted⟩

theorem Balanced.settle (balanced : ledger.Balanced) (consume : Nat → AnswerQCall α → Option Fate) :
    (ledger.settle (ledger.queue.consumeAll consume 0)).Balanced := by
  obtain ⟨held, holds, accepted⟩ := balanced
  obtain ⟨done, left, -, -⟩ := holds.consumeAll consume 0
  refine ⟨_, left, ?_⟩
  change ledger.accepted = (ledger.consumed ++ _).map Prod.fst ++ _
  rw [accepted, List.map_append, List.append_assoc, done, taken_inOrder 0 held]

theorem apply_push (call : Call α) (f : Nat) :
    ledger.apply (.push call f) = (match copyCall call with
      | .error _ => ledger
      | .ok copied => ledger.pushed (.localCall copied f) (ledger.queue.pushSlot (.localCall copied f)), []) := by
  simp only [apply, pushed]
  cases copied : copyCall call with
  | error reason => rw [push_notCopied copied]
  | ok fresh =>
      rw [push_copied copied]
      dsimp only
      cases ledger.queue.pushSlot (.localCall fresh f) with
      | mk pushed after => cases pushed <;> rfl

theorem Balanced.apply (balanced : ledger.Balanced) (op : Op α) :
    (ledger.apply op).1.Balanced ∧ ∀ copied ∈ (ledger.apply op).2, copied.Balanced := by
  cases op with
  | push call f =>
      rw [apply_push]
      refine ⟨?_, fun _ member => absurd member List.not_mem_nil⟩
      cases copyCall call with
      | error reason => exact balanced
      | ok copied => exact balanced.pushed _
  | pushPreparedLocal call f => exact ⟨balanced.pushed _, fun _ member => absurd member List.not_mem_nil⟩
  | pushDisembargo id target => exact ⟨balanced.pushed _, fun _ member => absurd member List.not_mem_nil⟩
  | flushTo target handleDisembargo => exact ⟨balanced.settle _, fun _ member => absurd member List.not_mem_nil⟩
  | rejectAll reject => exact ⟨balanced.settle _, fun _ member => absurd member List.not_mem_nil⟩
  | copy =>
      refine ⟨balanced, fun copied member => ?_⟩
      obtain rfl := List.mem_singleton.mp member
      exact ⟨_, holds_new _ _, rfl⟩

end Ledger

def step (ledgers : List (Ledger α)) (input : Nat × Op α) : Option (List (Ledger α)) :=
  ledgers[input.1]?.map fun ledger => ledgers.set input.1 (ledger.apply input.2).1 ++ (ledger.apply input.2).2

def start (cap : Nat) (initial : List (AnswerQCall α)) : List (Ledger α) :=
  [{ queue := new cap initial, accepted := initial }]

variable {ledgers after : List (Ledger α)} {cap : Nat} {initial : List (AnswerQCall α)}

theorem step_balanced {input : Nat × Op α} (balanced : ∀ ledger ∈ ledgers, ledger.Balanced)
    (taken : step ledgers input = some after) : ∀ ledger ∈ after, ledger.Balanced := by
  obtain ⟨ledger, found, rfl⟩ := Option.map_eq_some_iff.mp taken
  obtain ⟨kept, copies⟩ := (balanced ledger (List.mem_of_getElem? found)).apply input.2
  intro other member
  rcases List.mem_append.mp member with old | copied
  · rcases List.mem_or_eq_of_mem_set old with same | rfl
    · exact balanced other same
    · exact kept
  · exact copies other copied

theorem run_balanced (run : Run step (fun _ _ _ => True) (start cap initial) ledgers) :
    ∀ ledger ∈ ledgers, ledger.Balanced := by
  have started : ∀ ledger ∈ start cap initial, ledger.Balanced := by
    intro ledger member
    obtain rfl := List.mem_singleton.mp member
    exact ⟨initial, holds_new cap initial, rfl⟩
  exact run.invariant started fun _ _ _ balanced taken _ => step_balanced balanced taken

/-- The ring is a bounded list, and what a queue has taken is what has left it, in order, and then what it holds. -/
theorem callQueue_isFifo (run : Run step (fun _ _ _ => True) (start cap initial) ledgers) :
    ∀ ledger ∈ ledgers, ledger.queue.BoundedFifo ledger.queue.snapshot ∧
      ledger.accepted = ledger.consumed.map Prod.fst ++ ledger.queue.snapshot := by
  intro ledger member
  obtain ⟨held, holds, accepted⟩ := run_balanced run ledger member
  rw [holds.snapshot]
  exact ⟨holds.boundedFifo, accepted⟩

theorem callQueue_isFifo_full :
    ∃ ledgers : List (Ledger Nat), ledgers.length = 2 ∧
      ∀ ledger ∈ ledgers, ledger.queue.BoundedFifo ledger.queue.snapshot ∧
        ledger.accepted = ledger.consumed.map Prod.fst ++ ledger.queue.snapshot := by
  have inputs : ∃ ledgers, Run.follow step (start 1 [])
      [(0, .push (.data 5) 0), (0, .pushDisembargo 7 0), (0, .copy)] = some ledgers ∧ ledgers.length = 2 :=
    ⟨_, rfl, rfl⟩
  obtain ⟨ledgers, followed, count⟩ := inputs
  exact ⟨ledgers, count, callQueue_isFifo (.of_follow .start followed)⟩

/-- An empty queue refuses a call whose parameters cannot be placed. -/
theorem push_refused_by_empty :
    ¬∀ (cap : Nat) (initial : List (AnswerQCall Nat)) (ledgers : List (Ledger Nat)) (ledger : Ledger Nat)
      (call : Call Nat) (f : Nat), Run step (fun _ _ _ => True) (start cap initial) ledgers → ledger ∈ ledgers →
        ((∃ reason, (ledger.queue.push call f).1 = .error reason) ↔ ledger.queue.length = ledger.queue.cap) := by
  intro always
  have full := (always callQueueSize [] _ { queue := new callQueueSize [], accepted := [] }
    (.func (.error "no parameters")) 0 .start List.mem_cons_self).mp ⟨"no parameters", rfl⟩
  contradiction

end CallQueue

end CapnpEs.Delivery
