import CapnpEs.Library.CallTree
import CapnpEs.Rpc.Calls

/-!
`ImportClient` and `PromiseExportClient`, each on its own: a queue of calls in front of a client that may throw and
may call back. A call is a tree that says what its target does.
-/

namespace CapnpEs.Delivery

open CallTree

open Rpc (callQueueSize)

structure QueueingClient (α : Type) where
  closed : Bool := false
  -- whether there is a client to forward to
  resolved : Bool := false
  embargoId : Option Nat := none
  queue : List (CallTree α) := []
  -- the calls that were taken on, in the order they were made
  accepted : List α := []
  -- what the client behind this one has been called with
  received : List α := []
  -- the calls that went out on the connection
  asked : List α := []

namespace QueueingClient

variable {α : Type}

/-- `CallQueue.push` -/
def push (c : QueueingClient α) (tree : CallTree α) : QueueingClient α :=
  if c.queue.length < callQueueSize then
    { c with queue := c.queue ++ [tree], accepted := c.accepted ++ [tree.call] }
  else
    c

mutual

/-- `call` of both classes, which differ in when a call has to wait. -/
def call (waits : Bool → Bool → Bool) : CallTree α → QueueingClient α → QueueingClient α
  | .mk x throws within, c =>
      if c.closed then
        c
      else if waits c.embargoId.isSome c.resolved then
        c.push (.mk x throws within)
      else if c.resolved then
        callAll waits within { c with accepted := c.accepted ++ [x], received := c.received ++ [x] }
      else
        { c with accepted := c.accepted ++ [x], asked := c.asked ++ [x] }

/-- The calls that a target makes one after the other while it takes a call. -/
def callAll (waits : Bool → Bool → Bool) : List (CallTree α) → QueueingClient α → QueueingClient α
  | [], c => c
  | tree :: trees, c => callAll waits trees (call waits tree c)

end

/-- `CallQueue.flushTo`, and whether it ended normally. A call leaves the queue once its target has returned. -/
def flushTo (waits : Bool → Bool → Bool) : Nat → QueueingClient α → Bool × QueueingClient α
  | 0, c => (true, c)
  | turns + 1, c =>
      match c.queue with
      | [] => (true, c)
      | tree :: _ =>
          let taken := callAll waits tree.within { c with received := c.received ++ [tree.call] }
          if tree.throws then
            (false, taken)
          else
            flushTo waits turns { taken with queue := taken.queue.tail }

/-- Every call is flushed at most once, also those that are made meanwhile. -/
def flush (waits : Bool → Bool → Bool) (c : QueueingClient α) : Bool × QueueingClient α :=
  flushTo waits (trails c.queue).length c

end QueueingClient

namespace ImportClient

variable {α : Type}

def waits (embargoed resolved : Bool) : Bool := embargoed && resolved

def call (tree : CallTree α) (c : QueueingClient α) : QueueingClient α := c.call waits tree

def liftEmbargo (id : Nat) (c : QueueingClient α) : Bool × QueueingClient α :=
  if c.embargoId = some id then
    if c.resolved then
      QueueingClient.flush waits { c with embargoId := none }
    else
      (true, { c with embargoId := none })
  else
    (true, c)

end ImportClient

namespace PromiseExportClient

variable {α : Type}

def waits (_embargoed resolved : Bool) : Bool := !resolved

def call (tree : CallTree α) (c : QueueingClient α) : QueueingClient α := c.call waits tree

def resolve (c : QueueingClient α) : Bool × QueueingClient α :=
  if c.closed then
    (true, c)
  else
    QueueingClient.flush waits { c with resolved := true }

def reject (c : QueueingClient α) : QueueingClient α := { c with queue := [] }

def close (c : QueueingClient α) : QueueingClient α :=
  if c.closed then c else reject { c with closed := true }

end PromiseExportClient

namespace QueueingClient

variable {α : Type} {waits : Bool → Bool → Bool} {c : QueueingClient α}

structure Open (waits : Bool → Bool → Bool) (c : QueueingClient α) : Prop where
  unclosed : c.closed = false
  resolved : c.resolved = true
  passes : waits c.embargoId.isSome c.resolved = false

def passOn (c : QueueingClient α) (made delivered : List α) : QueueingClient α :=
  { c with accepted := c.accepted ++ made, received := c.received ++ delivered }

mutual

theorem call_open (tree : CallTree α) (c : QueueingClient α) (isOpen : c.Open waits) :
    call waits tree c = c.passOn tree.trail tree.trail := by
  cases tree with
  | mk x throws within =>
      obtain ⟨unclosed, resolved, passes⟩ := isOpen
      have rest := callAll_open within { c with accepted := c.accepted ++ [x], received := c.received ++ [x] }
        ⟨unclosed, resolved, passes⟩
      rw [call, unclosed, if_neg Bool.false_ne_true, passes, if_neg Bool.false_ne_true, resolved, if_pos rfl]
      simpa [passOn, trail, resolved, unclosed] using rest

theorem callAll_open (trees : List (CallTree α)) (c : QueueingClient α) (isOpen : c.Open waits) :
    callAll waits trees c = c.passOn (trails trees) (trails trees) := by
  cases trees with
  | nil => simp [callAll, passOn, trails]
  | cons tree trees =>
      have first := call_open tree c isOpen
      have rest := callAll_open trees (c.passOn tree.trail tree.trail) ⟨isOpen.unclosed, isOpen.resolved, isOpen.passes⟩
      rw [callAll, first, rest]
      simp [passOn, trails, List.append_assoc]

end

/-- What a flush leaves in the queue: nothing, or the call that has thrown and what is behind it. -/
def stuck : List (CallTree α) → List (CallTree α)
  | [] => []
  | tree :: trees => if tree.throws then tree :: trees else stuck trees

theorem flushTo_open {turns : Nat} (isOpen : c.Open waits) (enough : c.queue.length ≤ turns) :
    flushTo waits turns c = ((stuck c.queue).isEmpty,
      { c.passOn ((reached c.queue).flatMap inner) (trails (reached c.queue)) with queue := stuck c.queue }) := by
  induction turns generalizing c with
  | zero =>
      obtain ⟨closed, resolved, embargoId, queue, accepted, received, asked⟩ := c
      have empty : queue = [] := List.length_eq_zero_iff.mp (Nat.le_zero.mp enough)
      subst empty
      simp [flushTo, stuck, reached, trails, passOn]
  | succ turns ih =>
      obtain ⟨closed, resolved, embargoId, queue, accepted, received, asked⟩ := c
      cases queue with
      | nil => simp [flushTo, stuck, reached, trails, passOn]
      | cons tree trees =>
          let begun : QueueingClient α :=
            ⟨closed, resolved, embargoId, tree :: trees, accepted, received ++ [tree.call], asked⟩
          have taken : callAll waits tree.within begun = begun.passOn tree.inner tree.inner :=
            callAll_open tree.within begun ⟨isOpen.unclosed, isOpen.resolved, isOpen.passes⟩
          have turn : flushTo waits (turns + 1) ⟨closed, resolved, embargoId, tree :: trees, accepted, received, asked⟩ =
              if tree.throws then (false, begun.passOn tree.inner tree.inner)
              else flushTo waits turns { begun.passOn tree.inner tree.inner with queue := trees } := by
            change (if tree.throws then (false, callAll waits tree.within begun) else flushTo waits turns
              { callAll waits tree.within begun with queue := (callAll waits tree.within begun).queue.tail }) = _
            rw [taken]
            rfl
          rw [turn, stuck, reached]
          cases throws : tree.throws with
          | true => simp [begun, passOn, trails, trail_eq]
          | false =>
              have fits : trees.length ≤ turns := Nat.le_of_succ_le_succ enough
              have rest := ih (c := { begun.passOn tree.inner tree.inner with queue := trees })
                ⟨isOpen.unclosed, isOpen.resolved, isOpen.passes⟩ fits
              simpa [begun, passOn, trails, trail_eq] using rest

theorem length_le_trails (trees : List (CallTree α)) : trees.length ≤ (trails trees).length := by
  induction trees with
  | nil => exact Nat.le_refl 0
  | cons tree trees ih =>
      rw [trails, trail_eq, List.length_cons, List.length_append, List.length_cons]
      omega

theorem flush_open (isOpen : c.Open waits) :
    flush waits c = ((stuck c.queue).isEmpty,
      { c.passOn ((reached c.queue).flatMap inner) (trails (reached c.queue)) with queue := stuck c.queue }) :=
  flushTo_open isOpen (length_le_trails c.queue)

end QueueingClient

end CapnpEs.Delivery
