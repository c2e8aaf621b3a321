import CapnpEs.Rpc.Protocol
import Mathlib.Data.List.Basic

/-! `LocalAnswerClient`: a capability of an answer that is still to come. -/

namespace CapnpEs.Delivery

open Rpc (PointerEnd RPC_NULL_CLIENT)

structure AnswerResult where
  -- where the transform ends, or what the walk throws
  pointer : Except String PointerEnd
  -- which slots of the capability table hold a client
  present : Nat → Bool

inductive AnswerOutcome
  | fulfilled (result : AnswerResult)
  | rejected (reason : String)

inductive Returned
  -- the answer of the client in a slot of the table
  | forwarded (slot : Nat)
  | rejected (reason : String)
  -- a new fulfiller that nothing holds
  | pending
  | threw
  deriving DecidableEq

structure LocalAnswerClient where
  -- `a.done`, with `a.obj` and `a.err`
  outcome : Option AnswerOutcome := none
  -- the calls that clients of the table have received, each with the slot
  received : List (Nat × Nat) := []
  returned : List (Nat × Returned) := []

namespace LocalAnswerClient

/-- `clientFromResolution(transform, obj, err).call(call)`; the type of the pointer is not looked at. -/
def callResolution : AnswerOutcome → Returned
  | .rejected reason => .rejected reason
  | .fulfilled result =>
      match result.pointer with
      | .error _ => .threw
      | .ok found =>
          if result.present found.getInterfacePointer then .forwarded found.getInterfacePointer
          else .rejected RPC_NULL_CLIENT

def receipt (call : Nat) : Returned → List (Nat × Nat)
  | .forwarded slot => [(slot, call)]
  | _ => []

def call (s : LocalAnswerClient) (call : Nat) : LocalAnswerClient :=
  match s.outcome with
  | none => { s with returned := s.returned ++ [(call, .pending)] }
  | some outcome =>
      { s with
        returned := s.returned ++ [(call, callResolution outcome)]
        received := s.received ++ receipt call (callResolution outcome) }

/-- `AnswerEntry.fulfill` and `AnswerEntry.reject`, as far as the client sees them. -/
def settle (s : LocalAnswerClient) (outcome : AnswerOutcome) : LocalAnswerClient := { s with outcome := some outcome }

def run (before : List Nat) (outcome : AnswerOutcome) (after : List Nat) : LocalAnswerClient :=
  after.foldl call ((before.foldl call {}).settle outcome)

/-- The slot of the capability that the transform yields, if it yields one. -/
def capability : AnswerOutcome → Option Nat
  | .fulfilled result => (result.pointer.toOption.bind PointerEnd.fromPointer).filter result.present
  | .rejected _ => none

/-- The calls reach the capability in order; where there is none, each is rejected. -/
def Accounted (s : LocalAnswerClient) (outcome : AnswerOutcome) (calls : List Nat) : Prop :=
  match capability outcome with
  | some capId => s.received = calls.map fun call => (capId, call)
  | none => s.returned.map Prod.fst = calls ∧ ∀ entry ∈ s.returned, ∃ reason, entry.2 = .rejected reason

/-- The walk throws, or ends at a pointer that is no capability and whose upper half is the number of one. -/
def Strays : AnswerOutcome → Prop
  | .fulfilled { pointer := .error _, .. } => True
  | .fulfilled { pointer := .ok (.other upper), present } => present upper = true
  | _ => False

theorem calls_pending (calls : List Nat) (s : LocalAnswerClient) (undone : s.outcome = none) :
    calls.foldl call s = { s with returned := s.returned ++ calls.map fun call => (call, .pending) } := by
  induction calls generalizing s with
  | nil => simp
  | cons first calls ih =>
      have turn : s.call first = { s with returned := s.returned ++ [(first, .pending)] } := by
        rw [call, undone]
      have rest := ih (s.call first) (by rw [turn]; exact undone)
      rw [List.foldl_cons, rest, turn]
      simp

theorem calls_done (calls : List Nat) (s : LocalAnswerClient) {outcome : AnswerOutcome}
    (done : s.outcome = some outcome) : calls.foldl call s = { s with
      returned := s.returned ++ calls.map fun call => (call, callResolution outcome)
      received := s.received ++ calls.flatMap fun call => receipt call (callResolution outcome) } := by
  induction calls generalizing s with
  | nil => simp
  | cons first calls ih =>
      have turn : s.call first = { s with
          returned := s.returned ++ [(first, callResolution outcome)]
          received := s.received ++ receipt first (callResolution outcome) } := by
        rw [call, done]
      have rest := ih (s.call first) (by rw [turn]; exact done)
      rw [List.foldl_cons, rest, turn]
      simp

theorem run_eq (before : List Nat) (outcome : AnswerOutcome) (after : List Nat) : run before outcome after =
    { outcome := some outcome
      received := after.flatMap fun call => receipt call (callResolution outcome)
      returned := before.map (fun call => (call, .pending)) ++
        after.map fun call => (call, callResolution outcome) } := by
  unfold run
  rw [calls_pending before {} rfl, calls_done after _ rfl]
  simp [settle]

section none

variable {outcome : AnswerOutcome} (before after : List Nat)

theorem accounted_none (missing : capability outcome = none) :
    (run before outcome after).Accounted outcome (before ++ after) ↔
      before = [] ∧ (after = [] ∨ ∃ reason, callResolution outcome = .rejected reason) := by
  have names : (before.map (fun call => (call, Returned.pending)) ++
      after.map fun call => (call, callResolution outcome)).map Prod.fst = before ++ after := by
    simp [Function.comp_def]
  rw [run_eq, Accounted, missing]
  dsimp only
  rw [names]
  constructor
  · rintro ⟨_, all⟩
    constructor
    · cases before with
      | nil => rfl
      | cons first calls =>
          obtain ⟨_, rejected⟩ := all (first, .pending) (by simp)
          cases rejected
    · cases after with
      | nil => exact Or.inl rfl
      | cons first calls => exact Or.inr (all (first, callResolution outcome) (by simp))
  · rintro ⟨rfl, fine⟩
    refine ⟨rfl, ?_⟩
    intro entry member
    rcases fine with rfl | rejected
    · cases member
    · obtain ⟨call, _, rfl⟩ := List.mem_map.mp (by simpa using member)
      exact rejected

theorem accounted_some {capId : Nat} (found : capability outcome = some capId)
    (forwards : callResolution outcome = .forwarded capId) :
    (run before outcome after).Accounted outcome (before ++ after) ↔ before = [] := by
  rw [run_eq, Accounted, found]
  dsimp only
  rw [forwards]
  have received : (after.flatMap fun call => receipt call (.forwarded capId)) = after.map fun call => (capId, call) := by
    exact (List.map_eq_flatMap ..).symm
  rw [received, List.map_append]
  simp

end none

end LocalAnswerClient

end CapnpEs.Delivery
