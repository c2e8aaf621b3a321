import CapnpEs.Delivery.QueueingClients
import CapnpEs.Library.Transition

/-! A promise export and its entry in the table, from the first call to the last. -/

namespace CapnpEs.Delivery

open CallTree Transition

structure PromiseExport (α : Type) where
  -- `entry.settled`
  settled : Bool := false
  client : QueueingClient α := {}

inductive PromiseInput (α : Type) where
  | call (tree : CallTree α)
  | resolve
  | reject
  | close

namespace PromiseExport

variable {α : Type}

def resolveExportPromiseCap (s : PromiseExport α) : PromiseExport α :=
  if s.settled then s else { settled := true, client := (PromiseExportClient.resolve s.client).2 }

def resolveExportPromiseException (s : PromiseExport α) : PromiseExport α :=
  if s.settled then s else { settled := true, client := PromiseExportClient.reject s.client }

def next (s : PromiseExport α) : PromiseInput α → PromiseExport α
  | .call tree => { s with client := PromiseExportClient.call tree s.client }
  | .resolve => s.resolveExportPromiseCap
  | .reject => s.resolveExportPromiseException
  | .close => { s with client := PromiseExportClient.close s.client }

def step (s : PromiseExport α) (input : PromiseInput α) : Option (PromiseExport α) := some (s.next input)

/-- Once the promise is settled or its client closed, no call waits, and none will: it is forwarded or fails. -/
def HoardsNone (s : PromiseExport α) : Prop :=
  s.settled = true ∨ s.client.closed = true →
    s.client.queue = [] ∧ (s.client.closed = true ∨ s.client.resolved = true)

/-- The promise is rejected only after its client is closed, and its target takes the calls that wait. -/
def Sound (s : PromiseExport α) : PromiseInput α → Prop
  | .resolve => s.settled = false → s.client.closed = false → ∀ tree ∈ s.client.queue, tree.throws = false
  | .reject => s.settled = false → s.client.closed = true
  | _ => True

structure Invariant (s : PromiseExport α) : Prop where
  hoardsNone : s.HoardsNone
  unresolved : s.settled = false → s.client.resolved = false

theorem stuck_nil_iff (queue : List (CallTree α)) :
    QueueingClient.stuck queue = [] ↔ ∀ tree ∈ queue, tree.throws = false := by
  induction queue with
  | nil => simp [QueueingClient.stuck]
  | cons tree trees ih =>
      rw [QueueingClient.stuck]
      cases throws : tree.throws with
      | true => simp [throws]
      | false => simp [throws, ih]

theorem call_queue {c : QueueingClient α} (tree : CallTree α) (ends : c.closed = true ∨ c.resolved = true) :
    (PromiseExportClient.call tree c).queue = c.queue ∧ (PromiseExportClient.call tree c).closed = c.closed ∧
      (PromiseExportClient.call tree c).resolved = c.resolved := by
  unfold PromiseExportClient.call
  cases closed : c.closed with
  | true =>
      cases tree with
      | mk x throws within => simp [QueueingClient.call, closed]
  | false =>
      have resolved : c.resolved = true := by
        rw [closed] at ends
        exact ends.resolve_left Bool.false_ne_true
      rw [QueueingClient.call_open tree c ⟨closed, resolved, by rw [resolved]; rfl⟩]
      exact ⟨rfl, closed, rfl⟩

theorem call_flags {c : QueueingClient α} (tree : CallTree α) :
    (PromiseExportClient.call tree c).closed = c.closed ∧ (PromiseExportClient.call tree c).resolved = c.resolved := by
  by_cases ends : c.closed = true ∨ c.resolved = true
  · exact (call_queue tree ends).2
  · obtain ⟨unclosed, unresolved⟩ := not_or.mp ends
    have pushes : PromiseExportClient.call tree c = c.push tree := by
      cases tree with
      | mk x throws within => simp [PromiseExportClient.call, QueueingClient.call, PromiseExportClient.waits, unclosed,
          unresolved]
    rw [pushes]
    unfold QueueingClient.push
    split
    · exact ⟨rfl, rfl⟩
    · exact ⟨rfl, rfl⟩

theorem resolve_eq {c : QueueingClient α} (unclosed : c.closed = false) :
    (PromiseExportClient.resolve c).2.queue = QueueingClient.stuck c.queue ∧
      (PromiseExportClient.resolve c).2.closed = false ∧ (PromiseExportClient.resolve c).2.resolved = true := by
  unfold PromiseExportClient.resolve
  rw [unclosed, if_neg Bool.false_ne_true, QueueingClient.flush_open ⟨rfl, rfl, rfl⟩]
  exact ⟨rfl, rfl, rfl⟩

theorem next_hoardsNone_iff {s : PromiseExport α} (invariant : s.Invariant) (input : PromiseInput α) :
    (s.next input).HoardsNone ↔ s.Sound input := by
  obtain ⟨hoardsNone, unresolved⟩ := invariant
  cases input with
  | call tree =>
      refine iff_of_true ?_ trivial
      intro ended
      have flags := call_flags (c := s.client) tree
      have before : s.settled = true ∨ s.client.closed = true := ended.imp_right fun closed => flags.1.symm.trans closed
      obtain ⟨empty, ends⟩ := hoardsNone before
      obtain ⟨queue, closed, resolved⟩ := call_queue tree ends
      exact ⟨queue.trans empty, ends.imp closed.trans resolved.trans⟩
  | close =>
      refine iff_of_true ?_ trivial
      intro _
      change (PromiseExportClient.close s.client).queue = [] ∧ ((PromiseExportClient.close s.client).closed = true ∨ _)
      unfold PromiseExportClient.close
      split
      · rename_i closed
        exact ⟨(hoardsNone (Or.inr closed)).1, Or.inl closed⟩
      · exact ⟨rfl, Or.inl rfl⟩
  | resolve =>
      change (s.resolveExportPromiseCap).HoardsNone ↔ _
      unfold resolveExportPromiseCap
      cases settled : s.settled with
      | true =>
          rw [if_pos rfl]
          exact iff_of_true hoardsNone fun unsettled => by cases settled.symm.trans unsettled
      | false =>
          rw [if_neg Bool.false_ne_true]
          cases closed : s.client.closed with
          | true =>
              have same : PromiseExportClient.resolve s.client = (true, s.client) := by
                rw [PromiseExportClient.resolve, if_pos closed]
              rw [same]
              refine iff_of_true (fun _ => ⟨(hoardsNone (Or.inr closed)).1, Or.inl closed⟩) ?_
              intro _ unclosed
              cases closed.symm.trans unclosed
          | false =>
              obtain ⟨queue, _, resolved⟩ := resolve_eq closed
              constructor
              · intro holds _ _
                exact (stuck_nil_iff _).mp (queue.symm.trans (holds (Or.inl rfl)).1)
              · intro sound _
                exact ⟨queue.trans ((stuck_nil_iff _).mpr (sound settled closed)), Or.inr resolved⟩
  | reject =>
      change (s.resolveExportPromiseException).HoardsNone ↔ _
      unfold resolveExportPromiseException
      cases settled : s.settled with
      | true =>
          rw [if_pos rfl]
          exact iff_of_true hoardsNone fun unsettled => by cases settled.symm.trans unsettled
      | false =>
          rw [if_neg Bool.false_ne_true]
          constructor
          · intro holds _
            rcases (holds (Or.inl rfl)).2 with closed | resolved
            · exact closed
            · cases (unresolved settled).symm.trans resolved
          · intro sound _
            exact ⟨rfl, Or.inl (sound settled)⟩

theorem Invariant.next {s : PromiseExport α} (invariant : s.Invariant) {input : PromiseInput α}
    (sound : s.Sound input) : (s.next input).Invariant := by
  refine ⟨(next_hoardsNone_iff invariant input).mpr sound, ?_⟩
  intro unsettled
  cases input with
  | call tree => exact (call_flags tree).2.trans (invariant.unresolved unsettled)
  | close =>
      have unresolved := invariant.unresolved unsettled
      change (PromiseExportClient.close s.client).resolved = false
      unfold PromiseExportClient.close
      split
      · exact unresolved
      · exact unresolved
  | resolve =>
      change (s.resolveExportPromiseCap).settled = false at unsettled
      unfold resolveExportPromiseCap at unsettled
      split at unsettled
      · rename_i settled
        cases settled.symm.trans unsettled
      · cases unsettled
  | reject =>
      change (s.resolveExportPromiseException).settled = false at unsettled
      unfold resolveExportPromiseException at unsettled
      split at unsettled
      · rename_i settled
        cases settled.symm.trans unsettled
      · cases unsettled

/-- Two calls wait, the target takes them and makes one itself, and another call comes later. -/
def promised : List (PromiseInput Nat) :=
  [.call (.mk 0 false []), .call (.mk 1 false [.mk 2 false []]), .resolve, .call (.mk 3 false [])]

end PromiseExport

end CapnpEs.Delivery
