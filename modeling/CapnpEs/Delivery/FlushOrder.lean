import CapnpEs.Delivery.Fulfiller

/-! The order in which calls arrive when a queue is flushed to a client that calls back. -/

namespace CapnpEs.Delivery

open CallTree Outcome

section Queueing

variable {α : Type} {waits : Bool → Bool → Bool} {c : QueueingClient α}

/-- The queue holds what has been taken on, and nothing has been delivered. -/
structure Unflushed (c : QueueingClient α) : Prop where
  accepted : c.accepted = c.queue.map call
  received : c.received = []
  distinct : (trails c.queue).Nodup

/-- Every queued call but the last returns, and its target calls nothing meanwhile. -/
def Calm (queue : List (CallTree α)) : Prop :=
  queue.Pairwise fun earlier _ => earlier.within = [] ∧ earlier.throws = false

theorem inOrder_iff (queue : List (CallTree α)) :
    Overtaking.InOrder call inner (fun _ => true) queue ↔ queue.Pairwise fun earlier _ => earlier.within = [] := by
  have same : ∀ earlier later : CallTree α, ((∃ x ∈ earlier.inner, (fun _ => true) x = true) →
      (fun _ : α => true) later.call = false) ↔ earlier.within = [] := by
    intro earlier later
    rw [← inner_nil_iff, List.eq_nil_iff_forall_not_mem]
    simp
  exact List.Pairwise.iff same

theorem flush_order_iff (isOpen : c.Open waits) (unflushed : Unflushed c) :
    ((c.flush waits).2.received = (c.flush waits).2.accepted ↔ Calm c.queue) := by
  obtain ⟨accepted, received, distinct⟩ := unflushed
  rw [QueueingClient.flush_open isOpen]
  dsimp only [QueueingClient.passOn]
  rw [accepted, received, List.nil_append]
  by_cases all : reached c.queue = c.queue
  · have quiet := quiet_of_reached all
    rw [all]
    have order := Overtaking.filter_order_iff (fun _ => true) (trails_eq c.queue ▸ distinct)
    rw [List.filter_true, List.filter_true, inOrder_iff, ← trails_eq] at order
    rw [Calm, List.pairwise_and_iff]
    constructor
    · intro same
      exact ⟨order.mp same, quiet⟩
    · rintro ⟨calm, _⟩
      exact order.mpr calm
  · constructor
    · intro same
      exfalso
      apply all
      -- what throws leaves later calls behind, that have been made
      have lengths := congrArg List.length same
      rw [trails_eq, Overtaking.length_nested, List.length_append, List.length_map] at lengths
      exact (reached_initial c.queue).eq_of_length (by omega)
    · intro calm
      exact absurd (reached_of_quiet (calm.imp fun both => both.2)) all

end Queueing

/-- No call for a capability waits while a call that is flushed before it makes the target call that capability. -/
def CalmFor (present : Nat → Bool) (capId : Nat) (queue : List (CallTree Request)) : Prop :=
  queue.Pairwise fun earlier later =>
    (∃ request ∈ Fulfiller.ranWithin present earlier, request.aims capId) → later.call.aims capId = false

/-- The queue holds what has been taken on, and nothing has been delivered. -/
structure Fulfiller.Unflushed (present : Nat → Bool) (f : Fulfiller) : Prop where
  unsettled : f.settled = false
  accepted : f.accepted = f.queue.map call
  received : f.received = []
  distinct : (Overtaking.nested call (Fulfiller.ranWithin present) (Fulfiller.flushOrder f)).Nodup

theorem tryFulfill_order_iff {present : Nat → Bool} {f : Fulfiller} (unflushed : f.Unflushed present)
    (deliverable : Fulfiller.Deliverable present f) (capId : Nat) :
    Meets (Fulfiller.tryFulfill present) f (fun _ after =>
        (after.received.filter (Request.aims capId) = after.accepted.filter (Request.aims capId) ↔
          CalmFor present capId (Fulfiller.flushOrder f))) fun _ _ => False := by
  obtain ⟨unsettled, accepted, received, distinct⟩ := unflushed
  unfold Meets
  rw [Fulfiller.tryFulfill_run unsettled deliverable]
  dsimp only [Fulfiller.take, Fulfiller.passOn, Fulfiller.begun]
  rw [accepted, received, List.nil_append, List.filter_append]
  have waiting : (f.queue.map call).filter (Request.aims capId) =
      ((Fulfiller.flushOrder f).map call).filter (Request.aims capId) := by
    rw [List.filter_map, List.filter_map]
    exact congrArg (List.map call) (Fulfiller.filter_flushOrder f capId).symm
  rw [waiting, ← List.filter_append]
  exact Overtaking.filter_order_iff (Request.aims capId) distinct

theorem flush_keeps_order_iff {α : Type} (c : QueueingClient α) (present : Nat → Bool) (f : Fulfiller) :
    (∀ id, c.closed = false → c.resolved = true → c.embargoId = some id → Unflushed c →
      ((ImportClient.liftEmbargo id c).2.received = (ImportClient.liftEmbargo id c).2.accepted ↔ Calm c.queue)) ∧
    (c.closed = false → Unflushed c →
      ((PromiseExportClient.resolve c).2.received = (PromiseExportClient.resolve c).2.accepted ↔ Calm c.queue)) ∧
    (f.Unflushed present → Fulfiller.Deliverable present f → ∀ capId,
      Meets (Fulfiller.tryFulfill present) f (fun _ after =>
        (after.received.filter (Request.aims capId) = after.accepted.filter (Request.aims capId) ↔
          CalmFor present capId (Fulfiller.flushOrder f))) fun _ _ => False) := by
  refine ⟨?_, ?_, fun unflushed deliverable => tryFulfill_order_iff unflushed deliverable⟩
  · intro id unclosed resolved embargoed unflushed
    unfold ImportClient.liftEmbargo
    rw [if_pos embargoed, if_pos resolved]
    exact flush_order_iff ⟨unclosed, resolved, rfl⟩ ⟨unflushed.accepted, unflushed.received, unflushed.distinct⟩
  · intro unclosed unflushed
    unfold PromiseExportClient.resolve
    rw [unclosed, if_neg Bool.false_ne_true]
    exact flush_order_iff ⟨rfl, rfl, rfl⟩ ⟨unflushed.accepted, unflushed.received, unflushed.distinct⟩

def embargoed : QueueingClient Nat where
  resolved := true
  embargoId := some 0
  queue := [.mk 0 false [], .mk 1 false []]
  accepted := [0, 1]

theorem flush_keeps_order_iff_embargoed :
    (ImportClient.liftEmbargo 0 embargoed).2.received = (ImportClient.liftEmbargo 0 embargoed).2.accepted := by
  have order := (flush_keeps_order_iff embargoed (fun _ => true) {}).1 0 rfl rfl rfl ⟨rfl, rfl, by decide⟩
  apply order.mpr
  refine List.pairwise_cons.mpr ⟨?_, List.pairwise_singleton _ _⟩
  intro later _
  exact ⟨rfl, rfl⟩

/-- Two calls wait for an embargo, and the target of the first calls the import again. -/
def reentrant : QueueingClient Nat where
  resolved := true
  embargoId := some 0
  queue := [.mk 0 false [.mk 2 false []], .mk 1 false []]
  accepted := [0, 1]

theorem flush_not_always_in_order :
    ¬ ∀ (c : QueueingClient Nat) (id : Nat), c.closed = false → c.resolved = true → c.embargoId = some id →
      Unflushed c → (ImportClient.liftEmbargo id c).2.received = (ImportClient.liftEmbargo id c).2.accepted := by
  intro always
  have same : [0, 2, 1] = [0, 1, 2] := always reentrant 0 rfl rfl rfl ⟨rfl, rfl, by decide⟩
  cases same

end CapnpEs.Delivery
