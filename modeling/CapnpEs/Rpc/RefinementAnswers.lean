import CapnpEs.Rpc.RefinementCalls

/-! Fulfilling answers, releasing exports and shutting down. -/

namespace CapnpEs.Rpc

open Relation SlotTable

variable {conn : Conn} {hand : Hand}

theorem CloseEffect.sameExports {before after : Conn × Hand} (effect : CloseEffect before after) :
    after.1.exports = before.1.exports := by
  cases effect with
  | quiet effect =>
      cases effect with
      | quiet same => exact same.exports
      | forget fewer => rfl
  | _ => rfl

theorem sameExports_of_closes {before after : Conn × Hand} (steps : ReflTransGen CloseEffect before after) :
    after.1.exports = before.1.exports := by
  induction steps with
  | refl => rfl
  | tail _ effect ih => exact effect.sameExports.trans ih

theorem Hand.forget {held : Hand} (less : held.Less hand) : ReflTransGen Effect (conn, hand) (conn, held) :=
  .single (.close (.quiet (.forget less)))

theorem Hand.less_returned (hand : Hand) {rest : List WireId} (fewer : rest.Sublist hand.returned) :
    Hand.Less { hand with returned := rest } hand where
  message := rfl
  owed := List.Subset.refl _
  incoming := List.Sublist.refl _
  prepared := List.Sublist.refl _
  returned := fewer
  taken := Or.inl rfl
  resumed := rfl
  violated := rfl
  releasing := rfl
  lifting := rfl

variable (hand) in
theorem Hand.drop_returned {ids rest : List WireId} (given : hand.returned = ids ++ rest) :
    ReflTransGen Effect (conn, hand) (conn, { hand with returned := rest }) := by
  apply Hand.forget
  apply hand.less_returned
  rw [given]
  exact List.sublist_append_right _ _

variable (hand) in
theorem closeReleased_runs {id : Nat} {e : Export} (found : conn.findExport id = some e) (unheld : e.wireRefs = 0)
    (releasing : hand.releasing = some id) (unresumed : hand.resumed = none) :
    Runs Effect (closeReleased id e.client >>= fun _ => modify fun conn => conn.dropExport id) conn hand
      (fun _ _ left => left = { hand with releasing := none })
      fun error _ left => left = { hand with releasing := none } ∧ error.isPlain := by
  apply Runs.bind (Q := fun _ after left => left = hand ∧ after.findExport id = some e)
  · apply Runs.tryCatch (G := fun error after left => left = hand ∧ error.isPlain)
    · refine Runs.lift (Runs.mono (close_keeps e.client) ?_ ?_) (fun _ _ => Effect.close)
      · rintro _ after left steps _ ⟨rfl, _⟩
        refine ⟨rfl, ?_⟩
        unfold Conn.findExport
        rw [sameExports_of_closes steps]
        exact found
      · intro error after left _ _ failed
        exact failed
    · rintro error after left _ _ ⟨rfl, plain⟩
      apply Runs.bind (Q := fun _ last held => held = { left with releasing := none })
      · exact Runs.modify (.single (.releaseFailed releasing)) (fun formed => formed.say _) rfl
      · rintro _ last held _ _ rfl
        exact Runs.throw ⟨rfl, plain⟩
  · rintro _ after left _ _ ⟨rfl, held⟩
    exact Runs.modify (.single (.dropExport held unheld releasing unresumed)) (fun formed => formed.dropExport (by simp [held])) rfl

theorem releaseExport_runs (id : WireId) (refs : Nat) (rest : List WireId)
    (given : hand.returned = List.replicate refs id ++ rest) (idle : hand.releasing = none)
    (unresumed : hand.resumed = none) :
    Runs Effect (releaseExport id.id refs) conn hand (fun _ _ left => left = { hand with returned := rest })
      fun error _ left => left = { hand with returned := rest } ∧ error.isPlain := by
  apply Runs.get
  cases found : conn.findExport id.id with
  | none => exact Runs.hold (Hand.drop_returned _ given) (Runs.pure rfl)
  | some e =>
      dsimp only
      split
      · exact Runs.hold (Hand.drop_returned _ given) (Runs.pure rfl)
      · have counted := Effect.decrement found given idle
        apply Runs.bind (Q := fun _ after left => after = conn.setExport id.id
            (some { e with wireRefs := e.wireRefs - min refs e.wireRefs }) ∧ left = { hand with
              returned := rest
              releasing := if e.wireRefs - min refs e.wireRefs = 0 then some id.id else none })
        · apply Runs.set (.single counted) ?_ ⟨rfl, rfl⟩
          exact fun formed => formed.setExport (by simp [found]) (formed.exports id.id e found)
        · rintro _ second left _ _ ⟨rfl, rfl⟩
          have settled : ({ hand with returned := rest, releasing := none } : Hand) =
              { hand with returned := rest } := by
            rw [← idle]
          split
          · rw [if_neg (by omega), settled]
            exact Runs.pure rfl
          · rename_i zero
            rw [if_pos (by omega)]
            apply Runs.bind (Q := fun _ after left => left = { hand with
                returned := rest
                releasing := some id.id } ∧ after.findExport id.id = some { e with wireRefs := 0 })
            · apply Runs.modify (.single (.clearPromise id.id unresumed))
                (fun formed => formed.setExportPromise id.id (by rintro entry same; cases same))
              refine ⟨rfl, ?_⟩
              simp only [Conn.findExport, Conn.setExportPromise, Conn.setExport, find_put_same]
              congr
              omega
            · rintro _ third left _ _ ⟨rfl, held⟩
              have runs := closeReleased_runs { hand with returned := rest, releasing := some id.id }
                held rfl rfl unresumed
              rw [← settled]
              exact runs

variable (hand) in
theorem releaseExports_runs (ids rest : List WireId) (given : hand.returned = ids ++ rest)
    (idle : hand.releasing = none) (unresumed : hand.resumed = none) :
    Runs Effect (ids.forM fun id => releaseExport id.id 1) conn hand
      (fun _ _ left => left = { hand with returned := rest })
      fun error _ left => left = { hand with returned := rest } ∧ error.isPlain := by
  induction ids generalizing conn hand with
  | nil =>
      apply Runs.pure
      rw [← List.nil_append rest, ← given]
  | cons id ids ih =>
      rw [List.forM_eq_forM, List.forM_cons]
      apply Runs.bind (Q := fun _ _ left => left = { hand with returned := ids ++ rest })
      · apply (releaseExport_runs id 1 (ids ++ rest) (by rw [given]; rfl) idle unresumed).dropping
        · rintro _ after left _ rfl
          exact ⟨_, .refl, rfl⟩
        · rintro error after left _ ⟨rfl, plain⟩
          exact ⟨_, Hand.drop_returned { hand with returned := ids ++ rest } rfl, rfl, plain⟩
      · rintro _ after left _ _ rfl
        exact ih _ rfl idle unresumed

/-- The last step of `sendResults`: the Return goes out with the references its descriptors took. -/
theorem sendResults_send {a : Nat} {capTable : List CapDescriptor} {content : Content}
    (owed : (conn.answer a).id ∈ hand.owed)
    (counted : (conn.answer a).resultCaps = collectPayloadSenderHosted capTable) :
    Effect (conn, hand.prepare (hosted capTable)) (conn.send (.ret (conn.answer a).id false false
      (.results { content := content, capTable := capTable })), hand) := by
  have unchanged : conn.alterAnswer a (fun entry => entry) = conn := by
    simp [Conn.alterAnswer]
  have sends : Effect (conn, hand.prepare (hosted capTable))
      ((conn.alterAnswer a fun entry => entry).send (.ret (conn.answer a).id false false
        (.results { content := content, capTable := capTable })), hand) :=
    .results owed (by simp [AnswerEntry.core, counted]) rfl
  rw [unchanged] at sends
  exact sends

variable (conn) in
theorem fulfillTailAnswerWaiters_run {id : Nat} (unwaited : find conn.tailAnswerWaiters id = none) (obj : Struct) :
    fulfillTailAnswerWaiters id obj conn = .ok () conn := by
  change (takeTailAnswerWaiters id >>= _) conn = _
  have taken : takeTailAnswerWaiters id conn = .ok [] conn := by
    rw [takeTailAnswerWaiters, Outcome.bind_apply, Outcome.get_apply]
    dsimp only
    rw [unwaited]
    rfl
  rw [Outcome.bind_apply, taken]
  rfl

theorem Conn.WellFormed.describeAnswer (wellFormed : conn.WellFormed) (a : Nat) (obj : Struct) (ids : List WireId) :
    (conn.alterAnswer a (AnswerEntry.described obj ids)).WellFormed :=
  wellFormed.touchAnswer rfl (fun waits => waits) fun _ member => member

theorem sendResults_keeps {a : Nat} (obj : Struct) (content : Content) (owed : (conn.answer a).id ∈ hand.owed) :
    Keeps Effect (AnswerEntry.sendResults a obj content) conn hand fun _ _ => True := by
  apply Keeps.given_wellFormed
  intro wellFormed
  apply Keeps.get
  apply Runs.bind (Q := fun capTable after left => left = hand.prepare (hosted capTable) ∧
    (after.answer a).id = (conn.answer a).id)
  · refine Runs.lift (Runs.mono (makeCapTable_runs hand (wellFormed.copiedTable obj)) ?_ ?_)
      (fun _ _ => Effect.describe)
    · rintro capTable after left steps _ rfl
      have core := (sameQuestions_of_describes steps).answer a
      simp only [AnswerEntry.core, Prod.mk.injEq] at core
      exact ⟨rfl, core.1⟩
    · intro error after left _ _ failed
      exact failed
  · rintro capTable middle left _ _ ⟨rfl, sameId⟩
    rw [← sameId] at owed ⊢
    cases waited : find middle.tailAnswerWaiters (middle.answer a).id.id with
    | none =>
        apply Runs.of_ok (v := ()) (h := hand) (n := (middle.alterAnswer a (AnswerEntry.described obj (collectPayloadSenderHosted capTable))).send
            (.ret (middle.answer a).id false false (.results { content := content, capTable := capTable })))
        · change (fulfillTailAnswerWaiters (middle.answer a).id.id obj >>= fun _ => sendMessage _)
            (middle.alterAnswer a (AnswerEntry.described obj (collectPayloadSenderHosted capTable))) = _
          have served : fulfillTailAnswerWaiters (middle.answer a).id.id obj
              (middle.alterAnswer a (AnswerEntry.described obj (collectPayloadSenderHosted capTable))) = .ok () _ :=
            fulfillTailAnswerWaiters_run (middle.alterAnswer a _) waited obj
          rw [Outcome.bind_apply, served]
          rfl
        · exact .single (.results owed rfl rfl)
        · intro formed
          exact (formed.describeAnswer a obj _).send _
        · exact ⟨rfl, trivial⟩
    | some waiters =>
        apply Runs.bind (Q := fun _ after left => left = hand.prepare (hosted capTable) ∧
          (after.answer a).id = (middle.answer a).id ∧
            (after.answer a).resultCaps = collectPayloadSenderHosted capTable)
        · apply Runs.modify (.single (.strand waited ⟨collectPayloadSenderHosted capTable, rfl⟩))
            (fun formed => formed.describeAnswer a obj _)
          simp [Conn.alterAnswer, AnswerEntry.described]
        · rintro _ counted left _ _ ⟨rfl, sameId', caps⟩
          rw [← sameId'] at owed ⊢
          apply Runs.bind (Q := fun _ after left => left = hand.prepare (hosted capTable) ∧
            (after.answer a).id = (counted.answer a).id ∧
              (after.answer a).resultCaps = collectPayloadSenderHosted capTable)
          · refine Runs.dropping (Runs.lift (Runs.mono (fulfillTailAnswerWaiters_keeps _ obj) ?_
              fun _ _ _ _ _ failed => failed) fun _ _ => QuietEffect.effect)
              (fun _ after left _ holds => ⟨left, .refl, holds⟩) ?_
            · rintro _ after left steps _ ⟨rfl, _⟩
              have core := (sameQuestions_of_describes
                (ReflTransGen.mono (fun _ _ => QuietEffect.describe) _ _ steps)).answer a
              simp only [AnswerEntry.core, Prod.mk.injEq] at core
              exact ⟨rfl, core.1, core.2.2.2.trans caps⟩
            · rintro error after left _ ⟨rfl, plain⟩
              exact ⟨hand, ReflTransGen.mono (fun _ _ => Effect.describe) _ _ (Hand.forget_prepared _), rfl, plain⟩
          · rintro _ served left _ _ ⟨rfl, sameId'', caps⟩
            rw [← sameId''] at owed ⊢
            exact Runs.modify (.single (sendResults_send owed caps)) (fun formed => formed.send _) ⟨rfl, trivial⟩

/-- Every call of the groups is of an answer that has been routed. -/
def Conn.RoutedGroups (conn : Conn) (groups : List (Nat × List QueuedCall)) : Prop :=
  ∀ group ∈ groups, ∀ a call, .remote a call ∈ group.2 → (conn.answer a).routed

theorem Conn.RoutedGroups.of_keeps {after : Conn} {groups : List (Nat × List QueuedCall)}
    (routed : conn.RoutedGroups groups)
    (keeps : ∀ a, CloseEffect.KeepsAnswer (conn.answer a) (after.answer a)) : after.RoutedGroups groups := by
  intro group member a call waits
  exact (keeps a).routed (routed group member a call waits)

theorem Conn.RoutedGroups.insertCall {groups : List (Nat × List QueuedCall)} (routed : conn.RoutedGroups groups)
    (capId : Nat) {a : Nat} (call : Call) (isRouted : (conn.answer a).routed) :
    conn.RoutedGroups (AnswerEntry.insertCall capId (.remote a call) groups) := by
  have alone : ∀ a' call', QueuedCall.remote a' call' ∈ [QueuedCall.remote a call] → (conn.answer a').routed := by
    intro a' call' waits
    simp only [List.mem_singleton, QueuedCall.remote.injEq] at waits
    rw [waits.1]
    exact isRouted
  induction groups with
  | nil =>
      intro group member
      simp only [AnswerEntry.insertCall, List.mem_singleton] at member
      subst member
      exact alone
  | cons first groups ih =>
      obtain ⟨other, calls⟩ := first
      have tail := ih fun group member => routed group (by simp [member])
      unfold AnswerEntry.insertCall
      split
      · intro group member
        rcases List.mem_cons.mp member with same | later
        · subst same
          exact alone
        · exact routed group later
      · split
        · intro group member
          rcases List.mem_cons.mp member with same | later
          · subst same
            intro a' call' waits
            rcases List.mem_append.mp waits with old | new
            · exact routed (other, calls) (by simp) a' call' old
            · exact alone a' call' new
          · exact routed group (by simp [later])
        · intro group member
          rcases List.mem_cons.mp member with same | later
          · subst same
            exact routed (other, calls) (by simp)
          · exact tail group later

theorem sortQueue_keeps (obj : Struct) {groups : List (Nat × List QueuedCall)} {queue : List PipelinedCall}
    (queued : ∀ pc ∈ queue, (conn.answer pc.answer).routed) (routed : conn.RoutedGroups groups) :
    Keeps CloseEffect (AnswerEntry.sortQueue obj groups queue) conn hand fun result after =>
      after.RoutedGroups result.1 ∧ result.2.all RpcError.isPlain := by
  induction queue generalizing conn groups with
  | nil => exact Keeps.pure ⟨routed, rfl⟩
  | cons pc queue ih =>
      have rejects : ∀ reason, Keeps CloseEffect (do
          let first ← attempt (rejectAnswer pc.answer reason)
          let sorted ← AnswerEntry.sortQueue obj groups queue
          return (sorted.1, first.or sorted.2)) conn hand fun result after =>
            after.RoutedGroups result.1 ∧ result.2.all RpcError.isPlain := by
        intro reason
        apply Keeps.bind (rejectAnswer_keeps pc.answer reason fun _ => Or.inl (queued pc (by simp))).attempt
        intro first after steps _ plain
        have keeps := fun a => keepsAnswer_of_closes steps a
        apply Keeps.bind (ih (fun other member => (keeps _).routed (queued other (by simp [member])))
          (routed.of_keeps keeps))
        rintro ⟨rest, later⟩ last _ _ ⟨routed, plainLater⟩
        apply Keeps.pure
        refine ⟨routed, ?_⟩
        cases first with
        | none => exact plainLater
        | some error => exact plain
      unfold AnswerEntry.sortQueue
      cases obj.content.capId pc.transform with
      | error reason => exact rejects reason
      | ok capId =>
          cases capId with
          | none => exact rejects RPC_NULL_CLIENT
          | some capId =>
              exact ih (fun other member => queued other (by simp [member]))
                (routed.insertCall capId pc.call (queued pc (by simp)))

theorem emptyQueue_keeps (a : Nat) (obj : Struct) :
    Keeps CloseEffect (AnswerEntry.emptyQueue a obj) conn hand fun result after =>
      after.RoutedGroups result.1 ∧ result.2.all RpcError.isPlain := by
  apply Keeps.given_wellFormed
  intro wellFormed
  apply Keeps.get
  apply Keeps.bind (sortQueue_keeps obj (wellFormed.queued a) (by simp [Conn.RoutedGroups]))
  rintro ⟨groups, error⟩ after _ _ ⟨routed, plain⟩
  apply Keeps.bind (Q := fun _ last => last.RoutedGroups groups)
  · apply Keeps.modify (.single (.quiet (.quiet (Quiet.alterAnswer rfl))))
      (fun formed => formed.touchAnswer rfl (fun waits => waits) (by simp))
    apply routed.of_keeps
    intro a'
    exact Conn.alterAnswer_keeps after ⟨rfl, fun was => was⟩ a'
  · intro _ last _ _ routed
    exact Keeps.pure ⟨routed, plain⟩

theorem slotClient_keeps (obj : Struct) (capId : Nat) :
    Keeps QuietEffect (AnswerEntry.slotClient obj capId) conn hand fun client after => client < after.objects := by
  apply Keeps.given_wellFormed
  intro wellFormed
  apply Keeps.get
  cases found : conn.slot obj capId with
  | some client => exact Keeps.pure (wellFormed.slot found)
  | none => exact newClient_keeps rfl (by simp [Client.references]) (by simp [Client.calls])

theorem mem_put {α : Type} {slots : List (Option α)} {id : Nat} {value : Option α} {item : α}
    (member : some item ∈ put slots id value) : value = some item ∨ some item ∈ slots := by
  unfold put at member
  split at member
  · rcases List.mem_or_eq_of_mem_set member with old | new
    · exact Or.inr old
    · exact Or.inl new.symm
  · simp only [List.mem_append, List.mem_replicate, List.mem_singleton] at member
    rcases member with (old | ⟨_, none⟩) | new
    · exact Or.inr old
    · cases none
    · exact Or.inl new.symm

theorem installQueues_keeps (obj : Struct) {groups : List (Nat × List QueuedCall)}
    (routed : conn.RoutedGroups groups) :
    Keeps QuietEffect (AnswerEntry.installQueues obj groups) conn hand fun queueClients after =>
      ∀ queueClient ∈ queueClients, queueClient < after.objects := by
  induction groups generalizing conn with
  | nil =>
      apply Keeps.pure
      intro client member
      cases member
  | cons group groups ih =>
      obtain ⟨capId, calls⟩ := group
      have later : ∀ {after : Conn}, ReflTransGen QuietEffect (conn, hand) (after, hand) →
          after.RoutedGroups ((capId, calls) :: groups) := fun steps =>
        routed.of_keeps (keepsAnswer_of_closes (ReflTransGen.mono (fun _ _ => QuietEffect.close) _ _ steps))
      apply Keeps.bind (slotClient_keeps obj capId)
      intro target after first _ made
      apply Keeps.bind (newClient_keeps (c := .queue { client := target, queue := calls }) rfl ?_ ?_)
      · intro queueClient second next _ queued
        apply Keeps.bind (Q := fun _ after => queueClient < after.objects)
        · apply Keeps.modify (Quiet.setCapTable _ _).step ?_ queued
          intro formed
          apply formed.setCapTable
          intro client member
          rcases mem_put member with same | old
          · cases same
            exact queued
          · exact formed.tables obj.message client old
        · intro _ third last _ kept
          apply Keeps.bind (ih fun group member => later ((first.trans next).trans last) group (by simp [member]))
          intro rest fourth grows _ made
          apply Keeps.pure
          rintro client (_ | ⟨_, member⟩)
          · exact Nat.lt_of_lt_of_le kept (objects_le_of_steps (fun _ _ => QuietEffect.objects_le) grows)
          · exact made client member
      · intro _ other member
        simp only [Client.references, List.mem_singleton] at member
        rw [member]
        exact made
      · intro _ a call member
        exact later first (capId, calls) (by simp) a call member

theorem flushQueue_keeps {queueClient : Nat} (made : queueClient < conn.objects) :
    Keeps Effect (AnswerEntry.flushQueue queueClient) conn hand fun _ _ => True := by
  apply Keeps.get
  cases shape : conn.client queueClient with
  | queue c =>
      apply flushTo_keeps c.client conn.stack
      right
      rw [shape]
      exact ⟨made, rfl⟩
  | _ => exact Keeps.pure trivial

theorem AnswerEntry.fulfill_keeps (a : Nat) (obj : Struct)
    (may : (conn.answer a).done = false → conn.MayAnswer hand a) :
    Keeps Effect (AnswerEntry.fulfill a obj) conn hand fun _ _ => True := by
  apply Keeps.get
  cases done : (conn.answer a).done with
  | true => exact Keeps.throw
  | false =>
      simp only [Bool.false_eq_true, ↓reduceIte]
      apply settle_keeps (fun _ _ => Effect.close) done (may done) rfl
        (fun formed => formed.touchAnswer rfl (fun waits => waits) fun _ member => member)
      have owes : ∀ {after : Conn}, (after.answer a).id = (conn.answer a).id →
          (after.answer a).id ∈ (conn.answer a).id :: hand.owed := by
        intro after same
        simp [same]
      split
      · apply Keeps.bind ((fulfillTailAnswerWaiters_keeps _ obj).lift fun _ _ => QuietEffect.effect)
        intro _ after _ _ _
        exact Keeps.modify (.single (.elsewhere (List.mem_cons_self))) (fun formed => formed.send _) trivial
      · apply Keeps.bind (setContent_keeps obj)
        rintro content copied _ _ ⟨rfl, _⟩
        apply Keeps.bind (sendResults_keeps obj content (owes (by simp [Conn.alterAnswer, fulfilled]))).attempt
        intro firstErr after _ _ plain
        apply Keeps.bind ((emptyQueue_keeps a obj).lift fun _ _ => Effect.close)
        rintro ⟨groups, queuesErr⟩ second _ _ ⟨routed, plainQueues⟩
        apply Keeps.bind ((installQueues_keeps obj routed).lift fun _ _ => QuietEffect.effect)
        intro queueClients third _ _ made
        apply Keeps.bind
        · apply Keeps.forM
          intro queueClient member last steps _
          exact flushQueue_keeps (Nat.lt_of_lt_of_le (made queueClient member)
            (objects_le_of_steps (fun _ _ => Effect.objects_le) steps))
        intro _ last _ _ _
        apply throwFirst_keeps
        cases firstErr with
        | none => exact plainQueues
        | some error => exact plain

end CapnpEs.Rpc
