import CapnpEs.Rpc.RefinementAnswers

/-! Resolving promise exports, and shutting a connection down. -/

namespace CapnpEs.Rpc

open Relation SlotTable

variable {conn : Conn} {hand : Hand}

@[simp] theorem Client.core_withResolved (client : Client) (target : Nat) :
    (client.withResolved target).core = client.core := by
  cases client with
  | _ => rfl

@[simp] theorem Client.calls_withResolved (client : Client) (target : Nat) :
    (client.withResolved target).calls = client.calls := by
  cases client with
  | _ => rfl

theorem Client.mem_references_withResolved {client : Client} {target other : Nat}
    (member : other ∈ (client.withResolved target).references) : other = target ∨ other ∈ client.references := by
  cases client with
  | importClient c => exact Or.inl (by simpa [withResolved, references] using member)
  | promiseExport c => exact Or.inl (by simpa [withResolved, references] using member)
  | _ => exact Or.inr member

theorem withResolved_keeps (id : Nat) {target : Nat} (made : target < conn.objects) :
    Keeps QuietEffect (modify fun conn => conn.setClient id ((conn.client id).withResolved target)) conn hand
      fun _ _ => True := by
  apply Keeps.modify (Quiet.setClient (Client.core_withResolved _ _) (.withResolved _ _)).step ?_ trivial
  intro formed
  apply formed.setClient
  · intro beyond
    rw [Client.core_withResolved]
    exact formed.unmadeClients id beyond
  · intro other member
    rcases Client.mem_references_withResolved member with same | old
    · exact same ▸ made
    · exact formed.clients id other old
  · intro a call member
    rw [Client.calls_withResolved] at member
    exact formed.calls id a call member
  · exact .of_same (Client.core_withResolved _ _) (Client.calls_withResolved _ _)

theorem objects_le_of_effects {before after : Conn × Hand} (steps : ReflTransGen Effect before after) :
    before.1.objects ≤ after.1.objects :=
  objects_le_of_steps (fun _ _ => Effect.objects_le) steps

theorem PromiseExportClient.resolve_keeps (promise : Nat) {client : Nat} (made : client < conn.objects) :
    Keeps Effect (PromiseExportClient.resolve promise client) conn hand fun _ _ => True := by
  apply Keeps.given_wellFormed
  intro wellFormed
  apply Keeps.get
  cases shape : conn.client promise with
  | promiseExport c =>
      have frees : conn.Frees hand promise := by
        refine Or.inr ⟨wellFormed.made (by rw [shape]; nofun), ?_⟩
        rw [shape]
        rfl
      dsimp only
      split
      · exact (close_keeps client).lift fun _ _ => Effect.close
      · apply Keeps.bind ((closeOptional_keeps (fun conn hand client => close_keeps client) c.resolved).lift
          fun _ _ => Effect.close)
        intro _ after steps _ _
        apply Keeps.bind ((withResolved_keeps promise (Nat.lt_of_lt_of_le made (objects_le_of_effects steps))).lift
          fun _ _ => QuietEffect.effect)
        intro _ last later _ _
        exact flushTo_keeps client conn.stack (frees.of_effects (steps.trans later))
  | _ => exact Keeps.pure trivial

variable (conn hand) in
theorem sendResolve_runs {promise : Continuation} (resolution : Resolution) (rest : List WireId)
    {F : RpcError → Conn → Hand → Prop} (resumed : hand.resumed = some promise)
    (prepared : hand.prepared = rest ++ hosted (RpcMessage.resolve promise.id resolution).descriptors) :
    Runs Effect (sendResolve promise resolution) conn hand (fun _ _ left => left = { hand with prepared := rest })
      F :=
  Runs.of_ok rfl (.single (.resolve resumed prepared)) (fun formed => (formed.say _).send _) rfl

theorem settlePromise_keeps (id : Nat) {entry : ExportPromiseEntry}
    (found : find conn.exportPromises id = some entry) :
    Keeps Effect (set (conn.setExportPromise id (some { entry with settled := true }))) conn hand
      fun _ after => conn.objects = after.objects ∧ conn.client = after.client := by
  apply Keeps.set (.single (.settlePromise id found)) ?_ ⟨rfl, rfl⟩
  intro formed
  apply formed.setExportPromise
  intro settled same
  cases same
  exact ⟨formed.promises id entry found, formed.promised id entry found⟩

theorem Conn.pendingPromise_found {id : Nat} {entry : ExportPromiseEntry}
    (pending : conn.pendingPromise id = some entry) : find conn.exportPromises id = some entry := by
  unfold pendingPromise at pending
  exact (Option.filter_eq_some_iff.mp pending).1

theorem resolveExportPromiseCap_keeps {promise : Continuation} {client : Nat} (made : client < conn.objects)
    (resumed : hand.resumed = some promise) :
    Keeps Effect (resolveExportPromiseCap promise client) conn hand fun _ _ => True := by
  apply Keeps.get
  cases pending : conn.pendingPromise promise.id.id with
  | none => exact (close_keeps client).lift fun _ _ => Effect.close
  | some entry =>
      apply Keeps.bind (settlePromise_keeps promise.id.id (Conn.pendingPromise_found pending))
      rintro _ second _ _ ⟨same, _⟩
      rw [same] at made
      apply Keeps.bind (PromiseExportClient.resolve_keeps entry.client made)
      intro _ third steps _ _
      have still := Nat.lt_of_lt_of_le made (objects_le_of_effects steps)
      apply Runs.bind (Runs.lift (descriptorForClient_runs still) fun _ _ => Effect.describe)
      rintro descriptor last left _ _ rfl
      have sends := sendResolve_runs last (hand.prepare descriptor.hosted.toList) (.cap descriptor) hand.prepared
        (F := fun error _ left => left = hand ∧ error.isPlain) resumed (by
          rw [RpcMessage.descriptors, hosted_singleton]
          rfl)
      apply sends.mono
      · rintro _ after left _ _ rfl
        exact ⟨rfl, trivial⟩
      · intro error after left _ _ failed
        exact failed

theorem resolveExportPromiseException_keeps {promise : Continuation} (reason : String)
    (resumed : hand.resumed = some promise) :
    Keeps Effect (resolveExportPromiseException promise reason) conn hand fun _ _ => True := by
  apply Keeps.get
  cases pending : conn.pendingPromise promise.id.id with
  | none => exact Keeps.pure trivial
  | some entry =>
      have found := Conn.pendingPromise_found pending
      apply Keeps.given_wellFormed
      intro wellFormed
      apply Keeps.bind (settlePromise_keeps promise.id.id found)
      rintro _ second _ _ ⟨_, same⟩
      have free := wellFormed.promised promise.id.id entry found
      rw [same] at free
      apply Keeps.bind ((rejectAll_keeps reason free).lift fun _ _ => Effect.close)
      intro _ third _ _ _
      apply (sendResolve_runs third hand (.exception reason) hand.prepared resumed (by simp [RpcMessage.descriptors, hosted])).mono
      · rintro _ after left _ _ rfl
        exact ⟨rfl, trivial⟩
      · intro error after left _ _ failed
        exact failed

variable (hand) in
theorem resolveFromQuestion_keeps {promise : Continuation} (resumed : hand.resumed = some promise) :
    Keeps Effect (resolveFromQuestion promise) conn hand fun _ _ => True := by
  apply Keeps.get
  cases (conn.question promise.question).err with
  | some reason => exact resolveExportPromiseException_keeps reason resumed
  | none =>
      apply Runs.tryCatch (G := fun error after left => left = hand ∧ error.isPlain)
      · apply Keeps.bind ((clientFromResolution_keeps promise.transform _ none).lift fun _ _ => QuietEffect.effect)
        intro client after _ _ made
        exact resolveExportPromiseCap_keeps made resumed
      · rintro error after left _ _ ⟨rfl, _⟩
        exact resolveExportPromiseException_keeps error.message resumed

theorem Effect.resumed {before after : Conn × Hand} (effect : Effect before after) :
    after.2.resumed = before.2.resumed := by
  have quiets : ∀ {before after : Conn × Hand}, QuietEffect before after → after.2.resumed = before.2.resumed := by
    intro before after effect
    cases effect with
    | quiet same => rfl
    | forget fewer => exact fewer.resumed
  cases effect with
  | close effect =>
      cases effect with
      | quiet effect => exact quiets effect
      | _ => rfl
  | describe effect =>
      cases effect with
      | quiet effect => exact quiets effect
      | _ => rfl
  | _ => rfl

theorem resumed_of_effects {before after : Conn × Hand} (steps : ReflTransGen Effect before after) :
    after.2.resumed = before.2.resumed := by
  induction steps with
  | refl => rfl
  | tail _ effect ih => exact effect.resumed.trans ih

theorem Effect.closed {before after : Conn × Hand} (effect : Effect before after) (closed : before.1.closed = true) :
    after.1.closed = true := by
  have quiets : ∀ {before after : Conn × Hand}, QuietEffect before after → before.1.closed = true →
      after.1.closed = true := by
    intro before after effect closed
    cases effect with
    | quiet same => exact same.closed.trans closed
    | forget fewer => exact closed
  cases effect with
  | close effect =>
      cases effect with
      | quiet effect => exact quiets effect closed
      | _ => exact closed
  | describe effect =>
      cases effect with
      | quiet effect => exact quiets effect closed
      | create made free =>
          rw [Conn.withExport_eq]
          exact closed
      | promise question transform free =>
          rw [Conn.withPromise_eq]
          exact closed
      | _ => exact closed
  | shut => rfl
  | newImport isPromise unknown given =>
      rw [Conn.withImport_eq]
      exact closed
  | _ => exact closed

theorem closed_of_effects {before after : Conn × Hand} (steps : ReflTransGen Effect before after)
    (closed : before.1.closed = true) : after.1.closed = true := by
  induction steps with
  | refl => exact closed
  | tail _ effect ih => exact effect.closed ih

theorem rejectUnsettled_keeps (reason : String) (q : Nat) :
    Keeps QuietEffect (rejectUnsettled reason q) conn hand fun _ after => after.questions = conn.questions := by
  apply Keeps.get
  split
  · rename_i inProgress
    unfold Question.reject
    apply Keeps.get
    rw [if_pos inProgress]
    exact Keeps.modify (Quiet.alterQuestion fun _ => rfl).step (fun formed => formed.alterQuestion q _) rfl
  · exact Keeps.pure rfl

theorem shutdownQuestion_keeps (reason : String) (id : Nat) (closed : conn.closed = true) :
    Keeps Effect (shutdownQuestion reason id) conn hand fun _ _ => True := by
  apply Keeps.get
  cases isOpen : conn.findQuestion id with
  | none => exact Keeps.pure trivial
  | some q =>
      apply Keeps.bind ((rejectUnsettled_keeps reason q).lift fun _ _ => QuietEffect.effect)
      intro _ after steps _ same
      have still : after.findQuestion id = some q := by
        unfold Conn.findQuestion
        rw [same]
        exact isOpen
      apply Keeps.of_ok (v := ()) ?_ (.single (.clearQuestion (closed_of_effects steps closed) still))
        (fun formed => formed.dropQuestion still) trivial
      rw [Outcome.bind_apply, popQuestion_run still]
      rfl

theorem shutdownAnswer_keeps (reason : String) (id : Nat) (closed : conn.closed = true) :
    Keeps Effect (shutdownAnswer reason id) conn hand fun _ _ => True := by
  apply Keeps.bind (Q := fun _ after => after.closed = true)
  · exact Keeps.of_ok (v := find conn.answers id) rfl (.single (.clearAnswer closed id))
      (fun formed => formed.clearAnswerSlot id) closed
  · intro popped after _ _ closed
    cases popped with
    | none => exact Keeps.pure trivial
    | some a =>
        exact Keeps.modify (.single (.markAnswer closed a rfl))
          (fun formed => formed.touchAnswer rfl (fun waits => waits) fun _ member => member) trivial

theorem shutdownExport_keeps (id : Nat) (closed : conn.closed = true) (unresumed : hand.resumed = none) :
    Keeps Effect (shutdownExport id) conn hand fun _ _ => True := by
  apply Keeps.get
  cases found : conn.findExport id with
  | none => exact Keeps.pure trivial
  | some e =>
      have closes : Keeps CloseEffect (attempt (close e.client)) conn hand
          fun _ after => after.findExport id = some e := by
        apply (close_keeps e.client).attempt.mono
        intro _ after steps _ _
        unfold Conn.findExport
        rw [sameExports_of_closes steps]
        exact found
      apply Keeps.bind (closes.lift fun _ _ => Effect.close)
      intro _ after steps _ held
      exact Keeps.modify (.single (.clearExport (closed_of_effects steps closed) held unresumed))
        (fun formed => formed.dropExport (by simp [held])) trivial

theorem dropResolved_keeps {client : Nat} (free : (conn.client client).isReleased = true) :
    Keeps QuietEffect (modify fun conn =>
      conn.setClient client (conn.client client).withoutResolved.withoutEmbargo) conn hand fun _ _ => True := by
  have same : (conn.client client).withoutResolved.withoutEmbargo.core = (conn.client client).core := by
    cases conn.client client with
    | _ => rfl
  have calls : (conn.client client).withoutResolved.withoutEmbargo.calls = (conn.client client).calls := by
    cases conn.client client with
    | _ => rfl
  have references : ∀ other ∈ (conn.client client).withoutResolved.withoutEmbargo.references,
      other ∈ (conn.client client).references := by
    intro other member
    cases shape : conn.client client with
    | importClient c =>
        rw [shape] at member
        cases member
    | _ =>
        rw [shape] at member
        exact member
  apply Keeps.modify (Quiet.setClient same (.of_released free same)).step ?_ trivial
  intro formed
  apply formed.setClient
  · intro beyond
    rw [same]
    exact formed.unmadeClients client beyond
  · intro other member
    exact formed.clients client other (references other member)
  · intro a call member
    rw [calls] at member
    exact formed.calls client a call member
  · exact .of_same same calls

theorem shutdownImportClient_keeps (reason : String) (client : Nat) :
    Keeps CloseEffect (shutdownImportClient reason client) conn hand fun _ _ => True := by
  apply Keeps.get
  cases shape : conn.client client with
  | importClient c =>
      apply Keeps.given_wellFormed
      intro wellFormed
      change Keeps CloseEffect ((setClient client (.importClient { c with closed := true }) >>= fun _ =>
        rejectAll client reason) >>= fun _ => closeOptional close c.resolved >>= fun _ =>
          modify fun conn => conn.setClient client (conn.client client).withoutResolved.withoutEmbargo) conn hand _
      apply Keeps.bind (shutImport_keeps reason shape (wellFormed.embargoed client c shape))
      rintro _ third _ _ rfl
      apply Keeps.bind (closeOptional_keeps (fun conn hand client => close_keeps client) c.resolved)
      intro _ last steps _ _
      have free := released_of_closes (i := client) steps (by simp [Conn.setClient, Conn.sayRejected, Client.isReleased])
      exact (dropResolved_keeps free).lift fun _ _ => QuietEffect.close
  | _ => exact Keeps.pure trivial

theorem shutdownImport_keeps (reason : String) (id : Nat) (entry : ImportEntry) (closed : conn.closed = true) :
    Keeps Effect (shutdownImport reason id entry) conn hand fun _ _ => True := by
  apply Keeps.get
  apply Keeps.bind ((shutdownImportClient_keeps reason (conn.refCount entry.rc).client).attempt.lift
    fun _ _ => Effect.close)
  intro _ after steps _ _
  have shut : after.closed = true := closed_of_effects steps closed
  apply Keeps.modify (.single (.clearImport shut id)) ?_ trivial
  intro formed
  apply formed.setImport
  · intro entry same
    cases same
  · intro notClosed
    cases shut.symm.trans notClosed

theorem shutdownTailAnswers_keeps (reason : String) (id : Nat) :
    Keeps QuietEffect (shutdownTailAnswers reason id) conn hand fun _ _ => True := by
  apply Keeps.bind (takeTailAnswerWaiters_keeps id)
  intro waiters after _ _ _
  apply Keeps.forM
  intro q _ last _ _
  exact (rejectUnsettled_keeps reason q).mono fun _ _ _ _ _ => trivial

theorem shutdownDisembargoes_keeps {ids : List Nat} (once : ids.Nodup)
    (found : ∀ id ∈ ids, ∃ client, find conn.disembargoes id = some client) :
    Keeps QuietEffect (ids.forM shutdownDisembargo) conn hand fun _ _ => True := by
  induction ids generalizing conn with
  | nil => exact Keeps.pure trivial
  | cons id ids ih =>
      rw [List.forM_eq_forM, List.forM_cons]
      obtain ⟨client, held⟩ := found id (by simp)
      obtain ⟨fresh, once⟩ := List.nodup_cons.mp once
      apply Keeps.bind (Q := fun _ after => after =
        { conn.setDisembargo id none with disembargoID := conn.disembargoID.remove id })
      · exact Keeps.modify (Quiet.dropDisembargo id _).step (fun formed => formed.dropDisembargo held) rfl
      · rintro _ after _ _ rfl
        apply ih once
        intro other member
        obtain ⟨client', held'⟩ := found other (by simp [member])
        refine ⟨client', ?_⟩
        rw [Conn.setDisembargo, find_put_other _ _ (fun same => fresh (by rwa [same] at member))]
        exact held'

theorem Conn.indices_nodup {α : Type} (slots : List (Option α)) : (Conn.indices slots).Nodup :=
  List.nodup_range.filter _

theorem Conn.mem_indices {α : Type} {slots : List (Option α)} {id : Nat} (member : id ∈ Conn.indices slots) :
    ∃ item, find slots id = some item :=
  Option.isSome_iff_exists.mp (List.mem_filter.mp member).2

theorem shutdownTables_keeps (reason : String) (closed : conn.closed = true) (unresumed : hand.resumed = none) :
    Keeps Effect (shutdownTables reason) conn hand fun _ _ => True := by
  apply Keeps.get
  apply Keeps.bind (Q := fun _ _ => True)
  · exact Keeps.forM fun id _ after steps _ => shutdownQuestion_keeps reason id (closed_of_effects steps closed)
  · intro _ second steps _ _
    replace closed := closed_of_effects steps closed
    apply Keeps.get
    apply Keeps.bind (Q := fun _ _ => True)
    · exact Keeps.forM fun id _ after steps _ => shutdownAnswer_keeps reason id (closed_of_effects steps closed)
    · intro _ third steps _ _
      replace closed := closed_of_effects steps closed
      apply Keeps.get
      apply Keeps.bind (Q := fun _ _ => True)
      · exact Keeps.forM fun id _ after steps _ => shutdownExport_keeps id (closed_of_effects steps closed) unresumed
      · intro _ fourth steps _ _
        replace closed := closed_of_effects steps closed
        apply Keeps.bind (Q := fun _ after => after.closed = true)
        · exact Keeps.modify (.single (.clearPromises closed unresumed)) (fun formed => { formed with promises := by simp, promised := by simp })
            closed
        · intro _ fifth _ _ closed
          apply Keeps.get
          apply Keeps.bind (Q := fun _ _ => True)
          · exact Keeps.forM fun entry _ after steps _ =>
              shutdownImport_keeps reason entry.1 entry.2 (closed_of_effects steps closed)
          · intro _ sixth steps _ _
            replace closed := closed_of_effects steps closed
            apply Keeps.get
            apply Keeps.bind (Q := fun _ _ => True)
            · exact Keeps.forM fun id _ after _ _ =>
                (shutdownTailAnswers_keeps reason id).lift fun _ _ => QuietEffect.effect
            · intro _ seventh steps _ _
              replace closed := closed_of_effects steps closed
              apply Keeps.get
              apply Keeps.bind ((shutdownDisembargoes_keeps (Conn.indices_nodup _)
                fun id member => Conn.mem_indices member).lift fun _ _ => QuietEffect.effect)
              intro _ last steps _ _
              exact Keeps.modify (.single (.closeTransport (closed_of_effects steps closed)))
                (fun formed => { formed with }) trivial

theorem shutdown_keeps (reason : String) (unresumed : hand.resumed = none) :
    Keeps Effect (shutdown reason) conn hand fun _ _ => True := by
  apply Keeps.get
  split
  · exact Keeps.pure trivial
  · apply Keeps.bind (Q := fun _ after => after.closed = true)
    · exact Keeps.set (.single .shut) (fun formed => { formed with held := nofun }) rfl
    · intro _ first _ _ closed
      exact shutdownTables_keeps reason closed unresumed

/-- However it ends, `shutdown` leaves the connection closed. -/
theorem shutdown_closes (reason : String) (wellFormed : conn.WellFormed) :
    Outcome.Meets (shutdown reason) conn (fun _ after => after.closed = true) fun _ after => after.closed = true := by
  by_cases closed : conn.closed = true
  · have stays : shutdown reason conn = .ok () conn := by
      change (if conn.closed = true then (pure () : ConnM Unit) else _) conn = _
      rw [if_pos closed]
      rfl
    unfold Outcome.Meets
    rw [stays]
    exact closed
  · have shuts : shutdown reason conn = shutdownTables reason { conn with closed := true, working := false } := by
      change (if conn.closed = true then (pure () : ConnM Unit) else _) conn = _
      rw [if_neg closed]
      rfl
    unfold Outcome.Meets
    rw [shuts]
    have runs : Keeps Effect (shutdownTables reason) { conn with closed := true, working := false } {}
        fun _ _ => True :=
      shutdownTables_keeps reason rfl rfl
    apply (runs { wellFormed with held := nofun }).mono
    · rintro _ after ⟨left, steps, _⟩
      exact closed_of_effects steps rfl
    · rintro error after ⟨left, steps, _⟩
      exact closed_of_effects steps rfl

end CapnpEs.Rpc
