import CapnpEs.Rpc.RefinementReads

/-! The handlers: whatever a connection does when a message arrives is a sequence of effects. -/

namespace CapnpEs.Rpc

open Relation SlotTable

variable {conn : Conn} {hand : Hand}

def Hand.receiving (m : RpcMessage) : Hand where
  message := some m
  incoming := hosted m.descriptors
  returned :=
    match m with
    | .release id referenceCount => List.replicate referenceCount id
    | _ => []

/-- A run of a handler: a protocol error is thrown only for what the peer did. -/
def Handles (program : ConnM Unit) (conn : Conn) (hand : Hand) : Prop :=
  Runs Effect program conn hand (fun _ _ left => left.releasing = none) fun error _ left =>
    left.releasing = none ∧ ∀ kind message, error = .protocol kind message → left.violated = some kind

theorem Handles.of_keeps {program : ConnM Unit} {h : Hand} {Q : Unit → Conn → Prop}
    (keeps : Keeps Effect program conn h Q) (idle : h.releasing = none) : Handles program conn h := by
  apply Runs.mono keeps
  · rintro value after left _ _ ⟨rfl, _⟩
    exact idle
  · rintro error after left _ _ ⟨rfl, plain⟩
    refine ⟨idle, ?_⟩
    rintro kind message rfl
    cases plain

theorem Hand.fault_releasing (hand : Hand) (error : RpcError) : (hand.fault error).releasing = hand.releasing := by
  cases error with
  | _ => rfl

theorem Handles.of_faults {program : ConnM Unit} {Q : Unit → Conn → Hand → Prop}
    (runs : Runs Effect program conn hand Q fun error _ left => left = hand.fault error)
    (idle : hand.releasing = none) (normal : ∀ value after left, Q value after left → left.releasing = none) :
    Handles program conn hand := by
  apply Runs.mono runs
  · intro value after left _ _ holds
    exact normal value after left holds
  · rintro error after left _ _ rfl
    refine ⟨(hand.fault_releasing error).trans idle, ?_⟩
    rintro kind message rfl
    rfl

theorem abortForProtocolError_keeps {kind : ProtocolErrorKind} (message : String)
    (violated : hand.violated = some kind) (unresumed : hand.resumed = none) :
    Keeps Effect (abortForProtocolError kind message) conn hand fun _ _ => True := by
  apply Keeps.get
  split
  · exact Keeps.pure trivial
  · rename_i isOpen
    apply Keeps.bind (Q := fun _ _ => True)
    · exact Keeps.modify (.single (.abort violated (Bool.eq_false_iff.mpr isOpen))) (fun formed => formed.say _) trivial
    · intro _ second _ _ _
      apply Keeps.bind (Q := fun _ _ => True)
      · exact Keeps.modify (.single (.notice rfl)) (fun formed => formed.send _) trivial
      · intro _ last _ _ _
        exact shutdown_keeps message unresumed

theorem abort_handles {m : RpcMessage} {kind : ProtocolErrorKind} (message : String)
    (received : hand.message = some m) (broken : conn.Broken kind m) (idle : hand.releasing = none)
    (unresumed : hand.resumed = none) :
    Handles (abortForProtocolError kind message) conn hand := by
  apply Runs.hold (.single (.violate received broken))
  exact Handles.of_keeps (h := { hand with violated := some kind }) (abortForProtocolError_keeps message rfl unresumed) idle

theorem Conn.WellFormed.withAnswer (wellFormed : conn.WellFormed) (id : WireId) :
    (conn.withAnswer id).WellFormed := by
  have first := (wellFormed.alterAnswer (a := conn.objects) (c := fun _ => { id := id }) (by simp)
    (by
      intro routed
      rw [wellFormed.unmade conn.objects (Nat.le_refl _)] at routed
      cases routed)
    (by simp) (by simp)).allocated
  apply first.setAnswerSlot id.id
  intro a same
  cases same
  exact Nat.lt_succ_self _

theorem Conn.withAnswer_answer (conn : Conn) (id : WireId) : (conn.withAnswer id).answer conn.objects = { id := id } := by
  simp [withAnswer, allocated, alterAnswer]

theorem insertAnswer_runs {id : WireId} {fails : RpcError → Conn → Hand → Prop}
    (asked : hand.message.bind RpcMessage.question = some id) :
    Runs Effect (insertAnswer id) conn hand
      (fun inserted after left => left = hand ∧ match inserted with
        | some a => after = conn.withAnswer id ∧ a = conn.objects
        | none => after = conn ∧ ∃ a, find conn.answers id.id = some a) fails := by
  apply Runs.get
  cases found : find conn.answers id.id with
  | some a => exact Runs.pure ⟨rfl, rfl, a, rfl⟩
  | none =>
      exact Runs.of_ok (v := some conn.objects) (h := hand) (n := conn.withAnswer id) rfl
        (.single (.insertAnswer asked found)) (fun formed => formed.withAnswer id) ⟨rfl, rfl, rfl⟩

theorem handleBootstrapMessage_handles (id : WireId) :
    Handles (handleBootstrapMessage id) conn (Hand.receiving (.bootstrap id)) := by
  apply Runs.bind (insertAnswer_runs rfl)
  rintro inserted after left _ formed ⟨rfl, outcome⟩
  cases inserted with
  | none =>
      exact Runs.modify (.single (.refuseBootstrap _ rfl)) (fun formed => formed.send _) rfl
  | some a =>
      obtain ⟨rfl, rfl⟩ := outcome
      have asks : (conn.withAnswer id).MayAnswer (Hand.receiving (.bootstrap id)) conn.objects := by
        right
        rw [Conn.withAnswer_answer]
        rfl
      apply Runs.get
      cases shape : (conn.withAnswer id).main with
      | none => exact Handles.of_keeps ((rejectAnswer_keeps _ _ fun _ => asks).lift fun _ _ => Effect.close) rfl
      | some main =>
          apply Runs.bind (Q := fun _ last left => left = Hand.receiving (.bootstrap id) ∧
            last.answer = (conn.withAnswer id).answer)
          · apply Runs.modifyGet (.single (QuietEffect.quiet (Quiet.newMessage [some main])).effect) ?_ ⟨rfl, rfl⟩
            intro formed
            apply (formed.setCapTable _ ?_).allocated
            intro client member
            simp only [List.mem_singleton, Option.some.injEq] at member
            rw [member]
            exact formed.mainInterface main shape
          · rintro message last left _ _ ⟨rfl, same⟩
            apply Handles.of_keeps (AnswerEntry.fulfill_keeps _ _ fun _ => ?_) rfl
            unfold Conn.MayAnswer
            rw [same]
            exact asks

theorem handleFinishMessage_handles (id : WireId) (releaseResultCaps : Bool) :
    Handles (handleFinishMessage id releaseResultCaps) conn (Hand.receiving (.finish id releaseResultCaps)) := by
  apply Runs.bind (Q := fun popped after left => after = conn.setAnswerSlot id.id none ∧
    popped = find conn.answers id.id ∧ left = { Hand.receiving (.finish id releaseResultCaps) with
      returned := conn.resultCapsAt id.id releaseResultCaps })
  · exact Runs.of_ok (v := find conn.answers id.id) rfl (.single (.finishAnswer rfl))
      (fun formed => formed.clearAnswerSlot id.id) ⟨rfl, rfl, rfl⟩
  · rintro popped after left _ _ ⟨rfl, rfl, rfl⟩
    cases found : find conn.answers id.id with
    | none => exact Runs.pure rfl
    | some a =>
        dsimp only
        split
        · rename_i releases
          apply Runs.get
          apply (releaseExports_runs _ _ [] ?_ rfl rfl).mono
          · rintro _ last left _ _ rfl
            rfl
          · rintro error last left _ _ ⟨rfl, plain⟩
            refine ⟨rfl, ?_⟩
            rintro kind message rfl
            cases plain
          · simp only [Conn.resultCapsAt, found, releases, ↓reduceIte, List.append_nil]
            rfl
        · exact Runs.pure rfl

theorem handleReleaseMessage_handles (id : WireId) (referenceCount : Nat) :
    Handles (handleReleaseMessage id referenceCount) conn (Hand.receiving (.release id referenceCount)) := by
  apply (releaseExport_runs id referenceCount [] (List.append_nil _).symm rfl rfl).mono
  · rintro _ last left _ _ rfl
    rfl
  · rintro error last left _ _ ⟨rfl, plain⟩
    refine ⟨rfl, ?_⟩
    rintro kind message rfl
    cases plain

theorem ImportClient.liftEmbargo_keeps {id : Nat} (embargoId : Nat) (lifting : hand.lifting = some id) :
    Keeps Effect (ImportClient.liftEmbargo id embargoId) conn hand fun _ _ => True := by
  apply Keeps.get
  cases conn.client id with
  | importClient c =>
      dsimp only
      split
      · apply Keeps.bind (Q := fun _ _ => True)
        · exact Keeps.modify (.single (.lifted lifting (Client.core_withoutEmbargo _)))
            (fun formed => formed.withoutEmbargo id) trivial
        · intro _ after _ _ _
          cases c.resolved with
          | none => exact Keeps.pure trivial
          | some resolved => exact flushTo_keeps resolved conn.stack (Or.inl lifting)
      · exact Keeps.pure trivial
  | _ => exact Keeps.pure trivial

theorem handleDisembargoMessage_handles (target : MessageTarget) (context : DisembargoContext) :
    Handles (handleDisembargoMessage target context (.disembargo target context)) conn
      (Hand.receiving (.disembargo target context)) := by
  cases context with
  | senderLoopback id =>
      exact Runs.modify (.single (.notice rfl)) (fun formed => formed.send _) rfl
  | other =>
      exact Runs.modify (.single (.notice rfl)) (fun formed => formed.send _) rfl
  | receiverLoopback id =>
      apply Runs.get
      cases found : find conn.disembargoes id.id with
      | none => exact Runs.pure rfl
      | some client =>
          apply Runs.hold (.single (.lift rfl found rfl))
          apply Handles.of_keeps (Q := fun _ _ => True) _ rfl
          apply Keeps.bind (Q := fun _ _ => True)
          · exact Keeps.set (.single (QuietEffect.quiet (Quiet.dropDisembargo id.id _)).effect)
              (fun formed => formed.dropDisembargo found) trivial
          · intro _ after _ _ _
            exact ImportClient.liftEmbargo_keeps id.id rfl

theorem ImportClient.setResolved_keeps (id : Nat) {client : Nat} (made : client < conn.objects) :
    Keeps Effect (ImportClient.setResolved id client) conn hand fun _ _ => True := by
  apply Keeps.get
  cases conn.client id with
  | importClient c =>
      dsimp only
      split
      · exact (close_keeps client).lift fun _ _ => Effect.close
      · apply Keeps.bind ((closeOptional_keeps (fun conn hand client => close_keeps client) c.resolved).lift
          fun _ _ => Effect.close)
        intro _ after steps _ _
        exact (withResolved_keeps id (Nat.lt_of_lt_of_le made (objects_le_of_effects steps))).lift
          fun _ _ => QuietEffect.effect
  | _ => exact Keeps.pure trivial

theorem resolveToError_keeps (importClient : Nat) (reason : String) :
    Keeps Effect (resolveToError importClient reason) conn hand fun _ _ => True := by
  apply Keeps.bind ((newClient_keeps (c := .error reason) rfl (by simp [Client.references])
    (by simp [Client.calls])).lift fun _ _ => QuietEffect.effect)
  intro client after _ _ made
  exact ImportClient.setResolved_keeps importClient made

theorem activateEmbargo_quiet (conn : Conn) (client id : Nat) :
    Quiet conn (conn.setClient client ((conn.client client).withEmbargo id)) ∧
      (conn.WellFormed → (conn.setClient client ((conn.client client).withEmbargo id)).WellFormed) := by
  have core : ((conn.client client).withEmbargo id).core = (conn.client client).core := by
    cases conn.client client with
    | _ => rfl
  have references : ((conn.client client).withEmbargo id).references = (conn.client client).references := by
    cases conn.client client with
    | _ => rfl
  have calls : ((conn.client client).withEmbargo id).calls = (conn.client client).calls := by
    cases conn.client client with
    | _ => rfl
  refine ⟨Quiet.setClient core (.withEmbargo _ _), ?_⟩
  intro formed
  apply formed.setClient
  · intro beyond
    rw [core]
    exact formed.unmadeClients client beyond
  · rw [references]
    exact formed.clients client
  · rw [calls]
    exact formed.calls client
  · exact .of_same core calls

theorem embargo_keeps (promiseId : WireId) {importClient : Nat} (descriptor : CapDescriptor)
    (made : importClient < conn.objects) {resolves : WireId} {resolution : Resolution}
    (received : hand.message = some (.resolve resolves resolution)) :
    Keeps Effect (embargo promiseId importClient descriptor) conn hand fun _ _ => True := by
  unfold embargo
  split
  · have marked := activateEmbargo_quiet (conn.withEmbargo (.importedCap promiseId) importClient) importClient
      conn.disembargoID.next.1
    apply Keeps.of_ok (v := ()) (n := (conn.withEmbargo (.importedCap promiseId) importClient).setClient
      importClient (((conn.withEmbargo (.importedCap promiseId) importClient).client importClient).withEmbargo
        conn.disembargoID.next.1))
    · rfl
    · exact (ReflTransGen.single (.embargo (.importedCap promiseId) importClient received)).tail
        (QuietEffect.quiet marked.1).effect
    · intro formed
      exact marked.2 ((formed.registerDisembargo made).send _)
    · trivial
  · exact Keeps.pure trivial

variable (conn hand) in
theorem notice_keeps (message : RpcMessage) (plain : message.isNotice) :
    Keeps Effect (sendMessage message) conn hand fun _ _ => True :=
  Keeps.modify (.single (.notice plain)) (fun formed => formed.send _) trivial

theorem capability_none {promiseId : WireId} {descriptor : CapDescriptor} (empty : descriptor = .none) :
    ∃ id, RpcMessage.resolve promiseId (.cap descriptor) = .resolve id (.cap .none) :=
  ⟨promiseId, by rw [empty]⟩

theorem discardLateResolve_handles (promiseId : WireId) (resolution : Resolution) :
    Handles (discardLateResolve resolution (.resolve promiseId resolution)) conn
      (Hand.receiving (.resolve promiseId resolution)) := by
  cases resolution with
  | cap descriptor =>
      apply Handles.of_faults (Q := fun _ _ left => left.releasing = none) _ rfl fun _ _ _ idle => idle
      apply catchNonProtocol_runs
      · apply (discardResolvedCap_runs (Hand.receiving (.resolve promiseId (.cap descriptor))) rfl
          (List.mem_singleton.mpr rfl) capability_none ?_).mono
        · rintro _ after left _ _ rfl
          rfl
        · intro error after left _ _ failed
          exact failed
        · exact hosted_singleton descriptor
      · intro message after _ _
        exact Runs.modify (.single (.notice rfl)) (fun formed => formed.send _) rfl
  | exception reason => exact Runs.pure rfl
  | other => exact Runs.pure rfl

theorem resolveImport_handles (promiseId imported : WireId) {importClient : Nat} (resolution : Resolution)
    {hand : Hand} (held : hand = Hand.receiving (.resolve promiseId resolution)) (imports : importClient < conn.objects) :
    Handles (resolveImport imported importClient resolution (.resolve promiseId resolution)) conn hand := by
  subst held
  cases resolution with
  | exception reason => exact Handles.of_keeps (resolveToError_keeps importClient reason) rfl
  | other => exact Handles.of_keeps (resolveToError_keeps importClient _) rfl
  | cap descriptor =>
      have given : (Hand.receiving (.resolve promiseId (.cap descriptor))).incoming =
          descriptor.hosted.toList ++ [] := by
        rw [List.append_nil]
        exact hosted_singleton descriptor
      have reads := readNonProtocol_runs (clientFromCapDescriptor_runs conn
        (Hand.receiving (.resolve promiseId (.cap descriptor))) rfl (List.mem_singleton.mpr rfl)
        capability_none given)
      apply Handles.of_faults (Q := fun _ _ left => left.releasing = none) _ rfl fun _ _ _ idle => idle
      apply Runs.bind reads
      rintro outcome after left steps _ read
      have present := Nat.lt_of_lt_of_le imports (objects_le_of_effects steps)
      cases outcome with
      | error reason =>
          subst read
          apply Runs.mono (Keeps.bind (notice_keeps after
            { Hand.receiving (.resolve promiseId (.cap descriptor)) with incoming := [] }
            (newUnimplementedMessage (.resolve promiseId (.cap descriptor))) rfl)
            fun _ last _ _ _ => resolveToError_keeps importClient reason)
          · rintro _ last left _ _ ⟨rfl, _⟩
            rfl
          · rintro error last left _ _ ⟨rfl, plain⟩
            cases error with
            | protocol kind message => cases plain
            | error message => rfl
      | ok client =>
          obtain ⟨rfl, made⟩ := read
          apply Runs.mono (Keeps.bind (ImportClient.setResolved_keeps importClient made)
            fun _ last later _ _ =>
              embargo_keeps imported descriptor (Nat.lt_of_lt_of_le present (objects_le_of_effects later)) rfl)
          · rintro _ last left _ _ ⟨rfl, _⟩
            rfl
          · rintro error last left _ _ ⟨rfl, plain⟩
            cases error with
            | protocol kind message => cases plain
            | error message => rfl

theorem handleResolveMessage_handles (promiseId : WireId) (resolution : Resolution) :
    Handles (handleResolveMessage promiseId resolution (.resolve promiseId resolution)) conn
      (Hand.receiving (.resolve promiseId resolution)) := by
  intro wellFormed
  apply Runs.get _ wellFormed
  cases found : find conn.imports promiseId.id with
  | none => exact discardLateResolve_handles promiseId resolution
  | some entry =>
      dsimp only
      cases shape : conn.client (conn.refCount entry.rc).client with
      | importClient c =>
          dsimp only
          split
          · apply Runs.bind (Q := fun _ _ left => left = Hand.receiving (.resolve promiseId resolution))
            · apply Runs.set (.single (QuietEffect.quiet ?_).effect) ?_ rfl
              · refine { Quiet.refl conn with imports := ?_ }
                intro id
                simp only [Conn.setImport, find_put]
                split
                · rename_i same
                  rw [same, found]
                  rfl
                · rfl
              · intro formed
                exact formed.recountImport found rfl
            · rintro _ after left steps _ rfl
              apply resolveImport_handles promiseId _ resolution rfl
              exact Nat.lt_of_lt_of_le (wellFormed.made (by simp [shape, Client.core])) (objects_le_of_effects steps)
          · exact discardLateResolve_handles promiseId resolution
      | _ => exact Runs.throw ⟨rfl, by rintro kind message same; cases same⟩

theorem refuseCall_runs {id : WireId} {target : MessageTarget} {method : Method} {sendResultsTo : SendResultsTo}
    {params : Payload} (reason : String) (asked : hand.message = some (.call id target method sendResultsTo params))
    (idle : hand.releasing = none) : Handles (refuseCall id params reason) conn hand :=
  Runs.of_ok (v := ()) (h := hand) rfl (.single (.refuse reason asked)) (fun formed => (formed.say _).send _) idle

theorem queueCall_keeps {pa a : Nat} (call : Call) (transform : Transform) (made : a < conn.objects)
    (may : conn.MayAnswer hand a) :
    Keeps Effect (AnswerEntry.queueCall pa call transform a) conn hand fun _ _ => True := by
  apply Keeps.get
  split
  · exact Keeps.throw
  · apply Keeps.bind (Q := fun _ after => (after.answer a).routed)
    · apply Keeps.modify (.single (.route may rfl))
      · intro formed
        exact formed.alterAnswer (fun _ => rfl) (fun _ => rfl) (fun pc member => Or.inl member) fun _ => made
      · simp [Conn.alterAnswer]
    · intro _ after _ _ routed
      apply Keeps.modify (.single (QuietEffect.quiet (Quiet.alterAnswer rfl)).effect) ?_ trivial
      intro formed
      apply formed.alterAnswer
      · exact fun waits => formed.joined pa waits
      · exact fun was => was
      · intro pc member
        rcases List.mem_append.mp member with old | new
        · exact Or.inl old
        · right
          rw [List.mem_singleton.mp new]
          exact routed
      · intro was
        exact formed.made_of_routed was

section Routing

variable {id : WireId} {method : Method} {sendResultsTo : SendResultsTo} {params : Payload}

structure Conn.Answering (conn : Conn) (hand : Hand) (id : WireId) (a : Nat) : Prop where
  made : a < conn.objects
  same : (conn.answer a).id = id
  asked : hand.message.bind RpcMessage.question = some id

theorem Conn.Answering.may {a : Nat} (answering : conn.Answering hand id a) : conn.MayAnswer hand a := by
  right
  rw [answering.asked, answering.same]

theorem Conn.Answering.after {after : Conn} {a : Nat} (answering : conn.Answering hand id a)
    (steps : ReflTransGen Effect (conn, hand) (after, hand)) : after.Answering hand id a where
  made := Nat.lt_of_lt_of_le answering.made (objects_le_of_effects steps)
  same := (keepsAnswer_of_effects steps answering.made).id.trans answering.same
  asked := answering.asked

theorem callAndJoin_keeps {a : Nat} (client : Nat) (call : Call) (answering : conn.Answering hand id a) :
    Keeps Effect (callClient conn.stack client call >>= fun answer => joinAnswer a answer) conn hand
      fun _ _ => True := by
  apply Keeps.bind (callClient_keeps conn.stack client call)
  intro answer after steps _ _
  have later := answering.after steps
  exact joinAnswer_keeps answer later.made later.may

theorem Keeps.fault {program : ConnM Unit} {Q : Unit → Conn → Prop} (empty : hand.incoming = [])
    (keeps : Keeps Effect program conn hand Q) : Runs Effect program conn hand (fun _ _ left => left = hand)
      fun error _ left => left = hand.fault error := by
  apply Runs.mono keeps
  · rintro value after left _ _ ⟨rfl, _⟩
    rfl
  · rintro error after left _ _ ⟨rfl, plain⟩
    cases error with
    | protocol kind message => cases plain
    | error message =>
        simp only [Hand.fault]
        rw [← empty]

theorem routeCallMessage_runs {a : Nat} {target : MessageTarget} (call : Call)
    (received : hand.message = some (.call id target method sendResultsTo params)) (empty : hand.incoming = [])
    (present : target ≠ .other) (answering : conn.Answering hand id a) :
    Runs Effect (routeCallMessage a target call) conn hand (fun _ _ left => left = hand)
      fun error _ left => left = hand.fault error := by
  cases target with
  | other => exact absurd rfl present
  | importedCap cap =>
      apply Runs.get
      cases found : conn.findExport cap.id with
      | none => exact throwProtocol_runs received (.noExport found)
      | some e => exact (callAndJoin_keeps e.client call answering).fault empty
  | promisedAnswer promised transform =>
      apply Runs.get
      split
      · rename_i own
        rw [answering.same] at own
        exact throwProtocol_runs received (.ownAnswer own)
      · cases found : find conn.answers promised.id with
        | none => exact throwProtocol_runs received (.noAnswer found)
        | some pa =>
            dsimp only
            split
            · apply Keeps.fault (Q := fun _ _ => True) empty
              apply Keeps.bind ((clientFromResolution_keeps transform _ _).lift fun _ _ => QuietEffect.effect)
              intro client after steps _ _
              apply Keeps.bind (callClient_keeps conn.stack client call)
              intro answer last more _ _
              have later := answering.after (steps.trans more)
              exact joinAnswer_keeps answer later.made later.may
            · exact (queueCall_keeps call transform answering.made answering.may).fault empty

theorem startCall_handles {a : Nat} {target : MessageTarget} (message : Nat)
    (received : hand.message = some (.call id target method sendResultsTo params)) (empty : hand.incoming = [])
    (idle : hand.releasing = none) (present : target ≠ .other) (answering : conn.Answering hand id a)
    (found : find conn.answers id.id = some a) (unrouted : (conn.answer a).routed = false) :
    Handles (startCall a id target method sendResultsTo params message) conn hand := by
  have refuses : Handles (do
      let _ ← popAnswer id.id
      refuseCall id params RPC_UNIMPLEMENTED) conn hand := by
    apply Runs.of_ok (v := ()) (h := hand) (n := ((conn.setAnswerSlot id.id none).say
      (.callRefused id params.capTable)).send (newReturnMessage id (.exception RPC_UNIMPLEMENTED)))
    · rfl
    · exact .single (.forgetAnswer _ received found unrouted)
    · intro formed
      exact ((formed.clearAnswerSlot id.id).say _).send _
    · exact idle
  have routes : ∀ method', Handles (do
      alterAnswer a fun entry => { entry with sendResultsElsewhere := decide (sendResultsTo = .yourself) }
      readContent params.content
      catchNonProtocol
        (routeCallMessage a target
          { method := method', params := { content := params.content, message := message } })
        fun reason => rejectAnswer a reason) conn hand := by
    intro method'
    apply Handles.of_faults (Q := fun _ _ left => left = hand) _ idle
    · rintro _ after left rfl
      exact idle
    · apply Runs.bind (Q := fun _ after left => left = hand ∧ after.Answering hand id a)
      · apply Runs.modify (.single (QuietEffect.quiet (Quiet.alterAnswer rfl)).effect)
        · intro formed
          exact formed.touchAnswer rfl (fun waits => waits) fun _ member => member
        · refine ⟨rfl, ?_⟩
          exact answering.after (.single (QuietEffect.quiet (Quiet.alterAnswer rfl)).effect)
      · rintro _ after left _ _ ⟨rfl, answering⟩
        apply Runs.bind (Q := fun _ last held => held = left ∧ last = after)
        · apply Runs.mono (readContent_keeps params.content)
          · rintro _ last held _ _ holds
            exact holds
          · rintro error last held _ _ ⟨rfl, plain⟩
            cases error with
            | protocol kind message => cases plain
            | error message =>
                simp only [Hand.fault]
                rw [← empty]
        rintro _ read left _ _ ⟨rfl, rfl⟩
        apply catchNonProtocol_runs
        · exact routeCallMessage_runs _ received empty present answering
        · intro reason last steps _
          have same : ({ left with incoming := [] } : Hand) = left := by rw [← empty]
          rw [same] at steps ⊢
          have later := answering.after steps
          exact ((rejectAnswer_keeps a reason fun _ => later.may).lift fun _ _ => Effect.close).fault empty
  apply Runs.get
  cases sendResultsTo with
  | thirdParty =>
      cases conn.lookupMethod method with
      | _ => exact refuses
  | caller =>
      cases conn.lookupMethod method with
      | none => exact refuses
      | some method' => exact routes method'
  | yourself =>
      cases conn.lookupMethod method with
      | none => exact refuses
      | some method' => exact routes method'

end Routing

theorem handleCallMessage_handles (id : WireId) (target : MessageTarget) (method : Method)
    (sendResultsTo : SendResultsTo) (params : Payload) :
    Handles (handleCallMessage id target method sendResultsTo params) conn
      (Hand.receiving (.call id target method sendResultsTo params)) := by
  unfold handleCallMessage
  split
  · rename_i other
    subst other
    apply Handles.of_faults (Q := fun _ _ left => left.releasing = none) _ rfl fun _ _ _ idle => idle
    exact throwProtocol_runs rfl .noTarget
  · rename_i present
    have reads := readNonProtocol_runs (readPayload_runs conn
      (Hand.receiving (.call id target method sendResultsTo params)) params rfl rfl rfl)
    apply Runs.bind (Q := fun _ _ left => left =
      { Hand.receiving (.call id target method sendResultsTo params) with incoming := [] })
    · apply reads.mono
      · rintro outcome after left _ _ read
        cases outcome with
        | _ => exact read
      · rintro error after left _ _ rfl
        refine ⟨Hand.fault_releasing _ error, ?_⟩
        rintro kind message rfl
        rfl
    · rintro outcome after left _ _ rfl
      cases outcome with
      | error reason => exact refuseCall_runs reason rfl rfl
      | ok struct =>
          apply Runs.bind (insertAnswer_runs rfl)
          rintro inserted last left _ _ ⟨rfl, outcome⟩
          cases inserted with
          | none =>
              obtain ⟨rfl, a, found⟩ := outcome
              exact abort_handles _ rfl (.reused found) rfl rfl
          | some a =>
              obtain ⟨rfl, rfl⟩ := outcome
              apply startCall_handles struct.message rfl rfl rfl present
              · refine ⟨Nat.lt_succ_self _, ?_, rfl⟩
                rw [Conn.withAnswer_answer]
              · simp [Conn.withAnswer, Conn.allocated, Conn.alterAnswer, Conn.setAnswerSlot]
              · rw [Conn.withAnswer_answer]

variable (hand) in
theorem settleQuestion_runs {id : WireId} {releaseParamCaps noFinishNeeded : Bool} {body : ReturnBody} {q : Nat}
    (made : q < conn.objects)
    (received : hand.message = some (.ret id releaseParamCaps noFinishNeeded body))
    (given : hand.incoming = hosted (RpcMessage.ret id releaseParamCaps noFinishNeeded body).descriptors) :
    Runs Effect (settleQuestion q id.id body (.ret id releaseParamCaps noFinishNeeded body)) conn hand
      (fun _ _ left => left = { hand with incoming := [] })
      fun error _ left => (left = { hand with incoming := [] } ∧ error.isPlain) ∨
        ∃ kind, left = { hand with incoming := [], violated := some kind } ∧
          ∀ kind' message, error = .protocol kind' message → kind' = kind := by
  have rejects : ∀ reason, hosted (RpcMessage.ret id releaseParamCaps noFinishNeeded body).descriptors = [] →
      Runs Effect (Question.reject q reason) conn hand (fun _ _ left => left = { hand with incoming := [] })
        fun error _ left => (left = { hand with incoming := [] } ∧ error.isPlain) ∨
          ∃ kind, left = { hand with incoming := [], violated := some kind } ∧
            ∀ kind' message, error = .protocol kind' message → kind' = kind := by
    intro reason empty
    have same : hand = { hand with incoming := [] } := by rw [← empty, ← given]
    rw [← same]
    apply Runs.mono ((Question.reject_keeps q reason).lift fun _ _ => QuietEffect.effect)
    · rintro _ after left _ _ ⟨rfl, _⟩
      rfl
    · rintro error after left _ _ failed
      exact Or.inl failed
  cases body with
  | results payload =>
      have reads := readPayload_runs conn _ payload received rfl given
      apply Runs.bind (Q := fun outcome _ left => (∀ obj, outcome = .ok obj → left = { hand with incoming := [] }) ∧
        ∀ error, outcome = .error error → left = hand.fault error)
      · apply Runs.tryCatch (G := fun error _ left => left = hand.fault error)
        · apply Runs.bind (Runs.mono reads (fun _ _ _ _ _ holds => holds) fun _ _ _ _ _ failed => failed)
          intro struct after left _ _ holds
          refine Runs.pure ⟨fun _ _ => holds, fun error failed => ?_⟩
          cases failed
        · rintro error after left _ _ failed
          refine Runs.pure ⟨fun obj returned => ?_, fun other same => ?_⟩
          · cases returned
          · cases same
            exact failed
      · rintro outcome after left _ _ ⟨returned, failed⟩
        cases outcome with
        | ok obj =>
            have read := returned obj rfl
            subst read
            apply Runs.mono (Keeps.bind (readContent_keeps payload.content) fun _ _ _ _ _ =>
              (Question.fulfill_keeps q obj).lift fun _ _ => QuietEffect.effect)
            · rintro _ last left _ _ ⟨rfl, _⟩
              rfl
            · rintro error last left _ _ failed
              exact Or.inl failed
        | error error =>
            have read := failed error rfl
            subst read
            cases error with
            | protocol kind message =>
                apply Runs.bind (Q := fun _ _ left => left = hand.fault (.protocol kind message))
                · apply Runs.mono ((Question.reject_keeps q message).lift fun _ _ => QuietEffect.effect)
                  · rintro _ last left _ _ ⟨rfl, _⟩
                    rfl
                  · rintro error last left _ _ ⟨rfl, plain⟩
                    right
                    refine ⟨kind, rfl, ?_⟩
                    rintro kind' text rfl
                    cases plain
                · rintro _ last left _ _ rfl
                  apply Runs.throw
                  right
                  refine ⟨kind, rfl, ?_⟩
                  rintro kind' text same
                  cases same
                  rfl
            | error message =>
                apply Runs.mono (Q := fun _ _ left => left = hand.fault (.error message))
                  (F := fun error _ left => left = hand.fault (.error message) ∧ error.isPlain)
                · apply Runs.tryCatch (G := fun error _ left =>
                    left = hand.fault (.error message) ∧ error.isPlain)
                  · apply Runs.bind (Q := fun _ _ left => left = hand.fault (.error message))
                    · exact Runs.modify (.single (.notice rfl)) (fun formed => formed.send _) rfl
                    · rintro _ last left _ _ rfl
                      apply Runs.mono ((Question.reject_keeps q message).lift fun _ _ => QuietEffect.effect)
                      · rintro _ last left _ _ ⟨rfl, _⟩
                        rfl
                      · intro error last left _ _ failed
                        exact failed
                  · rintro later last left _ _ ⟨rfl, plain⟩
                    apply Runs.bind (Q := fun _ _ left => left = hand.fault (.error message))
                    · apply Runs.mono ((Question.reject_keeps q later.message).lift fun _ _ => QuietEffect.effect)
                      · rintro _ last left _ _ ⟨rfl, _⟩
                        rfl
                      · intro error last left _ _ failed
                        exact failed
                    · rintro _ last left _ _ rfl
                      exact Runs.throw ⟨rfl, plain⟩
                · intro _ last left _ _ holds
                  exact holds
                · intro error last left _ _ failed
                  exact Or.inl failed
  | exception reason => exact rejects reason rfl
  | canceled => exact rejects _ rfl
  | resultsSentElsewhere => exact rejects _ rfl
  | other => exact rejects _ rfl
  | takeFromOtherQuestion other =>
      have same : hand = { hand with incoming := [] } := by
        rw [show ([] : List WireId) = hand.incoming from given.symm]
      unfold settleQuestion takeFromOther
      apply Runs.get
      split
      · exact rejects _ rfl
      · cases find conn.answers other with
        | none => exact rejects _ rfl
        | some source =>
            dsimp only
            split
            · cases (conn.answer source).err with
              | some reason => exact rejects reason rfl
              | none =>
                  cases (conn.answer source).obj with
                  | none => exact rejects _ rfl
                  | some obj =>
                      rw [← same]
                      apply Runs.mono ((Question.fulfill_keeps q obj).lift fun _ _ => QuietEffect.effect)
                      · rintro _ after left _ _ ⟨rfl, _⟩
                        rfl
                      · rintro error after left _ _ failed
                        exact Or.inl failed
            · apply Runs.set (.single (.wait _ received)) ?_ same
              intro formed
              apply formed.setWaiters
              intro qs shape q' member
              cases shape
              rcases List.mem_append.mp member with old | new
              · cases waiting : find conn.tailAnswerWaiters other with
                | none => simp [waiting] at old
                | some qs => exact formed.waiters other qs waiting q' (by simpa [waiting] using old)
              · rw [List.mem_singleton.mp new]
                exact made
  | unreadable reason =>
      have same : hand = { hand with incoming := [] } := by
        rw [show ([] : List WireId) = hand.incoming from given.symm]
      exact Runs.throw (Or.inl ⟨same, rfl⟩)

theorem handleReturnMessage_handles (id : WireId) (releaseParamCaps noFinishNeeded : Bool) (body : ReturnBody) :
    Handles (handleReturnMessage id releaseParamCaps noFinishNeeded body
      (.ret id releaseParamCaps noFinishNeeded body)) conn
      (Hand.receiving (.ret id releaseParamCaps noFinishNeeded body)) := by
  cases isOpen : conn.findQuestion id.id with
  | none =>
      have run : popQuestion id.id conn = .ok none conn := by
        rw [popQuestion, Outcome.bind_apply, Outcome.get_apply]
        dsimp only
        rw [isOpen]
        rfl
      apply Runs.bind (Q := fun popped after left => popped = none ∧ after = conn ∧
        left = Hand.receiving (.ret id releaseParamCaps noFinishNeeded body))
      · exact Runs.of_ok run .refl (fun formed => formed) ⟨rfl, rfl, rfl⟩
      · rintro popped after left _ _ ⟨rfl, rfl, rfl⟩
        exact abort_handles _ rfl (.unknownQuestion isOpen) rfl rfl
  | some q =>
      let held : Hand := { Hand.receiving (.ret id releaseParamCaps noFinishNeeded body) with
        taken := some ⟨id.id, q⟩
        returned := if releaseParamCaps then (conn.question q).paramCaps else [] }
      intro wellFormed
      have made := wellFormed.questions id.id q isOpen
      have settles : Handles (do
          let conn ← get
          (if releaseParamCaps then (conn.question q).paramCaps else []).forM fun cap => releaseExport cap.id 1
          settleQuestion q id.id body (.ret id releaseParamCaps noFinishNeeded body)
          if noFinishNeeded then
            return ()
          else
            sendMessage (newFinishMessage ⟨id.id, q⟩ (!body.keepsResultCaps)))
          ((conn.dropQuestion id.id).say (.returnUsed q id)) held := by
        apply Runs.get
        apply Runs.bind (Q := fun _ _ left => left = { held with returned := [] })
        · apply (releaseExports_runs held _ [] (List.append_nil _).symm rfl rfl).mono
          · intro _ after left _ _ holds
            exact holds
          · rintro error after left _ _ ⟨rfl, plain⟩
            refine ⟨rfl, ?_⟩
            rintro kind message rfl
            cases plain
        · rintro _ after left steps _ rfl
          have below := Nat.lt_of_lt_of_le made (objects_le_of_effects steps)
          apply Runs.bind (Q := fun _ _ left => left = { held with returned := [], incoming := [] })
          · apply (settleQuestion_runs { held with returned := [] } below rfl rfl).mono
            · intro _ last left _ _ holds
              exact holds
            · rintro error last left _ _ (⟨rfl, plain⟩ | ⟨kind, rfl, agrees⟩)
              · refine ⟨rfl, ?_⟩
                rintro kind message rfl
                cases plain
              · refine ⟨rfl, ?_⟩
                intro kind' message same
                rw [agrees kind' message same]
          · rintro _ last left _ _ rfl
            split
            · exact Runs.pure rfl
            · exact Runs.modify (.single (.finish rfl rfl)) (fun formed => formed.send _) rfl
      apply Runs.after (.single (.takeReturn rfl isOpen)) (fun formed => (formed.dropQuestion isOpen).say _) settles ?_ wellFormed
      change (popQuestion id.id >>= _) conn = _
      rw [Outcome.bind_apply, popQuestion_run isOpen]
      rfl

theorem dispatchMessage_handles (m : RpcMessage) : Handles (dispatchMessage m) conn (Hand.receiving m) := by
  cases m with
  | unimplemented message => exact Runs.pure rfl
  | abort reason => exact Handles.of_keeps (shutdown_keeps reason rfl) rfl
  | bootstrap id => exact handleBootstrapMessage_handles id
  | call id target method sendResultsTo params => exact handleCallMessage_handles id target method sendResultsTo params
  | ret id releaseParamCaps noFinishNeeded body =>
      exact handleReturnMessage_handles id releaseParamCaps noFinishNeeded body
  | finish id releaseResultCaps => exact handleFinishMessage_handles id releaseResultCaps
  | resolve promiseId resolution => exact handleResolveMessage_handles promiseId resolution
  | release id referenceCount => exact handleReleaseMessage_handles id referenceCount
  | disembargo target context => exact handleDisembargoMessage_handles target context
  | unsupported => exact Handles.of_keeps (notice_keeps _ _ _ rfl) rfl
  | unknown => exact Runs.pure rfl

theorem handleMessage_runs (m : RpcMessage) : Runs Effect (handleMessage m) conn (Hand.receiving m)
    (fun _ _ left => left.releasing = none) fun _ _ left => left.releasing = none := by
  apply Runs.tryCatch (dispatchMessage_handles m)
  rintro error after left steps _ ⟨idle, faults⟩
  cases error with
  | protocol kind message =>
      apply Runs.mono (abortForProtocolError_keeps message (faults kind message rfl) (resumed_of_effects steps))
      · rintro _ last left _ _ ⟨rfl, _⟩
        exact idle
      · rintro error last left _ _ ⟨rfl, _⟩
        exact idle
  | error message => exact Runs.throw idle

theorem work_runs (m : RpcMessage) : Runs Effect (work m) conn (Hand.receiving m)
    (fun _ _ left => left.releasing = none) fun _ _ _ => False := by
  apply Runs.tryCatch (G := fun _ _ left => left.releasing = none)
  · apply Runs.bind (handleMessage_runs m)
    rintro _ after left _ _ idle
    apply Runs.modify (.single (QuietEffect.quiet ?_).effect) (fun formed => { formed with }) idle
    exact { Quiet.refl after with receiving := fun waits => (Bool.and_eq_true_iff.mp waits).1 }
  · rintro error after left _ _ idle
    apply Runs.modify (.single (QuietEffect.quiet ?_).effect) (fun formed => { formed with }) idle
    exact { Quiet.refl after with receiving := nofun }

end CapnpEs.Rpc
