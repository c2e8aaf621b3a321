import CapnpEs.Rpc.CallTurns

/-! The turns of the handlers, all but that of a Return. -/

namespace CapnpEs.Rpc

open Outcome Relation SlotTable

variable {P : Set Power} {conn : Conn}

theorem refCountRef_idle (rc : Nat) : Moves (Idle P) (RefCount.ref rc) := by
  apply Moves.get
  intro conn
  dsimp only
  split
  · exact Moves.throw _ conn
  · apply Moves.follow
    · exact Idle.of_eq rfl
    · exact fun _ => newClient_idle rfl

theorem addImport_idle (adopt : Power.adopt ∈ P) (id : WireId) (isPromise : Bool) :
    Moves (Idle P) (addImport id isPromise) := by
  apply Moves.get
  intro conn
  cases find conn.imports id.id with
  | some entry =>
      apply Moves.follow
      · exact Idle.setImport conn id.id (Or.inl adopt)
      · exact fun _ => refCountRef_idle entry.rc
  | none =>
      have opens : Moves (Idle P) (newClient (.importClient { id := id })) := by
        apply Moves.modifyGet
        intro conn
        have follows : (conn.client conn.objects).Follows P (.importClient { id := id }) := by
          constructor
          · intro q transform same
            cases same
          · intro unadopted
            exact absurd adopt unadopted
        exact (Idle.setClient conn conn.objects follows).trans (.allocated _)
      apply Moves.follow (opens conn)
      intro client
      apply Moves.bind (refCountNew_idle client)
      intro made
      apply Moves.bind (Moves.modify fun conn => .setImport conn id.id (Or.inl adopt))
      exact fun _ => Moves.pure _

theorem clientFromCapDescriptor_idle (descriptor : CapDescriptor)
    (adopt : descriptor.hosted.isSome → Power.adopt ∈ P) : Moves (Idle P) (clientFromCapDescriptor descriptor) := by
  cases descriptor with
  | senderHosted id => exact addImport_idle (adopt rfl) id false
  | senderPromise id => exact addImport_idle (adopt rfl) id true
  | receiverHosted id =>
      apply Moves.get
      intro conn
      cases conn.findExport id.id with
      | none => exact Moves.throw _ conn
      | some e =>
          have refs : Moves (Idle P) (refExport e) := Moves.tryCatch (refCountRef_idle e.rc) fun _ => Moves.throw _
          exact refs conn
  | receiverAnswer id transform =>
      apply Moves.get
      intro conn
      cases find conn.answers id.id with
      | none => exact Moves.throw _ conn
      | some a => exact newClient_idle rfl conn
  | none => exact Moves.throw _
  | thirdPartyHosted => exact Moves.throw _

theorem hosted_cons_nonempty (descriptor : CapDescriptor) (capTable : List CapDescriptor) :
    (descriptor.hosted.isSome → hosted (descriptor :: capTable) ≠ []) ∧
      (hosted capTable ≠ [] → hosted (descriptor :: capTable) ≠ []) := by
  unfold hosted
  rw [List.filterMap_cons]
  cases descriptor.hosted with
  | none => simp
  | some id => simp

theorem populateMessageCapTable_idle (capTable : List CapDescriptor) (adopt : hosted capTable ≠ [] → Power.adopt ∈ P) :
    Moves (Idle P) (populateMessageCapTable capTable) := by
  induction capTable with
  | nil => exact Moves.pure _
  | cons descriptor capTable ih =>
      have ih := ih fun some => adopt ((hosted_cons_nonempty descriptor capTable).2 some)
      have reads : Moves (Idle P) (do
          let client ← clientFromCapDescriptor descriptor
          let rest ← populateMessageCapTable capTable
          return some client :: rest) := by
        apply Moves.bind (clientFromCapDescriptor_idle descriptor fun some => adopt ((hosted_cons_nonempty descriptor capTable).1 some))
        intro client
        exact Moves.bind ih fun _ => Moves.pure _
      cases descriptor with
      | none => exact Moves.bind ih fun _ => Moves.pure _
      | _ => exact reads

theorem readPayload_idle (payload : Payload) (adopt : hosted payload.capTable ≠ [] → Power.adopt ∈ P) :
    Moves (Idle P) (readPayload payload) := by
  apply Moves.bind (populateMessageCapTable_idle payload.capTable adopt)
  intro capTable
  apply Moves.bind
  · exact Moves.modifyGet fun conn => (Idle.of_eq (by rfl)).trans (.allocated _)
  · exact fun _ => Moves.pure _

theorem readNonProtocol_idle {α : Type} {program : ConnM α} (idle : Moves (Idle P) program) :
    Moves (Idle P) (readNonProtocol program) := by
  apply Moves.tryCatch
  · exact Moves.bind idle fun _ => Moves.pure _
  · intro error
    cases error with
    | protocol kind message => exact Moves.throw _
    | error message => exact Moves.pure _

theorem catchNonProtocol_turns {program : ConnM Unit} {handle : String → ConnM Unit}
    (turns : Moves (Turns P) program) (handles : ∀ reason, Moves (Turns P) (handle reason)) :
    Moves (Turns P) (catchNonProtocol program handle) := by
  apply Moves.tryCatch turns
  intro error
  cases error with
  | protocol kind message => exact Moves.throw _
  | error message => exact handles message

theorem insertAnswer_turns (read : Power.read ∈ P) (id : WireId) : Moves (Turns P) (insertAnswer id) := by
  apply Moves.get
  intro conn
  cases free : find conn.answers id.id with
  | some a => exact Moves.pure _ conn
  | none =>
      apply Moves.follow
      · exact ReflTransGen.single (.openAnswer id read free)
      · exact fun _ => Moves.pure _

theorem popAnswer_turns (read : Power.read ∈ P) (id : Nat) : Moves (Turns P) (popAnswer id) := by
  apply Moves.get
  intro conn
  apply Moves.follow
  · exact ReflTransGen.single (.forgetAnswer id (Or.inl read))
  · exact fun _ => Moves.pure _

theorem handleBootstrapMessage_turns (ask : Power.ask ∈ P) (read : Power.read ∈ P) (id : WireId) :
    Moves (Turns P) (handleBootstrapMessage id) := by
  apply Moves.bind (insertAnswer_turns read id)
  intro inserted
  cases inserted with
  | none => exact sendMessage_turns _
  | some a =>
      apply Moves.get
      intro conn
      cases conn.main with
      | none => exact rejectAnswerNow_turns a _ conn
      | some main =>
          have makes : Moves (Idle P) (newMessage [some main]) :=
            Moves.modifyGet fun conn => (Idle.of_eq (by rfl)).trans (.allocated _)
          exact Moves.bind (turns_of_idle makes) (fun message => AnswerEntry.fulfill_turns ask a _) conn

theorem handleFinishMessage_turns (read : Power.read ∈ P) (id : WireId) (releaseResultCaps : Bool) :
    Moves (Turns P) (handleFinishMessage id releaseResultCaps) := by
  apply Moves.bind (popAnswer_turns read id.id)
  intro popped
  cases popped with
  | none => exact Moves.pure _
  | some a =>
      cases releaseResultCaps with
      | false => exact Moves.pure _
      | true =>
          apply Moves.get
          intro conn
          have releases : Moves (Turns P)
              ((conn.answer a).resultCaps.reverse.forM fun cap => releaseExport cap.id 1) :=
            Moves.forM fun cap _ => releaseExport_turns cap.id 1
          exact releases conn

theorem discardLateResolve_turns (resolution : Resolution) (m : RpcMessage) :
    Moves (Turns P) (discardLateResolve resolution m) := by
  cases resolution with
  | cap descriptor =>
      apply catchNonProtocol_turns
      · apply turns_of_idle
        cases descriptor with
        | senderHosted id => exact sendMessage_idle rfl
        | senderPromise id => exact sendMessage_idle rfl
        | receiverHosted id =>
            apply Moves.get
            intro conn
            split
            · exact Moves.pure _ conn
            · exact Moves.throw _ conn
        | receiverAnswer id transform =>
            apply Moves.get
            intro conn
            split
            · exact Moves.pure _ conn
            · exact Moves.throw _ conn
        | none => exact Moves.throw _
        | thirdPartyHosted => exact Moves.throw _
      · exact fun _ => turns_of_idle (sendMessage_idle rfl)
  | exception reason => exact Moves.pure _
  | other => exact Moves.pure _

theorem setResolved_turns (id client : Nat) : Moves (Turns P) (ImportClient.setResolved id client) := by
  apply Moves.get
  intro conn
  cases conn.client id with
  | importClient c =>
      dsimp only
      split
      · exact close_turns client conn
      · apply Moves.follow (closeOptional_turns close_turns c.resolved conn)
        exact fun _ => turns_of_idle (Moves.modify fun conn => .setClient conn id (withResolved_follows _ client))
  | _ => exact Moves.pure _ conn

theorem resolveToError_turns (importClient : Nat) (reason : String) :
    Moves (Turns P) (resolveToError importClient reason) :=
  Moves.bind (turns_of_idle (newClient_idle rfl)) fun client => setResolved_turns importClient client

theorem embargo_idle (promiseId : WireId) (importClient : Nat) (descriptor : CapDescriptor) :
    Moves (Idle P) (embargo promiseId importClient descriptor) := by
  unfold embargo
  split
  · apply Moves.bind
    · apply Moves.get
      intro conn
      apply Moves.follow
      · exact Idle.of_eq rfl
      · exact fun _ => Moves.pure _
    intro embargoId
    apply Moves.bind
    · apply Moves.modify
      intro conn
      apply Idle.setClient
      apply Client.follows_of_core
      cases conn.client importClient with
      | _ => rfl
    · exact fun _ => sendMessage_idle rfl
  · exact Moves.pure _

theorem handleResolveMessage_turns (promiseId : WireId) (resolution : Resolution) (m : RpcMessage)
    (adopt : hosted (RpcMessage.resolve promiseId resolution).descriptors ≠ [] → Power.adopt ∈ P) : Moves (Turns P) (handleResolveMessage promiseId resolution m) := by
  have resolves : ∀ promiseId importClient, Moves (Turns P) (resolveImport promiseId importClient resolution m) := by
    intro promiseId importClient
    cases resolution with
    | cap descriptor =>
        apply Moves.bind (turns_of_idle (readNonProtocol_idle (clientFromCapDescriptor_idle descriptor fun some => adopt ((hosted_cons_nonempty descriptor []).1 some))))
        intro resolved
        cases resolved with
        | error reason =>
            apply Moves.bind (turns_of_idle (sendMessage_idle rfl))
            exact fun _ => resolveToError_turns importClient reason
        | ok client =>
            apply Moves.bind (setResolved_turns importClient client)
            exact fun _ => turns_of_idle (embargo_idle promiseId importClient descriptor)
    | exception reason => exact resolveToError_turns importClient reason
    | other => exact resolveToError_turns importClient _
  apply Moves.get
  intro conn
  cases found : find conn.imports promiseId.id with
  | none => exact discardLateResolve_turns resolution m conn
  | some entry =>
      dsimp only
      cases conn.client (conn.refCount entry.rc).client with
      | importClient c =>
          dsimp only
          split
          · apply Moves.follow
            · exact ReflTransGen.single (.idle (.setImport conn promiseId.id (Or.inr (Or.inr (by simp [found])))))
            · exact fun _ => resolves _ _
          · exact discardLateResolve_turns resolution m conn
      | _ => exact Moves.throw _ conn

theorem handleDisembargoMessage_turns (ask : Power.ask ∈ P) (target : MessageTarget) (context : DisembargoContext)
    (m : RpcMessage) : Moves (Turns P) (handleDisembargoMessage target context m) := by
  cases context with
  | senderLoopback id => exact turns_of_idle (sendMessage_idle rfl)
  | other => exact turns_of_idle (sendMessage_idle rfl)
  | receiverLoopback id =>
      apply Moves.get
      intro conn
      cases find conn.disembargoes id.id with
      | none => exact Moves.pure _ conn
      | some client =>
          apply Moves.follow
          · exact ReflTransGen.single (.idle (.of_eq rfl))
          intro _
          apply Moves.get
          intro conn
          cases conn.client client with
          | importClient c =>
              dsimp only
              split
              · apply Moves.follow
                · refine ReflTransGen.single (.idle (.setClient conn client (Client.follows_of_core ?_)))
                  cases conn.client client with
                  | _ => rfl
                intro _
                cases c.resolved with
                | none => exact Moves.pure _
                | some resolved => exact turns_of_asks (flushTo_asks ask client resolved conn.stack)
              · exact Moves.pure _ conn
          | _ => exact Moves.pure _ conn

theorem routeCallMessage_turns (ask : Power.ask ∈ P) (result : Nat) (target : MessageTarget) (call : Call) :
    Moves (Turns P) (routeCallMessage result target call) := by
  have joins : ∀ depth client, Moves (Turns P) (callClient depth client call >>= fun answer => joinAnswer result answer) :=
    fun depth client => Moves.bind (turns_of_asks (callClient_asks ask depth client call)) fun answer =>
      turns_of_idle (joinAnswer_idle result answer)
  cases target with
  | importedCap id =>
      apply Moves.get
      intro conn
      cases conn.findExport id.id with
      | none => exact Moves.throw _ conn
      | some e => exact joins conn.stack e.client conn
  | promisedAnswer id transform =>
      apply Moves.get
      intro conn
      split
      · exact Moves.throw _ conn
      · cases find conn.answers id.id with
        | none => exact Moves.throw _ conn
        | some pa =>
            dsimp only
            split
            · exact Moves.bind (turns_of_idle (clientFromResolution_idle _ _ _)) (fun client => joins conn.stack client) conn
            · exact turns_of_idle (AnswerEntry.queueCall_idle pa call transform result) conn
  | other => exact Moves.throw _

theorem startCall_turns (ask : Power.ask ∈ P) (read : Power.read ∈ P) (a : Nat) (id : WireId)
    (target : MessageTarget) (method : Method) (sendResultsTo : SendResultsTo) (params : Payload) (message : Nat) :
    Moves (Turns P) (startCall a id target method sendResultsTo params message) := by
  have refuses : Moves (Turns P) (do
      let _ ← popAnswer id.id
      refuseCall id params RPC_UNIMPLEMENTED) := by
    apply Moves.bind (popAnswer_turns read id.id)
    intro _
    exact Moves.bind (turns_of_idle (emit_idle _)) fun _ => sendMessage_turns _
  have routes : ∀ sendResultsTo method, Moves (Turns P) (do
      alterAnswer a fun entry => { entry with sendResultsElsewhere := decide (sendResultsTo = SendResultsTo.yourself) }
      readContent params.content
      catchNonProtocol
        (routeCallMessage a target { method := method, params := { content := params.content, message := message } })
        fun reason => rejectAnswer a reason) := by
    intro sendResultsTo method
    apply Moves.bind (turns_of_idle (Moves.modify fun conn => .alterAnswer conn a rfl rfl))
    intro _
    apply Moves.bind (turns_of_idle (readContent_idle params.content))
    intro _
    exact catchNonProtocol_turns (routeCallMessage_turns ask a target _) fun reason => rejectAnswerNow_turns a reason
  apply Moves.get
  intro conn
  cases sendResultsTo with
  | thirdParty => exact refuses conn
  | caller =>
      cases conn.lookupMethod method with
      | none => exact refuses conn
      | some method => exact routes _ method conn
  | yourself =>
      cases conn.lookupMethod method with
      | none => exact refuses conn
      | some method => exact routes _ method conn

theorem abortForProtocolError_turns (shut : Power.shut ∈ P) (kind : ProtocolErrorKind) (message : String) :
    Moves (Turns P) (abortForProtocolError kind message) := by
  apply Moves.get
  intro conn
  split
  · exact Moves.pure _ conn
  · apply Moves.follow (turns_of_idle (emit_idle _) conn)
    intro _
    apply Moves.bind (turns_of_idle (sendMessage_idle rfl))
    exact fun _ => shutdown_turns shut message

theorem handleCallMessage_turns (ask : Power.ask ∈ P) (read : Power.read ∈ P) (shut : Power.shut ∈ P) (id : WireId)
    (target : MessageTarget) (method : Method) (sendResultsTo : SendResultsTo) (params : Payload)
    (adopt : hosted params.capTable ≠ [] → Power.adopt ∈ P) :
    Moves (Turns P) (handleCallMessage id target method sendResultsTo params) := by
  unfold handleCallMessage
  split
  · exact Moves.throw _
  · apply Moves.bind (turns_of_idle (readNonProtocol_idle (readPayload_idle params adopt)))
    intro outcome
    cases outcome with
    | error reason => exact Moves.bind (turns_of_idle (emit_idle _)) fun _ => sendMessage_turns _
    | ok struct =>
        apply Moves.bind (insertAnswer_turns read id)
        intro inserted
        cases inserted with
        | none => exact abortForProtocolError_turns shut _ _
        | some a => exact startCall_turns ask read a id target method sendResultsTo params struct.message

theorem dispatchMessage_turns (ask : Power.ask ∈ P) (read : Power.read ∈ P) (shut : Power.shut ∈ P)
    {m : RpcMessage} (other : m.isReturn = false) (adopt : hosted m.descriptors ≠ [] → Power.adopt ∈ P) :
    Moves (Turns P) (dispatchMessage m) := by
  cases m with
  | unimplemented message => exact Moves.pure _
  | bootstrap id => exact handleBootstrapMessage_turns ask read id
  | abort reason => exact shutdown_turns shut reason
  | finish id releaseResultCaps => exact handleFinishMessage_turns read id releaseResultCaps
  | resolve promiseId resolution => exact handleResolveMessage_turns promiseId resolution _ adopt
  | release id referenceCount => exact releaseExport_turns id.id referenceCount
  | disembargo target context => exact handleDisembargoMessage_turns ask target context _
  | unsupported => exact turns_of_idle (sendMessage_idle rfl)
  | ret id releaseParamCaps noFinishNeeded body => cases other
  | call id target method sendResultsTo params =>
      exact handleCallMessage_turns ask read shut id target method sendResultsTo params adopt
  | unknown => exact Moves.pure _

end CapnpEs.Rpc
