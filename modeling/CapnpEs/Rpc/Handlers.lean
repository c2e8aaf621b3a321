import CapnpEs.Rpc.Calls

/-! How answers are settled, promise exports resolved, and the messages of the peer handled: `conn.ts`. -/

namespace CapnpEs.Rpc

open SlotTable

namespace AnswerEntry

def sendResults (a : Nat) (obj : Struct) (content : Content) : ConnM Unit := do
  let conn ← get
  let capTable ← makeCapTable (conn.copiedTable obj)
  alterAnswer a (described obj (collectPayloadSenderHosted capTable))
  fulfillTailAnswerWaiters (conn.answer a).id.id obj
  sendMessage (.ret (conn.answer a).id false false
    (.results { content := content, capTable := capTable }))

/-- The queued calls by the capability they are for, in the order of its index. -/
def insertCall (capId : Nat) (call : QueuedCall) : List (Nat × List QueuedCall) → List (Nat × List QueuedCall)
  | [] => [(capId, [call])]
  | (other, calls) :: groups =>
      if capId < other then
        (capId, [call]) :: (other, calls) :: groups
      else if capId = other then
        (other, calls ++ [call]) :: groups
      else
        (other, calls) :: insertCall capId call groups

def sortQueue (obj : Struct) (groups : List (Nat × List QueuedCall)) :
    List PipelinedCall → ConnM (List (Nat × List QueuedCall) × Option RpcError)
  | [] => return (groups, none)
  | pc :: queue =>
      match obj.content.capId pc.transform with
      | .ok (some capId) => sortQueue obj (insertCall capId (.remote pc.answer pc.call) groups) queue
      | .ok none => do
        let first ← attempt (rejectAnswer pc.answer RPC_NULL_CLIENT)
        let (groups, later) ← sortQueue obj groups queue
        return (groups, first.or later)
      | .error reason => do
        let first ← attempt (rejectAnswer pc.answer reason)
        let (groups, later) ← sortQueue obj groups queue
        return (groups, first.or later)

def emptyQueue (a : Nat) (obj : Struct) : ConnM (List (Nat × List QueuedCall) × Option RpcError) := do
  let conn ← get
  let sorted ← sortQueue obj [] (conn.answer a).queue
  alterAnswer a fun entry => { entry with queue := [] }
  return sorted

def slotClient (obj : Struct) (capId : Nat) : ConnM Nat := do
  let conn ← get
  match conn.slot obj capId with
  | some client => return client
  | none => newClient .null

/-- Puts a `QueueClient` in the place of each capability that calls wait for. -/
def installQueues (obj : Struct) : List (Nat × List QueuedCall) → ConnM (List Nat)
  | [] => return []
  | (capId, calls) :: groups => do
    let target ← slotClient obj capId
    let queueClient ← newClient (.queue { client := target, queue := calls })
    modify fun conn => conn.setCapTable obj.message (put (conn.capTable obj.message) capId (some queueClient))
    let rest ← installQueues obj groups
    return queueClient :: rest

def flushQueue (queueClient : Nat) : ConnM Unit := do
  let conn ← get
  match conn.client queueClient with
  | .queue c => flushTo queueClient c.client conn.stack
  | _ => return ()

def fulfill (a : Nat) (obj : Struct) : ConnM Unit := do
  let conn ← get
  if (conn.answer a).done then
    throw (.error "answer.fulfill called more than once")
  else do
    alterAnswer a (fulfilled obj)
    if (conn.answer a).sendResultsElsewhere then do
      fulfillTailAnswerWaiters (conn.answer a).id.id obj
      sendMessage (.ret (conn.answer a).id false false .resultsSentElsewhere)
    else do
      let content ← setContent obj
      let firstErr ← attempt (sendResults a obj content)
      let (groups, queuesErr) ← emptyQueue a obj
      let queueClients ← installQueues obj groups
      queueClients.forM flushQueue
      throwFirst (firstErr.or queuesErr)

def queueCall (pa : Nat) (call : Call) (transform : Transform) (a : Nat) : ConnM Unit := do
  let conn ← get
  if (conn.answer pa).queue.length ≥ callQueueSize then
    throw (.error RPC_CALL_QUEUE_FULL)
  else do
    alterAnswer a fun entry => { entry with routed := true }
    alterAnswer pa fun entry =>
      { entry with queue := entry.queue ++ [{ answer := a, call := call, transform := transform }] }

end AnswerEntry

namespace PromiseExportClient

def resolve (promise client : Nat) : ConnM Unit := do
  let conn ← get
  match conn.client promise with
  | .promiseExport c =>
      if c.closed then
        close client
      else do
        closeOptional close c.resolved
        modify fun conn => conn.setClient promise ((conn.client promise).withResolved client)
        flushTo promise client conn.stack
  | _ => return ()

end PromiseExportClient

/-- The entry of a promise export that no `Resolve` has been sent for. -/
def Conn.pendingPromise (conn : Conn) (id : Nat) : Option ExportPromiseEntry :=
  (find conn.exportPromises id).filter fun entry => !entry.settled

def sendResolve (promise : Continuation) (resolution : Resolution) : ConnM Unit := do
  let conn ← get
  emit (.promiseResolved promise ((conn.findExport promise.id.id).map (·.rc)) (conn.exported promise.id.id))
  sendMessage (.resolve promise.id resolution)

def resolveExportPromiseCap (promise : Continuation) (client : Nat) : ConnM Unit := do
  let conn ← get
  match conn.pendingPromise promise.id.id with
  | none => close client
  | some entry => do
    set (conn.setExportPromise promise.id.id (some { entry with settled := true }))
    PromiseExportClient.resolve entry.client client
    let descriptor ← descriptorForClient client
    sendResolve promise (.cap descriptor)

def resolveExportPromiseException (promise : Continuation) (reason : String) : ConnM Unit := do
  let conn ← get
  match conn.pendingPromise promise.id.id with
  | none => return ()
  | some entry => do
    set (conn.setExportPromise promise.id.id (some { entry with settled := true }))
    rejectAll entry.client reason
    sendResolve promise (.exception reason)

/-- What runs when the question of a promise export is settled. -/
def resolveFromQuestion (promise : Continuation) : ConnM Unit := do
  let conn ← get
  match (conn.question promise.question).err with
  | some reason => resolveExportPromiseException promise reason
  | none =>
      tryCatch
        (do
          let client ← clientFromResolution promise.transform (conn.question promise.question).obj none
          resolveExportPromiseCap promise client)
        fun error => resolveExportPromiseException promise error.message

def Conn.indices {α : Type} (slots : List (Option α)) : List Nat :=
  (List.range slots.length).filter fun id => (find slots id).isSome

def Conn.entries {α : Type} (slots : List (Option α)) : List (Nat × α) :=
  (List.range slots.length).filterMap fun id => (find slots id).map fun entry => (id, entry)

def rejectUnsettled (reason : String) (q : Nat) : ConnM Unit := do
  let conn ← get
  if (conn.question q).state = .inProgress then Question.reject q reason else return ()

def shutdownQuestion (reason : String) (id : Nat) : ConnM Unit := do
  let conn ← get
  match conn.findQuestion id with
  | none => return ()
  | some q => do
    rejectUnsettled reason q
    let _ ← popQuestion id

def shutdownAnswer (reason : String) (id : Nat) : ConnM Unit := do
  let popped ← popAnswer id
  match popped with
  | none => return ()
  | some a => alterAnswer a (AnswerEntry.rejected reason)

def shutdownExport (id : Nat) : ConnM Unit := do
  let conn ← get
  match conn.findExport id with
  | none => return ()
  | some e => do
    let _ ← attempt (close e.client)
    modify fun conn => conn.dropExport id

def shutdownImportClient (reason : String) (client : Nat) : ConnM Unit := do
  let conn ← get
  match conn.client client with
  | .importClient c => do
    setClient client (.importClient { c with closed := true })
    rejectAll client reason
    closeOptional close c.resolved
    modify fun conn => conn.setClient client (conn.client client).withoutResolved.withoutEmbargo
  | _ => return ()

def shutdownImport (reason : String) (id : Nat) (entry : ImportEntry) : ConnM Unit := do
  let conn ← get
  let _ ← attempt (shutdownImportClient reason (conn.refCount entry.rc).client)
  modify fun conn => conn.setImport id none

def shutdownTailAnswers (reason : String) (id : Nat) : ConnM Unit := do
  let waiters ← takeTailAnswerWaiters id
  waiters.forM (rejectUnsettled reason)

def shutdownDisembargo (id : Nat) : ConnM Unit :=
  modify fun conn => { conn.setDisembargo id none with disembargoID := conn.disembargoID.remove id }

/-- What `shutdown` does once the connection is marked as closed. -/
def shutdownTables (reason : String) : ConnM Unit := do
  let conn ← get
  (Conn.indices conn.questions).forM (shutdownQuestion reason)
  let conn ← get
  (Conn.indices conn.answers).forM (shutdownAnswer reason)
  let conn ← get
  (Conn.indices conn.exports).forM shutdownExport
  modify fun conn => { conn with exportPromises := [], exportPromiseIndex := fun _ _ => none }
  let conn ← get
  (Conn.entries conn.imports).forM fun (id, entry) => shutdownImport reason id entry
  let conn ← get
  (Conn.indices conn.tailAnswerWaiters).forM (shutdownTailAnswers reason)
  let conn ← get
  (Conn.indices conn.disembargoes).forM shutdownDisembargo
  modify fun conn => { conn with transportClosed := true }

def shutdown (reason : String) : ConnM Unit := do
  let conn ← get
  if conn.closed then
    return ()
  else do
    set { conn with closed := true, working := false }
    shutdownTables reason

def abortForProtocolError (kind : ProtocolErrorKind) (message : String) : ConnM Unit := do
  let conn ← get
  if conn.closed then
    return ()
  else do
    emit (.aborted kind)
    sendMessage (.abort message)
    shutdown message

def sendReturnException (id : WireId) (reason : String) : ConnM Unit :=
  sendMessage (newReturnMessage id (.exception reason))

def handleBootstrapMessage (id : WireId) : ConnM Unit := do
  let inserted ← insertAnswer id
  match inserted with
  | none => sendReturnException id "CAPNP-TS112 Attempted to re-use question id (%s)."
  | some a => do
    let conn ← get
    match conn.main with
    | none => rejectAnswer a RPC_NO_MAIN_INTERFACE
    | some main => do
      let message ← newMessage [some main]
      AnswerEntry.fulfill a { content := .interface, message := message }

def handleFinishMessage (id : WireId) (releaseResultCaps : Bool) : ConnM Unit := do
  let popped ← popAnswer id.id
  match popped with
  | none => return ()
  | some a =>
      if releaseResultCaps then do
        let conn ← get
        (conn.answer a).resultCaps.reverse.forM fun cap => releaseExport cap.id 1
      else
        return ()

def unknownExport (id : Nat) : RpcError := .protocol .unknownExportId (RPC_UNKNOWN_EXPORT_ID id)

def unknownAnswer (id : Nat) : RpcError := .protocol .unknownAnswerId (RPC_UNKNOWN_ANSWER_ID id)

def unknownCapDescriptor (descriptor : CapDescriptor) : RpcError :=
  .protocol .unknownCapDescriptor (RPC_UNKNOWN_CAP_DESCRIPTOR descriptor.which)

def badTarget : RpcError := .protocol .badTarget RPC_BAD_TARGET

def refExport (e : Export) : ConnM Nat :=
  tryCatch (RefCount.ref e.rc) fun error => throw (.protocol .unknownExportId error.message)

def clientFromCapDescriptor (descriptor : CapDescriptor) : ConnM Nat := do
  match descriptor with
  | .senderHosted id => addImport id false
  | .senderPromise id => addImport id true
  | .receiverHosted id => do
    let conn ← get
    match conn.findExport id.id with
    | none => throw (unknownExport id.id)
    | some e => refExport e
  | .receiverAnswer id transform => do
    let conn ← get
    match find conn.answers id.id with
    | none => throw (unknownAnswer id.id)
    | some a => newClient (.localAnswer a transform)
  | .none => throw (unknownCapDescriptor .none)
  | .thirdPartyHosted => throw (unknownCapDescriptor .thirdPartyHosted)

def populateMessageCapTable : List CapDescriptor → ConnM (List (Option Nat))
  | [] => return []
  | .none :: capTable => do
    let rest ← populateMessageCapTable capTable
    return none :: rest
  | descriptor :: capTable => do
    let client ← clientFromCapDescriptor descriptor
    let rest ← populateMessageCapTable capTable
    return some client :: rest

def discardResolvedCap (descriptor : CapDescriptor) : ConnM Unit := do
  match descriptor with
  | .senderHosted id => sendMessage (newReleaseMessage id 1)
  | .senderPromise id => sendMessage (newReleaseMessage id 1)
  | .receiverHosted id => do
    let conn ← get
    if (conn.findExport id.id).isSome then return () else throw (unknownExport id.id)
  | .receiverAnswer id _ => do
    let conn ← get
    if (find conn.answers id.id).isSome then return () else throw (unknownAnswer id.id)
  | .none => throw (unknownCapDescriptor .none)
  | .thirdPartyHosted => throw (unknownCapDescriptor .thirdPartyHosted)

/-- `nonProtocolError`: a protocol error passes, any other failure is handled. -/
def catchNonProtocol (program : ConnM Unit) (handle : String → ConnM Unit) : ConnM Unit :=
  tryCatch program fun error =>
    match error with
    | .protocol kind message => throw (.protocol kind message)
    | .error message => handle message

def discardLateResolve (resolution : Resolution) (m : RpcMessage) : ConnM Unit :=
  match resolution with
  | .cap descriptor =>
      catchNonProtocol (discardResolvedCap descriptor) fun _ => sendMessage (newUnimplementedMessage m)
  | _ => return ()

namespace ImportClient

def setResolved (id : Nat) (client : Nat) : ConnM Unit := do
  let conn ← get
  match conn.client id with
  | .importClient c =>
      if c.closed then
        close client
      else do
        closeOptional close c.resolved
        modify fun conn => conn.setClient id ((conn.client id).withResolved client)
  | _ => return ()

def activateEmbargo (id : Nat) (embargoId : Nat) : ConnM Unit :=
  modify fun conn => conn.setClient id ((conn.client id).withEmbargo embargoId)

def liftEmbargo (id : Nat) (embargoId : Nat) : ConnM Unit := do
  let conn ← get
  match conn.client id with
  | .importClient c =>
      if c.embargoId = some embargoId then do
        modify fun conn => conn.setClient id (conn.client id).withoutEmbargo
        match c.resolved with
        | none => return ()
        | some resolved => flushTo id resolved conn.stack
      else
        return ()
  | _ => return ()

end ImportClient

def capDescriptorNeedsSenderLoopback : CapDescriptor → Bool
  | .receiverHosted _ => true
  | .receiverAnswer _ _ => true
  | _ => false

def resolveToError (importClient : Nat) (reason : String) : ConnM Unit := do
  let client ← newClient (.error reason)
  ImportClient.setResolved importClient client

def embargo (promiseId : WireId) (importClient : Nat) (descriptor : CapDescriptor) : ConnM Unit := do
  if capDescriptorNeedsSenderLoopback descriptor then do
    let embargoId ← registerDisembargo importClient
    ImportClient.activateEmbargo importClient embargoId
    sendMessage (.disembargo (.importedCap promiseId) (.senderLoopback ⟨embargoId, importClient⟩))
  else
    return ()

def readNonProtocol {α : Type} (program : ConnM α) : ConnM (Except String α) :=
  tryCatch
    (do
      let value ← program
      return .ok value)
    fun error =>
      match error with
      | .protocol kind message => throw (.protocol kind message)
      | .error message => return .error message

def resolveImport (promiseId : WireId) (importClient : Nat) (resolution : Resolution) (m : RpcMessage) :
    ConnM Unit :=
  match resolution with
  | .cap descriptor => do
    let resolved ← readNonProtocol (clientFromCapDescriptor descriptor)
    match resolved with
    | .error reason => do
      sendMessage (newUnimplementedMessage m)
      resolveToError importClient reason
    | .ok client => do
      ImportClient.setResolved importClient client
      embargo promiseId importClient descriptor
  | .exception reason => resolveToError importClient reason
  | .other => resolveToError importClient RPC_UNIMPLEMENTED

def handleResolveMessage (promiseId : WireId) (resolution : Resolution) (m : RpcMessage) : ConnM Unit := do
  let conn ← get
  match find conn.imports promiseId.id with
  | none => discardLateResolve resolution m
  | some entry =>
      match conn.client (conn.refCount entry.rc).client with
      | .importClient _ =>
          if entry.isPromise then do
            set (conn.setImport promiseId.id (some { entry with isPromise := false }))
            resolveImport ⟨promiseId.id, entry.origin⟩ (conn.refCount entry.rc).client resolution m
          else
            discardLateResolve resolution m
      | _ => throw (.error INVARIANT_UNREACHABLE_CODE)

def handleReleaseMessage (id : WireId) (referenceCount : Nat) : ConnM Unit := releaseExport id.id referenceCount

def handleDisembargoMessage (target : MessageTarget) (context : DisembargoContext) (m : RpcMessage) :
    ConnM Unit := do
  match context with
  | .senderLoopback id => sendMessage (.disembargo target (.receiverLoopback id))
  | .receiverLoopback id => do
    let conn ← get
    match find conn.disembargoes id.id with
    | none => return ()
    | some client => do
      set { conn.setDisembargo id.id none with disembargoID := conn.disembargoID.remove id.id }
      ImportClient.liftEmbargo client id.id
  | .other => sendMessage (newUnimplementedMessage m)

def readPayload (payload : Payload) : ConnM Struct := do
  let capTable ← populateMessageCapTable payload.capTable
  let message ← newMessage capTable
  return { content := payload.content, message := message }

def rejectUnread (q : Nat) (m : RpcMessage) (error : RpcError) : ConnM Unit :=
  match error with
  | .protocol kind message => do
    Question.reject q message
    throw (.protocol kind message)
  | .error message =>
      tryCatch
        (do
          sendMessage (newUnimplementedMessage m)
          Question.reject q message)
        fun later => do
          Question.reject q later.message
          throw later

def takeFromOther (q : Nat) (id other : Nat) : ConnM Unit := do
  let conn ← get
  if other = id then
    Question.reject q RPC_BAD_TARGET
  else
    match find conn.answers other with
    | none => Question.reject q RPC_BAD_TARGET
    | some source =>
        if (conn.answer source).done then
          match (conn.answer source).err, (conn.answer source).obj with
          | some reason, _ => Question.reject q reason
          | none, some obj => Question.fulfill q obj
          | none, none => Question.reject q RPC_BAD_TARGET
        else
          set (conn.setWaiters other (some ((find conn.tailAnswerWaiters other).getD [] ++ [q])))

def settleQuestion (q : Nat) (id : Nat) (body : ReturnBody) (m : RpcMessage) : ConnM Unit :=
  match body with
  | .results payload => do
    let read ← tryCatch
      (do
        let obj ← readPayload payload
        return Except.ok obj)
      fun error => return Except.error error
    match read with
    | .ok obj => do
      readContent payload.content
      Question.fulfill q obj
    | .error error => rejectUnread q m error
  | .exception reason => Question.reject q reason
  | .canceled => Question.reject q "call canceled by remote"
  | .takeFromOtherQuestion other => takeFromOther q id other
  | .resultsSentElsewhere => Question.reject q RPC_UNIMPLEMENTED
  | .other => Question.reject q RPC_UNIMPLEMENTED
  | .unreadable reason => throw (.error reason)

def ReturnBody.keepsResultCaps : ReturnBody → Bool
  | .results _ => true
  | _ => false

def handleReturnMessage (id : WireId) (releaseParamCaps noFinishNeeded : Bool) (body : ReturnBody)
    (m : RpcMessage) : ConnM Unit := do
  let popped ← popQuestion id.id
  match popped with
  | none => abortForProtocolError .returnForUnknownQuestion (RPC_RETURN_FOR_UNKNOWN_QUESTION id.id)
  | some q => do
    emit (.returnUsed q id)
    let conn ← get
    (if releaseParamCaps then (conn.question q).paramCaps else []).forM fun cap => releaseExport cap.id 1
    settleQuestion q id.id body m
    if noFinishNeeded then
      return ()
    else
      sendMessage (newFinishMessage ⟨id.id, q⟩ (!body.keepsResultCaps))

def routeCallMessage (result : Nat) (target : MessageTarget) (call : Call) : ConnM Unit := do
  match target with
  | .importedCap id => do
    let conn ← get
    match conn.findExport id.id with
    | none => throw badTarget
    | some e => do
      let answer ← callClient conn.stack e.client call
      joinAnswer result answer
  | .promisedAnswer id transform => do
    let conn ← get
    if id.id = (conn.answer result).id.id then
      throw badTarget
    else
      match find conn.answers id.id with
      | none => throw badTarget
      | some pa =>
          if (conn.answer pa).done then do
            let client ← clientFromResolution transform (conn.answer pa).obj (conn.answer pa).err
            let answer ← callClient conn.stack client call
            joinAnswer result answer
          else
            AnswerEntry.queueCall pa call transform result
  | .other => throw (.error INVARIANT_UNREACHABLE_CODE)

/-- The branches of `handleCallMessage` that return an exception and forget the answer. -/
def refuseCall (id : WireId) (params : Payload) (reason : String) : ConnM Unit := do
  emit (.callRefused id params.capTable)
  sendReturnException id reason

def Conn.lookupMethod (conn : Conn) (method : Method) : Option Method :=
  (conn.registry method.interfaceId).bind fun methods => methods[method.methodId]?

def startCall (a : Nat) (id : WireId) (target : MessageTarget) (method : Method) (sendResultsTo : SendResultsTo)
    (params : Payload) (message : Nat) : ConnM Unit := do
  let conn ← get
  match sendResultsTo, conn.lookupMethod method with
  | .thirdParty, _ => do
    let _ ← popAnswer id.id
    refuseCall id params RPC_UNIMPLEMENTED
  | _, none => do
    let _ ← popAnswer id.id
    refuseCall id params RPC_UNIMPLEMENTED
  | _, some method => do
    alterAnswer a fun entry => { entry with sendResultsElsewhere := decide (sendResultsTo = .yourself) }
    readContent params.content
    catchNonProtocol
      (routeCallMessage a target { method := method, params := { content := params.content, message := message } })
      fun reason => rejectAnswer a reason

def handleCallMessage (id : WireId) (target : MessageTarget) (method : Method) (sendResultsTo : SendResultsTo)
    (params : Payload) : ConnM Unit := do
  if target = .other then
    throw badTarget
  else do
    let read ← readNonProtocol (readPayload params)
    match read with
    | .error reason => refuseCall id params reason
    | .ok struct => do
      let inserted ← insertAnswer id
      match inserted with
      | none => abortForProtocolError .questionIdReused (RPC_QUESTION_ID_REUSED id.id)
      | some a => startCall a id target method sendResultsTo params struct.message

def dispatchMessage (m : RpcMessage) : ConnM Unit :=
  match m with
  | .unimplemented _ => return ()
  | .bootstrap id => handleBootstrapMessage id
  | .abort reason => shutdown reason
  | .finish id releaseResultCaps => handleFinishMessage id releaseResultCaps
  | .resolve promiseId resolution => handleResolveMessage promiseId resolution m
  | .release id referenceCount => handleReleaseMessage id referenceCount
  | .disembargo target context => handleDisembargoMessage target context m
  | .unsupported => sendMessage (newUnimplementedMessage m)
  | .ret id releaseParamCaps noFinishNeeded body => handleReturnMessage id releaseParamCaps noFinishNeeded body m
  | .call id target method sendResultsTo params => handleCallMessage id target method sendResultsTo params
  | .unknown => return ()

def handleMessage (m : RpcMessage) : ConnM Unit :=
  tryCatch (dispatchMessage m) fun error =>
    match error with
    | .protocol kind message => abortForProtocolError kind message
    | .error message => throw (.error message)

/-- One turn of `work`: a failure that is no protocol error ends the loop, and so does `working = false`. -/
def work (m : RpcMessage) : ConnM Unit :=
  tryCatch
    (do
      handleMessage m
      modify fun conn => { conn with receiving := conn.receiving && conn.working })
    fun _ => modify fun conn => { conn with receiving := false }

end CapnpEs.Rpc
