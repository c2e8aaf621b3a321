import CapnpEs.Rpc.Tables

/-! Calls on clients, and the questions and answers they open: `question.ts`, `answer.ts` and the clients. -/

namespace CapnpEs.Rpc

open SlotTable

def callQueueSize : Nat := 64

namespace Question

def fulfill (q : Nat) (obj : Struct) : ConnM Unit := do
  let conn ← get
  if (conn.question q).state = .inProgress then
    alterQuestion q fun question => { question with obj := some obj, state := .resolved }
  else
    throw (.error "CAPNP-TS120 Fulfill called more than once for question (%s).")

def reject (q : Nat) (reason : String) : ConnM Unit := do
  let conn ← get
  if (conn.question q).state = .inProgress then
    alterQuestion q fun question => { question with err := some reason, state := .resolved }
  else
    throw (.error "Question.reject called more than once")

def sendFinish (q : Nat) : ConnM Unit := do
  let conn ← get
  emit (.questionCanceled (conn.questionId q))
  sendMessage (newFinishMessage (conn.questionId q) true)

/-- Takes a question that is given up out of the table, and tells the peer if it has heard of it. -/
def leaveTable (q : Nat) (tellPeer : Bool) : ConnM Unit := do
  let conn ← get
  match conn.findQuestion (conn.question q).id with
  | none => return ()
  | some _ =>
      if tellPeer then do
        sendFinish q
        let _ ← popQuestion (conn.question q).id
      else do
        let _ ← popQuestion (conn.question q).id

def cancel (q : Nat) (reason : String) : ConnM Bool := do
  let conn ← get
  if (conn.question q).state = .inProgress then do
    leaveTable q (conn.question q).started
    alterQuestion q fun question => { question with err := some reason, state := .canceled }
    return true
  else
    return false

def closePendingRoot (q : Nat) : ConnM Bool := do
  let conn ← get
  if (conn.question q).state = .inProgress then do
    leaveTable q true
    alterQuestion q fun question =>
      { question with rootClosePending := false, err := some "pipeline closed", state := .canceled }
    return true
  else
    return false

def addPromise (q : Nat) (transform : Transform) : ConnM Unit :=
  alterQuestion q fun question =>
    if transform ∈ question.derived then
      question
    else
      { question with derived := question.derived ++ [transform] }

end Question

def joinAnswer (a : Nat) (answer : Answer) : ConnM Unit :=
  alterAnswer a fun entry => { entry with joined := some answer, routed := true }

def sendCall (q : Nat) (target : MessageTarget) (method : Method) (params : Payload) : ConnM Unit := do
  alterQuestion q fun question => { question with paramCaps := collectPayloadSenderHosted params.capTable }
  let conn ← get
  sendMessage (.call (conn.questionId q) target method .caller params)
  alterQuestion q fun question => { question with started := true }

/-- A call that goes out on the connection, from `ImportClient.call` and `Question.pipelineCall`. -/
def ask (target : MessageTarget) (call : Call) (afterStart : ConnM Unit) : ConnM Answer := do
  let q ← newQuestion (some call.method)
  tryCatch
    (do
      let params ← fillParams call
      sendCall q target call.method params
      afterStart
      return .question q)
    fun error => do
      let conn ← get
      let _ ← popQuestion (conn.question q).id
      return .error error.message

def pushCall (owner : Nat) (call : Call) : ConnM Answer := do
  let conn ← get
  let calls := (conn.client owner).calls
  if calls.length < callQueueSize then do
    set (conn.setClient owner ((conn.client owner).setCalls (calls ++ [.fromHere call])))
    return .fulfiller
  else
    return .error RPC_CALL_QUEUE_FULL

def popCall (owner : Nat) : ConnM Unit :=
  modify fun conn => conn.setClient owner ((conn.client owner).setCalls (conn.client owner).calls.tail)

def pipelineCall (callNext : Nat → Call → ConnM Answer) (q : Nat) (transform : Transform) (call : Call) :
    ConnM Answer := do
  let conn ← get
  let question := conn.question q
  if question.own then
    if conn.findQuestion question.id = some q then
      ask (.promisedAnswer (conn.questionId q) transform) call (Question.addPromise q transform)
    else if question.state = .inProgress then
      throw (.error "question popped but not done")
    else do
      let client ← clientFromResolution transform question.obj question.err
      callNext client call
  else if question.state = .inProgress then
    -- the other connection asks its peer
    return .fulfiller
  else do
    let client ← clientFromResolution transform question.obj question.err
    callNext client call

/-- `client.call(call)`. -/
def callClient : Nat → Nat → Call → ConnM Answer
  | 0, _, _ => throw stackOverflow
  | depth + 1, client, call => do
    let conn ← get
    match conn.client client with
    | .server methods =>
        return if call.method ∈ methods then .fulfiller else .error RPC_METHOD_NOT_IMPLEMENTED
    | .error reason => return .error reason
    | .ref rc _ => callClient depth (conn.refCount rc).client call
    | .importClient c =>
        if c.closed then
          return .error RPC_IMPORT_CLOSED
        else
          match c.resolved with
          | some next => if c.embargoId.isSome then pushCall client call else callClient depth next call
          | none => ask (.importedCap c.id) call (pure ())
    | .pipeline q transform => pipelineCall (callClient depth) q transform call
    | .fixedPipeline answer transform =>
        match answer with
        | .error reason => return .error reason
        | .ok struct => do
          let next ← findClient struct transform
          callClient depth next call
    | .localAnswer a transform =>
        if (conn.answer a).done then do
          let next ← clientFromResolution transform (conn.answer a).obj (conn.answer a).err
          callClient depth next call
        else
          return .fulfiller
    | .promiseExport c =>
        if c.closed then
          return .error "promise export closed"
        else
          match c.resolved with
          | some next => callClient depth next call
          | none => pushCall client call
    | .queue c => if c.queue.isEmpty then callClient depth c.client call else pushCall client call
    | .null => throw (.error "Cannot read properties of null (reading 'call')")
    | .other => return .fulfiller

/-- `CallQueue.flushTo`; calls that come in meanwhile are made too. -/
def flushTo (owner target : Nat) : Nat → ConnM Unit
  | 0 => throw stackOverflow
  | fuel + 1 => do
    let conn ← get
    match (conn.client owner).calls with
    | [] => return ()
    | .fromHere call :: _ => do
      let _ ← callClient conn.stack target call
      popCall owner
      flushTo owner target fuel
    | .remote a call :: _ => do
      let answer ← callClient conn.stack target call
      joinAnswer a answer
      popCall owner
      flushTo owner target fuel

def takeTailAnswerWaiters (id : Nat) : ConnM (List Nat) := do
  let conn ← get
  match find conn.tailAnswerWaiters id with
  | none => return []
  | some waiters => do
    set (conn.setWaiters id none)
    return waiters

def rejectTailAnswerWaiters (id : Nat) (reason : String) : ConnM Unit := do
  let waiters ← takeTailAnswerWaiters id
  waiters.forM fun q => Question.reject q reason

def fulfillTailAnswerWaiters (id : Nat) (obj : Struct) : ConnM Unit := do
  let waiters ← takeTailAnswerWaiters id
  waiters.forM fun q => Question.fulfill q obj

def attempt (program : ConnM Unit) : ConnM (Option RpcError) :=
  tryCatch (do program; return none) fun error => return some error

def attemptAll : List (ConnM Unit) → ConnM (Option RpcError)
  | [] => return none
  | program :: programs => do
    let first ← attempt program
    let later ← attemptAll programs
    return first.or later

def throwFirst (error : Option RpcError) : ConnM Unit :=
  match error with
  | some error => throw error
  | none => return ()

namespace AnswerEntry

/-- A falsy reason, which code outside the connection may reject with, is `none`. -/
def reject : Nat → Nat → Option String → ConnM Unit
  | 0, _, _ => throw stackOverflow
  | _ + 1, _, none => throw (.error "answer.reject called with nil")
  | depth + 1, a, some reason => do
    let conn ← get
    if (conn.answer a).done then
      throw (.error "answer.reject claled more than once")
    else do
      alterAnswer a (rejected reason)
      rejectTailAnswerWaiters (conn.answer a).id.id reason
      sendMessage (.ret (conn.answer a).id false false (.exception reason))
      let firstErr ← attemptAll ((conn.answer a).queue.map fun pc => reject depth pc.answer (some reason))
      alterAnswer a fun entry => { entry with queue := [] }
      throwFirst firstErr

end AnswerEntry

def rejectAnswer (a : Nat) (reason : String) : ConnM Unit := do
  let conn ← get
  AnswerEntry.reject conn.stack a (some reason)

def rejectCall (owner : Nat) (reason : String) : QueuedCall → ConnM Unit
  | .fromHere call => emit (.callRejected owner call reason)
  | .remote a _ => rejectAnswer a reason

/-- `CallQueue.rejectAll`. -/
def rejectAll (owner : Nat) (reason : String) : ConnM Unit := do
  let conn ← get
  (conn.client owner).calls.forM fun slot => do
    rejectCall owner reason slot
    popCall owner

/-- Closes what a settled question or answer gave, `clientFromResolution(..).close()`. -/
def closeResolution (closeNext : Nat → ConnM Unit) (transform : Transform) (obj : Option Struct)
    (err : Option String) : ConnM Unit := do
  let client ← clientFromResolution transform obj err
  closeNext client

def pipelineClose (closeNext : Nat → ConnM Unit) (q : Nat) (transform : Transform) : ConnM Unit := do
  let conn ← get
  if (conn.question q).own then
    if transform.isEmpty then
      if (conn.question q).derived.isEmpty then
        if (conn.question q).state = .inProgress then do
          let _ ← Question.closePendingRoot q
        else do
          let _ ← attempt (closeResolution closeNext transform (conn.question q).obj (conn.question q).err)
      else
        alterQuestion q fun question => { question with rootClosePending := true }
    else do
      alterQuestion q fun question => { question with derived := question.derived.filter (· ≠ transform) }
      let conn ← get
      if (conn.question q).state = .inProgress then
        if (conn.question q).rootClosePending && (conn.question q).derived.isEmpty then do
          let _ ← Question.closePendingRoot q
        else
          return ()
      else do
        let _ ← attempt (closeResolution closeNext transform (conn.question q).obj (conn.question q).err)
  else if (conn.question q).state = .inProgress then
    -- the other connection gives its question up, or keeps it
    return ()
  else do
    let _ ← attempt (closeResolution closeNext transform (conn.question q).obj (conn.question q).err)

def closeOptional (closeNext : Nat → ConnM Unit) (client : Option Nat) : ConnM Unit :=
  match client with
  | none => return ()
  | some client => closeNext client

/-- `client.close()`. -/
def closeClient : Nat → Nat → ConnM Unit
  | 0, _ => throw stackOverflow
  | depth + 1, client => do
    let conn ← get
    match conn.client client with
    | .server _ => return ()
    | .error _ => return ()
    | .other => return ()
    | .null => throw (.error "Cannot read properties of null (reading 'close')")
    | .ref rc closed =>
        if closed then
          return ()
        else do
          setClient client (.ref rc true)
          modify fun conn => conn.setRefs rc ((conn.refCount rc).refs - 1)
          if (conn.refCount rc).refs = 1 then
            closeClient depth (conn.refCount rc).client
          else
            return ()
    | .importClient c =>
        if c.closed then
          return ()
        else do
          setClient client (.importClient { c with closed := true })
          rejectAll client RPC_IMPORT_CLOSED
          modify fun conn => conn.setClient client (conn.client client).withoutEmbargo
          closeOptional (closeClient depth) c.resolved
          releaseImportAll c.id.id
    | .pipeline q transform => pipelineClose (closeClient depth) q transform
    | .fixedPipeline answer transform =>
        match answer with
        | .error reason => throw (.error reason)
        | .ok struct => do
          let next ← findClient struct transform
          closeClient depth next
    | .localAnswer a transform =>
        if (conn.answer a).done then
          closeResolution (closeClient depth) transform (conn.answer a).obj (conn.answer a).err
        else
          return ()
    | .promiseExport c =>
        if c.closed then
          return ()
        else do
          setClient client (.promiseExport { c with closed := true })
          closeOptional (closeClient depth) c.resolved
          rejectAll client "promise export closed"
    | .queue c => do
        rejectAll client RPC_QUEUE_CALL_CANCEL
        closeClient depth c.client

def close (client : Nat) : ConnM Unit := do
  let conn ← get
  closeClient conn.stack client

def Conn.dropExport (conn : Conn) (id : Nat) : Conn :=
  { conn.setExport id none with exportID := conn.exportID.remove id }

def closeReleased (id client : Nat) : ConnM Unit :=
  tryCatch (close client) fun error => do
    emit (.releaseFailed id)
    throw error

def releaseExport (id : Nat) (refs : Nat) : ConnM Unit := do
  let conn ← get
  match conn.findExport id with
  | none => return ()
  | some e =>
      if refs = 0 then
        return ()
      else do
        let left := e.wireRefs - min refs e.wireRefs
        set (conn.setExport id (some { e with wireRefs := left }))
        if left > 0 then
          return ()
        else do
          modify fun conn => conn.setExportPromise id none
          closeReleased id e.client
          modify fun conn => conn.dropExport id

end CapnpEs.Rpc
