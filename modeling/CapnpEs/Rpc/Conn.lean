import CapnpEs.Library.SlotTable
import CapnpEs.Rpc.IdGen
import CapnpEs.Rpc.Protocol
import Mathlib.Logic.Function.Basic

/-! The state of a connection: its tables, and the objects that these and the application hold. -/

namespace CapnpEs.Rpc

open SlotTable

structure Struct where
  content : Content
  -- the message whose capability table the content indexes
  message : Nat

structure Call where
  method : Method
  params : Struct

/-- What a call returns: a question, an answer that code outside the connection settles, or a failed one. -/
inductive Answer
  | question (question : Nat)
  | fulfiller
  | error (reason : String)
  deriving DecidableEq

inductive QuestionState
  | inProgress
  | resolved
  | canceled
  deriving DecidableEq, Repr

structure Question where
  -- whether the question is one of this connection, `conn === this`
  own : Bool
  id : Nat
  method : Option Method := none
  paramCaps : List WireId := []
  state : QuestionState := .inProgress
  started : Bool := false
  obj : Option Struct := none
  err : Option String := none
  derived : List Transform := []
  rootClosePending : Bool := false

structure PipelinedCall where
  answer : Nat
  call : Call
  transform : Transform

structure AnswerEntry where
  id : WireId
  resultCaps : List WireId := []
  sendResultsElsewhere : Bool := false
  done : Bool := false
  obj : Option Struct := none
  err : Option String := none
  -- what `deferred` has been settled to; no handler reads it
  deferred : Option (Except String Struct) := none
  queue : List PipelinedCall := []
  -- the answer `joinAnswer` waits for
  joined : Option Answer := none
  -- whether the call went on to a client or a queue, which will settle the entry; no handler reads it
  routed : Bool := false

namespace AnswerEntry

def rejected (reason : String) (entry : AnswerEntry) : AnswerEntry :=
  { entry with err := some reason, done := true, deferred := entry.deferred.or (some (.error reason)) }

def fulfilled (obj : Struct) (entry : AnswerEntry) : AnswerEntry :=
  { entry with
    done := true
    obj := some obj
    deferred := if entry.sendResultsElsewhere then entry.deferred.or (some (.ok obj)) else entry.deferred }

/-- What `makeCapTable` has described is recorded, and `deferred` is resolved. -/
def described (obj : Struct) (resultCaps : List WireId) (entry : AnswerEntry) : AnswerEntry :=
  { entry with resultCaps := resultCaps, deferred := entry.deferred.or (some (.ok obj)) }

end AnswerEntry

inductive QueuedCall
  | fromHere (call : Call)
  | remote (answer : Nat) (call : Call)

structure ImportClient where
  id : WireId
  closed : Bool := false
  resolved : Option Nat := none
  embargoId : Option Nat := none
  embargoQueue : List QueuedCall := []

structure PromiseExportClient where
  -- what the export was made for
  question : Nat
  transform : Transform
  resolved : Option Nat := none
  closed : Bool := false
  queue : List QueuedCall := []

structure QueueClient where
  client : Nat
  queue : List QueuedCall

inductive Client
  | server (methods : List Method)
  | error (reason : String)
  | ref (rc : Nat) (closed : Bool)
  | importClient (client : ImportClient)
  | pipeline (question : Nat) (transform : Transform)
  | fixedPipeline (answer : Except String Struct) (transform : Transform)
  | localAnswer (answer : Nat) (transform : Transform)
  | promiseExport (client : PromiseExportClient)
  | queue (client : QueueClient)
  -- the empty slot of a capability table, used as a client
  | null
  -- a client this connection does not look into, such as one of another connection
  | other

structure RefCount where
  client : Nat
  refs : Int

structure Export where
  id : Nat
  rc : Nat
  client : Nat
  wireRefs : Nat

structure ImportEntry where
  rc : Nat
  refs : Nat
  isPromise : Bool
  -- the export of the peer that the first descriptor meant
  origin : Nat

structure ExportPromiseEntry where
  settled : Bool
  client : Nat

/-- `resolveFromQuestion`, waiting for its question -/
structure Continuation where
  question : Nat
  transform : Transform
  id : WireId
  deriving DecidableEq

inductive Event
  -- `again`: a question of this number has been asked earlier in the same step
  | questionIssued (id : WireId) (again : Bool)
  | questionCanceled (id : WireId)
  | returnUsed (question : Nat) (answerId : WireId)
  | importDescribed (id : WireId) (closed : Bool)
  -- `indexed`: the entry of the index and the live export it leads to, before
  | promiseExported (question : Nat) (transform : Transform) (indexed : Option (WireId × Nat)) (id : WireId)
      (client : Option Client)
  | promiseResolved (promise : Continuation) (rc : Option Nat) (client : Option Client)
  | callRefused (answerId : WireId) (params : List CapDescriptor)
  -- the fulfiller of a call made here, which waited in the queue of `owner`, has been rejected
  | callRejected (owner : Nat) (call : Call) (reason : String)
  -- closing a client threw, and left its export in the table without references
  | releaseFailed (id : Nat)
  | aborted (kind : ProtocolErrorKind)

/-- A `Conn`. The objects of the process are numbered, and `objects` is the next free number. -/
structure Conn where
  questionID : IdGen := {}
  questions : List (Option Nat) := []
  answers : List (Option Nat) := []
  exportID : IdGen := {}
  exports : List (Option Export) := []
  imports : List (Option ImportEntry) := []
  disembargoID : IdGen := {}
  disembargoes : List (Option Nat) := []
  tailAnswerWaiters : List (Option (List Nat)) := []
  exportPromises : List (Option ExportPromiseEntry) := []
  exportPromiseIndex : Nat → Transform → Option WireId := fun _ _ => none
  main : Option Nat := none
  closed : Bool := false
  working : Bool := true
  -- whether the loop of `work` waits for a message
  receiving : Bool := true
  transportClosed : Bool := false
  sent : List RpcMessage := []
  continuations : List Continuation := []
  objects : Nat := 0
  question : Nat → Question := fun _ => { own := false, id := 0, state := .canceled, err := some "" }
  answer : Nat → AnswerEntry := fun _ => { id := ⟨0, 0⟩, done := true, err := some "" }
  client : Nat → Client := fun _ => .other
  refCount : Nat → RefCount := fun _ => { client := 0, refs := 0 }
  capTable : Nat → List (Option Nat) := fun _ => []
  -- `Registry.lookup`, with the methods of the interface
  registry : Nat → Option (List Method) := fun _ => none
  -- how deep calls may nest, and how far a chain of clients may lead
  stack : Nat := 64
  trace : List Event := []

abbrev ConnM := EStateM RpcError Conn

def stackOverflow : RpcError := .error "Maximum call stack size exceeded"

def Conn.say (conn : Conn) (event : Event) : Conn := { conn with trace := conn.trace ++ [event] }

def Conn.send (conn : Conn) (message : RpcMessage) : Conn :=
  { conn with sent := if conn.transportClosed then conn.sent else conn.sent ++ [message] }

def QueuedCall.rejection (owner : Nat) (reason : String) : QueuedCall → Option Event
  | .fromHere call => some (.callRejected owner call reason)
  | .remote _ _ => none

def Conn.sayRejected (conn : Conn) (owner : Nat) (reason : String) (calls : List QueuedCall) : Conn :=
  { conn with trace := conn.trace ++ calls.filterMap (QueuedCall.rejection owner reason) }

def emit (event : Event) : ConnM Unit := modify fun conn => conn.say event

def sendMessage (message : RpcMessage) : ConnM Unit := modify fun conn => conn.send message

def Conn.alterQuestion (conn : Conn) (q : Nat) (change : Question → Question) : Conn :=
  { conn with question := Function.update conn.question q (change (conn.question q)) }

def Conn.alterAnswer (conn : Conn) (a : Nat) (change : AnswerEntry → AnswerEntry) : Conn :=
  { conn with answer := Function.update conn.answer a (change (conn.answer a)) }

def Conn.setClient (conn : Conn) (id : Nat) (client : Client) : Conn :=
  { conn with client := Function.update conn.client id client }

def Conn.setRefCount (conn : Conn) (rc : Nat) (count : RefCount) : Conn :=
  { conn with refCount := Function.update conn.refCount rc count }

def Conn.setRefs (conn : Conn) (rc : Nat) (refs : Int) : Conn :=
  conn.setRefCount rc { conn.refCount rc with refs := refs }

def Conn.setWaiters (conn : Conn) (id : Nat) (slot : Option (List Nat)) : Conn :=
  { conn with tailAnswerWaiters := put conn.tailAnswerWaiters id slot }

def Conn.setCapTable (conn : Conn) (message : Nat) (table : List (Option Nat)) : Conn :=
  { conn with capTable := Function.update conn.capTable message table }

def alterQuestion (q : Nat) (change : Question → Question) : ConnM Unit :=
  modify fun conn => conn.alterQuestion q change

def alterAnswer (a : Nat) (change : AnswerEntry → AnswerEntry) : ConnM Unit :=
  modify fun conn => conn.alterAnswer a change

def setClient (id : Nat) (client : Client) : ConnM Unit := modify fun conn => conn.setClient id client

def Conn.allocated (conn : Conn) : Conn := { conn with objects := conn.objects + 1 }

def Conn.withClient (conn : Conn) (client : Client) : Conn := (conn.setClient conn.objects client).allocated

def newClient (client : Client) : ConnM Nat := modifyGet fun conn => (conn.objects, conn.withClient client)

def newMessage (table : List (Option Nat)) : ConnM Nat :=
  modifyGet fun conn => (conn.objects, (conn.setCapTable conn.objects table).allocated)

def Conn.slot (conn : Conn) (struct : Struct) (capId : Nat) : Option Nat :=
  ((conn.capTable struct.message)[capId]?).getD none

def Conn.copiedTable (conn : Conn) (struct : Struct) : List (Option Nat) :=
  (struct.content.caps.filterMap (conn.slot struct)).map some

def Conn.copied (conn : Conn) (struct : Struct) : Content :=
  struct.content.copied (struct.content.caps.map fun capId => (conn.slot struct capId).isSome)

/-- `payload.content = struct` -/
def setContent (struct : Struct) : ConnM Content := do
  let conn ← get
  match struct.content.copyFault 0 with
  | some reason => throw (.error reason)
  | none => return conn.copied struct

/-- `payload.content` -/
def readContent (content : Content) : ConnM Unit :=
  match content.readFault 0 with
  | some reason => throw (.error reason)
  | none => return ()

namespace RefCount

def new (client : Nat) : ConnM (Nat × Nat) := do
  let rc ← modifyGet fun conn =>
    (conn.objects, (conn.setRefCount conn.objects { client := client, refs := 1 }).allocated)
  let ref ← newClient (.ref rc false)
  return (rc, ref)

def ref (rc : Nat) : ConnM Nat := do
  let conn ← get
  let refs := (conn.refCount rc).refs
  if refs ≤ 0 then
    throw (.error RPC_ZERO_REF)
  else do
    set (conn.setRefs rc (refs + 1))
    newClient (.ref rc false)

end RefCount

def Conn.normalize (conn : Conn) (client : Nat) : Option Nat :=
  match conn.client client with
  | .ref rc _ => some (conn.refCount rc).client
  | .importClient c => if c.embargoId.isSome then none else c.resolved
  | .promiseExport c => c.resolved
  | .queue c => if c.queue.isEmpty then some c.client else none
  | _ => none

def Conn.norm (conn : Conn) : Nat → Nat → Nat
  | 0, client => client
  | hops + 1, client =>
      match conn.normalize client with
      | none => client
      | some next => if next = client then client else conn.norm hops next

def Conn.isSameClient (conn : Conn) (c d : Nat) : Bool := conn.norm 64 c == conn.norm 64 d

/-- `getInterfaceClientOrNull` after `transformPtr`. -/
def findClient (struct : Struct) (transform : Transform) : ConnM Nat := do
  let conn ← get
  match struct.content.capIndex transform with
  | .error reason => throw (.error reason)
  | .ok capId =>
      match capId.bind (conn.slot struct) with
      | some client => return client
      | none => newClient (.error RPC_NULL_CLIENT)

def clientFromResolution (transform : Transform) (obj : Option Struct) (err : Option String) : ConnM Nat :=
  match err, obj with
  | some reason, _ => newClient (.error reason)
  | none, none => newClient (.error "null obj!")
  | none, some struct => findClient struct transform

namespace Client

def calls : Client → List QueuedCall
  | .importClient c => c.embargoQueue
  | .promiseExport c => c.queue
  | .queue c => c.queue
  | _ => []

/-- `embargoId = undefined` -/
def withoutEmbargo : Client → Client
  | .importClient c => .importClient { c with embargoId := none }
  | client => client

/-- `embargoId = id` -/
def withEmbargo (id : Nat) : Client → Client
  | .importClient c => .importClient { c with embargoId := some id }
  | client => client

/-- `resolved = target` -/
def withResolved (target : Nat) : Client → Client
  | .importClient c => .importClient { c with resolved := some target }
  | .promiseExport c => .promiseExport { c with resolved := some target }
  | client => client

/-- `resolved = undefined` -/
def withoutResolved : Client → Client
  | .importClient c => .importClient { c with resolved := none }
  | client => client

def setCalls (calls : List QueuedCall) : Client → Client
  | .importClient c => .importClient { c with embargoQueue := calls }
  | .promiseExport c => .promiseExport { c with queue := calls }
  | .queue c => .queue { c with queue := calls }
  | client => client

end Client

end CapnpEs.Rpc
