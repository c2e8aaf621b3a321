import CapnpEs.Library.Outcome
import CapnpEs.Rpc.WellFormed
import Mathlib.Logic.Relation

/-! What a connection does to the tables, one change at a time: an abstract endpoint of the protocol. The
handlers only make these changes. -/

namespace CapnpEs.Rpc

open SlotTable

def CapDescriptor.hosted : CapDescriptor → Option WireId
  | .senderHosted id => some id
  | .senderPromise id => some id
  | _ => .none

def hosted (capTable : List CapDescriptor) : List WireId := capTable.filterMap CapDescriptor.hosted

def RpcMessage.descriptors : RpcMessage → List CapDescriptor
  | .call _ _ _ _ params => params.capTable
  | .ret _ _ _ (.results payload) => payload.capTable
  | .resolve _ (.cap descriptor) => [descriptor]
  | _ => []

structure Hand where
  message : Option RpcMessage := none
  -- answers marked as settled whose Return is still to be sent
  owed : List WireId := []
  -- references the message hands over that no import counts yet
  incoming : List WireId := []
  -- references taken for the descriptors of a message that is still to be sent
  prepared : List WireId := []
  -- references the peer gives back that are still counted
  returned : List WireId := []
  -- the question that the Return in hand has taken out of the table
  taken : Option WireId := none
  -- the promise export that is being resolved
  resumed : Option Continuation := none
  -- how the message broke the protocol
  violated : Option ProtocolErrorKind := none
  -- the export without references that is being closed
  releasing : Option Nat := none
  -- the import whose embargo the Disembargo in hand lifts
  lifting : Option Nat := none

/-- A hand that some of what it held has been dropped from. -/
structure Hand.Less (less more : Hand) : Prop where
  message : less.message = more.message
  owed : less.owed ⊆ more.owed
  incoming : less.incoming.Sublist more.incoming
  prepared : less.prepared.Sublist more.prepared
  returned : less.returned.Sublist more.returned
  taken : less.taken = more.taken ∨ less.taken = none
  resumed : less.resumed = more.resumed
  violated : less.violated = more.violated
  releasing : less.releasing = more.releasing
  lifting : less.lifting = more.lifting

/-- What a question keeps for good once its call is sent. -/
def Question.core (question : Question) : Bool × Nat × List WireId × Bool :=
  (question.own, question.id, question.paramCaps, question.started)

def AnswerEntry.core (entry : AnswerEntry) : WireId × Bool × Bool × List WireId :=
  (entry.id, entry.done, entry.routed, entry.resultCaps)

def ImportEntry.core (entry : ImportEntry) : Nat × Nat × Nat := (entry.rc, entry.refs, entry.origin)

def Client.ordinary : Client → Bool
  | .ref _ _ => false
  | .importClient _ => false
  | .promiseExport _ => false
  | _ => true

/-- An import stays one, open or closed, and while it is open an embargo stays and the calls that wait do. -/
structure Client.Holds (before after : Client) : Prop where
  released : before.isReleased = true → after.isReleased = true
  embargoed : ∀ c, before = .importClient c → ∃ c', after = .importClient c' ∧ c'.closed = c.closed ∧
    (c.closed = false → c.embargoId.isSome = true →
      c'.embargoId.isSome = true ∧ c.embargoQueue <+: c'.embargoQueue)

/-- A change that no other party, and no table, takes notice of. -/
structure Quiet (conn after : Conn) : Prop where
  questionID : after.questionID = conn.questionID
  questions : after.questions = conn.questions
  answers : after.answers = conn.answers
  exportID : after.exportID = conn.exportID
  exports : after.exports = conn.exports
  imports : ∀ id, (find after.imports id).map ImportEntry.core = (find conn.imports id).map ImportEntry.core
  exportPromises : after.exportPromises = conn.exportPromises
  exportPromiseIndex : after.exportPromiseIndex = conn.exportPromiseIndex
  continuations : after.continuations = conn.continuations
  closed : after.closed = conn.closed
  transportClosed : after.transportClosed = conn.transportClosed
  working : after.working → conn.working
  receiving : after.receiving → conn.receiving
  disembargoes : ∀ id, find after.disembargoes id = none ∨ find after.disembargoes id = find conn.disembargoes id
  waiters : ∀ id, find after.tailAnswerWaiters id = none ∨
    find after.tailAnswerWaiters id = find conn.tailAnswerWaiters id
  sent : after.sent = conn.sent
  trace : after.trace = conn.trace
  objects : conn.objects ≤ after.objects
  question : ∀ q < conn.objects, (after.question q).core = (conn.question q).core
  answer : ∀ a, (after.answer a).core = (conn.answer a).core
  client : ∀ id < conn.objects, (after.client id).core = (conn.client id).core
  held : ∀ id < conn.objects, (conn.client id).Holds (after.client id)
  refCount : ∀ rc < conn.objects, after.refCount rc = conn.refCount rc
  made : ∀ id, conn.objects ≤ id → (after.client id).ordinary ∨ (after.client id).core = (conn.client id).core

inductive QuietEffect : Conn × Hand → Conn × Hand → Prop
  | quiet {conn after : Conn} {hand : Hand} (same : Quiet conn after) : QuietEffect (conn, hand) (after, hand)
  | forget {conn : Conn} {hand less : Hand} (fewer : less.Less hand) : QuietEffect (conn, hand) (conn, less)

def Conn.MayAnswer (conn : Conn) (hand : Hand) (a : Nat) : Prop :=
  (conn.answer a).routed ∨ hand.message.bind RpcMessage.question = some (conn.answer a).id

def Conn.cancelQuestion (conn : Conn) (q : Nat) : Conn :=
  (((conn.say (.questionCanceled (conn.questionId q))).send
    (newFinishMessage (conn.questionId q) true)).dropQuestion (conn.question q).id)

inductive CloseEffect : Conn × Hand → Conn × Hand → Prop
  | quiet {before after : Conn × Hand} (effect : QuietEffect before after) : CloseEffect before after
  | cancel {conn : Conn} {hand : Hand} (q : Nat) {p : Nat}
      (isOpen : conn.findQuestion (conn.question q).id = some p) :
      CloseEffect (conn, hand) (conn.cancelQuestion q, hand)
  | abandon {conn : Conn} {hand : Hand} (q : Nat) {p : Nat}
      (isOpen : conn.findQuestion (conn.question q).id = some p) (unsent : (conn.question q).started = false) :
      CloseEffect (conn, hand) (conn.dropQuestion (conn.question q).id, hand)
  | settle {conn : Conn} {hand : Hand} (a : Nat) {change : AnswerEntry → AnswerEntry}
      (isOpen : (conn.answer a).done = false) (may : conn.MayAnswer hand a)
      (same : (change (conn.answer a)).core =
        ((conn.answer a).id, true, (conn.answer a).routed, (conn.answer a).resultCaps)) :
      CloseEffect (conn, hand)
        (conn.alterAnswer a change, { hand with owed := (conn.answer a).id :: hand.owed })
  | reject {conn : Conn} {hand : Hand} {id : WireId} (reason : String) (owed : id ∈ hand.owed) :
      CloseEffect (conn, hand) (conn.send (.ret id false false (.exception reason)), hand)
  | release {conn : Conn} {hand : Hand} {id : Nat} {entry : ImportEntry}
      (held : find conn.imports id = some entry) (counted : entry.refs ≠ 0) :
      CloseEffect (conn, hand)
        ((conn.setImport id none).send (newReleaseMessage ⟨id, entry.origin⟩ entry.refs), hand)
  | closeRef {conn : Conn} {hand : Hand} {id rc : Nat} (ref : conn.client id = .ref rc false) :
      CloseEffect (conn, hand)
        ((conn.setClient id (.ref rc true)).setRefs rc ((conn.refCount rc).refs - 1), hand)
  | closeImport {conn : Conn} {hand : Hand} {id : Nat} {c : ImportClient} {client : Client} (reason : String)
      (found : conn.client id = .importClient c)
      (closed : client.core = .importClient { id := c.id, closed := true }) :
      CloseEffect (conn, hand) ((conn.setClient id client).sayRejected id reason c.embargoQueue, hand)
  | rejectHere {conn : Conn} {hand : Hand} (owner : Nat) (reason : String) (calls : List QueuedCall) :
      CloseEffect (conn, hand) (conn.sayRejected owner reason calls, hand)

theorem Conn.mem_sayRejected {conn : Conn} {owner : Nat} {reason : String} {calls : List QueuedCall} {event : Event}
    (said : event ∈ (conn.sayRejected owner reason calls).trace) :
    event ∈ conn.trace ∨ ∃ call, event = .callRejected owner call reason := by
  rcases List.mem_append.mp said with earlier | new
  · exact Or.inl earlier
  · obtain ⟨slot, _, rejected⟩ := List.mem_filterMap.mp new
    cases slot with
    | fromHere call =>
        cases rejected
        exact Or.inr ⟨call, rfl⟩
    | remote a call => cases rejected

/-- What `createExport` leaves behind. -/
def Conn.withExport (conn : Conn) (client : Nat) : Conn :=
  let counted := (conn.takeExportId.setRefCount conn.objects { client := client, refs := 1 }).allocated
  (counted.withClient (.ref conn.objects false)).setExport conn.exportID.next.1
    (some { id := conn.exportID.next.1, rc := conn.objects, client := conn.objects + 1, wireRefs := 1 })

theorem Conn.withExport_eq (conn : Conn) (client : Nat) : conn.withExport client =
    { conn with
      exportID := conn.exportID.next.2
      exports := put conn.exports conn.exportID.next.1 (some
        { id := conn.exportID.next.1, rc := conn.objects, client := conn.objects + 1, wireRefs := 1 })
      objects := conn.objects + 2
      client := Function.update conn.client (conn.objects + 1) (.ref conn.objects false)
      refCount := Function.update conn.refCount conn.objects { client := client, refs := 1 } } := by
  simp [withExport, takeExportId, setRefCount, allocated, withClient, setClient, setExport]

/-- The export that `createExport` makes next. -/
def Conn.nextExport (conn : Conn) : WireId := ⟨conn.exportID.next.1, conn.objects⟩

def Conn.withPromise (conn : Conn) (question : Nat) (transform : Transform) : Conn :=
  let made := conn.withClient (.promiseExport { question := question, transform := transform })
  (made.withExport conn.objects).indexExportPromise question transform (some made.nextExport)

theorem Conn.withPromise_eq (conn : Conn) (question : Nat) (transform : Transform) :
    conn.withPromise question transform =
    { conn with
      exportID := conn.exportID.next.2
      exports := put conn.exports conn.exportID.next.1 (some
        { id := conn.exportID.next.1, rc := conn.objects + 1, client := conn.objects + 2, wireRefs := 1 })
      objects := conn.objects + 3
      client := Function.update (Function.update conn.client conn.objects
        (.promiseExport { question := question, transform := transform }))
        (conn.objects + 2) (.ref (conn.objects + 1) false)
      refCount := Function.update conn.refCount (conn.objects + 1) { client := conn.objects, refs := 1 }
      exportPromiseIndex := Function.update conn.exportPromiseIndex question
        (Function.update (conn.exportPromiseIndex question) transform
          (some ⟨conn.exportID.next.1, conn.objects + 1⟩)) } := by
  simp [withPromise, withExport_eq, indexExportPromise, withClient, allocated, setClient, nextExport]

def Conn.awaitPromise (conn : Conn) (promise : Continuation) (client : Nat) : Conn :=
  { conn.setExportPromise promise.id.id (some { settled := false, client := client }) with
    continuations := conn.continuations ++ [promise] }

def Hand.prepare (hand : Hand) (ids : List WireId) : Hand := { hand with prepared := hand.prepared ++ ids }

inductive DescribeEffect : Conn × Hand → Conn × Hand → Prop
  | quiet {before after : Conn × Hand} (effect : QuietEffect before after) : DescribeEffect before after
  | mention {conn : Conn} {hand : Hand} {id : Nat} {c : ImportClient} (found : conn.client id = .importClient c) :
      DescribeEffect (conn, hand) (conn.say (.importDescribed c.id c.closed), hand)
  | retain {conn : Conn} {hand : Hand} {id : Nat} {e : Export} (found : conn.findExport id = some e) :
      DescribeEffect (conn, hand) (conn.retainExport id e, hand.prepare [⟨id, e.rc⟩])
  | create {conn : Conn} {hand : Hand} {client : Nat} (made : client < conn.objects)
      (free : conn.findExport conn.exportID.next.1 = none) :
      DescribeEffect (conn, hand) (conn.withExport client, hand.prepare [conn.nextExport])
  | unindex {conn : Conn} {hand : Hand} (question : Nat) (transform : Transform) :
      DescribeEffect (conn, hand) (conn.indexExportPromise question transform none, hand)
  | promise {conn : Conn} {hand : Hand} (question : Nat) (transform : Transform)
      (free : conn.findExport conn.exportID.next.1 = none) :
      DescribeEffect (conn, hand)
        (conn.withPromise question transform, hand.prepare [conn.allocated.nextExport])
  | awaitPromise {conn : Conn} {hand : Hand} {promise : Continuation} {client : Nat}
      (indexed : conn.exportPromiseIndex promise.question promise.transform = some promise.id)
      (unknown : find conn.exportPromises promise.id.id = none) :
      DescribeEffect (conn, hand) (conn.awaitPromise promise client, hand)
  | exported {conn : Conn} {hand : Hand} {question : Nat} {transform : Transform}
      {indexed : Option (WireId × Nat)} {before id : WireId} {e : Export} (current : conn.exportPromiseIndex question transform = some before)
      (number : before.id = id.id) (found : conn.findExport id.id = some e) (sameExport : e.rc = id.object)
      (origin : indexed = some (before, id.object) ∨ before = id) :
      DescribeEffect (conn, hand)
        (conn.say (.promiseExported question transform indexed id (conn.exported id.id)), hand)

/-- The target of a call: a question that is open, or an import that is. -/
def Conn.Targets (conn : Conn) : MessageTarget → Prop
  | .importedCap id => ∃ client, (conn.client client).core = .importClient { id := id, closed := false }
  | .promisedAnswer id _ => conn.findQuestion id.id = some id.object
  | .other => False

inductive Conn.BadDescriptor (conn : Conn) : ProtocolErrorKind → CapDescriptor → Prop
  | noExport {id : WireId} (dead : conn.findExport id.id = none) :
      BadDescriptor conn .unknownExportId (.receiverHosted id)
  | zeroRefs {id : WireId} {e : Export} (found : conn.findExport id.id = some e)
      (zero : (conn.refCount e.rc).refs ≤ 0) : BadDescriptor conn .unknownExportId (.receiverHosted id)
  | noAnswer {id : WireId} {transform : Transform} (closed : find conn.answers id.id = none) :
      BadDescriptor conn .unknownAnswerId (.receiverAnswer id transform)
  | thirdParty : BadDescriptor conn .unknownCapDescriptor .thirdPartyHosted

/-- The ways in which the message in hand can break the protocol. -/
inductive Conn.Broken (conn : Conn) : ProtocolErrorKind → RpcMessage → Prop
  | unknownQuestion {id : WireId} {releaseParamCaps noFinishNeeded : Bool} {body : ReturnBody}
      (closed : conn.findQuestion id.id = none) :
      Broken conn .returnForUnknownQuestion (.ret id releaseParamCaps noFinishNeeded body)
  | reused {id : WireId} {target : MessageTarget} {method : Method} {sendResultsTo : SendResultsTo}
      {params : Payload} {a : Nat} (isOpen : find conn.answers id.id = some a) :
      Broken conn .questionIdReused (.call id target method sendResultsTo params)
  | noTarget {id : WireId} {method : Method} {sendResultsTo : SendResultsTo} {params : Payload} :
      Broken conn .badTarget (.call id .other method sendResultsTo params)
  | noExport {id target : WireId} {method : Method} {sendResultsTo : SendResultsTo} {params : Payload}
      (dead : conn.findExport target.id = none) :
      Broken conn .badTarget (.call id (.importedCap target) method sendResultsTo params)
  | ownAnswer {id target : WireId} {transform : Transform} {method : Method} {sendResultsTo : SendResultsTo}
      {params : Payload} (same : target.id = id.id) :
      Broken conn .badTarget (.call id (.promisedAnswer target transform) method sendResultsTo params)
  | noAnswer {id target : WireId} {transform : Transform} {method : Method} {sendResultsTo : SendResultsTo}
      {params : Payload} (closed : find conn.answers target.id = none) :
      Broken conn .badTarget (.call id (.promisedAnswer target transform) method sendResultsTo params)
  | descriptor {kind : ProtocolErrorKind} {message : RpcMessage} {descriptor : CapDescriptor}
      (member : descriptor ∈ message.descriptors) (bad : conn.BadDescriptor kind descriptor) :
      Broken conn kind message
  | nothing {id : WireId} : Broken conn .unknownCapDescriptor (.resolve id (.cap .none))

def Conn.askQuestion (conn : Conn) (id : WireId) (target : MessageTarget) (method : Method) (params : Payload) :
    Conn :=
  let counted := conn.alterQuestion id.object fun question =>
    { question with paramCaps := collectPayloadSenderHosted params.capTable }
  (counted.send (.call id target method .caller params)).alterQuestion id.object fun question =>
    { question with started := true }

def Conn.askBootstrap (conn : Conn) (id : WireId) : Conn :=
  (conn.send (.bootstrap id)).alterQuestion id.object fun question => { question with started := true }

def Conn.withImport (conn : Conn) (id : WireId) (isPromise : Bool) : Conn :=
  let made := conn.withClient (.importClient { id := id })
  let counted := (made.setRefCount made.objects { client := conn.objects, refs := 1 }).allocated
  (counted.withClient (.ref made.objects false)).setImport id.id
    (some { rc := made.objects, refs := 1, isPromise := isPromise, origin := id.object })

theorem Conn.withImport_eq (conn : Conn) (id : WireId) (isPromise : Bool) : conn.withImport id isPromise =
    { conn with
      imports := put conn.imports id.id (some
        { rc := conn.objects + 1, refs := 1, isPromise := isPromise, origin := id.object })
      objects := conn.objects + 3
      client := Function.update (Function.update conn.client conn.objects (.importClient { id := id }))
        (conn.objects + 2) (.ref (conn.objects + 1) false)
      refCount := Function.update conn.refCount (conn.objects + 1) { client := conn.objects, refs := 1 } } := by
  simp [withImport, setRefCount, allocated, withClient, setClient, setImport]

def Conn.withAnswer (conn : Conn) (id : WireId) : Conn :=
  ((conn.setAnswerSlot id.id (some conn.objects)).alterAnswer conn.objects fun _ => { id := id }).allocated

def Conn.resultCapsAt (conn : Conn) (id : Nat) (releaseResultCaps : Bool) : List WireId :=
  if releaseResultCaps then
    match find conn.answers id with
    | some a => (conn.answer a).resultCaps.reverse
    | none => []
  else
    []

def RpcMessage.isNotice : RpcMessage → Bool
  | .disembargo _ (.senderLoopback _) => false
  | .disembargo _ _ => true
  | .unimplemented _ => true
  | .abort _ => true
  | _ => false

def RpcMessage.isResolve : RpcMessage → Bool
  | .resolve _ _ => true
  | _ => false

/-- What `embargo` leaves behind, but for the mark on the import. -/
def Conn.withEmbargo (conn : Conn) (target : MessageTarget) (client : Nat) : Conn :=
  { conn.setDisembargo conn.disembargoID.next.1 (some client) with
    disembargoID := conn.disembargoID.next.2 }.send
      (.disembargo target (.senderLoopback ⟨conn.disembargoID.next.1, client⟩))

inductive Effect : Conn × Hand → Conn × Hand → Prop
  | close {before after : Conn × Hand} (effect : CloseEffect before after) : Effect before after
  | describe {before after : Conn × Hand} (effect : DescribeEffect before after) : Effect before after
  | issue {conn : Conn} {hand : Hand} (method : Option Method) :
      Effect (conn, hand) (conn.issueQuestion method, hand)
  | unissue {conn : Conn} {hand : Hand} {id q : Nat} (isOpen : conn.findQuestion id = some q)
      (unsent : (conn.question q).started = false) : Effect (conn, hand) (conn.dropQuestion id, hand)
  | ask {conn : Conn} {hand : Hand} {id : WireId} {target : MessageTarget} {rest : List WireId}
      (method : Method) (params : Payload) (isOpen : conn.findQuestion id.id = some id.object)
      (unsent : (conn.question id.object).started = false) (targets : conn.Targets target)
      (prepared : hand.prepared = rest ++ hosted params.capTable) :
      Effect (conn, hand) (conn.askQuestion id target method params, { hand with prepared := rest })
  | bootstrap {conn : Conn} {hand : Hand} {id : WireId} (isOpen : conn.findQuestion id.id = some id.object)
      (unsent : (conn.question id.object).started = false) :
      Effect (conn, hand) (conn.askBootstrap id, hand)
  | route {conn : Conn} {hand : Hand} {a : Nat} {change : AnswerEntry → AnswerEntry}
      (may : conn.MayAnswer hand a)
      (same : (change (conn.answer a)).core =
        ((conn.answer a).id, (conn.answer a).done, true, (conn.answer a).resultCaps)) :
      Effect (conn, hand) (conn.alterAnswer a change, hand)
  | newRef {conn : Conn} {hand : Hand} {rc : Nat} (positive : 0 < (conn.refCount rc).refs) :
      Effect (conn, hand)
        ((conn.setRefs rc ((conn.refCount rc).refs + 1)).withClient (.ref rc false), hand)
  | newImport {conn : Conn} {hand : Hand} {id : WireId} {rest : List WireId} (isPromise : Bool)
      (unknown : find conn.imports id.id = none) (given : hand.incoming = id :: rest) :
      Effect (conn, hand) (conn.withImport id isPromise, { hand with incoming := rest })
  | countImport {conn : Conn} {hand : Hand} {id : WireId} {rest : List WireId} {entry counted : ImportEntry}
      (known : find conn.imports id.id = some entry) (given : hand.incoming = id :: rest)
      (more : counted.core = (entry.rc, entry.refs + 1, entry.origin)) :
      Effect (conn, hand) (conn.setImport id.id (some counted), { hand with incoming := rest })
  | discard {conn : Conn} {hand : Hand} {id : WireId} {rest : List WireId} (given : hand.incoming = id :: rest) :
      Effect (conn, hand) (conn.send (newReleaseMessage id 1), { hand with incoming := rest })
  | insertAnswer {conn : Conn} {hand : Hand} {id : WireId}
      (asked : hand.message.bind RpcMessage.question = some id) (free : find conn.answers id.id = none) :
      Effect (conn, hand) (conn.withAnswer id, hand)
  | finishAnswer {conn : Conn} {hand : Hand} {id : WireId} {releaseResultCaps : Bool}
      (finished : hand.message = some (.finish id releaseResultCaps)) :
      Effect (conn, hand) (conn.setAnswerSlot id.id none,
        { hand with returned := conn.resultCapsAt id.id releaseResultCaps })
  | forgetAnswer {conn : Conn} {hand : Hand} {id : WireId} {target : MessageTarget} {method : Method}
      {sendResultsTo : SendResultsTo} {params : Payload} {a : Nat} (reason : String)
      (asked : hand.message = some (.call id target method sendResultsTo params))
      (found : find conn.answers id.id = some a) (unrouted : (conn.answer a).routed = false) :
      Effect (conn, hand)
        (((conn.setAnswerSlot id.id none).say (.callRefused id params.capTable)).send
          (newReturnMessage id (.exception reason)), hand)
  | refuse {conn : Conn} {hand : Hand} {id : WireId} {target : MessageTarget} {method : Method}
      {sendResultsTo : SendResultsTo} {params : Payload} (reason : String)
      (asked : hand.message = some (.call id target method sendResultsTo params)) :
      Effect (conn, hand)
        ((conn.say (.callRefused id params.capTable)).send (newReturnMessage id (.exception reason)), hand)
  | refuseBootstrap {conn : Conn} {hand : Hand} {id : WireId} (reason : String)
      (asked : hand.message = some (.bootstrap id)) :
      Effect (conn, hand) (conn.send (newReturnMessage id (.exception reason)), hand)
  | results {conn : Conn} {hand : Hand} {a : Nat} {change : AnswerEntry → AnswerEntry} {payload : Payload}
      {rest : List WireId} (owed : (conn.answer a).id ∈ hand.owed)
      (same : (change (conn.answer a)).core = ((conn.answer a).id, (conn.answer a).done, (conn.answer a).routed,
        collectPayloadSenderHosted payload.capTable))
      (prepared : hand.prepared = rest ++ hosted payload.capTable) :
      Effect (conn, hand)
        ((conn.alterAnswer a change).send (.ret (conn.answer a).id false false (.results payload)),
          { hand with prepared := rest })
  | elsewhere {conn : Conn} {hand : Hand} {id : WireId} (owed : id ∈ hand.owed) :
      Effect (conn, hand) (conn.send (.ret id false false .resultsSentElsewhere), hand)
  | strand {conn : Conn} {hand : Hand} {a : Nat} {waiters : List Nat} {change : AnswerEntry → AnswerEntry}
      (waited : find conn.tailAnswerWaiters (conn.answer a).id.id = some waiters)
      (same : ∃ caps, (change (conn.answer a)).core =
        ((conn.answer a).id, (conn.answer a).done, (conn.answer a).routed, caps)) :
      Effect (conn, hand) (conn.alterAnswer a change, hand)
  | takeReturn {conn : Conn} {hand : Hand} {id : WireId} {releaseParamCaps noFinishNeeded : Bool}
      {body : ReturnBody} {q : Nat}
      (returned : hand.message = some (.ret id releaseParamCaps noFinishNeeded body))
      (isOpen : conn.findQuestion id.id = some q) :
      Effect (conn, hand)
        ((conn.dropQuestion id.id).say (.returnUsed q id),
          { hand with
            taken := some ⟨id.id, q⟩
            returned := if releaseParamCaps then (conn.question q).paramCaps else [] })
  | finish {conn : Conn} {hand : Hand} {id taken : WireId} {releaseParamCaps noFinishNeeded : Bool}
      {body : ReturnBody} (returned : hand.message = some (.ret id releaseParamCaps noFinishNeeded body))
      (took : hand.taken = some taken) :
      Effect (conn, hand)
        (conn.send (newFinishMessage taken (!body.keepsResultCaps)), { hand with taken := none })
  | wait {conn : Conn} {hand : Hand} {id : WireId} {releaseParamCaps noFinishNeeded : Bool} {other : Nat}
      (slot : Option (List Nat))
      (returned : hand.message =
        some (.ret id releaseParamCaps noFinishNeeded (.takeFromOtherQuestion other))) :
      Effect (conn, hand) (conn.setWaiters other slot, hand)
  | decrement {conn : Conn} {hand : Hand} {id : WireId} {refs : Nat} {rest : List WireId} {e : Export}
      (found : conn.findExport id.id = some e) (given : hand.returned = List.replicate refs id ++ rest)
      (idle : hand.releasing = none) :
      Effect (conn, hand)
        (conn.setExport id.id (some { e with wireRefs := e.wireRefs - min refs e.wireRefs }),
          { hand with
            returned := rest
            releasing := if e.wireRefs - min refs e.wireRefs = 0 then some id.id else none })
  | clearPromise {conn : Conn} {hand : Hand} (id : Nat) (unresumed : hand.resumed = none) :
      Effect (conn, hand) (conn.setExportPromise id none, hand)
  | dropExport {conn : Conn} {hand : Hand} {id : Nat} {e : Export} (found : conn.findExport id = some e)
      (unheld : e.wireRefs = 0) (releasing : hand.releasing = some id) (unresumed : hand.resumed = none) :
      Effect (conn, hand) (conn.dropExport id, { hand with releasing := none })
  | releaseFailed {conn : Conn} {hand : Hand} {id : Nat} (releasing : hand.releasing = some id) :
      Effect (conn, hand) (conn.say (.releaseFailed id), { hand with releasing := none })
  | settlePromise {conn : Conn} {hand : Hand} (id : Nat) {entry : ExportPromiseEntry}
      (found : find conn.exportPromises id = some entry) :
      Effect (conn, hand) (conn.setExportPromise id (some { entry with settled := true }), hand)
  | resolve {conn : Conn} {hand : Hand} {promise : Continuation} {resolution : Resolution} {rest : List WireId}
      (resumed : hand.resumed = some promise)
      (prepared : hand.prepared = rest ++ hosted (RpcMessage.resolve promise.id resolution).descriptors) :
      Effect (conn, hand)
        ((conn.say (.promiseResolved promise ((conn.findExport promise.id.id).map (·.rc))
            (conn.exported promise.id.id))).send (.resolve promise.id resolution),
          { hand with prepared := rest })
  | notice {conn : Conn} {hand : Hand} {message : RpcMessage} (plain : message.isNotice) :
      Effect (conn, hand) (conn.send message, hand)
  | embargo {conn : Conn} {hand : Hand} (target : MessageTarget) (client : Nat) {promiseId : WireId}
      {resolution : Resolution} (received : hand.message = some (.resolve promiseId resolution)) :
      Effect (conn, hand) (conn.withEmbargo target client, hand)
  | lift {conn : Conn} {hand : Hand} {target : MessageTarget} {id : WireId} {client : Nat}
      (received : hand.message = some (.disembargo target (.receiverLoopback id)))
      (found : find conn.disembargoes id.id = some client) (unlifted : hand.lifting = none) :
      Effect (conn, hand) (conn, { hand with lifting := some client })
  | lifted {conn : Conn} {hand : Hand} {id : Nat} {client : Client} (lifting : hand.lifting = some id)
      (same : client.core = (conn.client id).core) : Effect (conn, hand) (conn.setClient id client, hand)
  | violate {conn : Conn} {hand : Hand} {kind : ProtocolErrorKind} {message : RpcMessage}
      (received : hand.message = some message) (broken : conn.Broken kind message) :
      Effect (conn, hand) (conn, { hand with violated := some kind })
  | abort {conn : Conn} {hand : Hand} {kind : ProtocolErrorKind} (violated : hand.violated = some kind)
      (isOpen : conn.closed = false) :
      Effect (conn, hand) (conn.say (.aborted kind), hand)
  | shut {conn : Conn} {hand : Hand} : Effect (conn, hand) ({ conn with closed := true, working := false }, hand)
  | clearQuestion {conn : Conn} {hand : Hand} (closed : conn.closed = true) {id q : Nat}
      (isOpen : conn.findQuestion id = some q) : Effect (conn, hand) (conn.dropQuestion id, hand)
  | clearAnswer {conn : Conn} {hand : Hand} (closed : conn.closed = true) (id : Nat) :
      Effect (conn, hand) (conn.setAnswerSlot id none, hand)
  | markAnswer {conn : Conn} {hand : Hand} (closed : conn.closed = true) (a : Nat)
      {change : AnswerEntry → AnswerEntry}
      (same : (change (conn.answer a)).core =
        ((conn.answer a).id, true, (conn.answer a).routed, (conn.answer a).resultCaps)) :
      Effect (conn, hand) (conn.alterAnswer a change, hand)
  | clearExport {conn : Conn} {hand : Hand} (closed : conn.closed = true) {id : Nat} {e : Export}
      (found : conn.findExport id = some e) (unresumed : hand.resumed = none) :
      Effect (conn, hand) (conn.dropExport id, hand)
  | clearPromises {conn : Conn} {hand : Hand} (closed : conn.closed = true) (unresumed : hand.resumed = none) :
      Effect (conn, hand) ({ conn with exportPromises := [], exportPromiseIndex := fun _ _ => none }, hand)
  | clearImport {conn : Conn} {hand : Hand} (closed : conn.closed = true) (id : Nat) :
      Effect (conn, hand) (conn.setImport id none, hand)
  | closeTransport {conn : Conn} {hand : Hand} (closed : conn.closed = true) :
      Effect (conn, hand) ({ conn with transportClosed := true }, hand)
  | resume {conn : Conn} {hand : Hand} (promise : Continuation) :
      Effect (conn, hand) ({ conn with continuations := conn.continuations.erase promise }, hand)

end CapnpEs.Rpc
