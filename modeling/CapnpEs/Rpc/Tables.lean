import CapnpEs.Rpc.Conn

/-! The tables of a connection, and how capabilities are described to the peer and read back. -/

namespace CapnpEs.Rpc

open SlotTable

def Conn.findQuestion (conn : Conn) (id : Nat) : Option Nat := find conn.questions id

def Conn.findExport (conn : Conn) (id : Nat) : Option Export := find conn.exports id

def Conn.exported (conn : Conn) (id : Nat) : Option Client :=
  (conn.findExport id).map fun e => conn.client (conn.refCount e.rc).client

def Conn.setQuestionSlot (conn : Conn) (id : Nat) (slot : Option Nat) : Conn :=
  { conn with questions := put conn.questions id slot }

def Conn.setAnswerSlot (conn : Conn) (id : Nat) (slot : Option Nat) : Conn :=
  { conn with answers := put conn.answers id slot }

def Conn.setImport (conn : Conn) (id : Nat) (entry : Option ImportEntry) : Conn :=
  { conn with imports := put conn.imports id entry }

def Conn.setExport (conn : Conn) (id : Nat) (slot : Option Export) : Conn :=
  { conn with exports := put conn.exports id slot }

def Conn.setExportPromise (conn : Conn) (id : Nat) (entry : Option ExportPromiseEntry) : Conn :=
  { conn with exportPromises := put conn.exportPromises id entry }

def Conn.setDisembargo (conn : Conn) (id : Nat) (slot : Option Nat) : Conn :=
  { conn with disembargoes := put conn.disembargoes id slot }

def Conn.indexExportPromise (conn : Conn) (question : Nat) (transform : Transform) (id : Option WireId) : Conn :=
  let keys := Function.update (conn.exportPromiseIndex question) transform id
  { conn with exportPromiseIndex := Function.update conn.exportPromiseIndex question keys }

def Conn.hasAsked (conn : Conn) (id : Nat) : Bool :=
  conn.sent.any fun message => message.question.any fun question => question.id == id

def Conn.issueQuestion (conn : Conn) (method : Option Method) : Conn :=
  let id := conn.questionID.next.1
  let opened := { conn.setQuestionSlot id (some conn.objects) with questionID := conn.questionID.next.2 }
  let asked := opened.alterQuestion conn.objects fun _ => { own := true, id := id, method := method }
  asked.allocated.say (.questionIssued ⟨id, conn.objects⟩ (conn.hasAsked id))

def newQuestion (method : Option Method) : ConnM Nat :=
  modifyGet fun conn => (conn.objects, conn.issueQuestion method)

def Conn.dropQuestion (conn : Conn) (id : Nat) : Conn :=
  { conn.setQuestionSlot id none with questionID := conn.questionID.remove id }

def popQuestion (id : Nat) : ConnM (Option Nat) := do
  let conn ← get
  match conn.findQuestion id with
  | none => return none
  | some q => do
    set (conn.dropQuestion id)
    return some q

def Conn.questionId (conn : Conn) (q : Nat) : WireId := ⟨(conn.question q).id, q⟩

def insertAnswer (id : WireId) : ConnM (Option Nat) := do
  let conn ← get
  match find conn.answers id.id with
  | some _ => return none
  | none => do
    set ((conn.setAnswerSlot id.id (some conn.objects)).alterAnswer conn.objects fun _ => { id := id }).allocated
    return some conn.objects

def popAnswer (id : Nat) : ConnM (Option Nat) := do
  let conn ← get
  set (conn.setAnswerSlot id none)
  return find conn.answers id

def addImport (id : WireId) (isPromise : Bool) : ConnM Nat := do
  let conn ← get
  match find conn.imports id.id with
  | some entry => do
    let counted := { entry with refs := entry.refs + 1, isPromise := entry.isPromise || isPromise }
    set (conn.setImport id.id (some counted))
    RefCount.ref entry.rc
  | none => do
    let client ← newClient (.importClient { id := id })
    let (rc, ref) ← RefCount.new client
    let entry : ImportEntry := { rc := rc, refs := 1, isPromise := isPromise, origin := id.object }
    modify fun conn => conn.setImport id.id (some entry)
    return ref

def registerDisembargo (client : Nat) : ConnM Nat := do
  let conn ← get
  let id := conn.disembargoID.next.1
  set { conn.setDisembargo id (some client) with disembargoID := conn.disembargoID.next.2 }
  return id

def Conn.clearDisembargoAt (conn : Conn) (client : Nat) (id : Nat) : Conn :=
  if find conn.disembargoes id = some client then
    { conn.setDisembargo id none with disembargoID := conn.disembargoID.remove id }
  else
    conn

def Conn.clearDisembargo (conn : Conn) (client : Nat) : Conn :=
  (List.range conn.disembargoes.length).foldl (fun conn id => conn.clearDisembargoAt client id) conn

def clearDisembargo (client : Nat) : ConnM Unit := modify fun conn => conn.clearDisembargo client

def releaseImport (id : Nat) (refs : Nat) : ConnM Unit := do
  let conn ← get
  match find conn.imports id with
  | none => return ()
  | some entry =>
      let releaseCount := min refs entry.refs
      if refs = 0 then
        return ()
      else if entry.refs - releaseCount > 0 then
        set (conn.setImport id (some { entry with refs := entry.refs - releaseCount }))
      else do
        clearDisembargo (conn.refCount entry.rc).client
        modify fun conn => conn.setImport id none
        if releaseCount > 0 then
          sendMessage (newReleaseMessage ⟨id, entry.origin⟩ releaseCount)
        else
          return ()

def releaseImportAll (id : Nat) : ConnM Unit := do
  let conn ← get
  match find conn.imports id with
  | none => return ()
  | some entry => releaseImport id entry.refs

def Conn.exportOf (conn : Conn) (client : Nat) : Option Nat :=
  (List.range conn.exports.length).find? fun i =>
    match conn.findExport i with
    | some e => conn.isSameClient (conn.refCount e.rc).client client
    | none => false

/-- `wireRefs++` on the export at `id` -/
def Conn.retainExport (conn : Conn) (id : Nat) (e : Export) : Conn :=
  conn.setExport id (some { e with wireRefs := e.wireRefs + 1 })

def Conn.takeExportId (conn : Conn) : Conn := { conn with exportID := conn.exportID.next.2 }

def createExport (client : Nat) : ConnM WireId := do
  let conn ← get
  let id := conn.exportID.next.1
  set conn.takeExportId
  let (rc, ref) ← RefCount.new client
  modify fun conn => conn.setExport id (some { id := id, rc := rc, client := ref, wireRefs := 1 })
  return ⟨id, rc⟩

def addExport (client : Nat) : ConnM WireId := do
  let conn ← get
  match conn.exportOf client with
  | none => createExport client
  | some i =>
      match conn.findExport i with
      | none => createExport client
      | some e => do
        set (conn.retainExport i e)
        return ⟨i, e.rc⟩

def newExportPromise (question : Nat) (transform : Transform) : ConnM WireId := do
  let client ← newClient (.promiseExport { question := question, transform := transform })
  let id ← addExport client
  modify fun conn => conn.indexExportPromise question transform (some id)
  let conn ← get
  if (find conn.exportPromises id.id).isSome then
    return id
  else do
    let continuation : Continuation := { question := question, transform := transform, id := id }
    set { conn.setExportPromise id.id (some { settled := false, client := client }) with
      continuations := conn.continuations ++ [continuation] }
    return id

def indexedExportPromise (question : Nat) (transform : Transform) : ConnM WireId := do
  let conn ← get
  match conn.exportPromiseIndex question transform with
  | none => newExportPromise question transform
  | some existingId =>
      match conn.findExport existingId.id with
      | some existing => do
        set (conn.retainExport existingId.id existing)
        return ⟨existingId.id, existing.rc⟩
      | none => do
        set (conn.indexExportPromise question transform none)
        newExportPromise question transform

def Conn.indexedExport (conn : Conn) (question : Nat) (transform : Transform) : Option (WireId × Nat) :=
  (conn.exportPromiseIndex question transform).bind fun id => (conn.findExport id.id).map fun e => (id, e.rc)

def addExportPromise (question : Nat) (transform : Transform) : ConnM WireId := do
  let before ← get
  let id ← indexedExportPromise question transform
  let conn ← get
  emit (.promiseExported question transform (before.indexedExport question transform) id
    (conn.exported id.id))
  return id

/-- What the answer of a `FixedAnswer` holds at the end of a path. -/
def clientFromFixed (transform : Transform) : Except String Struct → ConnM Nat
  | .ok struct => clientFromResolution transform (some struct) none
  | .error reason => clientFromResolution transform none (some reason)

/-- The loop of `descriptorForClient`: a descriptor found on the way, or none where it breaks off. -/
def dig : Nat → Nat → ConnM (Option CapDescriptor)
  | 0, _ => throw stackOverflow
  | fuel + 1, client => do
    let conn ← get
    match conn.client client with
    | .importClient c => do
      emit (.importDescribed c.id c.closed)
      return some (.receiverHosted c.id)
    | .ref rc _ => dig fuel (conn.refCount rc).client
    | .fixedPipeline answer transform => do
      let next ← clientFromFixed transform answer
      dig fuel next
    | .pipeline q transform =>
        if (conn.question q).state = .inProgress then
          if (conn.question q).own then
            return some (.receiverAnswer (conn.questionId q) transform)
          else do
            let id ← addExportPromise q transform
            return some (.senderPromise id)
        else do
          let next ← clientFromResolution transform (conn.question q).obj (conn.question q).err
          dig fuel next
    | _ => return none

def descriptorForClient (client : Nat) : ConnM CapDescriptor := do
  let conn ← get
  let found ← dig conn.stack client
  match found with
  | some descriptor => return descriptor
  | none => do
    let id ← addExport client
    return .senderHosted id

def descriptorForSlot : Option Nat → ConnM CapDescriptor
  | none => return .none
  | some client => descriptorForClient client

def makeCapTable : List (Option Nat) → ConnM (List CapDescriptor)
  | [] => return []
  | client :: table => do
    let first ← descriptorForSlot client
    let rest ← makeCapTable table
    return first :: rest

def senderHosted : CapDescriptor → Option WireId
  | .senderHosted id => some id
  | _ => none

def collectPayloadSenderHosted (capTable : List CapDescriptor) : List WireId := capTable.filterMap senderHosted

def fillParams (call : Call) : ConnM Payload := do
  let content ← setContent call.params
  let conn ← get
  let capTable ← makeCapTable (conn.copiedTable call.params)
  return { content := content, capTable := capTable }

end CapnpEs.Rpc
