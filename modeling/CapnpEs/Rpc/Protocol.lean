import Mathlib.Logic.Basic

/-! The messages of `rpc.capnp`, as far as `conn.ts` writes and reads them. -/

namespace CapnpEs.Rpc

/-- A `PipelineOp[]`: the pointer fields to follow from the root of a result. -/
abbrev Transform := List Nat

instance : LawfulBEq Transform := inferInstance

/-- `id` is the number on the wire. `object` records which question, export entry or embargoed import its sender means
by it; no handler branches on it. -/
structure WireId where
  id : Nat
  object : Nat
  deriving DecidableEq, Repr

inductive CapDescriptor
  | none
  | senderHosted (id : WireId)
  | senderPromise (id : WireId)
  | receiverHosted (id : WireId)
  | receiverAnswer (questionId : WireId) (transform : Transform)
  | thirdPartyHosted
  deriving DecidableEq, Repr

/-- The pointer at the end of a path: a capability, or any other pointer with the upper half of its word. -/
inductive PointerEnd
  | interface (capId : Nat)
  | other (upper : Nat)
  deriving DecidableEq, Repr

namespace PointerEnd

/-- `Interface.fromPointer`, which looks at the type of the pointer. -/
def fromPointer : PointerEnd → Option Nat
  | .interface capId => some capId
  | .other _ => none

/-- `getInterfacePointer`, which does not. -/
def getInterfacePointer : PointerEnd → Nat
  | .interface capId => capId
  | .other upper => upper

end PointerEnd

/-- What a struct says about capabilities: the table index of each interface pointer in the order a copy meets them,
and where a path of pointer fields ends, a capability by its position in that order. A walk can fail. The faults say
why the pointer to the struct cannot be read, and why the struct cannot be copied, by how often it has been copied. -/
structure Content where
  caps : List Nat
  pointer : Transform → Except String PointerEnd
  readFault : Nat → Option String := fun _ => none
  copyFault : Nat → Option String := fun _ => none

namespace Content

/-- The capability that `Interface.fromPointer` finds. -/
def capId (content : Content) (transform : Transform) : Except String (Option Nat) := do
  let found ← content.pointer transform
  pure (found.fromPointer.bind fun position => content.caps[position]?)

/-- Where `getInterfaceClientOrNull` looks in the table. -/
def capIndex (content : Content) (transform : Transform) : Except String (Option Nat) := do
  let found ← content.pointer transform
  match found with
  | .interface position => pure content.caps[position]?
  | .other upper => pure (some upper)

/-- A pointer of a copy, if `kept` says which capabilities were there to be copied. -/
def copiedEnd (kept : List Bool) : PointerEnd → PointerEnd
  | .interface position =>
      if kept[position]? = some true then .interface ((kept.take position).count true) else .other 0
  | .other upper => .other upper

/-- `copyFromInterface` adds every capability that is there to the table of the new message, and leaves a null pointer
for each that is not. -/
def copied (content : Content) (kept : List Bool) : Content where
  caps := List.range (kept.count true)
  pointer := fun transform => (content.pointer transform).map (copiedEnd kept)
  readFault := fun copies => content.readFault (copies + 1)
  copyFault := fun copies => content.copyFault (copies + 1)

/-- A message that is a single interface pointer; `transformPtr` does not leave a pointer that is no struct. -/
def interface : Content where
  caps := [0]
  pointer := fun _ => .ok (.interface 0)

end Content

structure Payload where
  content : Content
  capTable : List CapDescriptor

inductive MessageTarget
  | importedCap (id : WireId)
  | promisedAnswer (questionId : WireId) (transform : Transform)
  | other
  deriving DecidableEq, Repr

inductive SendResultsTo
  | caller
  | yourself
  | thirdParty
  deriving DecidableEq, Repr

structure Method where
  interfaceId : Nat
  methodId : Nat
  deriving DecidableEq, Repr

inductive ReturnBody
  | results (payload : Payload)
  | exception (reason : String)
  | canceled
  | resultsSentElsewhere
  | takeFromOtherQuestion (questionId : Nat)
  | other
  -- results or an exception behind a pointer that cannot be read
  | unreadable (reason : String)

inductive Resolution
  | cap (descriptor : CapDescriptor)
  | exception (reason : String)
  | other

inductive DisembargoContext
  | senderLoopback (id : WireId)
  | receiverLoopback (id : WireId)
  | other

inductive RpcMessage
  | unimplemented (message : RpcMessage)
  | abort (reason : String)
  | bootstrap (questionId : WireId)
  | call (questionId : WireId) (target : MessageTarget) (method : Method) (sendResultsTo : SendResultsTo)
      (params : Payload)
  | ret (answerId : WireId) (releaseParamCaps noFinishNeeded : Bool) (body : ReturnBody)
  | finish (questionId : WireId) (releaseResultCaps : Bool)
  | resolve (promiseId : WireId) (resolution : Resolution)
  | release (id : WireId) (referenceCount : Nat)
  | disembargo (target : MessageTarget) (context : DisembargoContext)
  -- `obsoleteSave`, `obsoleteDelete`, `provide`, `accept` and `join`
  | unsupported
  -- a variant of a newer protocol
  | unknown

def RpcMessage.question : RpcMessage → Option WireId
  | .bootstrap id => some id
  | .call id _ _ _ _ => some id
  | _ => none

def newReturnMessage (answerId : WireId) (body : ReturnBody) : RpcMessage := .ret answerId true false body

def newFinishMessage (questionId : WireId) (releaseResultCaps : Bool) : RpcMessage :=
  .finish questionId releaseResultCaps

def newReleaseMessage (id : WireId) (referenceCount : Nat) : RpcMessage := .release id referenceCount

def newUnimplementedMessage (message : RpcMessage) : RpcMessage := .unimplemented message

inductive ProtocolErrorKind
  | badTarget
  | questionIdReused
  | returnForUnknownQuestion
  | unknownAnswerId
  | unknownCapDescriptor
  | unknownExportId
  deriving DecidableEq, Repr

inductive RpcError
  | protocol (kind : ProtocolErrorKind) (message : String)
  | error (message : String)
  deriving DecidableEq, Repr

def RpcError.message : RpcError → String
  | .protocol _ message => message
  | .error message => message

def INVARIANT_UNREACHABLE_CODE := "CAPNP-TS000 Unreachable code detected."
def RPC_NULL_CLIENT := "CAPNP-TS100 Call on null client."
def RPC_CALL_QUEUE_FULL := "CAPNP-TS101 Promised answer call queue full."
def RPC_QUEUE_CALL_CANCEL := "CAPNP-TS102 Queue call canceled."
def RPC_ZERO_REF := "CAPNP-TS105 Ref() called on zeroed refcount."
def RPC_IMPORT_CLOSED := "CAPNP-TS106 Call on closed import."
def RPC_METHOD_NOT_IMPLEMENTED := "CAPNP-TS107 Method not implemented."
def RPC_UNIMPLEMENTED := "CAPNP-TS108 Remote used unimplemented feature."
def RPC_BAD_TARGET := "CAPNP-TS109 Target not found."
def RPC_NO_MAIN_INTERFACE := "CAPNP-TS118 Received bootstrap message without main interface set."

def RPC_RETURN_FOR_UNKNOWN_QUESTION (id : Nat) : String :=
  "CAPNP-TS111 Received return for unknown question (id=" ++ toString id ++ ")."

def RPC_QUESTION_ID_REUSED (id : Nat) : String :=
  "CAPNP-TS112 Attempted to re-use question id (" ++ toString id ++ ")."

def RPC_UNKNOWN_EXPORT_ID (id : Nat) : String :=
  "CAPNP-TS113 Capability table references unknown export ID (" ++ toString id ++ ")."

def RPC_UNKNOWN_ANSWER_ID (id : Nat) : String :=
  "CAPNP-TS114 Capability table references unknown answer ID (" ++ toString id ++ ")."

def CapDescriptor.which : CapDescriptor → Nat
  | .none => 0
  | .senderHosted _ => 1
  | .senderPromise _ => 2
  | .receiverHosted _ => 3
  | .receiverAnswer _ _ => 4
  | .thirdPartyHosted => 5

def RPC_UNKNOWN_CAP_DESCRIPTOR (which : Nat) : String :=
  "CAPNP-TS115 Unknown cap descriptor type (which: " ++ toString which ++ ")."

end CapnpEs.Rpc
