import CapnpEs.Library.LittleEndian
import CapnpEs.Serialization.Packing

/-! Segments, arenas and messages: `segment.ts`, `arena/` and the allocating part of `message.ts`. -/

namespace CapnpEs

namespace DataView

/-- The getters `getUint8`, `getUint16` and `getUint32`, by the width of the number. -/
def getUint (width : Nat) (buffer : Bytes) (byteOffset : Int) : Except CapnpError Nat :=
  if byteOffset < 0 ∨ byteOffset + width > buffer.length then
    .error .RangeError
  else
    .ok (LittleEndian.read (LittleEndian.memoryOf buffer) byteOffset.toNat width)

/-- The setters; a value that does not fit is reduced modulo the width, as in the engine. -/
def setUint (width : Nat) (buffer : Bytes) (byteOffset value : Int) : Except CapnpError Bytes :=
  if byteOffset < 0 ∨ byteOffset + width > buffer.length then
    .error .RangeError
  else
    .ok (LittleEndian.overwrite buffer byteOffset.toNat
      (LittleEndian.encode width (value % 256 ^ width).toNat))

end DataView

/-- A segment. Its `id` is its index in the message. -/
structure Segment where
  buffer : Bytes
  /-- The number of bytes allocated; a JavaScript number that nothing keeps non-negative. -/
  byteLength : Int
  deriving DecidableEq, Repr

inductive ArenaKind
  | SINGLE_SEGMENT
  | MULTI_SEGMENT
  deriving DecidableEq, Repr

/-- An arena. Buffers are shared by reference: once a segment wraps a buffer of its arena, the
buffer lives in the segment, and `buffers` holds the ones that no segment wraps yet. -/
structure Arena where
  kind : ArenaKind
  buffers : List Bytes
  deriving DecidableEq, Repr

/-- The serialization layer never looks into a capability slot; a client is its identity. -/
abbrev CapabilitySlot := Nat

structure Message where
  arena : Arena
  segments : List Segment
  traversalLimit : Int
  readonly : Bool
  capTable : Option (List (Option CapabilitySlot))
  deriving DecidableEq, Repr

/-- Code that changes one message and may throw; a throw keeps what was changed before it. -/
abbrev MessageM := EStateM CapnpError Message

namespace Segment

/-- `capacity - allocated >= requested`. -/
def hasCapacity (s : Segment) (byteLength : Int) : Bool :=
  decide (s.buffer.length - s.byteLength ≥ byteLength)

def contents (s : Segment) : Bytes := s.buffer.take s.byteLength.toNat

end Segment

namespace Arena

def getNumSegments (m : Message) : Nat :=
  match m.arena.kind with
  | .MULTI_SEGMENT => m.segments.length + m.arena.buffers.length
  | .SINGLE_SEGMENT => 1

def getBuffer (id : Nat) (m : Message) : Except CapnpError Bytes :=
  match (m.segments.map (·.buffer) ++ m.arena.buffers)[id]? with
  | some buffer => .ok buffer
  | none =>
      match m.arena.kind with
      | .MULTI_SEGMENT => .error (.SEG_ID_OUT_OF_BOUNDS id)
      | .SINGLE_SEGMENT => .error (.SEG_GET_NON_ZERO_SINGLE id)

/-- `Arena.allocate`: the id and the buffer of the segment to allocate in. A multi segment arena
appends a buffer, a single segment arena copies its buffer into a longer one. -/
def allocate (minSize : Int) (m : Message) : Except CapnpError (Nat × Bytes) :=
  match m.arena.kind with
  | .MULTI_SEGMENT => do
      let buffer ← newArrayBuffer (padToWord (max minSize DEFAULT_BUFFER_SIZE))
      .ok (getNumSegments m, buffer)
  | .SINGLE_SEGMENT => do
      let srcBuffer ← getBuffer 0 m
      let minSize :=
        if minSize < MIN_SINGLE_SEGMENT_GROWTH then MIN_SINGLE_SEGMENT_GROWTH else padToWord minSize
      let buffer ← newArrayBuffer (srcBuffer.length + minSize)
      let buffer ← setBytes buffer srcBuffer 0
      .ok (0, buffer)

end Arena

namespace Message

/-- `new Message()`: a single segment arena with an empty default buffer. -/
def fresh : Message :=
  { arena := { kind := .SINGLE_SEGMENT, buffers := [List.replicate DEFAULT_BUFFER_SIZE.toNat 0] }
    segments := []
    traversalLimit := DEFAULT_TRAVERSE_LIMIT
    readonly := false
    capTable := none }

def setSegment (m : Message) (id : Nat) (s : Segment) : Message :=
  { m with segments := m.segments.set id s }

/-- The segment object with this id; pointers only hold segments that exist. -/
def segment (id : Nat) : MessageM Segment := fun m =>
  match m.segments[id]? with
  | some s => .ok s m
  | none => .error .INVARIANT_UNREACHABLE_CODE m

def assertWritable : MessageM Unit := fun m =>
  if m.readonly then .error .PTR_WRITE_CONST_STRUCT m else .ok () m

/-- `Segment.replaceBuffer`, for a buffer that is a new object. -/
def replaceBuffer (id : Nat) (buffer : Bytes) : MessageM Unit := do
  let s ← segment id
  assertWritable
  if buffer.length < s.byteLength then
    throw .SEG_REPLACEMENT_BUFFER_TOO_SMALL
  else
    modify fun m => m.setSegment id { s with buffer }

/-- `allocateSegment`: the id of the segment that has room for `byteLength` more bytes. -/
def allocateSegment (byteLength : Int) : MessageM Nat := do
  let m ← get
  let res ← ofExcept (Arena.allocate byteLength m)
  if res.1 = m.segments.length then
    -- The new buffer is wrapped at once, so it is not one of the arena's unwrapped buffers.
    modify fun m =>
      { m with
        segments := m.segments ++ [{ buffer := res.2, byteLength := 0 }]
        arena := { m.arena with buffers := [] } }
    return res.1
  else if res.1 > m.segments.length then
    throw (.MSG_SEGMENT_OUT_OF_BOUNDS res.1)
  else
    replaceBuffer res.1 res.2
    return res.1

/-- What the `Pointer` constructor checks, with the charge of `trackPointerAllocation`. -/
def trackPointer (id : Nat) (byteOffset depthLimit : Int) : MessageM Unit := do
  if depthLimit < 1 then
    throw .PTR_DEPTH_LIMIT_EXCEEDED
  else
    modify fun m => { m with traversalLimit := m.traversalLimit - 8 }
    if (← get).traversalLimit ≤ 0 then
      throw .PTR_TRAVERSAL_LIMIT_EXCEEDED
    else
      let s ← segment id
      if byteOffset < 0 ∨ byteOffset > s.byteLength then
        throw (.PTR_OFFSET_OUT_OF_BOUNDS byteOffset)

/-- `Segment.allocate`: the segment and the offset of the fresh region. -/
def allocate (id : Nat) (byteLength : Int) : MessageM (Nat × Int) := do
  assertWritable
  let byteLength := padToWord byteLength
  if byteLength > MAX_SEGMENT_LENGTH - 8 then
    throw (.SEG_SIZE_OVERFLOW byteLength)
  else
    let s ← segment id
    let id ← (if s.hasCapacity byteLength then pure id else allocateSegment byteLength)
    let s ← segment id
    let byteOffset := s.byteLength
    modify fun m => m.setSegment id { s with byteLength := s.byteLength + byteLength }
    trackPointer id byteOffset DEFAULT_DEPTH_LIMIT
    return (id, byteOffset)

/-- `getSegment`: the id, once the segment is known to exist. Segment 0 is created lazily, with
room for the root pointer. -/
def getSegment (id : Nat) : MessageM Nat := do
  let m ← get
  if id = 0 ∧ m.segments.length = 0 then
    if Arena.getNumSegments m = 0 then
      let _ ← allocateSegment DEFAULT_BUFFER_SIZE
    else
      let buffer ← ofExcept (Arena.getBuffer 0 m)
      modify fun m =>
        { m with
          segments := [{ buffer, byteLength := 0 }]
          arena := { m.arena with buffers := m.arena.buffers.tail } }
    let s ← segment 0
    if !s.hasCapacity 8 then
      throw .MSG_SEGMENT_TOO_SMALL
    else
      let _ ← allocate 0 8
      return 0
  else if id ≥ m.segments.length then
    throw (.MSG_SEGMENT_OUT_OF_BOUNDS id)
  else
    return id

end Message

end CapnpEs
