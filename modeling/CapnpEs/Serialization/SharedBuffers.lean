import CapnpEs.Library.Outcome
import CapnpEs.Library.Transition
import CapnpEs.Serialization.Framing

/-!
Buffers by reference. A segment and its arena hold the same buffer, which the arena adds or replaces when a message
grows: `segment.ts`, `message.ts` and `arena/`.
-/

namespace CapnpEs.SharedBuffers

open LittleEndian (memoryOf overwrite)

/-- A `Segment`; its buffer is a place in the heap. -/
structure SegmentObject where
  id : Nat
  buffer : Nat
  byteLength : Int

inductive AnyArena
  | single (buffer : Nat)
  | multi (buffers : List Nat)

/-- A message, with the buffers it and its arena refer to. -/
structure Store where
  heap : List Bytes
  arena : AnyArena
  segments : List SegmentObject := []
  traversalLimit : Int := DEFAULT_TRAVERSE_LIMIT
  readonly : Bool := false

abbrev StoreM := EStateM CapnpError Store

def Store.bytes (s : Store) (buffer : Nat) : Bytes := (s.heap[buffer]?).getD []

def Store.setSegment (s : Store) (id : Nat) (segment : SegmentObject) : Store :=
  { s with segments := s.segments.set id segment }

def Store.setBuffer (s : Store) (buffer : Nat) (bytes : Bytes) : Store :=
  { s with heap := s.heap.set buffer bytes }

def segmentAt (id : Nat) : StoreM SegmentObject := fun s =>
  match s.segments[id]? with
  | some segment => .ok segment s
  | none => .error .INVARIANT_UNREACHABLE_CODE s

def assertWritable : StoreM Unit := fun s =>
  if s.readonly then .error .PTR_WRITE_CONST_STRUCT s else .ok () s

/-- `new ArrayBuffer(byteLength)`; `limit` is the longest buffer that the engine makes. -/
def newBuffer (limit : Nat) (byteLength : Int) : StoreM Nat := fun s =>
  if byteLength < 0 ∨ byteLength > limit then .error .RangeError s
  else .ok s.heap.length { s with heap := s.heap ++ [List.replicate byteLength.toNat 0] }

namespace AnyArena

def getNumSegments : AnyArena → Nat
  | .single _ => 1
  | .multi buffers => buffers.length

def getBuffer (id : Nat) : AnyArena → Except CapnpError Nat
  | .single buffer => if id ≠ 0 then .error (.SEG_GET_NON_ZERO_SINGLE id) else .ok buffer
  | .multi buffers =>
      match buffers[id]? with
      | none => .error (.SEG_ID_OUT_OF_BOUNDS id)
      | some buffer => .ok buffer

end AnyArena

/-- `Arena.allocate`: the id of a segment and its new buffer. -/
def arenaAllocate (limit : Nat) (minSize : Int) : StoreM (Nat × Nat) := do
  let s ← get
  match s.arena with
  | .single buffer => do
      let srcBuffer := (s.segments.head?.map SegmentObject.buffer).getD buffer
      let minSize := if minSize < MIN_SINGLE_SEGMENT_GROWTH then MIN_SINGLE_SEGMENT_GROWTH else padToWord minSize
      let grown ← newBuffer limit ((s.bytes srcBuffer).length + minSize)
      modify fun s =>
        { s.setBuffer grown (overwrite (s.bytes grown) 0 (s.bytes srcBuffer)) with arena := .single grown }
      return (0, grown)
  | .multi buffers => do
      let b ← newBuffer limit (padToWord (max minSize DEFAULT_BUFFER_SIZE))
      modify fun s => { s with arena := .multi (buffers ++ [b]) }
      return (buffers.length, b)

def hasCapacity (s : Store) (segment : SegmentObject) (byteLength : Int) : Bool :=
  decide ((s.bytes segment.buffer).length - segment.byteLength ≥ byteLength)

def replaceBuffer (id buffer : Nat) : StoreM Unit := do
  let segment ← segmentAt id
  if segment.buffer = buffer then
    return ()
  else do
    assertWritable
    let s ← get
    if (s.bytes buffer).length < segment.byteLength then
      throw .SEG_REPLACEMENT_BUFFER_TOO_SMALL
    else
      set (s.setSegment id { segment with buffer := buffer })

def allocateSegment (limit : Nat) (byteLength : Int) : StoreM Nat := do
  let res ← arenaAllocate limit byteLength
  let s ← get
  if res.1 = s.segments.length then do
    modify fun s => { s with segments := s.segments ++ [{ id := res.1, buffer := res.2, byteLength := 0 }] }
    return res.1
  else if res.1 > s.segments.length then
    throw (.MSG_SEGMENT_OUT_OF_BOUNDS res.1)
  else do
    replaceBuffer res.1 res.2
    return res.1

/-- `new Pointer(segment, byteOffset)`. -/
def newPointer (id : Nat) (byteOffset : Int) : StoreM Unit := do
  modify fun s => { s with traversalLimit := s.traversalLimit - 8 }
  let s ← get
  if s.traversalLimit ≤ 0 then
    throw .PTR_TRAVERSAL_LIMIT_EXCEEDED
  else do
    let segment ← segmentAt id
    if byteOffset < 0 ∨ byteOffset > segment.byteLength then
      throw (.PTR_OFFSET_OUT_OF_BOUNDS byteOffset)
    else
      return ()

/-- `Segment.allocate`. -/
def allocate (limit id : Nat) (byteLength : Int) : StoreM (Nat × Int) := do
  assertWritable
  let byteLength := padToWord byteLength
  if byteLength > MAX_SEGMENT_LENGTH - 8 then
    throw (.SEG_SIZE_OVERFLOW byteLength)
  else do
    let segment ← segmentAt id
    let s ← get
    let id ← (if hasCapacity s segment byteLength then pure id else allocateSegment limit byteLength)
    let segment ← segmentAt id
    modify fun s => s.setSegment id { segment with byteLength := segment.byteLength + byteLength }
    newPointer id segment.byteLength
    return (id, segment.byteLength)

def openFirstSegment (limit : Nat) : StoreM Unit := do
  let s ← get
  if s.arena.getNumSegments = 0 then do
    let _ ← allocateSegment limit DEFAULT_BUFFER_SIZE
  else do
    let buffer ← ofExcept (s.arena.getBuffer 0)
    modify fun s => { s with segments := [{ id := 0, buffer := buffer, byteLength := 0 }] }

/-- `getSegment`, as the id of the segment. -/
def getSegment (limit id : Nat) : StoreM Nat := do
  let s ← get
  if id = 0 ∧ s.segments.length = 0 then do
    openFirstSegment limit
    let s ← get
    let segment ← segmentAt 0
    if hasCapacity s segment 8 then do
      let _ ← allocate limit 0 8
      return 0
    else
      throw .MSG_SEGMENT_TOO_SMALL
  else if id ≥ s.segments.length then
    throw (.MSG_SEGMENT_OUT_OF_BOUNDS id)
  else
    return id

def write (id : Nat) (byteOffset : Int) (bytes : Bytes) : StoreM Unit := do
  assertWritable
  let segment ← segmentAt id
  let s ← get
  if byteOffset < 0 ∨ byteOffset + bytes.length > (s.bytes segment.buffer).length then
    throw .RangeError
  else
    set (s.setBuffer segment.buffer (overwrite (s.bytes segment.buffer) byteOffset.toNat bytes))

inductive Source
  | undefined
  | single (buffer : Bytes)
  | multi (buffers : List Bytes)
  | bytes (buf : Bytes) (packed singleSegment : Bool) (readonly : Option Bool)

def singleSegmentArena (buffer : Bytes) : Except CapnpError Store :=
  if buffer.length % 8 ≠ 0 then
    .error (.SEG_NOT_WORD_ALIGNED buffer.length)
  else
    .ok { heap := [buffer], arena := .single 0 }

def multiSegmentArena (buffers : List Bytes) : Except CapnpError Store :=
  match buffers.reverse.find? (·.length % 8 ≠ 0) with
  | some buffer => .error (.SEG_NOT_WORD_ALIGNED buffer.length)
  | none => .ok { heap := buffers, arena := .multi (List.range buffers.length) }

def initMessage : Source → Except CapnpError Store
  | .undefined => singleSegmentArena (List.replicate DEFAULT_BUFFER_SIZE.toNat 0)
  | .single buffer => singleSegmentArena buffer
  | .multi buffers => multiSegmentArena buffers
  | .bytes buf packed singleSegment readonly => do
      let buf ← (if packed then unpack buf else .ok buf)
      let store ← (if singleSegment then singleSegmentArena buf else getFramedSegments buf >>= multiSegmentArena)
      .ok { store with readonly := readonly.getD true }

def preallocateSegment (s : Store) (i : Nat) : Except CapnpError SegmentObject := do
  let buffer ← s.arena.getBuffer i
  if i = 0 ∧ (s.bytes buffer).length < 8 then
    .error .MSG_SEGMENT_TOO_SMALL
  else
    .ok { id := i, buffer := buffer, byteLength := (s.bytes buffer).length }

def preallocateSegments (s : Store) : Except CapnpError Store := do
  let segments ← (List.range s.arena.getNumSegments).mapM (preallocateSegment s)
  .ok { s with segments := segments }

/-- The `Message` constructor. -/
def newMessage (src : Source) : Except CapnpError Store := do
  let s ← initMessage src
  match src with
  | .undefined => .ok s
  | _ => preallocateSegments s

end CapnpEs.SharedBuffers
