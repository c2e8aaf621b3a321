import CapnpEs.Serialization.Message

/-! Stream framing: the encoders and the decoder of `message.ts`. -/

namespace CapnpEs

inductive MessageSource
  | undefined
  | arena (arena : Arena)
  | buffer (bytes : Bytes)

/-- The loop of `getStreamFrame` over the segments, from segment `i`. -/
def writeSegmentSizes (out : Bytes) (i : Nat) : List Segment → Except CapnpError Bytes
  | [] => .ok out
  | s :: segments => do
      let out ← DataView.setUint 4 out (i * 4 + 4) (s.byteLength / 8)
      writeSegmentSizes out (i + 1) segments

def getStreamFrame (m : Message) : Except CapnpError Bytes := do
  let length := m.segments.length
  if length = 0 then
    -- Segment 0 is not allocated for this: the frame is a single zero word.
    newArrayBuffer 8
  else
    let frameLength := 4 + length * 4 + (1 - length % 2) * 4
    let out ← newArrayBuffer frameLength
    let out ← DataView.setUint 4 out 0 (length - 1)
    writeSegmentSizes out 0 m.segments

/-- The loop of `toArrayBuffer` that copies the segments behind the frame. -/
def copySegments (out : Bytes) (o : Int) : List Segment → Except CapnpError Bytes
  | [] => .ok out
  | s :: segments => do
      let segmentLength := padToWord s.byteLength
      let view ← uint8View s.buffer 0 segmentLength
      let out ← setBytes out view o.toNat
      copySegments out (o + segmentLength) segments

/-- The second half of `toArrayBuffer`: the frame and the segments in one buffer. -/
def joinSegments (streamFrame : Bytes) (segments : List Segment) : Except CapnpError Bytes := do
  let totalLength := streamFrame.length + (segments.map fun s => padToWord s.byteLength).sum
  let out ← newArrayBuffer totalLength
  let out ← setBytes out streamFrame 0
  copySegments out streamFrame.length segments

namespace Message

/-- The encoders read the frame header first and only then "make sure the first segment is allocated". -/
def ensureFirstSegment : MessageM Unit := do
  if (← get).segments.length = 0 then
    let _ ← getSegment 0

def toArrayBuffer : MessageM Bytes := do
  let streamFrame ← ofExcept (getStreamFrame (← get))
  ensureFirstSegment
  ofExcept (joinSegments streamFrame (← get).segments)

/-- The header and every segment are packed by themselves and joined. -/
def toPackedArrayBuffer : MessageM Bytes := do
  let streamFrame ← ofExcept (getStreamFrame (← get) >>= pack)
  ensureFirstSegment
  let segments ← ofExcept ((← get).segments.mapM fun s =>
    packView s.buffer 0 (padToWord s.byteLength))
  return streamFrame ++ segments.flatten

end Message

/-- The loop of `getFramedSegments`, with `count` segments left from segment `i`. -/
def sliceSegments (message : Bytes) (i : Nat) (byteOffset : Nat) :
    Nat → Except CapnpError (List Bytes)
  | 0 => .ok []
  | count + 1 => do
      let byteLength := (← DataView.getUint 4 message (4 + i * 4)) * 8
      if byteOffset + byteLength > message.length then
        .error .MSG_INVALID_FRAME_HEADER
      else
        let segments ← sliceSegments message (i + 1) (byteOffset + byteLength) count
        .ok ((message.drop byteOffset).take byteLength :: segments)

def getFramedSegments (message : Bytes) : Except CapnpError (List Bytes) := do
  if message.length < 4 then
    .error .MSG_INVALID_FRAME_HEADER
  else
    let segmentCount := (← DataView.getUint 4 message 0) + 1
    if segmentCount > MAX_STREAM_SEGMENTS then
      .error (.MSG_TOO_MANY_SEGMENTS segmentCount)
    else
      let byteOffset := 4 + segmentCount * 4
      let byteOffset := byteOffset + byteOffset % 8
      if byteOffset > message.length then
        .error .MSG_INVALID_FRAME_HEADER
      else
        sliceSegments message 0 byteOffset segmentCount

/-- The arena constructors refuse a buffer that is not word aligned; the last one is found first. -/
def checkBuffers (kind : ArenaKind) (buffers : List Bytes) : Except CapnpError Arena :=
  match buffers.reverse.find? (·.length % 8 ≠ 0) with
  | some buffer => .error (.SEG_NOT_WORD_ALIGNED buffer.length)
  | none => .ok { kind, buffers }

def initMessage (src : MessageSource) (packed singleSegment : Bool) (readonly : Option Bool) :
    Except CapnpError Message :=
  match src with
  | .undefined => .ok Message.fresh
  | .arena arena =>
      .ok
        { arena
          segments := []
          traversalLimit := DEFAULT_TRAVERSE_LIMIT
          readonly := false
          capTable := none }
  | .buffer buf => do
      let buf ← if packed then unpack buf else .ok buf
      let arena ←
        if singleSegment then checkBuffers .SINGLE_SEGMENT [buf]
        else getFramedSegments buf >>= checkBuffers .MULTI_SEGMENT
      .ok
        { arena
          segments := []
          traversalLimit := DEFAULT_TRAVERSE_LIMIT
          readonly := readonly.getD true
          capTable := none }

/-- `preallocateSegments`: every buffer of the arena becomes a full segment. -/
def preallocateSegments (m : Message) : Except CapnpError Message :=
  match m.arena.buffers with
  | buffer :: _ =>
      if buffer.length < 8 then
        .error .MSG_SEGMENT_TOO_SMALL
      else
        .ok
          { m with
            segments := m.arena.buffers.map fun buffer => { buffer, byteLength := buffer.length }
            arena := { m.arena with buffers := [] } }
  | [] => .ok m

/-- The `Message` constructor. -/
def newMessage (src : MessageSource) (packed : Bool := true) (singleSegment : Bool := false)
    (readonly : Option Bool := none) : Except CapnpError Message := do
  let m ← initMessage src packed singleSegment readonly
  match src with
  | .undefined => .ok m
  | _ => preallocateSegments m

end CapnpEs
