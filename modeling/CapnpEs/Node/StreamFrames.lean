import CapnpEs.Library.ChunkedStream
import CapnpEs.Serialization.StreamRoundTrip

/-! Frames on a byte stream: the decoder and the encoder of `node/index.ts`. -/

namespace CapnpEs.Node

open LittleEndian (read memoryOf)

def MAX_SEGMENT_COUNT : Nat := 4096
def CONCAT_SMALL_FRAME_BYTES : Nat := 1024

/-- A `CapnpRpcError` with the code "disconnected". -/
def disconnected (reason : String) : String := reason

/-- `readUInt32LE`; the decoder looks only at bytes it has. -/
def readUInt32LE (buffer : Bytes) (offset : Nat) : Nat := read (memoryOf buffer) offset 4

namespace CapnpFrameDecoder

def payloadWords (pending : Bytes) (segmentCount : Nat) : Nat :=
  ((List.range segmentCount).map fun i => readUInt32LE pending (4 + i * 4)).sum

def headerBytes (segmentCount : Nat) : Nat := (1 + segmentCount + 1) / 2 * 8

/-- One turn of the loop of `push`: how long the first frame is, when it is there. -/
def frameBytes (pending : Bytes) : Except String (Option Nat) :=
  if pending.length < 8 then
    .ok none
  else
    let segmentCount := readUInt32LE pending 0 + 1
    if segmentCount > MAX_SEGMENT_COUNT then
      .error (disconnected ("invalid segment count: " ++ toString segmentCount))
    else if pending.length < headerBytes segmentCount then
      .ok none
    else
      let frameBytes := headerBytes segmentCount + payloadWords pending segmentCount * 8
      if pending.length < frameBytes then .ok none else .ok (some frameBytes)

theorem payloadWords_append {pending : Bytes} {segmentCount : Nat}
    (header : headerBytes segmentCount ≤ pending.length) (more : Bytes) :
    payloadWords (pending ++ more) segmentCount = payloadWords pending segmentCount := by
  unfold payloadWords
  congr 1
  apply List.map_congr_left
  intro i member
  have bound := List.mem_range.mp member
  unfold headerBytes at header
  exact read_append_left (by omega)

theorem frameBytes_eq_some {pending : Bytes} {size : Nat} :
    frameBytes pending = .ok (some size) ↔ 8 ≤ pending.length ∧
      readUInt32LE pending 0 + 1 ≤ MAX_SEGMENT_COUNT ∧ headerBytes (readUInt32LE pending 0 + 1) ≤ pending.length ∧
      size = headerBytes (readUInt32LE pending 0 + 1) + payloadWords pending (readUInt32LE pending 0 + 1) * 8 ∧
      size ≤ pending.length := by
  unfold frameBytes
  constructor
  · intro found
    split at found
    · cases found
    · dsimp only at found
      split at found
      · cases found
      · split at found
        · cases found
        · split at found
          · cases found
          · cases found
            exact ⟨by omega, by omega, by omega, rfl, by omega⟩
  · rintro ⟨word, few, header, rfl, inside⟩
    rw [if_neg (by omega)]
    dsimp only
    rw [if_neg (by omega), if_neg (by omega), if_neg (by omega)]

theorem frameBytes_eq_error {pending : Bytes} {error : String} :
    frameBytes pending = .error error ↔ 8 ≤ pending.length ∧ MAX_SEGMENT_COUNT < readUInt32LE pending 0 + 1 ∧
      error = disconnected ("invalid segment count: " ++ toString (readUInt32LE pending 0 + 1)) := by
  unfold frameBytes
  constructor
  · intro found
    split at found
    · cases found
    · dsimp only at found
      split at found
      · cases found
        exact ⟨by omega, by omega, rfl⟩
      · split at found
        · cases found
        · split at found
          · cases found
          · cases found
  · rintro ⟨word, many, rfl⟩
    rw [if_neg (by omega)]
    dsimp only
    rw [if_pos (by omega)]

theorem readUInt32LE_append {pending : Bytes} (word : 8 ≤ pending.length) (more : Bytes) :
    readUInt32LE (pending ++ more) 0 = readUInt32LE pending 0 :=
  read_append_left (by omega)

/-- The bytes after a header, or after a frame, do not change what the decoder reads from it. -/
def framing : Framing UInt8 String where
  first := frameBytes
  positive found := by
    obtain ⟨-, -, -, rfl, -⟩ := frameBytes_eq_some.mp found
    unfold headerBytes
    omega
  inside found := (frameBytes_eq_some.mp found).2.2.2.2
  stable more found := by
    obtain ⟨word, few, header, size, inside⟩ := frameBytes_eq_some.mp found
    rw [frameBytes_eq_some, readUInt32LE_append word, payloadWords_append header, List.length_append]
    exact ⟨by omega, few, by omega, size, by omega⟩
  stable_error more found := by
    obtain ⟨word, many, reason⟩ := frameBytes_eq_error.mp found
    rw [frameBytes_eq_error, readUInt32LE_append word, List.length_append]
    exact ⟨by omega, many, reason⟩

/-- `push`, with the pending bytes as state; frames taken before a bad header are lost. -/
def push (chunk : Bytes) : EStateM String Bytes (List Bytes) := do
  let pending ← get
  let taken := framing.takeFrames (pending ++ chunk)
  set taken.pending
  match taken.error with
  | some error => throw error
  | none => return taken.frames

def pushAll : List Bytes → EStateM String Bytes (List (List Bytes))
  | [] => return []
  | chunk :: chunks => do
      let frames ← push chunk
      let rest ← pushAll chunks
      return frames :: rest

theorem push_eq_ok {pending chunk after : Bytes} {frames : List Bytes} :
    push chunk pending = .ok frames after ↔ (framing.takeFrames (pending ++ chunk)).error = none ∧
      frames = (framing.takeFrames (pending ++ chunk)).frames ∧
      after = (framing.takeFrames (pending ++ chunk)).pending := by
  change (match (framing.takeFrames (pending ++ chunk)).error with
    | some error => (throw error : EStateM String Bytes (List Bytes))
    | none => pure (framing.takeFrames (pending ++ chunk)).frames)
      (framing.takeFrames (pending ++ chunk)).pending = .ok frames after ↔ _
  cases (framing.takeFrames (pending ++ chunk)).error with
  | some error => simp [Outcome.throw_apply]
  | none =>
      simp only [Outcome.pure_apply, EStateM.Result.ok.injEq, true_and]
      exact ⟨fun same => ⟨same.1.symm, same.2.symm⟩, fun same => ⟨same.1.symm, same.2.symm⟩⟩

theorem pushAll_feeds {pending : Bytes} {chunks : List Bytes} {emitted : List (List Bytes)} :
    (∃ after, pushAll chunks pending = .ok emitted after) ↔ framing.Feeds pending chunks emitted := by
  induction chunks generalizing pending emitted with
  | nil =>
      constructor
      · rintro ⟨after, run⟩
        cases run
        exact .nil pending
      · intro feeds
        cases feeds
        exact ⟨pending, rfl⟩
  | cons chunk chunks ih =>
      constructor
      · rintro ⟨after, run⟩
        rw [pushAll, Outcome.bind_eq_ok] at run
        obtain ⟨frames, middle, first, run⟩ := run
        rw [Outcome.bind_eq_ok] at run
        obtain ⟨rest, last, later, run⟩ := run
        cases run
        obtain ⟨fine, rfl, rfl⟩ := push_eq_ok.mp first
        exact .cons fine (ih.mp ⟨_, later⟩)
      · intro feeds
        cases feeds with
        | @cons _ _ _ emitted fine rest =>
            obtain ⟨after, later⟩ := ih.mpr rest
            refine ⟨after, ?_⟩
            rw [pushAll, Outcome.bind_eq_ok]
            refine ⟨_, _, push_eq_ok.mpr ⟨fine, rfl, rfl⟩, ?_⟩
            rw [Outcome.bind_eq_ok]
            exact ⟨emitted, after, later, rfl⟩

end CapnpFrameDecoder

/-- `Buffer.from(buffer, 0, length)`; a length that is not positive gives an empty buffer. -/
def bufferFrom (buffer : Bytes) (length : Int) : Except CapnpError Bytes :=
  if length > 0 then
    if length > buffer.length then .error .RangeError else .ok (buffer.take length.toNat)
  else
    .ok []

def messageToBufferChunks : MessageM (List Bytes) := do
  Message.ensureFirstSegment
  let m ← get
  let header ← ofExcept (getStreamFrame m)
  let segments ← ofExcept (m.segments.mapM fun s => bufferFrom s.buffer (padToWord s.byteLength))
  let chunks := header :: segments
  return if chunks.flatten.length ≤ CONCAT_SMALL_FRAME_BYTES then [chunks.flatten] else chunks

end CapnpEs.Node
