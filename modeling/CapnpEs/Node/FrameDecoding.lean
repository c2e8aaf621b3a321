import CapnpEs.Node.StreamFrames

/-! The decoder returns what the encoder wrote, however the stream is cut. -/

namespace CapnpEs.Node

open CapnpFrameDecoder
open Framing (completeWithin)
open LittleEndian (read memoryOf)

/-- What a header says of the length of a segment, and what the encoder puts behind the header for it. -/
def announcedBytes (s : Segment) : Nat := (s.byteLength / 8 % 2 ^ 32).toNat * 8

def writtenBytes (s : Segment) : Nat := (padToWord s.byteLength).toNat

structure Allocated (s : Segment) : Prop where
  lower : 0 ≤ s.byteLength
  inside : s.byteLength ≤ s.buffer.length
  aligned : s.byteLength % 8 = 0

theorem writtenBytes_le {s : Segment} (allocated : Allocated s) : writtenBytes s ≤ announcedBytes s := by
  obtain ⟨lower, inside, aligned⟩ := allocated
  unfold writtenBytes announcedBytes
  rw [padToWord_of_aligned aligned]
  split
  · omega
  · omega

/-- The lengths agree up to `MAX_SEGMENT_LENGTH` just below 2 GiB. -/
theorem writtenBytes_eq_iff {s : Segment} (allocated : Allocated s) :
    announcedBytes s ≤ writtenBytes s ↔ s.byteLength % 2 ^ 35 < 2 ^ 31 := by
  obtain ⟨lower, inside, aligned⟩ := allocated
  unfold writtenBytes announcedBytes
  rw [padToWord_of_aligned aligned]
  split
  · omega
  · omega

theorem writtenBytes_sum_le {segments : List Segment} (allocated : ∀ s ∈ segments, Allocated s) :
    (segments.map writtenBytes).sum ≤ (segments.map announcedBytes).sum ∧
      ((segments.map announcedBytes).sum ≤ (segments.map writtenBytes).sum ↔
        ∀ s ∈ segments, s.byteLength % 2 ^ 35 < 2 ^ 31) := by
  induction segments with
  | nil => simp
  | cons s segments ih =>
      obtain ⟨short, tight⟩ := ih fun t member => allocated t (by simp [member])
      have head := writtenBytes_le (allocated s (by simp))
      have headTight := writtenBytes_eq_iff (allocated s (by simp))
      simp only [List.map_cons, List.sum_cons]
      refine ⟨by omega, ?_⟩
      rw [List.forall_mem_cons, ← headTight, ← tight]
      omega

theorem announcedBytes_sum (segments : List Segment) :
    (segments.map fun s => (s.byteLength / 8 % 2 ^ 32).toNat).sum * 8 = (segments.map announcedBytes).sum := by
  induction segments with
  | nil => rfl
  | cons s segments ih =>
      simp only [List.map_cons, List.sum_cons, Nat.add_mul, ih]
      rfl

theorem bufferFrom_run {s : Segment} (allocated : Allocated s) :
    ∃ bytes, bufferFrom s.buffer (padToWord s.byteLength) = .ok bytes ∧ bytes.length = writtenBytes s := by
  obtain ⟨lower, inside, aligned⟩ := allocated
  have bound : padToWord s.byteLength ≤ s.byteLength := by
    rw [padToWord_of_aligned aligned]
    split
    · omega
    · omega
  unfold bufferFrom writtenBytes
  split
  · rw [if_neg (by omega)]
    refine ⟨_, rfl, ?_⟩
    rw [List.length_take]
    omega
  · refine ⟨[], rfl, ?_⟩
    simp only [List.length_nil]
    omega

theorem bufferFroms_run {segments : List Segment} (allocated : ∀ s ∈ segments, Allocated s) :
    ∃ bodies, segments.mapM (fun s => bufferFrom s.buffer (padToWord s.byteLength)) = .ok bodies ∧
      bodies.flatten.length = (segments.map writtenBytes).sum := by
  induction segments with
  | nil => exact ⟨[], rfl, rfl⟩
  | cons s segments ih =>
      obtain ⟨bodies, run, total⟩ := ih fun t member => allocated t (by simp [member])
      obtain ⟨bytes, head, length⟩ := bufferFrom_run (allocated s (by simp))
      refine ⟨bytes :: bodies, ?_, ?_⟩
      · rw [List.mapM_cons, head, run]
        rfl
      · simp only [List.flatten_cons, List.length_append, List.map_cons, List.sum_cons]
        omega

structure Encodable (m : Message) : Prop where
  some : 1 ≤ m.segments.length
  few : m.segments.length ≤ MAX_STREAM_SEGMENTS
  allocated : ∀ s ∈ m.segments, Allocated s

theorem messageToBufferChunks_eq_ok {m after : Message} {chunks : List Bytes}
    (some : 1 ≤ m.segments.length) (done : messageToBufferChunks m = .ok chunks after) :
    ∃ header bodies, getStreamFrame m = .ok header ∧
      m.segments.mapM (fun s => bufferFrom s.buffer (padToWord s.byteLength)) = .ok bodies ∧
      chunks.flatten = header ++ bodies.flatten := by
  simp only [messageToBufferChunks, Outcome.bind_eq_ok, Outcome.get_apply, Outcome.ofExcept_eq_ok,
    Outcome.pure_apply] at done
  obtain ⟨_, ensured, first, _, _, same, header, _, ⟨found, rfl⟩, bodies, _, ⟨copied, rfl⟩, done⟩ := done
  rw [ensureFirstSegment_allocated some] at first
  cases first
  cases same
  refine ⟨header, bodies, found, copied, ?_⟩
  cases done
  split
  · simp
  · simp

theorem messageToBufferChunks_run {m : Message} (encodable : Encodable m) :
    ∃ chunks, messageToBufferChunks m = .ok chunks m := by
  obtain ⟨header, found, -⟩ := getStreamFrame_spec encodable.some
  obtain ⟨bodies, copied, -⟩ := bufferFroms_run encodable.allocated
  refine ⟨if (header :: bodies).flatten.length ≤ CONCAT_SMALL_FRAME_BYTES then [(header :: bodies).flatten]
    else header :: bodies, ?_⟩
  simp only [messageToBufferChunks, Outcome.bind_eq_ok, Outcome.get_apply, Outcome.ofExcept_eq_ok,
    Outcome.pure_apply]
  exact ⟨(), m, ensureFirstSegment_allocated encodable.some, m, m, rfl, header, m, ⟨found, rfl⟩, bodies, m,
    ⟨copied, rfl⟩, rfl⟩

def EncodedAs (m : Message) (frame : Bytes) : Prop :=
  ∃ chunks after, messageToBufferChunks m = .ok chunks after ∧ chunks.flatten = frame

structure Announces (m : Message) (frame : Bytes) : Prop where
  count : ∀ more, readUInt32LE (frame ++ more) 0 + 1 = m.segments.length
  payload : ∀ more, payloadWords (frame ++ more) m.segments.length * 8 = (m.segments.map announcedBytes).sum
  header : 8 ≤ headerBytes m.segments.length
  length : frame.length = headerBytes m.segments.length + (m.segments.map writtenBytes).sum

theorem Announces.of_header {m : Message} {header body : Bytes} (encodable : Encodable m)
    (found : getStreamFrame m = .ok header) (total : body.length = (m.segments.map writtenBytes).sum) :
    Announces m (header ++ body) := by
  have few := encodable.few
  rw [MAX_STREAM_SEGMENTS] at few
  have some := encodable.some
  obtain ⟨header', run, length, count, sizes⟩ := getStreamFrame_spec encodable.some
  rw [found] at run
  cases run
  have headerLength : header.length = headerBytes m.segments.length := by
    unfold headerBytes
    omega
  refine ⟨?_, ?_, ?_, ?_⟩
  · intro more
    rw [readUInt32LE, List.append_assoc, read_append_left (by omega), count, Nat.mod_eq_of_lt (by omega)]
    omega
  · intro more
    have words : payloadWords (header ++ body ++ more) m.segments.length =
        (m.segments.map fun s => (s.byteLength / 8 % 2 ^ 32).toNat).sum := by
      unfold payloadWords
      congr 1
      apply List.ext_getElem
      · simp
      · intro i bound inside
        simp only [List.length_map, List.length_range] at bound
        simp only [List.getElem_map, List.getElem_range]
        rw [readUInt32LE, List.append_assoc, read_append_left (by omega), Nat.add_comm 4, sizes i bound]
    rw [words]
    exact announcedBytes_sum m.segments
  · unfold headerBytes
    omega
  · rw [List.length_append, headerLength, total]

theorem EncodedAs.announces {m : Message} {frame : Bytes} (encodable : Encodable m)
    (encoded : EncodedAs m frame) : Announces m frame := by
  obtain ⟨chunks, after, done, rfl⟩ := encoded
  obtain ⟨header, bodies, found, copied, joined⟩ := messageToBufferChunks_eq_ok encodable.some done
  obtain ⟨bodies', run, total⟩ := bufferFroms_run encodable.allocated
  rw [copied] at run
  cases run
  rw [joined]
  exact .of_header encodable found total

theorem Announces.frameBytes_iff {m : Message} {frame : Bytes} (announces : Announces m frame)
    (encodable : Encodable m) (more : Bytes) : frameBytes (frame ++ more) = .ok (some frame.length) ↔
      ∀ s ∈ m.segments, s.byteLength % 2 ^ 35 < 2 ^ 31 := by
  obtain ⟨count, payload, header, length⟩ := announces
  have few := encodable.few
  rw [MAX_STREAM_SEGMENTS] at few
  obtain ⟨short, tight⟩ := writtenBytes_sum_le encodable.allocated
  rw [frameBytes_eq_some, count, payload, ← tight, List.length_append, MAX_SEGMENT_COUNT, length]
  omega

theorem Announces.never_early {m : Message} {frame : Bytes} (announces : Announces m frame)
    (encodable : Encodable m) : frameBytes frame = .ok none ∨ frameBytes frame = .ok (some frame.length) := by
  obtain ⟨count, payload, header, length⟩ := announces
  have few := encodable.few
  rw [MAX_STREAM_SEGMENTS] at few
  have short := (writtenBytes_sum_le encodable.allocated).1
  have count := count []
  have payload := payload []
  rw [List.append_nil] at count payload
  cases found : frameBytes frame with
  | error error =>
      have many := (frameBytes_eq_error.mp found).2.1
      rw [MAX_SEGMENT_COUNT] at many
      omega
  | ok size =>
      cases size with
      | none => exact Or.inl rfl
      | some size =>
          obtain ⟨-, -, -, same, inside⟩ := frameBytes_eq_some.mp found
          rw [count, payload] at same
          right
          congr 2
          omega

/-- Pushing the chunks of a stream emits its frames, each at the push that supplies its last byte. -/
def DecodesChunks (frames chunks : List Bytes) : Prop :=
  ∃ emitted after, pushAll chunks [] = .ok emitted after ∧ emitted.length = chunks.length ∧
    ∀ count, (emitted.take count).flatten = completeWithin frames (chunks.take count).flatten.length

theorem forall₂_left {messages : List Message} {frames : List Bytes}
    (encoded : List.Forall₂ EncodedAs messages frames) {m : Message} (member : m ∈ messages) :
    ∃ frame ∈ frames, EncodedAs m frame := by
  induction encoded with
  | nil => cases member
  | cons first _ ih =>
      rcases List.mem_cons.mp member with same | later
      · subst same
        exact ⟨_, by simp, first⟩
      · obtain ⟨frame, inside, found⟩ := ih later
        exact ⟨frame, by simp [inside], found⟩

theorem forall₂_right {messages : List Message} {frames : List Bytes}
    (encoded : List.Forall₂ EncodedAs messages frames) {frame : Bytes} (member : frame ∈ frames) :
    ∃ m ∈ messages, EncodedAs m frame := by
  induction encoded with
  | nil => cases member
  | cons first _ ih =>
      rcases List.mem_cons.mp member with same | later
      · subst same
        exact ⟨_, by simp, first⟩
      · obtain ⟨m, inside, found⟩ := ih later
        exact ⟨m, by simp [inside], found⟩

theorem takeFrames_nothing : framing.takeFrames [] = ⟨[], [], none⟩ :=
  Framing.takeFrames_of_none rfl

theorem decodesChunks_of_whole {frames chunks : List Bytes} {tail rest : Bytes}
    (whole : ∀ frame ∈ frames, frameBytes frame = .ok (some frame.length)) (proper : rest ≠ [])
    (last : frameBytes (tail ++ rest) = .ok none ∨ frameBytes (tail ++ rest) = .ok (some (tail ++ rest).length))
    (cut : chunks.flatten = frames.flatten ++ tail) : DecodesChunks frames chunks := by
  have parts := framing.takeFrames_take whole proper last
  have fine : (framing.takeFrames ([] ++ chunks.flatten)).error = none := by
    have all := (parts (frames.flatten ++ tail).length).2
    rw [List.take_length, ← cut] at all
    exact all
  obtain ⟨emitted, feeds⟩ := Framing.exists_feeds chunks fine
  obtain ⟨after, run⟩ := pushAll_feeds.mpr feeds
  refine ⟨emitted, after, run, feeds.length, ?_⟩
  intro count
  have front : (chunks.take count).flatten = chunks.flatten.take (chunks.take count).flatten.length := by
    apply List.prefix_iff_eq_take.mp
    refine ⟨(chunks.drop count).flatten, ?_⟩
    rw [← List.flatten_append, List.take_append_drop]
  rw [feeds.take takeFrames_nothing count, List.nil_append, front, cut, (parts _).1]
  congr 1
  rw [← cut, ← front]

theorem DecodesChunks.fits {messages : List Message} {frames chunks : List Bytes} {tail : Bytes}
    (encodable : ∀ m ∈ messages, Encodable m) (encoded : List.Forall₂ EncodedAs messages frames)
    (cut : chunks.flatten = frames.flatten ++ tail) (decodes : DecodesChunks frames chunks) :
    ∀ m ∈ messages, ∀ s ∈ m.segments, s.byteLength % 2 ^ 35 < 2 ^ 31 := by
  obtain ⟨emitted, after, run, length, complete⟩ := decodes
  intro m member
  have feeds := pushAll_feeds.mp ⟨after, run⟩
  have all := complete chunks.length
  rw [feeds.take takeFrames_nothing, List.take_length, List.nil_append,
    Framing.completeWithin_all frames (by rw [cut, List.length_append]; omega)] at all
  obtain ⟨frame, inside, found⟩ := forall₂_left encoded member
  rw [← all] at inside
  obtain ⟨more, whole⟩ := Framing.takeFrames_whole frame inside
  exact ((found.announces (encodable m member)).frameBytes_iff (encodable m member) more).mp whole

/-- Stream framing does not depend on how the stream is cut into chunks. -/
theorem frameDecoder_chunks {messages : List Message} {last : Message} {frames chunks : List Bytes}
    {tail rest : Bytes} (encodable : ∀ m ∈ messages, Encodable m) (lastEncodable : Encodable last)
    (encoded : List.Forall₂ EncodedAs messages frames) (lastEncoded : EncodedAs last (tail ++ rest))
    (proper : rest ≠ []) (cut : chunks.flatten = frames.flatten ++ tail) :
    DecodesChunks frames chunks ↔ ∀ m ∈ messages, ∀ s ∈ m.segments, s.byteLength % 2 ^ 35 < 2 ^ 31 := by
  constructor
  · exact DecodesChunks.fits encodable encoded cut
  · intro fits
    apply decodesChunks_of_whole ?_ proper ((lastEncoded.announces lastEncodable).never_early lastEncodable) cut
    intro frame member
    obtain ⟨m, inside, found⟩ := forall₂_right encoded member
    have whole := ((found.announces (encodable m inside)).frameBytes_iff (encodable m inside) []).mpr (fits m inside)
    rwa [List.append_nil] at whole

theorem oneWordMessage_encodable : Encodable oneWordMessage where
  some := by decide
  few := by decide
  allocated := by
    intro s member
    simp only [oneWordMessage, List.mem_singleton] at member
    subst member
    exact ⟨by decide, by decide, by decide⟩

def oneWordFrame : Bytes := [0, 0, 0, 0, 1, 0, 0, 0, 1, 0, 0, 0, 0, 0, 0, 0]

theorem oneWordMessage_encoded : EncodedAs oneWordMessage oneWordFrame :=
  ⟨[oneWordFrame], oneWordMessage, by rfl, by rfl⟩

theorem frameDecoder_chunks_oneWord :
    DecodesChunks [oneWordFrame] [oneWordFrame.take 5, [], oneWordFrame.drop 5 ++ oneWordFrame.take 3] ↔
      ∀ m ∈ [oneWordMessage], ∀ s ∈ m.segments, s.byteLength % 2 ^ 35 < 2 ^ 31 := by
  have lastEncoded : EncodedAs oneWordMessage (oneWordFrame.take 3 ++ oneWordFrame.drop 3) := oneWordMessage_encoded
  exact frameDecoder_chunks (by simpa using oneWordMessage_encodable) oneWordMessage_encodable
    (.cons oneWordMessage_encoded .nil) lastEncoded (by decide) (by decide)

theorem oneSegmentMessage_encodable {buffer : Bytes} (aligned : buffer.length % 8 = 0) :
    Encodable (oneSegmentMessage buffer) where
  some := Nat.le_refl 1
  few := by
    rw [MAX_STREAM_SEGMENTS]
    exact Nat.succ_le_succ (Nat.zero_le _)
  allocated := by
    intro s member
    simp only [oneSegmentMessage, List.mem_singleton] at member
    subst member
    exact ⟨by dsimp only; omega, by dsimp only; omega, by dsimp only; omega⟩

theorem oneSegmentMessage_not_decoded {buffer : Bytes} (aligned : buffer.length % 8 = 0)
    (large : buffer.length = 2 ^ 31) : ∃ frame, EncodedAs (oneSegmentMessage buffer) frame ∧
      ¬ DecodesChunks [frame] [frame] := by
  have encodable := oneSegmentMessage_encodable aligned
  obtain ⟨chunks, run⟩ := messageToBufferChunks_run encodable
  refine ⟨chunks.flatten, ⟨chunks, _, run, rfl⟩, ?_⟩
  intro decodes
  have encoded : List.Forall₂ EncodedAs [oneSegmentMessage buffer] [chunks.flatten] :=
    .cons ⟨chunks, _, run, rfl⟩ .nil
  have cut : [chunks.flatten].flatten = [chunks.flatten].flatten ++ [] := (List.append_nil _).symm
  have fits := decodes.fits (by simpa using encodable) encoded cut _ (List.mem_singleton.mpr rfl) _ (List.mem_singleton.mpr rfl)
  dsimp only at fits
  omega

theorem twoGigabyteMessage_not_decoded :
    ∃ frame, EncodedAs (oneSegmentMessage (List.replicate (2 ^ 31) 0)) frame ∧ ¬ DecodesChunks [frame] [frame] :=
  oneSegmentMessage_not_decoded (by rw [List.length_replicate]; omega) (by rw [List.length_replicate])

end CapnpEs.Node
