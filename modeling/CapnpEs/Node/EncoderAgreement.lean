import CapnpEs.Node.FrameDecoding

/-! The three encoders of a message side by side. -/

namespace CapnpEs.Node

open CapnpFrameDecoder
open LittleEndian (read memoryOf)

/-- The header of a frame announces just the bytes behind it. -/
def Balanced (frame : Bytes) : Prop :=
  let segmentCount := readUInt32LE frame 0 + 1
  frame.length = headerBytes segmentCount + payloadWords frame segmentCount * 8

/-- All encoders write one frame, which adds up and can be read. -/
def EncodersAgree (m : Message) : Prop :=
  ∃ chunks bytes packed, (∃ after, messageToBufferChunks m = .ok chunks after) ∧
    (∃ after, m.toArrayBuffer = .ok bytes after) ∧ (∃ after, m.toPackedArrayBuffer = .ok packed after) ∧
    chunks.flatten = bytes ∧ unpack packed = .ok bytes ∧ Balanced bytes ∧
    ∃ segments, getFramedSegments bytes = .ok segments

theorem segmentViews_written {segments : List Segment} {views : List Bytes}
    (found : segmentViews segments = .ok views) : views.flatten.length = (segments.map writtenBytes).sum := by
  induction segments generalizing views with
  | nil =>
      cases found
      rfl
  | cons s segments ih =>
      rw [segmentViews, List.mapM_cons, Outcome.except_bind_eq_ok] at found
      obtain ⟨view, head, found⟩ := found
      rw [Outcome.except_bind_eq_ok] at found
      obtain ⟨rest, tail, found⟩ := found
      cases found
      have length := uint8View_length head
      simp only [List.flatten_cons, List.length_append, List.map_cons, List.sum_cons, ih tail, writtenBytes]
      omega

theorem segmentViews_run {segments : List Segment} (allocated : ∀ s ∈ segments, Allocated s)
    (fits : ∀ s ∈ segments, s.byteLength % 2 ^ 35 < 2 ^ 31) :
    ∃ views, segmentViews segments = .ok views ∧
      segments.mapM (fun s => bufferFrom s.buffer (padToWord s.byteLength)) = .ok views ∧
      views.map List.length = segments.map announcedBytes := by
  induction segments with
  | nil => exact ⟨[], rfl, rfl, rfl⟩
  | cons s segments ih =>
      obtain ⟨views, viewed, copied, lengths⟩ := ih (fun t member => allocated t (by simp [member]))
        fun t member => fits t (by simp [member])
      obtain ⟨lower, inside, aligned⟩ := allocated s (by simp)
      have fit := fits s (by simp)
      have size : padToWord s.byteLength = s.byteLength % 2 ^ 32 := by
        rw [padToWord_of_aligned aligned, if_pos (by omega)]
      have view : uint8View s.buffer 0 (padToWord s.byteLength) =
          .ok (s.buffer.take (padToWord s.byteLength).toNat) := by
        rw [uint8View, if_neg (by omega)]
        rfl
      have copy : bufferFrom s.buffer (padToWord s.byteLength) =
          .ok (s.buffer.take (padToWord s.byteLength).toNat) := by
        unfold bufferFrom
        split
        · rw [if_neg (by omega)]
        · rw [show (padToWord s.byteLength).toNat = 0 by omega, List.take_zero]
      refine ⟨s.buffer.take (padToWord s.byteLength).toNat :: views, ?_, ?_, ?_⟩
      · rw [segmentViews] at viewed ⊢
        rw [List.mapM_cons, view, viewed]
        rfl
      · rw [List.mapM_cons, copy, copied]
        rfl
      · simp only [List.map_cons, lengths, List.cons.injEq, and_true, List.length_take, announcedBytes]
        omega

theorem getFramedSegments_views {m : Message} {header : Bytes} {views : List Bytes} (encodable : Encodable m)
    (found : getStreamFrame m = .ok header) (lengths : views.map List.length = m.segments.map announcedBytes) :
    getFramedSegments (header ++ views.flatten) = .ok views := by
  have few := encodable.few
  rw [MAX_STREAM_SEGMENTS] at few
  have some := encodable.some
  have counts : views.length = m.segments.length := by simpa using congrArg List.length lengths
  obtain ⟨header', run, length, count, sizes⟩ := getStreamFrame_spec encodable.some
  rw [found] at run
  cases run
  have total : (header ++ views.flatten).length = header.length + views.flatten.length := List.length_append
  have first : DataView.getUint 4 (header ++ views.flatten) 0 = .ok (m.segments.length - 1) := by
    have read := DataView.getUint_eq (w := 4) (b := header ++ views.flatten) (o := 0) (by omega)
    rw [read_append_left (by omega), count, Nat.mod_eq_of_lt (by omega)] at read
    exact read
  have slices : sliceSegments (header ++ views.flatten) 0 header.length views.length = .ok views := by
    apply sliceSegments_spec
    · intro j bound
      have index : j < m.segments.length := by omega
      have same : views[j].length = announcedBytes m.segments[j] := by
        have at_ := List.getElem_of_eq lengths (i := j) (by simpa using bound)
        simpa using at_
      refine ⟨by omega, ?_⟩
      rw [read_append_left (by omega), show 4 + (0 + j) * 4 = j * 4 + 4 by omega, sizes j index, same]
      rfl
    · omega
    · exact List.drop_left
  rw [getFramedSegments, if_neg (by omega), first]
  change (if m.segments.length - 1 + 1 > MAX_STREAM_SEGMENTS then _ else _) = _
  rw [Nat.sub_add_cancel some, MAX_STREAM_SEGMENTS, if_neg (by omega),
    show 4 + m.segments.length * 4 + (4 + m.segments.length * 4) % 8 = header.length by omega,
    if_neg (by omega), ← counts, slices]

theorem EncodersAgree.of_fits {m : Message} (encodable : Encodable m)
    (buffers : ∀ s ∈ m.segments, s.buffer.length % 8 = 0)
    (fits : ∀ s ∈ m.segments, s.byteLength % 2 ^ 35 < 2 ^ 31) : EncodersAgree m := by
  obtain ⟨header, found, -⟩ := getStreamFrame_spec encodable.some
  obtain ⟨views, viewed, copied, lengths⟩ := segmentViews_run encodable.allocated fits
  obtain ⟨chunks, sent⟩ := messageToBufferChunks_run encodable
  obtain ⟨header', bodies, found', copied', joined⟩ := messageToBufferChunks_eq_ok encodable.some sent
  rw [found] at found'
  rw [copied] at copied'
  cases found'
  cases copied'
  have written : m.toArrayBuffer = .ok (header ++ views.flatten) m :=
    (toArrayBuffer_allocated encodable.some).mpr ⟨rfl, header, views, found, viewed, rfl⟩
  obtain ⟨packed, packs⟩ := toPackedArrayBuffer_succeeds buffers written
  obtain ⟨stream, again, unpacks, -⟩ := toPackedArrayBuffer_unpacks packs
  rw [written] at again
  cases again
  have announces := Announces.of_header encodable found (segmentViews_written viewed)
  refine ⟨chunks, _, packed, ⟨m, sent⟩, ⟨m, written⟩, ⟨m, packs⟩, joined, unpacks, ?_,
    views, getFramedSegments_views encodable found lengths⟩
  have count := announces.count []
  have payload := announces.payload []
  rw [List.append_nil] at count payload
  have tight := (writtenBytes_sum_le encodable.allocated).2.mpr fits
  have short := (writtenBytes_sum_le encodable.allocated).1
  unfold Balanced
  dsimp only
  rw [count, payload, announces.length]
  omega

theorem trackPointer_segments {id : Nat} {byteOffset depthLimit : Int} {m after : Message}
    (done : Message.trackPointer id byteOffset depthLimit m = .ok () after) : after.segments = m.segments := by
  unfold Message.trackPointer at done
  split at done
  · cases done
  · simp only [Outcome.bind_eq_ok, Outcome.get_apply, Outcome.modify_apply] at done
    obtain ⟨_, charged, same, _, _, same', done⟩ := done
    cases same
    cases same'
    split at done
    · cases done
    · rw [Outcome.bind_eq_ok] at done
      obtain ⟨s, middle, found, done⟩ := done
      have kept : middle.segments = m.segments := by
        unfold Message.segment at found
        split at found
        · cases found
          rfl
        · cases found
      split at done
      · cases done
      · cases done
        exact kept

theorem allocate_segments {id : Nat} {byteLength : Int} {m after : Message} {s : Segment} {result : Nat × Int}
    (found : m.segments[id]? = some s) (room : s.hasCapacity (padToWord byteLength))
    (done : Message.allocate id byteLength m = .ok result after) :
    after.segments = m.segments.set id { s with byteLength := s.byteLength + padToWord byteLength } := by
  have reads : Message.segment id m = .ok s m := by
    unfold Message.segment
    rw [found]
  unfold Message.allocate at done
  rw [Outcome.bind_eq_ok] at done
  obtain ⟨_, writable, checked, done⟩ := done
  unfold Message.assertWritable at checked
  split at checked
  · cases checked
  · cases checked
    dsimp only at done
    split at done
    · cases done
    · simp only [Outcome.bind_eq_ok, reads, Outcome.modify_apply, Outcome.pure_apply] at done
      obtain ⟨_, _, same, _, _, placed, _, _, read, _, _, grown, _, last, tracked, done⟩ := done
      cases same
      rw [if_pos room] at placed
      cases placed
      rw [reads] at read
      cases read
      cases grown
      cases done
      rw [trackPointer_segments tracked]
      rfl

theorem ensureFirstSegment_empty {m after : Message} (empty : m.segments = [])
    (done : m.ensureFirstSegment = .ok () after) : ∃ s, after.segments = [s] ∧ s.byteLength = 8 := by
  unfold Message.ensureFirstSegment at done
  rw [Outcome.bind_eq_ok] at done
  obtain ⟨_, _, same, done⟩ := done
  cases same
  rw [if_pos (by simp [empty])] at done
  rw [Outcome.bind_eq_ok] at done
  obtain ⟨id, last, opened, done⟩ := done
  cases done
  unfold Message.getSegment at opened
  rw [Outcome.bind_eq_ok] at opened
  obtain ⟨_, _, same, opened⟩ := opened
  cases same
  rw [if_pos (by simp [empty])] at opened
  -- either way there is one empty segment before the root pointer is allocated
  have finish : ∀ {first : Message} {s : Segment}, first.segments = [s] → s.byteLength = 0 →
      (do
        let s ← Message.segment 0
        if !s.hasCapacity 8 then throw CapnpError.MSG_SEGMENT_TOO_SMALL
        else do
          let _ ← Message.allocate 0 8
          return 0 : MessageM Nat) first = .ok id after → ∃ s, after.segments = [s] ∧ s.byteLength = 8 := by
    intro first s shape zero run
    have reads : Message.segment 0 first = .ok s first := by
      unfold Message.segment
      rw [shape]
      rfl
    rw [Outcome.bind_apply, reads] at run
    dsimp only at run
    split at run
    · cases run
    · rename_i room
      rw [Outcome.bind_eq_ok] at run
      obtain ⟨result, middle, allocated, run⟩ := run
      cases run
      have pads : padToWord 8 = 8 := by decide
      have grown := allocate_segments (s := s) (by rw [shape]; rfl) (by rw [pads]; simpa using room) allocated
      refine ⟨_, by rw [grown, shape]; rfl, ?_⟩
      dsimp only
      rw [zero, pads]
      rfl
  split at opened
  · rename_i none
    rw [Outcome.bind_eq_ok] at opened
    obtain ⟨_, first, allocated, opened⟩ := opened
    unfold Message.allocateSegment at allocated
    rw [Outcome.bind_eq_ok] at allocated
    obtain ⟨_, _, same, allocated⟩ := allocated
    cases same
    rw [Outcome.bind_eq_ok] at allocated
    obtain ⟨result, _, made, allocated⟩ := allocated
    obtain ⟨chosen, rfl⟩ := Outcome.ofExcept_eq_ok.mp made
    have first : result.1 = 0 := by
      unfold Arena.allocate at chosen
      split at chosen
      · rw [Outcome.except_bind_eq_ok] at chosen
        obtain ⟨buffer, _, chosen⟩ := chosen
        cases chosen
        exact none
      · rename_i kind
        simp [Arena.getNumSegments, kind] at none
    rw [if_pos (by simp [first, empty]), Outcome.bind_eq_ok] at allocated
    obtain ⟨_, _, grown, allocated⟩ := allocated
    cases grown
    cases allocated
    exact finish (by simp [empty]; rfl) rfl opened
  · rw [Outcome.bind_eq_ok] at opened
    obtain ⟨buffer, _, made, opened⟩ := opened
    obtain ⟨made, rfl⟩ := Outcome.ofExcept_eq_ok.mp made
    rw [Outcome.bind_eq_ok] at opened
    obtain ⟨_, _, wrapped, opened⟩ := opened
    cases wrapped
    exact finish rfl rfl opened

theorem EncodersAgree.nonempty {m : Message} (agree : EncodersAgree m) : 1 ≤ m.segments.length := by
  obtain ⟨chunks, bytes, packed, -, ⟨after, written⟩, -, -, -, balanced, -⟩ := agree
  by_contra none
  have empty : m.segments = [] := List.length_eq_zero_iff.mp (by omega)
  obtain ⟨frame, found, ensured, joined⟩ := toArrayBuffer_eq_ok.mp written
  obtain ⟨s, shape, word⟩ := ensureFirstSegment_empty empty ensured
  obtain ⟨views, viewed⟩ := joinSegments_eq_ok joined
  rw [joinSegments_views viewed] at joined
  have header : frame = List.replicate 8 0 := by
    rw [getStreamFrame, if_pos (by simp [empty])] at found
    exact (Except.ok.inj found).symm
  have body : views.flatten.length = 8 := by
    rw [segmentViews_written viewed, shape]
    simp only [List.map_cons, List.map_nil, List.sum_cons, List.sum_nil, writtenBytes, word]
    decide
  rw [← Except.ok.inj joined, header] at balanced
  have count : readUInt32LE (List.replicate 8 0 ++ views.flatten) 0 = 0 := by
    rw [readUInt32LE, read_append_left (by simp)]
    decide
  have payload : payloadWords (List.replicate 8 0 ++ views.flatten) 1 = 0 := by
    rw [payloadWords_append (by simp [headerBytes])]
    decide
  unfold Balanced at balanced
  dsimp only at balanced
  rw [count, payload, List.length_append, body, List.length_replicate] at balanced
  simp [headerBytes] at balanced

theorem EncodersAgree.fits {m : Message} (allocated : ∀ s ∈ m.segments, Allocated s)
    (array : m.segments.length < 2 ^ 32) (agree : EncodersAgree m) :
    m.segments.length ≤ MAX_STREAM_SEGMENTS ∧ ∀ s ∈ m.segments, s.byteLength % 2 ^ 35 < 2 ^ 31 := by
  have some := agree.nonempty
  obtain ⟨chunks, bytes, packed, -, ⟨after, written⟩, -, -, -, balanced, segments, framed⟩ := agree
  obtain ⟨-, header, views, found, viewed, rfl⟩ := (toArrayBuffer_allocated some).mp written
  obtain ⟨header', run, length, count, -⟩ := getStreamFrame_spec some
  rw [found] at run
  cases run
  have few : m.segments.length ≤ MAX_STREAM_SEGMENTS := by
    have slices := framed
    rw [getFramedSegments] at slices
    split at slices
    · cases slices
    · rw [Outcome.except_bind_eq_ok] at slices
      obtain ⟨last, first, slices⟩ := slices
      have read := DataView.getUint_eq (w := 4) (b := header ++ views.flatten) (o := 0)
        (by simp only [List.length_append]; omega)
      rw [read_append_left (by omega), count, Nat.mod_eq_of_lt (by omega)] at read
      have same := first.symm.trans read
      cases same
      dsimp only at slices
      split at slices
      · cases slices
      · omega
  refine ⟨few, ?_⟩
  have encodable : Encodable m := ⟨some, few, allocated⟩
  have announces := Announces.of_header encodable found (segmentViews_written viewed)
  have count := announces.count []
  have payload := announces.payload []
  rw [List.append_nil] at count payload
  unfold Balanced at balanced
  dsimp only at balanced
  rw [count, payload, announces.length] at balanced
  exact (writtenBytes_sum_le allocated).2.mp (by omega)

/-- The encoders agree on every message that has a segment and that the stream format can hold. -/
theorem encoders_agree {m : Message} (allocated : ∀ s ∈ m.segments, Allocated s)
    (buffers : ∀ s ∈ m.segments, s.buffer.length % 8 = 0) (array : m.segments.length < 2 ^ 32) :
    EncodersAgree m ↔ 1 ≤ m.segments.length ∧ m.segments.length ≤ MAX_STREAM_SEGMENTS ∧
      ∀ s ∈ m.segments, s.byteLength % 2 ^ 35 < 2 ^ 31 := by
  constructor
  · intro agree
    exact ⟨agree.nonempty, agree.fits allocated array⟩
  · rintro ⟨some, few, fits⟩
    exact .of_fits ⟨some, few, allocated⟩ buffers fits

theorem encoders_agree_oneWord : EncodersAgree oneWordMessage ↔ 1 ≤ oneWordMessage.segments.length ∧
    oneWordMessage.segments.length ≤ MAX_STREAM_SEGMENTS ∧
      ∀ s ∈ oneWordMessage.segments, s.byteLength % 2 ^ 35 < 2 ^ 31 :=
  encoders_agree oneWordMessage_encodable.allocated (by decide) (by decide)

/-- The header of a fresh message announces an empty segment, and a word follows it. -/
theorem freshMessage_not_agree : ¬ EncodersAgree Message.fresh := by
  intro agree
  have some := agree.nonempty
  cases some

end CapnpEs.Node
