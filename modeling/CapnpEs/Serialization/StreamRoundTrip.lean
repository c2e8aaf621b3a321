import CapnpEs.Serialization.FramingRoundTrip

/-! A message written to a stream, packed or not, is read back from it. -/

namespace CapnpEs

open LittleEndian (memoryOf)
open PackedTag (NONZERO_NONSPAN)

/-! Packed streams. -/

theorem getStreamFrame_aligned {m : Message} {frame : Bytes} (found : getStreamFrame m = .ok frame) :
    frame.length % 8 = 0 := by
  by_cases empty : m.segments.length = 0
  · rw [getStreamFrame, if_pos empty, newArrayBuffer, if_neg (by omega)] at found
    rw [← Except.ok.inj found]
    rfl
  · obtain ⟨frame', run, length, _⟩ := getStreamFrame_spec (m := m) (by omega)
    rw [run] at found
    rw [← Except.ok.inj found, length]
    omega

theorem packedSegments_decode {segments : List Segment} {packed : List Bytes}
    (done : segments.mapM (fun s => packView s.buffer 0 (padToWord s.byteLength)) = .ok packed) :
    ∃ views, segmentViews segments = .ok views ∧
      Decodes packed.flatten views.flatten NONZERO_NONSPAN := by
  induction segments generalizing packed with
  | nil =>
      cases done
      exact ⟨[], rfl, fun _ => rfl⟩
  | cons s segments ih =>
      rw [List.mapM_cons, Outcome.except_bind_eq_ok] at done
      obtain ⟨first, head, done⟩ := done
      rw [Outcome.except_bind_eq_ok] at done
      obtain ⟨others, tail, done⟩ := done
      cases done
      obtain ⟨views, viewed, decodes⟩ := ih tail
      obtain ⟨aligned, view, found⟩ := packView_eq_ok head
      obtain ⟨packed, run, firstDecodes⟩ :=
        packView_decodes aligned (padToWord_emod s.byteLength) found
      rw [head] at run
      cases run
      refine ⟨view :: views, ?_, firstDecodes.append decodes⟩
      rw [segmentViews] at viewed ⊢
      rw [List.mapM_cons, found, viewed]
      rfl

theorem segmentViews_packed {segments : List Segment} {views : List Bytes}
    (buffers : ∀ s ∈ segments, s.buffer.length % 8 = 0)
    (found : segmentViews segments = .ok views) :
    ∃ packed, segments.mapM (fun s => packView s.buffer 0 (padToWord s.byteLength)) =
      .ok packed := by
  induction segments generalizing views with
  | nil => exact ⟨[], rfl⟩
  | cons s segments ih =>
      rw [segmentViews, List.mapM_cons, Outcome.except_bind_eq_ok] at found
      obtain ⟨view, head, found⟩ := found
      rw [Outcome.except_bind_eq_ok] at found
      obtain ⟨rest, tail, _⟩ := found
      obtain ⟨packed, run⟩ := ih (fun t member => buffers t (by simp [member])) tail
      obtain ⟨first, firstRun, _⟩ :=
        packView_decodes (buffers s (by simp)) (padToWord_emod s.byteLength) head
      refine ⟨first :: packed, ?_⟩
      rw [List.mapM_cons, firstRun, run]
      rfl

theorem toPackedArrayBuffer_unpacks {m after : Message} {packed : Bytes}
    (done : m.toPackedArrayBuffer = .ok packed after) :
    ∃ stream, m.toArrayBuffer = .ok stream after ∧ unpack packed = .ok stream ∧
      getUnpackedByteLength packed = stream.length := by
  obtain ⟨frame, header, segments, found, packedFrame, ensured, all, rfl⟩ :=
    toPackedArrayBuffer_eq_ok.mp done
  obtain ⟨views, viewed, decodes⟩ := packedSegments_decode all
  obtain ⟨header', run, headerDecodes⟩ := pack_decodes (getStreamFrame_aligned found)
  rw [packedFrame] at run
  cases run
  have joined := headerDecodes.append decodes
  exact ⟨frame ++ views.flatten,
    toArrayBuffer_eq_ok.mpr ⟨frame, found, ensured, joinSegments_views viewed frame⟩,
    joined.unpack, joined.byteLength⟩

theorem toPackedArrayBuffer_succeeds {m after : Message} {stream : Bytes}
    (buffers : ∀ s ∈ after.segments, s.buffer.length % 8 = 0)
    (done : m.toArrayBuffer = .ok stream after) :
    ∃ packed, m.toPackedArrayBuffer = .ok packed after := by
  obtain ⟨frame, found, ensured, joined⟩ := toArrayBuffer_eq_ok.mp done
  obtain ⟨views, viewed⟩ := joinSegments_eq_ok joined
  obtain ⟨segments, all⟩ := segmentViews_packed buffers viewed
  obtain ⟨header, packed, _⟩ := pack_decodes (getStreamFrame_aligned found)
  exact ⟨header ++ segments.flatten, toPackedArrayBuffer_eq_ok.mpr
    ⟨frame, header, segments, found, packed, ensured, all, rfl⟩⟩

/-- Packing is undone by unpacking, for one buffer, for buffers packed one by one and joined, and
for a message whose header and segments are packed one by one. -/
theorem pack_unpack_stream :
    (∀ unpacked : Bytes, unpacked.length % 8 = 0 →
      ∃ packed, pack unpacked = .ok packed ∧ unpack packed = .ok unpacked) ∧
    (∀ buffers : List Bytes, (∀ b ∈ buffers, b.length % 8 = 0) →
      ∃ packed, buffers.mapM pack = .ok packed ∧ unpack packed.flatten = .ok buffers.flatten ∧
        getUnpackedByteLength packed.flatten = (buffers.map List.length).sum) ∧
    (∀ (m after : Message) (packed : Bytes), m.toPackedArrayBuffer = .ok packed after →
      ∃ stream, m.toArrayBuffer = .ok stream after ∧ unpack packed = .ok stream ∧
        getUnpackedByteLength packed = stream.length) ∧
    (∀ (m after : Message) (stream : Bytes), (∀ s ∈ after.segments, s.buffer.length % 8 = 0) →
      m.toArrayBuffer = .ok stream after →
        ∃ packed, m.toPackedArrayBuffer = .ok packed after) := by
  refine ⟨?_, ?_, ?_, ?_⟩
  · intro unpacked aligned
    obtain ⟨packed, run, decodes⟩ := pack_decodes aligned
    exact ⟨packed, run, decodes.unpack⟩
  · intro buffers aligned
    obtain ⟨packed, run, decodes⟩ := mapM_pack_decodes buffers aligned
    refine ⟨packed, run, decodes.unpack, ?_⟩
    rw [decodes.byteLength, List.length_flatten]
  · intro m after packed done
    exact toPackedArrayBuffer_unpacks done
  · intro m after stream buffers done
    exact toPackedArrayBuffer_succeeds buffers done

/-- A message of one segment whose root pointer has its lowest bit set. -/
def oneWordMessage : Message :=
  { arena := { kind := .MULTI_SEGMENT, buffers := [] }
    segments := [{ buffer := [1, 0, 0, 0, 0, 0, 0, 0], byteLength := 8 }]
    traversalLimit := DEFAULT_TRAVERSE_LIMIT
    readonly := true
    capTable := none }

theorem pack_unpack_stream_oneWord :
    (∃ packed, pack (List.replicate 16 0) = .ok packed ∧
      unpack packed = .ok (List.replicate 16 0)) ∧
    (∃ packed, [[], [1, 2, 3, 4, 5, 6, 7, 8]].mapM pack = .ok packed ∧
      unpack packed.flatten = .ok [1, 2, 3, 4, 5, 6, 7, 8] ∧
        getUnpackedByteLength packed.flatten = 8) ∧
    (∃ stream, oneWordMessage.toArrayBuffer = .ok stream oneWordMessage ∧
      unpack [16, 1, 1, 1] = .ok stream ∧ getUnpackedByteLength [16, 1, 1, 1] = stream.length) ∧
    (∃ packed, oneWordMessage.toPackedArrayBuffer = .ok packed oneWordMessage) :=
  ⟨pack_unpack_stream.1 _ (by decide), pack_unpack_stream.2.1 _ (by decide),
    pack_unpack_stream.2.2.1 _ _ _ (by rfl),
    pack_unpack_stream.2.2.2 oneWordMessage oneWordMessage
      [0, 0, 0, 0, 1, 0, 0, 0, 1, 0, 0, 0, 0, 0, 0, 0] (by decide) (by rfl)⟩

/-! Framed streams. -/

theorem memoryOf_append_left {front back : Bytes} {address : Nat} (bound : address < front.length) :
    memoryOf (front ++ back) address = memoryOf front address := by
  simp only [memoryOf, List.getD_eq_getElem?_getD, List.getElem?_append_left bound]

theorem read_append_left {front back : Bytes} {offset width : Nat}
    (inside : offset + width ≤ front.length) :
    LittleEndian.read (memoryOf (front ++ back)) offset width =
      LittleEndian.read (memoryOf front) offset width :=
  LittleEndian.read_congr _ _ fun address _ upper => memoryOf_append_left (by omega)

theorem sliceSegments_spec (message : Bytes) (segments : List Bytes) (i byteOffset : Nat)
    (sizes : ∀ j (bound : j < segments.length), 4 + (i + j) * 4 + 4 ≤ message.length ∧
      LittleEndian.read (memoryOf message) (4 + (i + j) * 4) 4 * 8 = segments[j].length)
    (inside : byteOffset ≤ message.length) (rest : message.drop byteOffset = segments.flatten) :
    sliceSegments message i byteOffset segments.length = .ok segments := by
  induction segments generalizing i byteOffset with
  | nil => rfl
  | cons segment segments ih =>
      obtain ⟨room, size⟩ := sizes 0 (by simp)
      have entry : DataView.getUint 4 message (4 + (i : Int) * 4) =
          .ok (LittleEndian.read (memoryOf message) (4 + (i + 0) * 4) 4) := by
        have found := DataView.getUint_eq (w := 4) (b := message) room
        push_cast at found
        simpa using found
      rw [List.flatten_cons] at rest
      have total := congrArg List.length rest
      simp only [List.length_drop, List.length_append] at total
      simp only [List.getElem_cons_zero] at size
      have next := ih (i + 1) (byteOffset + segment.length)
        (by
          intro j bound
          have found := sizes (j + 1) (by simpa using bound)
          rw [show i + (j + 1) = i + 1 + j by omega] at found
          simpa using found)
        (by omega)
        (by rw [← List.drop_drop, rest, List.drop_left])
      rw [List.length_cons, sliceSegments, entry]
      change (if byteOffset + LittleEndian.read (memoryOf message) (4 + (i + 0) * 4) 4 * 8 >
        message.length then _ else _) = _
      rw [size, if_neg (by omega), next, rest, List.take_left]
      rfl

/-- What `sliceSegments` returns lies inside the message. -/
theorem sliceSegments_inside {message : Bytes} {i byteOffset count : Nat} {segments : List Bytes}
    (inside : byteOffset ≤ message.length)
    (done : sliceSegments message i byteOffset count = .ok segments) :
    segments.length = count ∧ byteOffset + segments.flatten.length ≤ message.length := by
  induction count generalizing i byteOffset segments with
  | zero =>
      cases done
      simpa using inside
  | succ count ih =>
      rw [sliceSegments, Outcome.except_bind_eq_ok] at done
      obtain ⟨words, _, done⟩ := done
      dsimp only at done
      split at done
      · simp at done
      · rename_i fits
        rw [Outcome.except_bind_eq_ok] at done
        obtain ⟨rest, tail, done⟩ := done
        cases done
        obtain ⟨length, bound⟩ := ih (by omega) tail
        constructor
        · simp [length]
        · simp only [List.flatten_cons, List.length_append, List.length_take, List.length_drop]
          omega

theorem getFramedSegments_inside {message : Bytes} {segments : List Bytes}
    (done : getFramedSegments message = .ok segments) :
    let headerLength := 4 + segments.length * 4
    headerLength + headerLength % 8 + segments.flatten.length ≤ message.length := by
  rw [getFramedSegments] at done
  split at done
  · simp at done
  · rw [Outcome.except_bind_eq_ok] at done
    obtain ⟨last, _, done⟩ := done
    dsimp only at done
    split at done
    · simp at done
    · split at done
      · simp at done
      · rename_i inside
        obtain ⟨length, bound⟩ := sliceSegments_inside (by omega) done
        rw [length]
        exact bound

structure Framable (m : Message) : Prop where
  some : 1 ≤ m.segments.length
  few : m.segments.length ≤ MAX_STREAM_SEGMENTS
  inside : ∀ s ∈ m.segments, 0 ≤ s.byteLength ∧ s.byteLength ≤ s.buffer.length
  aligned : ∀ s ∈ m.segments, s.byteLength % 8 = 0
  root : ∀ s ∈ m.segments.head?, 8 ≤ s.byteLength

/-- The stream holds the contents of the segments, and the message made from it writes it again. -/
def FrameRoundTrips (m : Message) : Prop :=
  ∃ bytes, m.toArrayBuffer = .ok bytes m ∧
    getFramedSegments bytes = .ok (m.segments.map Segment.contents) ∧
      ∃ decoded, newMessage (.buffer bytes) false = .ok decoded ∧
        decoded.toArrayBuffer = .ok bytes decoded

theorem Segment.contents_length {s : Segment} (lower : 0 ≤ s.byteLength)
    (upper : s.byteLength ≤ s.buffer.length) : (s.contents.length : Int) = s.byteLength := by
  simp only [Segment.contents, List.length_take]
  omega

theorem ensureFirstSegment_allocated {m : Message} (some : 1 ≤ m.segments.length) :
    m.ensureFirstSegment = .ok () m := by
  simp only [Message.ensureFirstSegment, Outcome.bind_apply, Outcome.get_apply]
  rw [if_neg (by omega)]
  rfl

theorem toArrayBuffer_allocated {m after : Message} {bytes : Bytes} (some : 1 ≤ m.segments.length) :
    m.toArrayBuffer = .ok bytes after ↔
      after = m ∧ ∃ frame views, getStreamFrame m = .ok frame ∧
        segmentViews m.segments = .ok views ∧ bytes = frame ++ views.flatten := by
  rw [toArrayBuffer_eq_ok, ensureFirstSegment_allocated some]
  constructor
  · rintro ⟨frame, found, ensured, joined⟩
    cases ensured
    obtain ⟨views, viewed⟩ := joinSegments_eq_ok joined
    rw [joinSegments_views viewed] at joined
    exact ⟨rfl, frame, views, found, viewed, (Except.ok.inj joined).symm⟩
  · rintro ⟨rfl, frame, views, found, viewed, rfl⟩
    exact ⟨frame, found, rfl, joinSegments_views viewed frame⟩

theorem segmentViews_contents {segments : List Segment}
    (inside : ∀ s ∈ segments, 0 ≤ s.byteLength ∧ s.byteLength ≤ s.buffer.length)
    (aligned : ∀ s ∈ segments, s.byteLength % 8 = 0)
    (small : ∀ s ∈ segments, s.byteLength < 2 ^ 31) :
    segmentViews segments = .ok (segments.map Segment.contents) := by
  induction segments with
  | nil => rfl
  | cons s segments ih =>
      have tail := ih (fun t member => inside t (by simp [member]))
        (fun t member => aligned t (by simp [member])) fun t member => small t (by simp [member])
      obtain ⟨lower, upper⟩ := inside s (by simp)
      have head : uint8View s.buffer 0 (padToWord s.byteLength) = .ok s.contents := by
        rw [padToWord_aligned lower (small s (by simp)) (aligned s (by simp)), uint8View,
          if_neg (by omega)]
        simp [Segment.contents]
      rw [segmentViews] at tail ⊢
      rw [List.mapM_cons, head, tail]
      rfl

theorem getFramedSegments_frame {m : Message} {frame : Bytes} (framable : Framable m)
    (small : ∀ s ∈ m.segments, s.byteLength < 2 ^ 31) (found : getStreamFrame m = .ok frame) :
    getFramedSegments (frame ++ (m.segments.map Segment.contents).flatten) =
      .ok (m.segments.map Segment.contents) := by
  obtain ⟨some, few, inside, aligned, -⟩ := framable
  rw [MAX_STREAM_SEGMENTS] at few
  obtain ⟨frame', run, length, count, sizes⟩ := getStreamFrame_spec some
  rw [found] at run
  cases run
  let contents := m.segments.map Segment.contents
  let message := frame ++ contents.flatten
  have total : message.length = frame.length + contents.flatten.length := List.length_append
  have header : DataView.getUint 4 message 0 = .ok (m.segments.length - 1) := by
    have read := DataView.getUint_eq (w := 4) (b := message) (o := 0) (by omega)
    rw [read_append_left (by omega), count, Nat.mod_eq_of_lt (by omega)] at read
    exact read
  have slices : sliceSegments message 0 frame.length contents.length = .ok contents := by
    apply sliceSegments_spec
    · intro j bound
      have index : j < m.segments.length := by simpa [contents] using bound
      have member := List.getElem_mem index
      obtain ⟨lower, upper⟩ := inside _ member
      have size := sizes j index
      have length := Segment.contents_length lower upper
      have fits := small _ member
      have words := aligned _ member
      refine ⟨by omega, ?_⟩
      rw [read_append_left (by omega), show 4 + (0 + j) * 4 = j * 4 + 4 by omega, size]
      simp only [contents, List.getElem_map]
      omega
    · omega
    · exact List.drop_left
  have lengths : contents.length = m.segments.length := List.length_map _
  change getFramedSegments message = .ok contents
  rw [getFramedSegments, if_neg (by omega), header]
  change (if m.segments.length - 1 + 1 > MAX_STREAM_SEGMENTS then _ else _) = _
  rw [Nat.sub_add_cancel some, MAX_STREAM_SEGMENTS, if_neg (by omega),
    show 4 + m.segments.length * 4 + (4 + m.segments.length * 4) % 8 = frame.length by omega,
    if_neg (by omega), ← lengths, slices]

theorem newMessage_framed {bytes : Bytes} {buffers : List Bytes}
    (framed : getFramedSegments bytes = .ok buffers) (aligned : ∀ b ∈ buffers, b.length % 8 = 0)
    (root : ∃ b ∈ buffers.head?, 8 ≤ b.length) :
    ∃ decoded, newMessage (.buffer bytes) false = .ok decoded ∧
      decoded.segments = buffers.map fun buffer => { buffer, byteLength := buffer.length } := by
  have checked : checkBuffers .MULTI_SEGMENT buffers = .ok { kind := .MULTI_SEGMENT, buffers } := by
    have none : buffers.reverse.find? (·.length % 8 ≠ 0) = none := by
      rw [List.find?_eq_none]
      intro b member
      simpa using aligned b (by simpa using member)
    rw [checkBuffers, none]
  have opened : initMessage (.buffer bytes) false false none =
      .ok
        { arena := { kind := .MULTI_SEGMENT, buffers }
          segments := []
          traversalLimit := DEFAULT_TRAVERSE_LIMIT
          readonly := true
          capTable := none } := by
    simp only [initMessage, Bool.false_eq_true, if_false]
    change ((getFramedSegments bytes >>= checkBuffers .MULTI_SEGMENT) >>= _) = _
    rw [framed]
    change (checkBuffers .MULTI_SEGMENT buffers >>= _) = _
    rw [checked]
    rfl
  obtain ⟨first, head, word⟩ := root
  cases buffers with
  | nil => simp at head
  | cons b buffers =>
      cases head
      let decoded : Message :=
        { arena := { kind := .MULTI_SEGMENT, buffers := [] }
          segments := (first :: buffers).map fun buffer => { buffer, byteLength := buffer.length }
          traversalLimit := DEFAULT_TRAVERSE_LIMIT
          readonly := true
          capTable := none }
      refine ⟨decoded, ?_, rfl⟩
      rw [newMessage, opened]
      change preallocateSegments
        { decoded with
          segments := []
          arena := { kind := .MULTI_SEGMENT, buffers := first :: buffers } } = .ok decoded
      simp only [preallocateSegments]
      rw [if_neg (by omega)]

theorem FrameRoundTrips.of_small {m : Message} (framable : Framable m)
    (small : ∀ s ∈ m.segments, s.byteLength < 2 ^ 31) : FrameRoundTrips m := by
  obtain ⟨frame, found, -⟩ := getStreamFrame_spec framable.some
  have viewed := segmentViews_contents framable.inside framable.aligned small
  have framed := getFramedSegments_frame framable small found
  have lengths : ∀ s ∈ m.segments, (s.contents.length : Int) = s.byteLength := by
    intro s member
    exact Segment.contents_length (framable.inside s member).1 (framable.inside s member).2
  have alignedContents : ∀ b ∈ m.segments.map Segment.contents, b.length % 8 = 0 := by
    intro b member
    obtain ⟨s, segment, rfl⟩ := List.mem_map.mp member
    have length := lengths s segment
    have words := framable.aligned s segment
    omega
  have root : ∃ b ∈ (m.segments.map Segment.contents).head?, 8 ≤ b.length := by
    have some := framable.some
    have word := framable.root
    cases shape : m.segments with
    | nil => simp [shape] at some
    | cons s segments =>
        rw [shape] at word
        have length := lengths s (by simp [shape])
        have eight := word s rfl
        exact ⟨s.contents, rfl, by omega⟩
  obtain ⟨decoded, opened, segments⟩ := newMessage_framed framed alignedContents root
  refine ⟨frame ++ (m.segments.map Segment.contents).flatten, ?_, framed, decoded, opened, ?_⟩
  · exact (toArrayBuffer_allocated framable.some).mpr ⟨rfl, frame, _, found, viewed, rfl⟩
  · have sizes : m.segments.map (·.byteLength) = decoded.segments.map (·.byteLength) := by
      rw [segments, List.map_map, List.map_map]
      exact List.map_congr_left fun s member => (lengths s member).symm
    have again : segmentViews decoded.segments = .ok (decoded.segments.map Segment.contents) := by
      apply segmentViews_contents
      all_goals
        rw [segments, List.map_map]
        intro t member
        obtain ⟨s, segment, rfl⟩ := List.mem_map.mp member
        have length := lengths s segment
        have words := framable.aligned s segment
        have fits := small s segment
        dsimp only [Function.comp]
        omega
    have same : decoded.segments.map Segment.contents = m.segments.map Segment.contents := by
      rw [segments, List.map_map, List.map_map]
      apply List.map_congr_left
      intro s _
      change s.contents.take (s.contents.length : Int).toNat = s.contents
      rw [Int.toNat_natCast, List.take_length]
    have count : 1 ≤ decoded.segments.length := by
      simpa [segments] using framable.some
    rw [getStreamFrame_congr sizes] at found
    rw [← same]
    exact (toArrayBuffer_allocated count).mpr ⟨rfl, frame, _, found, again, rfl⟩

/-- The padding of a word-aligned size never exceeds it, and falls short of it from `2 ^ 31` on. -/
theorem padToWord_le {size : Int} (lower : 0 ≤ size) (aligned : size % 8 = 0) :
    padToWord size ≤ size := by
  by_cases small : size < 2 ^ 31
  · exact Int.le_of_eq (padToWord_aligned lower small aligned)
  · have bound := padToWord_lt size
    omega

theorem padToWord_sum_le {segments : List Segment}
    (inside : ∀ s ∈ segments, 0 ≤ s.byteLength ∧ s.byteLength ≤ s.buffer.length)
    (aligned : ∀ s ∈ segments, s.byteLength % 8 = 0) :
    (segments.map fun s => padToWord s.byteLength).sum ≤
        (segments.map Segment.contents).flatten.length ∧
      ((segments.map Segment.contents).flatten.length ≤
          (segments.map fun s => padToWord s.byteLength).sum →
        ∀ s ∈ segments, s.byteLength < 2 ^ 31) := by
  induction segments with
  | nil => simp
  | cons s segments ih =>
      obtain ⟨short, tight⟩ := ih (fun t member => inside t (by simp [member]))
        fun t member => aligned t (by simp [member])
      obtain ⟨lower, upper⟩ := inside s (by simp)
      have padding := padToWord_le lower (aligned s (by simp))
      have length := Segment.contents_length lower upper
      simp only [List.map_cons, List.sum_cons, List.flatten_cons, List.length_append]
      refine ⟨by omega, ?_⟩
      intro enough t member
      cases member with
      | head =>
          have bound := padToWord_lt s.byteLength
          omega
      | tail _ rest => exact tight (by omega) t rest

theorem FrameRoundTrips.small {m : Message} (framable : Framable m)
    (roundTrips : FrameRoundTrips m) : ∀ s ∈ m.segments, s.byteLength < 2 ^ 31 := by
  obtain ⟨bytes, written, framed, -⟩ := roundTrips
  obtain ⟨-, frame, views, found, viewed, rfl⟩ :=
    (toArrayBuffer_allocated framable.some).mp written
  have room := getFramedSegments_inside framed
  have total := segmentViews_length viewed
  obtain ⟨frame', run, length, -⟩ := getStreamFrame_spec framable.some
  rw [found] at run
  cases run
  apply (padToWord_sum_le framable.inside framable.aligned).2
  rw [total]
  simp only [List.length_append, List.length_map] at room
  have few := framable.few
  omega

/-- `padToWord` works on 32-bit integers, so a segment of 2 GiB or more cannot be written. -/
theorem frame_roundTrip {m : Message} (framable : Framable m) :
    FrameRoundTrips m ↔ ∀ s ∈ m.segments, s.byteLength < 2 ^ 31 :=
  ⟨FrameRoundTrips.small framable, FrameRoundTrips.of_small framable⟩

theorem oneWordMessage_framable : Framable oneWordMessage :=
  ⟨by decide, by decide, by decide, by decide, by decide⟩

theorem frame_roundTrip_oneWord :
    FrameRoundTrips oneWordMessage ↔ ∀ s ∈ oneWordMessage.segments, s.byteLength < 2 ^ 31 :=
  frame_roundTrip oneWordMessage_framable

def oneSegmentMessage (buffer : Bytes) : Message :=
  { oneWordMessage with segments := [{ buffer, byteLength := buffer.length }] }

theorem oneSegmentMessage_not_framed {buffer : Bytes} (aligned : buffer.length % 8 = 0)
    (large : 2 ^ 31 ≤ buffer.length) :
    Framable (oneSegmentMessage buffer) ∧ ¬ FrameRoundTrips (oneSegmentMessage buffer) := by
  have framable : Framable (oneSegmentMessage buffer) := by
    constructor
    · exact Nat.le_refl 1
    · exact (by decide : 1 ≤ 512)
    all_goals
      intro s member
      simp only [oneSegmentMessage, List.head?_cons, Option.mem_some_iff, List.mem_singleton]
        at member
      subst member
      dsimp only
      omega
  refine ⟨framable, ?_⟩
  intro roundTrips
  have small := roundTrips.small framable _ (List.mem_singleton.mpr rfl)
  dsimp only at small
  omega

theorem twoGigabyteMessage_not_framed :
    Framable (oneSegmentMessage (List.replicate (2 ^ 31) 0)) ∧
      ¬ FrameRoundTrips (oneSegmentMessage (List.replicate (2 ^ 31) 0)) :=
  oneSegmentMessage_not_framed (by rw [List.length_replicate]; omega) (by rw [List.length_replicate])

end CapnpEs
