import CapnpEs.Serialization.StreamRoundTrip

/-!
The stream framing as a grammar of byte strings, and that `getFramedSegments` accepts exactly it.
The bytes may come in a whole buffer or in a view of a larger one.
-/

namespace CapnpEs

open LittleEndian (memoryOf read)

structure ArrayBufferView where
  buffer : Bytes
  byteOffset : Nat
  byteLength : Nat
  inside : byteOffset + byteLength ≤ buffer.length

/-- What `getFramedSegments` is called with. -/
inductive FramedSource
  | buffer (bytes : Bytes)
  | view (view : ArrayBufferView)

namespace ArrayBufferView

def contents (v : ArrayBufferView) : Bytes := (v.buffer.drop v.byteOffset).take v.byteLength

/-- `DataView.getUint32` and its siblings: the offset counts from the start of the view. -/
def getUint (width : Nat) (v : ArrayBufferView) (byteOffset : Int) : Except CapnpError Nat :=
  if byteOffset < 0 ∨ byteOffset + width > v.byteLength then
    .error .RangeError
  else
    .ok (read (memoryOf v.buffer) (v.byteOffset + byteOffset.toNat) width)

end ArrayBufferView

/-- `ArrayBuffer.prototype.slice`: both ends are cut to the buffer. -/
def sliceBuffer (buffer : Bytes) (first final : Nat) : Bytes :=
  (buffer.take (min final buffer.length)).drop (min first buffer.length)

namespace FramedSource

def byteLength : FramedSource → Nat
  | .buffer bytes => bytes.length
  | .view v => v.byteLength

def contents : FramedSource → Bytes
  | .buffer bytes => bytes
  | .view v => v.contents

/-- A `DataView` is itself a window of the buffer. -/
def toDataView : FramedSource → ArrayBufferView
  | .buffer bytes => { buffer := bytes, byteOffset := 0, byteLength := bytes.length, inside := by omega }
  | .view v => { buffer := v.buffer, byteOffset := v.byteOffset, byteLength := v.byteLength, inside := v.inside }

def sliceArrayBuffer (buf : FramedSource) (first final : Nat) : Bytes :=
  match buf with
  | .buffer bytes => sliceBuffer bytes first final
  | .view v => sliceBuffer v.buffer (v.byteOffset + first) (v.byteOffset + final)

/-- The loop of `getFramedSegments`, with `count` segments left from segment `i`. -/
def sliceSegments (message : FramedSource) (i : Nat) (byteOffset : Nat) :
    Nat → Except CapnpError (List Bytes)
  | 0 => .ok []
  | count + 1 => do
      let byteLength := (← message.toDataView.getUint 4 (4 + i * 4)) * 8
      if byteOffset + byteLength > message.byteLength then
        .error .MSG_INVALID_FRAME_HEADER
      else
        let segments ← sliceSegments message (i + 1) (byteOffset + byteLength) count
        .ok (message.sliceArrayBuffer byteOffset (byteOffset + byteLength) :: segments)

/-- `getFramedSegments` of a buffer or of a view. -/
def getFramedSegments (message : FramedSource) : Except CapnpError (List Bytes) := do
  let dv := message.toDataView
  if message.byteLength < 4 then
    .error .MSG_INVALID_FRAME_HEADER
  else
    let segmentCount := (← dv.getUint 4 0) + 1
    if segmentCount > MAX_STREAM_SEGMENTS then
      .error (.MSG_TOO_MANY_SEGMENTS segmentCount)
    else
      let byteOffset := 4 + segmentCount * 4
      let byteOffset := byteOffset + byteOffset % 8
      if byteOffset > message.byteLength then
        .error .MSG_INVALID_FRAME_HEADER
      else
        message.sliceSegments 0 byteOffset segmentCount

end FramedSource

/-! A view is read like a copy of its contents. -/

theorem ArrayBufferView.contents_length (v : ArrayBufferView) : v.contents.length = v.byteLength := by
  have inside := v.inside
  simp only [contents, List.length_take, List.length_drop]
  omega

theorem ArrayBufferView.memoryOf_contents {v : ArrayBufferView} {address : Nat}
    (bound : address < v.byteLength) :
    memoryOf v.contents address = memoryOf v.buffer (v.byteOffset + address) := by
  simp [memoryOf, contents, bound, List.getElem?_take_of_lt]

theorem ArrayBufferView.getUint_contents (width : Nat) (v : ArrayBufferView) (byteOffset : Int) :
    v.getUint width byteOffset = DataView.getUint width v.contents byteOffset := by
  rw [getUint, DataView.getUint, v.contents_length]
  split
  · rfl
  · rename_i inside
    rw [← LittleEndian.read_shift]
    congr 1
    apply LittleEndian.read_congr
    intro address _ upper
    exact (memoryOf_contents (by omega)).symm

namespace FramedSource

theorem contents_length (message : FramedSource) : message.contents.length = message.byteLength := by
  cases message with
  | buffer bytes => rfl
  | view v => exact v.contents_length

theorem toDataView_contents (message : FramedSource) : message.toDataView.contents = message.contents := by
  cases message with
  | buffer bytes => simp [toDataView, contents, ArrayBufferView.contents]
  | view v => rfl

theorem sliceArrayBuffer_contents {message : FramedSource} {first count : Nat}
    (inside : first + count ≤ message.byteLength) :
    message.sliceArrayBuffer first (first + count) = (message.contents.drop first).take count := by
  cases message with
  | buffer bytes =>
      simp only [byteLength] at inside
      rw [sliceArrayBuffer, sliceBuffer, contents, Nat.min_eq_left inside, Nat.min_eq_left (by omega),
        List.take_drop]
  | view v =>
      have fits := v.inside
      simp only [byteLength] at inside
      simp only [sliceArrayBuffer, sliceBuffer, contents, ArrayBufferView.contents]
      rw [Nat.min_eq_left (by omega), Nat.min_eq_left (by omega)]
      simp only [List.drop_take, List.drop_drop, List.take_take]
      congr 1
      omega

theorem sliceSegments_contents (message : FramedSource) (i byteOffset count : Nat) :
    message.sliceSegments i byteOffset count =
      CapnpEs.sliceSegments message.contents i byteOffset count := by
  induction count generalizing i byteOffset with
  | zero => rfl
  | succ count ih =>
      rw [sliceSegments, CapnpEs.sliceSegments, ArrayBufferView.getUint_contents, toDataView_contents]
      congr 1
      funext words
      dsimp only
      rw [contents_length]
      split
      · rfl
      · rename_i inside
        rw [ih, sliceArrayBuffer_contents (by omega)]

theorem getFramedSegments_contents (message : FramedSource) :
    message.getFramedSegments = CapnpEs.getFramedSegments message.contents := by
  rw [getFramedSegments, CapnpEs.getFramedSegments, ArrayBufferView.getUint_contents,
    toDataView_contents, contents_length]
  simp only [sliceSegments_contents]

end FramedSource

/-! The grammar: a count, a table of sizes padded to a word, and the segments. -/

namespace Framing

/-- The first word of a stream holds the number of segments less one. -/
def segmentCount (m : Bytes) : Nat := read (memoryOf m) 0 4 + 1

/-- The table announces the size of segment `i` in words. -/
def segmentSize (m : Bytes) (i : Nat) : Nat := read (memoryOf m) (4 + i * 4) 4 * 8

def tableLength (m : Bytes) : Nat := (4 + segmentCount m * 4 + 7) / 8 * 8

def segmentStart (m : Bytes) : Nat → Nat
  | 0 => tableLength m
  | i + 1 => segmentStart m i + segmentSize m i

def segment (m : Bytes) (i : Nat) : Bytes := (m.drop (segmentStart m i)).take (segmentSize m i)

def segments (m : Bytes) : List Bytes := (List.range (segmentCount m)).map (segment m)

def frameLength (m : Bytes) : Nat := segmentStart m (segmentCount m)

structure WellFramed (m : Bytes) : Prop where
  header : 4 ≤ m.length
  few : segmentCount m ≤ 512
  table : tableLength m ≤ m.length
  body : frameLength m ≤ m.length

def ZeroPadding (m : Bytes) : Prop :=
  ∀ address, 4 + segmentCount m * 4 ≤ address → address < tableLength m → memoryOf m address = 0

theorem segmentStart_mono (m : Bytes) {i j : Nat} (order : i ≤ j) : segmentStart m i ≤ segmentStart m j := by
  induction order with
  | refl => exact Nat.le_refl _
  | step _ ih => exact Nat.le_trans ih (Nat.le_add_right _ _)

theorem segment_length {m : Bytes} (framed : WellFramed m) {i : Nat} (index : i < segmentCount m) :
    (segment m i).length = segmentSize m i := by
  have next := segmentStart_mono m (Nat.succ_le_of_lt index)
  have body := framed.body
  rw [segmentStart] at next
  rw [frameLength] at body
  simp only [segment, List.length_take, List.length_drop]
  omega

theorem segments_flatten (m : Bytes) {count : Nat} (body : segmentStart m count ≤ m.length) :
    m.take (tableLength m) ++ ((List.range count).map (segment m)).flatten =
      m.take (segmentStart m count) := by
  induction count with
  | zero => simp [segmentStart]
  | succ count ih =>
      rw [segmentStart] at body ⊢
      rw [List.range_succ, List.map_append, List.flatten_append, ← List.append_assoc, ih (by omega),
        List.take_add]
      simp [segment]

theorem sliceSegments_eq (m : Bytes) (i count : Nat) (table : 4 + (i + count) * 4 ≤ m.length)
    (inside : segmentStart m i ≤ m.length) :
    sliceSegments m i (segmentStart m i) count =
      if segmentStart m (i + count) ≤ m.length then .ok ((List.range' i count).map (segment m))
      else .error .MSG_INVALID_FRAME_HEADER := by
  induction count generalizing i with
  | zero => simp [sliceSegments, inside]
  | succ count ih =>
      have entry : DataView.getUint 4 m (4 + (i : Int) * 4) = .ok (read (memoryOf m) (4 + i * 4) 4) := by
        have found := DataView.getUint_eq (w := 4) (b := m) (o := 4 + i * 4) (by omega)
        push_cast at found
        exact found
      have later := segmentStart_mono m (show i + 1 ≤ i + (count + 1) by omega)
      rw [sliceSegments, entry]
      change (if segmentStart m i + segmentSize m i > m.length then _ else _) = _
      rw [segmentStart] at later
      split
      · rw [if_neg (by omega)]
      · have rest := ih (i + 1) (by omega) (by rw [segmentStart]; omega)
        rw [segmentStart, show i + 1 + count = i + (count + 1) by omega] at rest
        change (sliceSegments m (i + 1) (segmentStart m i + segmentSize m i) count >>= _) = _
        rw [rest, List.range'_succ]
        split <;> rfl

theorem tableLength_eq (m : Bytes) :
    4 + segmentCount m * 4 + (4 + segmentCount m * 4) % 8 = tableLength m := by
  rw [tableLength]
  omega

theorem getFramedSegments_eq (m : Bytes) :
    getFramedSegments m =
      if m.length < 4 then .error .MSG_INVALID_FRAME_HEADER
      else if segmentCount m > 512 then .error (.MSG_TOO_MANY_SEGMENTS (segmentCount m))
      else if tableLength m > m.length then .error .MSG_INVALID_FRAME_HEADER
      else if frameLength m ≤ m.length then .ok (segments m)
      else .error .MSG_INVALID_FRAME_HEADER := by
  rw [getFramedSegments]
  split
  · rfl
  · have count := DataView.getUint_eq (w := 4) (b := m) (o := 0) (by omega)
    have padded := tableLength_eq m
    change (DataView.getUint 4 m ((0 : Nat) : Int) >>= _) = _
    rw [count]
    change (if segmentCount m > 512 then _ else _) = _
    split
    · rfl
    · change (if 4 + segmentCount m * 4 + (4 + segmentCount m * 4) % 8 > m.length then _ else _) = _
      rw [padded]
      split
      · rfl
      · have slices := sliceSegments_eq m 0 (segmentCount m) (by omega) (by rw [segmentStart]; omega)
        rw [Nat.zero_add, ← List.range_eq_range'] at slices
        change sliceSegments m 0 (4 + segmentCount m * 4 + (4 + segmentCount m * 4) % 8)
          (segmentCount m) = _
        rw [padded]
        exact slices

theorem getFramedSegments_accepts {m : Bytes} (framed : WellFramed m) :
    getFramedSegments m = .ok (segments m) := by
  obtain ⟨header, few, table, body⟩ := framed
  rw [getFramedSegments_eq, if_neg (by omega), if_neg (by omega), if_neg (by omega), if_pos body]

theorem getFramedSegments_refuses {m : Bytes} (malformed : ¬ WellFramed m) :
    ∃ reason, getFramedSegments m = .error reason := by
  rw [getFramedSegments_eq]
  split
  · exact ⟨_, rfl⟩
  · split
    · exact ⟨_, rfl⟩
    · split
      · exact ⟨_, rfl⟩
      · rw [if_neg]
        · exact ⟨_, rfl⟩
        · intro body
          exact malformed ⟨by omega, by omega, by omega, body⟩

/-! The frame written again. -/

def framedMessage (buffers : List Bytes) : Message :=
  { oneWordMessage with segments := buffers.map fun buffer => { buffer, byteLength := buffer.length } }

theorem writeSegmentSizes_behind {segments : List Segment} {out after : Bytes} {i : Nat}
    (room : (i + segments.length) * 4 + 4 ≤ out.length)
    (written : writeSegmentSizes out i segments = .ok after) {address : Nat}
    (behind : (i + segments.length) * 4 + 4 ≤ address) : memoryOf after address = memoryOf out address := by
  induction segments generalizing out i with
  | nil => rw [← Except.ok.inj written]
  | cons s segments ih =>
      rw [List.length_cons] at room behind
      let patch := LittleEndian.encode 4 (s.byteLength / 8 % 256 ^ 4).toNat
      have patchLength : patch.length = 4 := LittleEndian.encode_length _ _
      have patchFits : i * 4 + 4 + patch.length ≤ out.length := by omega
      have length := LittleEndian.overwrite_length patchFits
      have write := DataView.setUint_eq (w := 4) (b := out) (o := i * 4 + 4) (s.byteLength / 8) (by omega)
      push_cast at write
      rw [writeSegmentSizes, write] at written
      have later : memoryOf after address = memoryOf (LittleEndian.overwrite out (i * 4 + 4) patch) address :=
        ih (by omega) written (by omega)
      rw [later, LittleEndian.memoryOf_overwrite patchFits, LittleEndian.store, if_neg (by omega)]

theorem getStreamFrame_padding {m : Message} {frame : Bytes} (some : 1 ≤ m.segments.length)
    (found : getStreamFrame m = .ok frame) {address : Nat} (behind : 4 + m.segments.length * 4 ≤ address) :
    memoryOf frame address = 0 := by
  let size := 4 + m.segments.length * 4 + (1 - m.segments.length % 2) * 4
  let zeros : Bytes := List.replicate size 0
  let patch := LittleEndian.encode 4 (((m.segments.length : Int) - 1) % 256 ^ 4).toNat
  have length : zeros.length = size := List.length_replicate
  have patchLength : patch.length = 4 := LittleEndian.encode_length _ _
  have patchFits : 0 + patch.length ≤ zeros.length := by omega
  have array : newArrayBuffer (size : Int) = .ok zeros := by
    rw [newArrayBuffer, if_neg (by omega), Int.toNat_natCast]
  have fits := LittleEndian.overwrite_length patchFits
  rw [getStreamFrame, if_neg (by omega)] at found
  change (newArrayBuffer (size : Int) >>= _) = _ at found
  rw [array] at found
  change (DataView.setUint 4 zeros ((0 : Nat) : Int) (m.segments.length - 1) >>= _) = _ at found
  rw [DataView.setUint_eq _ (by omega)] at found
  replace found : writeSegmentSizes (LittleEndian.overwrite zeros 0 patch) 0 m.segments = .ok frame := found
  have later : memoryOf frame address = memoryOf (LittleEndian.overwrite zeros 0 patch) address :=
    writeSegmentSizes_behind (by omega) found (by omega)
  rw [later, LittleEndian.memoryOf_overwrite patchFits, LittleEndian.store, if_neg (by omega)]
  simp only [memoryOf, zeros, List.getD_eq_getElem?_getD, List.getElem?_replicate]
  split <;> rfl

/-- The table that `getStreamFrame` writes for the decoded segments is the one that was read. -/
theorem getStreamFrame_segments {m : Bytes} (framed : WellFramed m) (zero : ZeroPadding m) :
    getStreamFrame (framedMessage (segments m)) = .ok (m.take (tableLength m)) := by
  have total : (framedMessage (segments m)).segments.length = segmentCount m := by
    simp [framedMessage, segments]
  have some : 1 ≤ segmentCount m := by simp [segmentCount]
  have table := framed.table
  have few := framed.few
  have padded := tableLength_eq m
  obtain ⟨frame, run, length, count, sizes⟩ := getStreamFrame_spec (m := framedMessage (segments m)) (by omega)
  rw [total] at length count
  rw [run]
  congr 1
  apply LittleEndian.ext_memoryOf
  · rw [List.length_take]
    omega
  · intro address bound
    have front : memoryOf (m.take (tableLength m)) address = memoryOf m address := by
      simp only [memoryOf, List.getD_eq_getElem?_getD]
      rw [List.getElem?_take_of_lt (by omega)]
    rw [front]
    by_cases header : address < 4
    · apply LittleEndian.eq_of_read_eq 0 4 _ (by omega) (by omega)
      have fits := LittleEndian.read_lt (memoryOf m) 0 4
      rw [count]
      simp only [segmentCount]
      omega
    · by_cases entry : address < 4 + segmentCount m * 4
      · have index : (address - 4) / 4 < segmentCount m := by omega
        have size := sizes ((address - 4) / 4) (by omega)
        have place := Nat.add_comm ((address - 4) / 4 * 4) 4
        have fits := LittleEndian.read_lt (memoryOf m) (4 + (address - 4) / 4 * 4) 4
        apply LittleEndian.eq_of_read_eq ((address - 4) / 4 * 4 + 4) 4 _
          (by omega) (by omega)
        rw [size, place]
        simp only [framedMessage, segments, List.getElem_map, List.getElem_range, segment_length framed index,
          segmentSize]
        omega
      · rw [zero address (by omega) (by omega), getStreamFrame_padding _ run (by omega)]
        omega

theorem frame_rebuilt {m : Bytes} (framed : WellFramed m) (zero : ZeroPadding m) :
    ∃ frame, getStreamFrame (framedMessage (segments m)) = .ok frame ∧
      frame ++ (segments m).flatten = m.take (frameLength m) :=
  ⟨_, getStreamFrame_segments framed zero, segments_flatten m framed.body⟩

theorem segment_inside {m : Bytes} (framed : WellFramed m) {i : Nat} (index : i < segmentCount m) :
    tableLength m ≤ segmentStart m i ∧ segmentStart m i + segmentSize m i ≤ m.length := by
  have first := segmentStart_mono m (Nat.zero_le i)
  have last := segmentStart_mono m (Nat.succ_le_of_lt index)
  have body := framed.body
  rw [frameLength] at body
  change tableLength m ≤ _ at first
  rw [segmentStart] at last
  omega

end Framing

open CapnpEs.Framing in
/-- A stream is accepted exactly when it follows the grammar, whole or as a view of a larger buffer.
The table written for the decoded segments and the segments behind it are the bytes that were read. -/
theorem getFramedSegments_grammar (message : FramedSource) :
    let m := message.contents
    ((∃ buffers, message.getFramedSegments = .ok buffers) ↔ WellFramed m) ∧
      (WellFramed m →
        message.getFramedSegments = .ok (segments m) ∧
          (∀ i < segmentCount m, (segments m)[i]? =
              some ((m.drop (segmentStart m i)).take (segmentSize m i)) ∧
            segmentStart m i + segmentSize m i ≤ m.length) ∧
          (ZeroPadding m → ∃ frame, getStreamFrame (framedMessage (segments m)) = .ok frame ∧
            frame ++ (segments m).flatten = m.take (frameLength m))) ∧
      (¬ WellFramed m → ∃ reason, message.getFramedSegments = .error reason) ∧
      ∀ other : FramedSource, other.contents = m → other.getFramedSegments = message.getFramedSegments := by
  intro m
  rw [FramedSource.getFramedSegments_contents]
  refine ⟨⟨?_, ?_⟩, ?_, ?_, ?_⟩
  · rintro ⟨buffers, accepted⟩
    by_contra malformed
    obtain ⟨reason, refused⟩ := getFramedSegments_refuses malformed
    rw [accepted] at refused
    simp at refused
  · intro framed
    exact ⟨_, getFramedSegments_accepts framed⟩
  · intro framed
    refine ⟨getFramedSegments_accepts framed, ?_, frame_rebuilt framed⟩
    intro i index
    refine ⟨?_, (segment_inside framed index).2⟩
    simp [segments, Framing.segment, index]
  · exact getFramedSegments_refuses
  · intro other same
    rw [FramedSource.getFramedSegments_contents, same]

def framedWindow : ArrayBufferView :=
  { buffer := [9, 9, 0, 0, 0, 0, 1, 0, 0, 0, 1, 2, 3, 4, 5, 6, 7, 8, 9], byteOffset := 2, byteLength := 16,
    inside := by decide }

theorem getFramedSegments_grammar_window :
    Framing.WellFramed framedWindow.contents ∧ Framing.ZeroPadding framedWindow.contents ∧
      (FramedSource.view framedWindow).getFramedSegments = .ok [[1, 2, 3, 4, 5, 6, 7, 8]] ∧
      (∃ frame, getStreamFrame (Framing.framedMessage [[1, 2, 3, 4, 5, 6, 7, 8]]) = .ok frame ∧
        frame ++ [1, 2, 3, 4, 5, 6, 7, 8] = framedWindow.contents) ∧
      ∃ reason, (FramedSource.buffer [1, 0, 0]).getFramedSegments = .error reason := by
  have framed : Framing.WellFramed framedWindow.contents := by constructor <;> decide
  have zero : Framing.ZeroPadding framedWindow.contents := by
    intro address lower upper
    have table : Framing.tableLength framedWindow.contents = 8 := by decide
    have count : Framing.segmentCount framedWindow.contents = 1 := by decide
    omega
  have grammar := getFramedSegments_grammar (.view framedWindow)
  obtain ⟨accepted, -, rebuilt⟩ := grammar.2.1 framed
  refine ⟨framed, zero, accepted, rebuilt zero, ?_⟩
  exact (getFramedSegments_grammar (.buffer [1, 0, 0])).2.2.1 fun short => absurd short.header (by decide)

end CapnpEs
