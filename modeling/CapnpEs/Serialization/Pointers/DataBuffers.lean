import CapnpEs.Serialization.FramingGrammar
import CapnpEs.Serialization.Pointers.SimpleLists

/-! Copying a buffer into a data field: `copyBuffer` of `data.ts`. -/

namespace CapnpEs

/-- What `copyBuffer` takes, with its bytes at the time of the call: `set` reads a source that shares the buffer of
the segment before it writes. -/
inductive BufferSource
  | arrayBuffer (buffer : Bytes)
  | view (part : ArrayBufferView)

namespace BufferSource

def byteLength : BufferSource → Nat
  | .arrayBuffer buffer => buffer.length
  | .view part => part.byteLength

def bytes : BufferSource → Bytes
  | .arrayBuffer buffer => buffer
  | .view part => part.contents

theorem length_bytes (src : BufferSource) : src.bytes.length = src.byteLength := by
  cases src with
  | arrayBuffer buffer => rfl
  | view part =>
      have inside := part.inside
      simp only [bytes, byteLength, ArrayBufferView.contents, List.length_take, List.length_drop]
      omega

/-- What a destination of `length` bytes holds in the end. -/
def cut (src : BufferSource) (length : Nat) : Bytes :=
  src.bytes.take length ++ List.replicate (length - src.byteLength) 0

theorem length_cut (src : BufferSource) (length : Nat) : (src.cut length).length = length := by
  simp only [cut, List.length_append, List.length_take, List.length_replicate, src.length_bytes]
  omega

/-- What is given to `set`: a view is cut to the destination first. -/
def given (length : Nat) : BufferSource → Bytes
  | .arrayBuffer buffer => buffer
  | .view part => part.contents.take length

end BufferSource

/-- `Uint8Array.prototype.fill`, for bounds in order and inside of the view. -/
def fillView (view : Bytes) (value : UInt8) (first last : Nat) : Bytes :=
  view.take first ++ List.replicate (last - first) value ++ view.drop last

namespace Data

def copyBuffer (src : BufferSource) (d : Pointer) : WorldM Unit := do
  if ← isReadOnly d then
    throw .PTR_WRITE_CONST_LIST
  let c ← d.getContent
  let dstLength ← d.getTargetListLength
  let srcLength := src.byteLength
  let i ← ofExcept (match src with
    | .arrayBuffer buffer => .ok buffer
    | .view part => uint8View part.buffer part.byteOffset (min dstLength srcLength))
  let s ← onMessage c.message (Message.segment c.segment)
  let o ← ofExcept (uint8View s.buffer c.byteOffset (← d.getTargetListLength))
  let o ← ofExcept (setBytes o i 0)
  let o := if dstLength > srcLength then fillView o 0 srcLength dstLength.toNat else o
  onMessage c.message (modify fun m =>
    m.setSegment c.segment { s with buffer := LittleEndian.overwrite s.buffer c.byteOffset.toNat o })

def get (byteOffset : Int) (d : Pointer) : WorldM Int := do
  let c ← d.getContent
  c.segmentGet false 1 (c.byteOffset + byteOffset)

def set (byteOffset value : Int) (d : Pointer) : WorldM Unit := do
  let c ← d.getContent
  c.segmentSet 1 (c.byteOffset + byteOffset) value

end Data

namespace Pointer

variable {w : World} {d : Pointer} {src : BufferSource}

/-- A data field: a list of bytes in allocated space, or a null pointer. -/
structure IsData (d : Pointer) (w : World) : Prop extends d.IsSimpleList .BYTE w where
  fits : (d.content w).byteOffset + d.listLength w ≤ (w d.message).allocated (d.content w).segment

/-- The Data holds the start of the source and then zeros, and nothing else has changed. -/
structure Copied (src : BufferSource) (d : Pointer) (w after : World) : Prop where
  bytes : bytesAt after d.message (d.content w).segment (d.content w).byteOffset.toNat (d.listLength w).toNat =
    src.bytes.take (d.listLength w).toNat ++ List.replicate ((d.listLength w).toNat - src.byteLength) 0
  outside : ∀ (segment address : Nat), ¬(segment = (d.content w).segment ∧ (d.content w).byteOffset ≤ (address : Int) ∧
      (address : Int) < (d.content w).byteOffset + d.listLength w) →
    (after d.message).memory segment address = (w d.message).memory segment address
  allocated : ∀ segment, (after d.message).allocated segment = (w d.message).allocated segment
  others : ∀ message ≠ d.message, after message = w message

section

variable (isData : d.IsData w)
include isData

theorem IsData.spend (message count : Nat) : d.IsData (w.spend message count) :=
  ⟨isData.toIsSimpleList.spend message count, by simpa [listLength_spend] using isData.fits⟩

end

/-! The bytes that are written. -/

theorem source_read (src : BufferSource) (length : Nat) :
    (match src with
      | .arrayBuffer buffer => .ok buffer
      | .view part => uint8View part.buffer part.byteOffset (min (length : Int) src.byteLength)) =
    Except.ok (ε := CapnpError) (src.given length) := by
  cases src with
  | arrayBuffer buffer => rfl
  | view part =>
      have inside := part.inside
      change uint8View part.buffer part.byteOffset (min (length : Int) part.byteLength) =
        .ok (part.contents.take length)
      have count : (min (length : Int) part.byteLength).toNat = min length part.byteLength := by omega
      rw [uint8View, if_neg (by omega), ArrayBufferView.contents, List.take_take, Int.toNat_natCast, count]

/-- Only an `ArrayBuffer` that is longer than the destination does not fit into it. -/
theorem given_fits {length : Nat} :
    (src.given length).length ≤ length ↔ ¬∃ buffer, src = .arrayBuffer buffer ∧ length < buffer.length := by
  cases src with
  | arrayBuffer buffer =>
      constructor
      · rintro fits ⟨other, same, longer⟩
        cases same
        exact Nat.not_lt_of_le fits longer
      · intro short
        exact Nat.le_of_not_lt fun longer => short ⟨buffer, rfl, longer⟩
  | view part =>
      constructor
      · rintro - ⟨other, same, -⟩
        cases same
      · intro _
        exact List.length_take_le _ _

theorem given_eq {length : Nat} (fits : (src.given length).length ≤ length) : src.given length = src.bytes.take length := by
  cases src with
  | arrayBuffer buffer => exact (List.take_of_length_le fits).symm
  | view part => rfl

theorem written_eq (src : BufferSource) {o : Bytes} {length : Nat} (size : o.length = length) :
    (do
      let o ← setBytes o (src.bytes.take length) 0
      return if (length : Int) > src.byteLength then fillView o 0 src.byteLength length else o) =
    Except.ok (ε := CapnpError) (src.cut length) := by
  have count := src.length_bytes
  have fits : ¬0 + (src.bytes.take length).length > o.length := by
    rw [List.length_take]
    omega
  rw [setBytes, if_neg fits, Outcome.except_ok_bind]
  refine congrArg Except.ok ?_
  rw [List.take_zero, List.nil_append, Nat.zero_add, BufferSource.cut]
  by_cases shorter : (length : Int) > src.byteLength
  · have whole : src.bytes.take length = src.bytes := List.take_of_length_le (by omega)
    rw [if_pos shorter, fillView, whole, List.take_append_of_le_length (by omega), List.take_of_length_le (by omega),
      List.drop_of_length_le (by simp only [List.length_append, List.length_drop]; omega), List.append_nil]
  · have cut : (src.bytes.take length).length = o.length := by
      rw [List.length_take]
      omega
    have none : length - src.byteLength = 0 := by omega
    rw [if_neg shorter, cut, List.drop_length, none]
    rfl

theorem bytesAt_store (memory : Nat → UInt8) (start : Nat) (bytes : Bytes) :
    ((List.range bytes.length).map fun i => LittleEndian.store memory start bytes (start + i)) = bytes := by
  refine List.ext_getElem (by simp) fun index first second => ?_
  rw [List.getElem_map, List.getElem_range, LittleEndian.store, if_pos (by omega), Nat.add_sub_cancel_left,
    List.getD_eq_getElem?_getD, List.getElem?_eq_getElem second, Option.getD_some]

section

variable (isData : d.IsData w) (wf : (w d.message).WellFormed) (writable : (w d.message).readonly = false)
  (budget : 64 < (w d.message).traversalLimit)
include isData wf writable budget

theorem copyBuffer_opens (src : BufferSource) :
    ∃ count s, (w d.message).segments[(d.content w).segment]? = some s ∧
    Data.copyBuffer src d w = (do
      let o ← ofExcept (setBytes ((s.buffer.drop (d.content w).byteOffset.toNat).take (d.listLength w).toNat)
        (src.given (d.listLength w).toNat) 0)
      let o := if d.listLength w > src.byteLength then fillView o 0 src.byteLength (d.listLength w).toNat else o
      onMessage d.message (modify fun m => m.setSegment (d.content w).segment
        { s with buffer := LittleEndian.overwrite s.buffer (d.content w).byteOffset.toNat o }) : WorldM Unit)
      (w.spend d.message count) := by
  have resolves := isData.resolves
  obtain ⟨s, found⟩ := Message.segment_of_lt (content_bound resolves)
  obtain ⟨count, le, content⟩ : Reads d.getContent d.message 4 w (d.content w) :=
    isData.getContent_reads wf (by omega)
  obtain ⟨more, few, counted⟩ := (isData.spend d.message count).getTargetListLength_reads (wf.spend d.message count)
    (by rw [World.spend_traversalLimit]; omega)
  rw [listLength_spend, World.spend_spend] at counted
  obtain ⟨rest, _, again⟩ := (isData.spend d.message (count + more)).getTargetListLength_reads
    (wf.spend d.message (count + more)) (by rw [World.spend_traversalLimit]; omega)
  rw [listLength_spend, World.spend_spend] at again
  have segment : onMessage (d.content w).message (Message.segment (d.content w).segment)
      (w.spend d.message (count + more)) = .ok s (w.spend d.message (count + more)) := by
    rw [content_message]
    exact onMessage_reads (Message.segment_run (by rw [World.spend_segments]; exact found))
  have readonly : isReadOnly d w = .ok false w := by
    rw [isReadOnly, writable]
  have length : ((d.listLength w).toNat : Int) = d.listLength w := Int.toNat_of_nonneg isData.length_nonneg
  have read := source_read src (d.listLength w).toNat
  rw [length] at read
  have start := isData.start_nonneg
  have fits := isData.fits
  have room := wf.allocated_le (d.content w).segment
  have capacity : (w d.message).capacity (d.content w).segment = s.buffer.length := by
    rw [Message.capacity, found]
  rw [capacity] at room
  have view : uint8View s.buffer (d.content w).byteOffset (d.listLength w) =
      .ok ((s.buffer.drop (d.content w).byteOffset.toNat).take (d.listLength w).toNat) := by
    rw [uint8View, if_neg (by omega)]
  refine ⟨count + more + rest, s, found, ?_⟩
  rw [Data.copyBuffer, Outcome.bind_apply, readonly]
  simp only [Bool.false_eq_true, if_false]
  rw [Outcome.bind_apply, content]
  simp only
  rw [Outcome.bind_apply, counted]
  simp only
  rw [Outcome.ofExcept_bind read, Outcome.bind_apply, segment]
  simp only
  rw [Outcome.bind_apply, again]
  simp only
  rw [Outcome.ofExcept_bind view, content_message]

/-- An `ArrayBuffer` that is too long is refused. -/
theorem copyBuffer_refuses (long : ¬(src.given (d.listLength w).toNat).length ≤ (d.listLength w).toNat) :
    ∃ after, Data.copyBuffer src d w = .error .RangeError after := by
  obtain ⟨count, s, -, run⟩ := copyBuffer_opens isData wf writable budget src
  have refused : setBytes ((s.buffer.drop (d.content w).byteOffset.toNat).take (d.listLength w).toNat)
      (src.given (d.listLength w).toNat) 0 = .error .RangeError := by
    rw [setBytes, if_pos]
    have short := List.length_take_le (d.listLength w).toNat (s.buffer.drop (d.content w).byteOffset.toNat)
    omega
  rw [refused] at run
  exact ⟨_, run⟩

theorem copyBuffer_run (short : (src.given (d.listLength w).toNat).length ≤ (d.listLength w).toNat) :
    ∃ count, Data.copyBuffer src d w = .ok () ((w.spend d.message count).overwrite d.message (d.content w).segment
      (d.content w).byteOffset (src.cut (d.listLength w).toNat)) := by
  obtain ⟨count, s, found, run⟩ := copyBuffer_opens isData wf writable budget src
  have start := isData.start_nonneg
  have fits := isData.fits
  have nonneg := isData.length_nonneg
  have room := wf.allocated_le (d.content w).segment
  have capacity : (w d.message).capacity (d.content w).segment = s.buffer.length := by
    rw [Message.capacity, found]
  rw [capacity] at room
  have size : ((s.buffer.drop (d.content w).byteOffset.toNat).take (d.listLength w).toNat).length =
      (d.listLength w).toNat := by
    rw [List.length_take, List.length_drop]
    omega
  have written := written_eq src size
  rw [Int.toNat_of_nonneg nonneg, ← given_eq short, Outcome.except_bind_eq_ok] at written
  obtain ⟨o, set, filled⟩ := written
  have fits : (d.content w).byteOffset.toNat + (src.cut (d.listLength w).toNat).length ≤ s.buffer.length := by
    rw [src.length_cut]
    omega
  have kept : (w.spend d.message count d.message).segments[(d.content w).segment]? = some s := by
    rw [World.spend_segments]
    exact found
  refine ⟨count, ?_⟩
  rw [run, Outcome.ofExcept_bind set, Except.ok.inj filled, onMessage, Outcome.modify_apply, World.overwrite,
    Message.patch, kept]
  simp only
  rw [if_pos fits]

/-- The whole of what the documentation of `copyBuffer` promises. -/
theorem copyBuffer_copied (short : (src.given (d.listLength w).toNat).length ≤ (d.listLength w).toNat) :
    ∃ after, Data.copyBuffer src d w = .ok () after ∧ Copied src d w after := by
  obtain ⟨count, run⟩ := copyBuffer_run isData wf writable budget short
  have start := isData.start_nonneg
  have fits := isData.fits
  have nonneg := isData.length_nonneg
  have room := wf.allocated_le (d.content w).segment
  have size := src.length_cut (d.listLength w).toNat
  have inside : (d.content w).byteOffset.toNat + (src.cut (d.listLength w).toNat).length ≤
      (w.spend d.message count d.message).capacity (d.content w).segment := by
    rw [World.spend_capacity, size]
    omega
  have memory (segment : Nat) := Message.patch_memory (w.spend d.message count d.message) _ _ inside segment
  refine ⟨_, run, ?_, ?_, ?_, ?_⟩
  · rw [bytesAt, World.overwrite_self, memory, if_pos rfl]
    have held := bytesAt_store ((w.spend d.message count d.message).memory (d.content w).segment)
      (d.content w).byteOffset.toNat (src.cut (d.listLength w).toNat)
    rw [size] at held
    exact held
  · intro segment address outside
    rw [World.overwrite_self, memory]
    by_cases here : segment = (d.content w).segment
    · rw [if_pos here, LittleEndian.store, if_neg, World.spend_memory, here]
      rw [size]
      intro within
      exact outside ⟨here, by omega, by omega⟩
    · rw [if_neg here, World.spend_memory]
  · intro segment
    rw [World.overwrite_self, Message.patch_allocated, World.spend_allocated]
  · intro message other
    rw [World.overwrite, Function.update_of_ne other, World.spend, Function.update_of_ne other]

/-- `copyBuffer` ends, with the bytes it promises, unless the source is an `ArrayBuffer` that is longer than the Data. -/
theorem copyBuffer_copies_iff :
    (∃ after, Data.copyBuffer src d w = .ok () after ∧ Copied src d w after) ↔
      ¬∃ buffer, src = .arrayBuffer buffer ∧ d.listLength w < buffer.length := by
  have nonneg := isData.length_nonneg
  have condition : (∃ buffer, src = .arrayBuffer buffer ∧ d.listLength w < buffer.length) ↔
      ∃ buffer, src = .arrayBuffer buffer ∧ (d.listLength w).toNat < buffer.length :=
    exists_congr fun buffer => and_congr_right fun _ => by omega
  rw [condition, ← given_fits]
  constructor
  · rintro ⟨after, run, -⟩
    by_contra long
    obtain ⟨failed, refused⟩ := copyBuffer_refuses isData wf writable budget long
    rw [refused] at run
    cases run
  · exact copyBuffer_copied isData wf writable budget

end

/-! A Data of three bytes. -/

def threeBytesMessage : Message :=
  { arena := { kind := .SINGLE_SEGMENT, buffers := [] }
    segments := [{ buffer := [1, 0, 0, 0, 26, 0, 0, 0, 1, 2, 3, 0, 0, 0, 0, 0], byteLength := 16 }]
    traversalLimit := DEFAULT_TRAVERSE_LIMIT
    readonly := false
    capTable := none }

def threeBytes : Pointer := { message := 0, segment := 0, byteOffset := 0, depthLimit := DEFAULT_DEPTH_LIMIT }

theorem threeBytesMessage_wellFormed : threeBytesMessage.WellFormed := by
  constructor <;> decide

theorem threeBytes_isData : threeBytes.IsData fun _ => threeBytesMessage where
  simple := by decide
  resolves :=
    { inBounds := by constructor <;> decide +kernel
      depth := by decide +kernel
      pad := fun far => absurd far (by decide +kernel)
      target := by constructor <;> decide +kernel
      notFar := by decide +kernel
      segment := by decide +kernel
      lower := by decide +kernel
      upper := by decide +kernel }
  plain := rfl
  kind := by decide +kernel
  fits := by decide +kernel

theorem copyBuffer_copies_threeBytes :
    (∃ after, Data.copyBuffer (.arrayBuffer [7]) threeBytes (fun _ => threeBytesMessage) = .ok () after ∧
      Copied (.arrayBuffer [7]) threeBytes (fun _ => threeBytesMessage) after) ↔
    ¬∃ buffer, BufferSource.arrayBuffer [7] = .arrayBuffer buffer ∧
      threeBytes.listLength (fun _ => threeBytesMessage) < buffer.length :=
  copyBuffer_copies_iff threeBytes_isData threeBytesMessage_wellFormed rfl (by decide)

/-- An `ArrayBuffer` of four bytes is not cut to three: the copy throws. -/
theorem copyBuffer_long_arrayBuffer :
    threeBytes.IsData (fun _ => threeBytesMessage) ∧
    ∃ after, Data.copyBuffer (.arrayBuffer [1, 2, 3, 4]) threeBytes (fun _ => threeBytesMessage) =
      .error .RangeError after :=
  ⟨threeBytes_isData, copyBuffer_refuses threeBytes_isData threeBytesMessage_wellFormed rfl (by decide) (by decide +kernel)⟩

end Pointer

end CapnpEs
