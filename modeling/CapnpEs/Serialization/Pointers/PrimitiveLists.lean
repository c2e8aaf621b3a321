import CapnpEs.Serialization.Pointers.FieldRoundTrip
import CapnpEs.Serialization.Pointers.SimpleLists
import Mathlib.Tactic.Ring

/-! Lists of numbers and of booleans: `list.ts`, `bool-list.ts` and the list classes of numbers. -/

namespace CapnpEs

open LittleEndian (read encode store)

/-- What a list class makes of the bits of its elements: the pair of accessors of `segment.ts` that it uses. -/
structure NumberFormat where
  size : ListElementSize
  width : Nat
  Value : Type
  decode : Nat → Value
  encode : Value → Int
  sized : (size, width) ∈ [(.BYTE, 1), (.BYTE_2, 2), (.BYTE_4, 4), (.BYTE_8, 8)]
  stable : ∀ bits < 256 ^ width, decode (wrap width (encode (decode bits))) = decode bits

theorem number_stable (signed : Bool) {width bits : Nat} (small : bits < 256 ^ width) :
    DataView.number signed width (wrap width (DataView.number signed width bits)) = DataView.number signed width bits := by
  cases signed with
  | false =>
      rw [DataView.number_false, DataView.number_false, wrap]
      have power : (256 : Int) ^ width = (256 ^ width : Nat) := by rw [Nat.cast_pow, Nat.cast_ofNat]
      rw [power, ← Int.natCast_mod, Int.toNat_natCast, Nat.mod_eq_of_lt small]
  | true =>
      have positive : 0 < 256 ^ width := Nat.pow_pos (by decide)
      have even : width = 0 ∨ 256 ^ width % 2 = 0 := by
        cases width with
        | zero => exact Or.inl rfl
        | succ width =>
            right
            rw [Nat.pow_succ]
            omega
      have lower := Int.le_bmod (x := (bits : Int)) positive
      have upper := Int.bmod_lt (x := (bits : Int)) positive
      apply DataView.number_true
      · rw [DataView.number, if_pos rfl]
        omega
      · rw [DataView.number, if_pos rfl]
        rcases even with rfl | even
        · have zero : bits = 0 := by simpa using small
          rw [zero]
          decide
        · omega

def NumberFormat.integers (signed : Bool) (size : ListElementSize) (width : Nat)
    (sized : (size, width) ∈ [(.BYTE, 1), (.BYTE_2, 2), (.BYTE_4, 4), (.BYTE_8, 8)]) : NumberFormat where
  size := size
  width := width
  Value := Int
  decode := DataView.number signed width
  encode := id
  sized := sized
  stable _ small := number_stable signed small

def Int8List : NumberFormat := .integers true .BYTE 1 (by decide)
def Int16List : NumberFormat := .integers true .BYTE_2 2 (by decide)
def Int32List : NumberFormat := .integers true .BYTE_4 4 (by decide)
def Int64List : NumberFormat := .integers true .BYTE_8 8 (by decide)
def Uint8List : NumberFormat := .integers false .BYTE 1 (by decide)
def Uint16List : NumberFormat := .integers false .BYTE_2 2 (by decide)
def Uint32List : NumberFormat := .integers false .BYTE_4 4 (by decide)
def Uint64List : NumberFormat := .integers false .BYTE_8 8 (by decide)

/-- A floating point number by its bits: what is greater than `infinity` without its sign is the one number `nan`. -/
def floatOf (width infinity nan bits : Nat) : Nat := if infinity < bits % (256 ^ width / 2) then nan else bits

theorem float_stable {width infinity nan bits : Nat} (quiet : infinity < nan ∧ nan < 256 ^ width / 2)
    (small : bits < 256 ^ width) :
    floatOf width infinity nan (wrap width (floatOf width infinity nan bits : Nat)) = floatOf width infinity nan bits := by
  have same {number : Nat} (fits : number < 256 ^ width) : wrap width number = number := by
    have power : (256 : Int) ^ width = (256 ^ width : Nat) := by rw [Nat.cast_pow, Nat.cast_ofNat]
    rw [wrap, power, ← Int.natCast_mod, Int.toNat_natCast, Nat.mod_eq_of_lt fits]
  by_cases huge : infinity < bits % (256 ^ width / 2)
  · have value : floatOf width infinity nan bits = nan := if_pos huge
    rw [value, same (by omega), floatOf, Nat.mod_eq_of_lt quiet.2, if_pos quiet.1]
  · have value : floatOf width infinity nan bits = bits := if_neg huge
    rw [value, same small, value]

def NumberFormat.floats (size : ListElementSize) (width infinity nan : Nat)
    (sized : (size, width) ∈ [(.BYTE, 1), (.BYTE_2, 2), (.BYTE_4, 4), (.BYTE_8, 8)])
    (quiet : infinity < nan ∧ nan < 256 ^ width / 2) : NumberFormat where
  size := size
  width := width
  Value := Nat
  decode := floatOf width infinity nan
  encode bits := bits
  sized := sized
  stable _ small := float_stable quiet small

def Float32List : NumberFormat := .floats .BYTE_4 4 0x7f800000 0x7fc00000 (by decide) (by decide)
def Float64List : NumberFormat := .floats .BYTE_8 8 0x7ff0000000000000 0x7ff8000000000000 (by decide) (by decide)

inductive ListClass
  | bool
  | number (format : NumberFormat)

namespace ListClass

def Value : ListClass → Type
  | bool => Bool
  | number format => format.Value

def size : ListClass → ListElementSize
  | bool => .BIT
  | number format => format.size

def bitWidth : ListClass → Nat
  | bool => 1
  | number format => 8 * format.width

end ListClass

/-- `index >>> 3` -/
def byteIndex (index : Int) : Int := index % 2 ^ 32 / 8

namespace BoolList

def get (l : Pointer) (index : Int) : WorldM Bool := do
  let bitMask := bitMaskOf index
  let c ← l.getContent
  let v ← c.segmentGet false 1 (c.byteOffset + byteIndex index)
  return BitVec.ofInt 32 v &&& bitMask ≠ 0

def set (l : Pointer) (index : Int) (value : Bool) : WorldM Unit := do
  let bitMask := bitMaskOf index
  let c ← l.getContent
  let byteOffset := c.byteOffset + byteIndex index
  let v ← c.segmentGet false 1 byteOffset
  let v := BitVec.ofInt 32 v
  c.segmentSet 1 byteOffset (if value then v ||| bitMask else v &&& ~~~bitMask).toInt

end BoolList

namespace NumberFormat

def get (format : NumberFormat) (l : Pointer) (index : Int) : WorldM format.Value := do
  let c ← l.getContent
  return format.decode (← onMessage c.message (Message.getUint format.width c.segment (c.byteOffset + index * format.width)))

def set (format : NumberFormat) (l : Pointer) (index : Int) (value : format.Value) : WorldM Unit := do
  let c ← l.getContent
  c.segmentSet format.width (c.byteOffset + index * format.width) (format.encode value)

end NumberFormat

namespace ListClass

def get : (list : ListClass) → Pointer → Int → WorldM list.Value
  | bool => BoolList.get
  | number format => format.get

def set : (list : ListClass) → Pointer → Int → list.Value → WorldM Unit
  | bool => BoolList.set
  | number format => format.set

/-- `at` -/
def atIndex (list : ListClass) (l : Pointer) (index : Int) : WorldM list.Value := do
  if index < 0 then
    list.get l ((← l.getTargetListLength) + index)
  else
    list.get l index

/-- The loops from `i` on, with `count` turns left. -/
def readFrom (list : ListClass) (l : Pointer) (i : Int) : Nat → WorldM (List list.Value)
  | 0 => return []
  | count + 1 => do
      let value ← list.atIndex l i
      return value :: (← list.readFrom l (i + 1) count)

def toArray (list : ListClass) (l : Pointer) : WorldM (List list.Value) := do
  let length ← l.getTargetListLength
  list.readFrom l 0 length.toNat

def fillFrom (list : ListClass) (l : Pointer) (value : list.Value) (i : Int) : Nat → WorldM Unit
  | 0 => return ()
  | count + 1 => do
      list.set l i value
      list.fillFrom l value (i + 1) count

def fill (list : ListClass) (l : Pointer) (value : list.Value) (start final : Option Int) : WorldM Unit := do
  let length ← l.getTargetListLength
  let s := max (start.getD 0) 0
  let e := min (final.getD length) length
  list.fillFrom l value s (e - s).toNat

def copyFrom (list : ListClass) (l : Pointer) (t s i : Int) : Nat → WorldM Unit
  | 0 => return ()
  | count + 1 => do
      list.set l (t + i) (← list.atIndex l (s + i))
      list.copyFrom l t s (i + 1) count

/-- Without a target or a start, the number of turns is not a number. -/
def copyWithin (list : ListClass) (l : Pointer) (target start final : Option Int) : WorldM Unit := do
  let length ← l.getTargetListLength
  let e := final.getD length
  match target, start with
  | some target, some start =>
      let s := if start < 0 then max (length + start) 0 else start
      let t := if target < 0 then max (length + target) 0 else target
      list.copyFrom l t s 0 (min (e - s) (length - t)).toNat
  | _, _ => return ()

end ListClass

/-! The elements of a list, and what the accessors do with one of them. -/

/-- The place of an index: the shift of `BoolList` takes indices of 32 bits. -/
def ListClass.place : ListClass → Nat → Nat
  | bool, index => index % 2 ^ 32
  | number _, index => index

/-- A number in a buffer, from the start of the list on. -/
def Pointer.bitsAt (l : Pointer) (w : World) (offset width : Nat) : Option Nat :=
  if (l.content w).byteOffset + offset + width ≤ (w l.message).capacity (l.content w).segment then
    some (read ((w l.message).memory (l.content w).segment) ((l.content w).byteOffset + offset).toNat width)
  else none

def BoolList.element (l : Pointer) (w : World) (place : Nat) : Option Bool :=
  (l.bitsAt w (place / 8) 1).map fun bits => bits.testBit (place % 8)

def NumberFormat.element (format : NumberFormat) (l : Pointer) (w : World) (place : Nat) : Option format.Value :=
  (l.bitsAt w (place * format.width) format.width).map format.decode

/-- What is in a place of the list or behind it, up to the end of the buffer. -/
def ListClass.element : (list : ListClass) → Pointer → World → Nat → Option list.Value
  | bool => BoolList.element
  | number format => format.element

def ListClass.stored : (list : ListClass) → list.Value → list.Value
  | bool, value => value
  | number format, value => format.decode (wrap format.width (format.encode value))

namespace Pointer

/-- A list of a class in allocated space, apart from the words that lead to it. -/
structure IsPrimitiveList (list : ListClass) (l : Pointer) (w : World) : Prop extends l.IsSimpleList list.size w where
  fits : 8 * (l.content w).byteOffset + list.bitWidth * l.listLength w ≤ 8 * (w l.message).allocated (l.content w).segment
  apart : Disjoint (l.path w) (span (l.content w).segment (l.content w).byteOffset ((list.bitWidth * l.listLength w + 7) / 8))

end Pointer

namespace ListClass

variable {list : ListClass} {l : Pointer} {w after : World} {index : Nat} {value : list.Value}

theorem width_pos (format : NumberFormat) : 0 < format.width := by
  have sized := format.sized
  simp only [List.mem_cons, Prod.mk.injEq, List.not_mem_nil, or_false] at sized
  omega

theorem element_stored {place : Nat} (found : list.element l w place = some value) : list.stored value = value := by
  cases list with
  | bool => rfl
  | number format =>
      obtain ⟨bits, read, rfl⟩ := Option.map_eq_some_iff.mp found
      unfold Pointer.bitsAt at read
      split at read
      · rw [← Option.some.inj read]
        exact format.stable _ (LittleEndian.read_lt _ _ _)
      · cases read

def orRangeError {α : Type} (found : Option α) (w : World) : EStateM.Result CapnpError World α :=
  match found with
  | some value => .ok value w
  | none => .error .RangeError w

theorem getUint_cases (resolves : l.Resolves w) (start : 0 ≤ (l.content w).byteOffset) (count offset : Nat) {width : Nat}
    (positive : 0 < width) :
    onMessage (l.content w).message (Message.getUint width (l.content w).segment ((l.content w).byteOffset + offset))
      (w.spend l.message count) = orRangeError (l.bitsAt w offset width) (w.spend l.message count) := by
  rw [Pointer.content_message, Pointer.bitsAt]
  by_cases inside : (l.content w).byteOffset + offset + width ≤ (w l.message).capacity (l.content w).segment
  · rw [if_pos inside, onMessage_reads (Message.getUint_run (by omega) positive (by rw [World.spend_capacity]; exact inside)),
      World.spend_memory]
    rfl
  · obtain ⟨s, found⟩ := Message.segment_of_lt (Pointer.content_bound resolves)
    have capacity : (w l.message).capacity (l.content w).segment = s.buffer.length := by rw [Message.capacity, found]
    have kept : (w.spend l.message count l.message).segments[(l.content w).segment]? = some s := by
      rw [World.spend_segments]
      exact found
    have failed : Message.getUint width (l.content w).segment ((l.content w).byteOffset + offset)
        (w.spend l.message count l.message) = .error .RangeError (w.spend l.message count l.message) := by
      rw [Message.getUint, Outcome.bind_apply, Message.segment_run kept]
      simp only [DataView.getUint]
      rw [if_pos (by omega)]
      rfl
    rw [onMessage, failed, if_neg inside]
    simp only [Function.update_eq_self]
    rfl

theorem byteIndex_eq (index : Nat) : byteIndex index = (index % 2 ^ 32 / 8 : Nat) := by
  simp only [byteIndex]
  omega

theorem get_cases (holds : l.IsSimpleList list.size w) (wf : (w l.message).WellFormed)
    (budget : 32 < (w l.message).traversalLimit) (index : Nat) :
    ∃ count ≤ 4, list.get l index w = orRangeError (list.element l w (list.place index)) (w.spend l.message count) := by
  obtain ⟨count, le, content⟩ := holds.getContent_reads wf budget
  have start := holds.start_nonneg
  have resolves := holds.resolves
  refine ⟨count, le, ?_⟩
  cases list with
  | bool =>
      have read := getUint_cases resolves start count (index % 2 ^ 32 / 8) Nat.one_pos
      change BoolList.get l index w = orRangeError (BoolList.element l w (index % 2 ^ 32)) _
      rw [BoolList.get, Outcome.bind_apply, content]
      simp only [Pointer.segmentGet, Outcome.bind_apply]
      rw [byteIndex_eq, read, BoolList.element]
      cases l.bitsAt w (index % 2 ^ 32 / 8) 1 with
      | none => rfl
      | some bits =>
          have bit := and_bitMaskOf (Int.natCast_nonneg index) (BitVec.ofInt 32 bits)
          have same : ((index : Int) % 8).toNat = index % 2 ^ 32 % 8 := by omega
          rw [same, getLsbD_natCast _ (by omega)] at bit
          simp only [orRangeError, Option.map_some, Outcome.pure_apply, DataView.number_false]
          rw [bit]
  | number format =>
      have read := getUint_cases resolves start count (index * format.width) (width_pos format)
      change format.get l index w = orRangeError (format.element l w index) _
      rw [NumberFormat.get, Outcome.bind_apply, content]
      simp only [Outcome.bind_apply]
      rw [← Int.natCast_mul, read, NumberFormat.element]
      cases l.bitsAt w (index * format.width) format.width with
      | none => rfl
      | some bits => rfl

end ListClass

/-! Setting an element. -/

section overwritten

variable {list : ListClass} {l : Pointer} {w : World} {offset : Nat} {bytes : Bytes}
variable (holds : l.IsPrimitiveList list w) (wf : (w l.message).WellFormed) (count : Nat)
  (inside : (offset + bytes.length : Nat) ≤ (list.bitWidth * l.listLength w + 7) / 8)

/-- `w` after a charge, with bytes written over the list. -/
def Pointer.written (l : Pointer) (w : World) (count offset : Nat) (bytes : Bytes) : World :=
  (w.spend l.message count).overwrite l.message (l.content w).segment ((l.content w).byteOffset + offset) bytes

namespace Pointer

theorem written_traversalLimit :
    (l.written w count offset bytes l.message).traversalLimit = (w l.message).traversalLimit - 8 * count := by
  rw [written, World.overwrite_self, Message.patch_traversalLimit, World.spend_traversalLimit]

include holds wf inside

theorem written_fits : (l.content w).byteOffset + offset + bytes.length ≤ (w l.message).capacity (l.content w).segment := by
  have fits := holds.fits
  have room := wf.allocated_le (l.content w).segment
  omega

theorem written_memory : (l.written w count offset bytes l.message).memory (l.content w).segment =
    store ((w l.message).memory (l.content w).segment) ((l.content w).byteOffset + offset).toNat bytes := by
  have fits := written_fits holds wf inside
  have start := holds.start_nonneg
  rw [written, World.overwrite_self, Message.patch_memory _ _ _ (by rw [World.spend_capacity]; omega), if_pos rfl,
    World.spend_memory]

theorem written_others (message segment address : Nat)
    (outside : ¬(message = l.message ∧ segment = (l.content w).segment ∧ (l.content w).byteOffset + offset ≤ address ∧
      (address : Int) < (l.content w).byteOffset + offset + bytes.length)) :
    (l.written w count offset bytes message).memory segment address = (w message).memory segment address := by
  have fits := written_fits holds wf inside
  have start := holds.start_nonneg
  by_cases same : message = l.message
  · subst same
    by_cases here : segment = (l.content w).segment
    · rw [here, written_memory holds wf count inside, store, if_neg]
      intro within
      exact outside ⟨rfl, here, by omega, by omega⟩
    · rw [written, World.overwrite_self, Message.patch_memory _ _ _ (by rw [World.spend_capacity]; omega), if_neg here,
        World.spend_memory]
  · rw [written, World.overwrite, Function.update_of_ne same, World.spend, Function.update_of_ne same]

theorem written_like : World.Like l.message (l.path w) w (l.written w count offset bytes) := by
  constructor
  · rw [written, World.overwrite_self]
    exact Message.WellFormed.patch _ _ _ (wf.spend l.message count)
  · simp [written]
  · simp [written]
  · simp [written]
  · simp [written]
  · intro byte member
    apply written_others holds wf count inside
    rintro ⟨-, segment, above, below⟩
    refine Set.disjoint_left.mp holds.apart member ⟨segment, ?_, ?_⟩
    · omega
    · omega

theorem bitsAt_written_same {other width : Nat} (apart : other + width ≤ offset ∨ offset + bytes.length ≤ other) :
    l.bitsAt (l.written w count offset bytes) other width = l.bitsAt w other width := by
  have like := written_like holds wf count inside
  have content := (holds.like like).2.content
  have start := holds.start_nonneg
  rw [bitsAt, bitsAt, content, like.capacity, written_memory holds wf count inside,
    LittleEndian.read_store_disjoint _ _ _ _ _ (by omega)]

theorem bitsAt_written (value : Nat) (encoded : bytes = encode bytes.length value) :
    l.bitsAt (l.written w count offset bytes) offset bytes.length = some (value % 256 ^ bytes.length) := by
  have like := written_like holds wf count inside
  have content := (holds.like like).2.content
  have fits := written_fits holds wf inside
  rw [bitsAt, content, like.capacity, if_pos fits, written_memory holds wf count inside]
  refine congrArg some ?_
  conv_lhs => rw [encoded]
  rw [LittleEndian.encode_length]
  exact LittleEndian.read_store_same _ _ _ _

end Pointer

end overwritten

namespace ListClass

def IsBitOf (list : ListClass) (l : Pointer) (w : World) (index message segment place : Nat) : Prop :=
  message = l.message ∧ segment = (l.content w).segment ∧
    8 * (l.content w).byteOffset + list.bitWidth * index ≤ place ∧
    (place : Int) < 8 * (l.content w).byteOffset + list.bitWidth * (index + 1)

structure SetAt (list : ListClass) (l : Pointer) (index : Nat) (value : list.Value) (w after : World) : Prop where
  like : World.Like l.message (l.path w) w after
  budget : (w l.message).traversalLimit - 32 ≤ (after l.message).traversalLimit
  element : ∀ place, list.element l after place =
    if place = index then some (list.stored value) else list.element l w place
  bits : ∀ message segment place, ¬list.IsBitOf l w index message segment place →
    after.bit message segment place = w.bit message segment place

variable {list : ListClass} {l : Pointer} {w : World} {index : Nat}

theorem segmentSet_written (holds : l.IsPrimitiveList list w) (wf : (w l.message).WellFormed)
    (writable : (w l.message).readonly = false) (count offset : Nat) {width : Nat} (positive : 0 < width)
    (inside : (offset + width : Nat) ≤ (list.bitWidth * l.listLength w + 7) / 8) (value : Int) :
    (l.content w).segmentSet width ((l.content w).byteOffset + offset) value (w.spend l.message count) =
      .ok () (l.written w count offset (encode width (wrap width value))) := by
  have start := holds.start_nonneg
  have fits := holds.fits
  have room := wf.allocated_le (l.content w).segment
  have message : (l.content w).message = l.message := Pointer.content_message
  rw [Pointer.segmentSet_ok (by rw [message]; simpa using writable) positive (by omega)
    (by rw [message, World.spend_capacity]; omega), message]
  rfl

theorem length_lt (holds : l.IsPrimitiveList list w) : l.listLength w < 2 ^ 29 := by
  rw [holds.listLength, BitVec.toNat_ushiftRight, Nat.shiftRight_eq_div_pow]
  have bound := ((l.target w).hi w).isLt
  omega

theorem Pointer.byte_of_bitsAt {offset byte : Nat} (found : l.bitsAt w offset 1 = some byte) :
    ((w l.message).memory (l.content w).segment ((l.content w).byteOffset + offset).toNat).toNat = byte := by
  unfold Pointer.bitsAt at found
  split at found
  · rw [← Option.some.inj found]
    simp [LittleEndian.read]
  · cases found

theorem number_inside (format : NumberFormat) (below : (index : Int) < l.listLength w) :
    (index * format.width + format.width : Nat) ≤ format.width * l.listLength w := by
  have next : ((index + 1 : Nat) : Int) ≤ l.listLength w := by omega
  have scaled := Int.mul_le_mul_of_nonneg_left next (Int.natCast_nonneg format.width)
  have regroup : (format.width : Int) * ((index + 1 : Nat) : Int) = (index * format.width + format.width : Nat) := by
    rw [Nat.cast_add, Nat.cast_add, Nat.cast_mul]
    ring
  rwa [regroup] at scaled

theorem number_set {format : NumberFormat} {value : format.Value} (holds : l.IsPrimitiveList (number format) w)
    (wf : (w l.message).WellFormed) (writable : (w l.message).readonly = false)
    (budget : 32 < (w l.message).traversalLimit) (below : (index : Int) < l.listLength w) :
    ∃ after, format.set l index value w = .ok () after ∧ SetAt (number format) l index value w after := by
  obtain ⟨count, le, content⟩ := holds.getContent_reads wf budget
  have positive := width_pos format
  have bitWidth : (number format).bitWidth = 8 * format.width := rfl
  have whole := number_inside format below
  have inside : (index * format.width + format.width : Nat) ≤
      (((number format).bitWidth : Nat) * l.listLength w + 7) / 8 := by
    rw [bitWidth, Nat.cast_mul, Int.mul_assoc]
    omega
  have run := segmentSet_written holds wf writable count (index * format.width) positive inside (format.encode value)
  have length := LittleEndian.encode_length format.width (wrap format.width (format.encode value))
  have bound : wrap format.width (format.encode value) < 256 ^ format.width := DataView.toNat_emod_lt _ _
  have inside : (index * format.width + (encode format.width (wrap format.width (format.encode value))).length : Nat) ≤
      (((number format).bitWidth : Nat) * l.listLength w + 7) / 8 := by
    rw [length]
    exact inside
  refine ⟨_, ?_, Pointer.written_like holds wf count inside, ?_, fun place => ?_, ?_⟩
  · rw [NumberFormat.set, Outcome.bind_apply, content]
    simp only
    rw [← Int.natCast_mul]
    exact run
  · rw [Pointer.written_traversalLimit]
    omega
  · change format.element l _ place = if place = index then some _ else format.element l w place
    by_cases here : place = index
    · have read := Pointer.bitsAt_written holds wf count inside (wrap format.width (format.encode value)) (by rw [length])
      rw [length] at read
      rw [if_pos here, here, NumberFormat.element, read, Option.map_some, Nat.mod_eq_of_lt bound]
      rfl
    · have apart : place * format.width + format.width ≤ index * format.width ∨
          index * format.width + format.width ≤ place * format.width := by
        rcases Nat.lt_or_gt_of_ne here with less | more
        · left
          have scaled := Nat.mul_le_mul_right format.width less
          rwa [Nat.succ_mul] at scaled
        · right
          have scaled := Nat.mul_le_mul_right format.width more
          rwa [Nat.succ_mul] at scaled
      rw [if_neg here, NumberFormat.element, Pointer.bitsAt_written_same holds wf count inside (by rw [length]; exact apart)]
      rfl
  · intro message segment place outside
    rw [World.bit, World.bit, Pointer.written_others holds wf count inside]
    rintro ⟨same, here, above, before⟩
    refine outside ⟨same, here, ?_, ?_⟩
    · rw [bitWidth]
      have regroup : ((8 * format.width : Nat) : Int) * index = 8 * (index * format.width : Nat) := by
        rw [Nat.cast_mul, Nat.cast_mul]
        ring
      rw [regroup]
      omega
    · rw [bitWidth]
      rw [length] at before
      have regroup : ((8 * format.width : Nat) : Int) * (index + 1) = 8 * ((index * format.width : Nat) + format.width) := by
        rw [Nat.cast_mul, Nat.cast_mul]
        ring
      rw [regroup]
      omega

theorem bool_set {value : Bool} (holds : l.IsPrimitiveList bool w) (wf : (w l.message).WellFormed)
    (writable : (w l.message).readonly = false) (budget : 32 < (w l.message).traversalLimit)
    (below : (index : Int) < l.listLength w) :
    ∃ after, BoolList.set l index value w = .ok () after ∧ SetAt bool l index value w after := by
  obtain ⟨count, le, content⟩ := holds.getContent_reads wf budget
  have start := holds.start_nonneg
  have short := length_lt holds
  have shifted : byteIndex index = (index / 8 : Nat) := by
    rw [byteIndex_eq, Nat.mod_eq_of_lt (by omega)]
  have inside : (index / 8 + 1 : Nat) ≤ ((bool.bitWidth : Nat) * l.listLength w + 7) / 8 := by
    simp only [bitWidth, Nat.cast_one, Int.one_mul]
    omega
  obtain ⟨byte, found⟩ : ∃ byte, l.bitsAt w (index / 8) 1 = some byte := by
    refine ⟨_, if_pos ?_⟩
    have fits := holds.fits
    have room := wf.allocated_le (l.content w).segment
    simp only [bitWidth, Nat.cast_one, Int.one_mul] at fits
    omega
  have small : byte < 256 := by
    unfold Pointer.bitsAt at found
    split at found
    · rw [← Option.some.inj found]
      exact LittleEndian.read_lt _ _ 1
    · cases found
  have read := getUint_cases holds.resolves start count (index / 8) Nat.one_pos
  rw [found] at read
  have bits := setBit_byte (Int.natCast_nonneg index) small value
  have within : ((index : Int) % 8).toNat = index % 8 := by omega
  rw [within] at bits
  have run := segmentSet_written holds wf writable count (index / 8) Nat.one_pos inside
    (if value then BitVec.ofInt 32 byte ||| bitMaskOf index else BitVec.ofInt 32 byte &&& ~~~bitMaskOf index).toInt
  rw [wrap, bits] at run
  have length := LittleEndian.encode_length 1 (putBit byte (index % 8) value)
  have inside : (index / 8 + (encode 1 (putBit byte (index % 8) value)).length : Nat) ≤
      ((bool.bitWidth : Nat) * l.listLength w + 7) / 8 := by
    rw [length]
    exact inside
  have put : putBit byte (index % 8) value < 256 ^ 1 := putBit_lt value small (by omega)
  have written := Pointer.bitsAt_written holds wf count inside (putBit byte (index % 8) value) (by rw [length])
  rw [length, Nat.mod_eq_of_lt put] at written
  refine ⟨_, ?_, Pointer.written_like holds wf count inside, ?_, fun place => ?_, ?_⟩
  · rw [BoolList.set, Outcome.bind_apply, content]
    simp only [Pointer.segmentGet, Outcome.bind_apply]
    rw [shifted, read]
    simp only [orRangeError, Outcome.pure_apply, DataView.number_false]
    exact run
  · rw [Pointer.written_traversalLimit]
    omega
  · change BoolList.element l _ place = if place = index then some value else BoolList.element l w place
    by_cases here : place / 8 = index / 8
    · rw [BoolList.element, BoolList.element, here, written, found, Option.map_some, Option.map_some, testBit_putBit]
      by_cases same : place = index
      · rw [if_pos same, if_pos (by rw [same])]
      · rw [if_neg same, if_neg (by omega)]
    · rw [if_neg (fun same => here (congrArg (· / 8) same)), BoolList.element,
        Pointer.bitsAt_written_same holds wf count inside (by rw [length]; omega)]
      rfl
  · intro message segment place outside
    by_cases region : message = l.message ∧ segment = (l.content w).segment ∧
        (l.content w).byteOffset + (index / 8 : Nat) ≤ (place / 8 : Nat) ∧
        ((place / 8 : Nat) : Int) < (l.content w).byteOffset + (index / 8 : Nat) + (1 : Nat)
    · obtain ⟨rfl, rfl, above, before⟩ := region
      have address : place / 8 = ((l.content w).byteOffset + (index / 8 : Nat)).toNat := by omega
      have different : place % 8 ≠ index % 8 := by
        intro equal
        refine outside ⟨rfl, rfl, ?_, ?_⟩
        · simp only [bitWidth, Nat.cast_one, Int.one_mul]
          omega
        · simp only [bitWidth, Nat.cast_one, Int.one_mul]
          omega
      have after := Pointer.byte_of_bitsAt written
      rw [((holds.like (Pointer.written_like holds wf count inside)).2.content)] at after
      rw [World.bit, World.bit, address, after, Pointer.byte_of_bitsAt found, testBit_putBit, if_neg different]
    · rw [World.bit, World.bit, Pointer.written_others holds wf count inside]
      rw [length]
      exact region

theorem set_at (holds : l.IsPrimitiveList list w) (wf : (w l.message).WellFormed)
    (writable : (w l.message).readonly = false) (budget : 32 < (w l.message).traversalLimit)
    (below : (index : Int) < l.listLength w) (value : list.Value) :
    ∃ after, list.set l index value w = .ok () after ∧ SetAt list l index value w after := by
  cases list with
  | bool => exact bool_set holds wf writable budget below
  | number format => exact number_set holds wf writable budget below

theorem element_isSome (holds : l.IsPrimitiveList list w) (wf : (w l.message).WellFormed)
    (below : (index : Int) < l.listLength w) : (list.element l w index).isSome := by
  have fits := holds.fits
  have room := wf.allocated_le (l.content w).segment
  cases list with
  | bool =>
      simp only [bitWidth, Nat.cast_one, Int.one_mul] at fits
      change (BoolList.element l w index).isSome
      rw [BoolList.element, Option.isSome_map, Pointer.bitsAt, if_pos (by omega)]
      rfl
  | number format =>
      have whole := number_inside format below
      change 8 * (l.content w).byteOffset + (8 * format.width : Nat) * l.listLength w ≤ _ at fits
      rw [Nat.cast_mul, Int.mul_assoc] at fits
      change (format.element l w index).isSome
      rw [NumberFormat.element, Option.isSome_map, Pointer.bitsAt, if_pos (by omega)]
      rfl

theorem place_of_lt (holds : l.IsPrimitiveList list w) (below : (index : Int) < l.listLength w) :
    list.place index = index := by
  have short := length_lt holds
  cases list with
  | bool => exact Nat.mod_eq_of_lt (by omega)
  | number format => rfl

theorem IsPrimitiveList.kept {after : World} (holds : l.IsPrimitiveList list w)
    (like : World.Like l.message (l.path w) w after) :
    l.IsPrimitiveList list after ∧ l.content after = l.content w ∧ l.listLength after = l.listLength w := by
  obtain ⟨still, same⟩ := holds.like like
  have content := same.content
  have length := same.listLength
  refine ⟨⟨still, ?_, ?_⟩, content, length⟩
  · rw [content, length, like.allocated]
    exact holds.fits
  · rw [content, length, same.path]
    exact holds.apart

theorem spend_like (wf : (w l.message).WellFormed) (count : Nat) (bytes : Set Byte) :
    World.Like l.message bytes w (w.spend l.message count) where
  wellFormed := wf.spend l.message count
  readonly := by simp
  length := by simp
  allocated := by simp
  capacity := by simp
  memory := by simp

theorem element_spend (message count place : Nat) :
    list.element l (w.spend message count) place = list.element l w place := by
  have bits (offset width : Nat) : l.bitsAt (w.spend message count) offset width = l.bitsAt w offset width := by
    rw [Pointer.bitsAt, Pointer.bitsAt, Pointer.content_spend, World.spend_capacity, World.spend_memory]
  cases list with
  | bool =>
      change BoolList.element l _ place = BoolList.element l w place
      rw [BoolList.element, BoolList.element, bits]
  | number format =>
      change format.element l _ place = format.element l w place
      rw [NumberFormat.element, NumberFormat.element, bits]

end ListClass

end CapnpEs
