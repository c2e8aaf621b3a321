import Mathlib.Data.Nat.Bits
import Mathlib.Data.Int.Bitwise

/-! Constants, thrown errors and the word padding of `constants.ts`, `errors.ts` and `util.ts`. -/

namespace CapnpEs

/-- The contents of an `ArrayBuffer` or of a `Uint8Array` view of one. -/
abbrev Bytes := List UInt8

def DEFAULT_BUFFER_SIZE : Int := 256
def DEFAULT_DEPTH_LIMIT : Int := 64
def DEFAULT_TRAVERSE_LIMIT : Int := 67108864
def MAX_STREAM_SEGMENTS : Nat := 512
def MIN_SINGLE_SEGMENT_GROWTH : Int := 1024
def PACK_SPAN_THRESHOLD : Nat := 2
def MAX_SEGMENT_LENGTH : Int := 0xffffffff

/-- What the serialization code can throw, by the names of `errors.ts`. -/
inductive CapnpError
  | MSG_INVALID_FRAME_HEADER
  | MSG_PACK_NOT_WORD_ALIGNED
  | MSG_SEGMENT_OUT_OF_BOUNDS (id : Nat)
  | MSG_SEGMENT_TOO_SMALL
  | MSG_TOO_MANY_SEGMENTS (count : Nat)
  | PTR_COMPOSITE_SIZE_UNDEFINED
  | PTR_DEPTH_LIMIT_EXCEEDED
  | PTR_INIT_COMPOSITE_STRUCT
  | PTR_INVALID_FAR_TARGET
  | PTR_INVALID_POINTER_TYPE
  | PTR_INVALID_LIST_SIZE
  | PTR_OFFSET_OUT_OF_BOUNDS (byteOffset : Int)
  | PTR_STRUCT_DATA_OUT_OF_BOUNDS (byteLength byteOffset : Int) (dataByteLength : Nat)
  | PTR_STRUCT_POINTER_OUT_OF_BOUNDS (index : Int) (pointerLength : Nat)
  | PTR_TRAVERSAL_LIMIT_EXCEEDED
  | PTR_WRITE_CONST_LIST
  | PTR_WRITE_CONST_STRUCT
  | PTR_WRONG_LIST_TYPE
  | PTR_WRONG_POINTER_TYPE
  | SEG_ID_OUT_OF_BOUNDS (id : Nat)
  | SEG_GET_NON_ZERO_SINGLE (id : Nat)
  | SEG_NOT_WORD_ALIGNED (byteLength : Nat)
  | SEG_REPLACEMENT_BUFFER_TOO_SMALL
  | SEG_SIZE_OVERFLOW (byteLength : Int)
  | TYPE_COMPOSITE_SIZE_UNDEFINED
  | INVARIANT_UNREACHABLE_CODE
  /-- The engine's own `RangeError`: a view or an access outside its buffer. -/
  | RangeError
  deriving DecidableEq, Repr

/-! Buffers and views. A length or an offset that does not fit is the engine's `RangeError`. -/

/-- `new Uint8Array(buffer, byteOffset, byteLength)`. -/
def uint8View (buffer : Bytes) (byteOffset byteLength : Int) : Except CapnpError Bytes :=
  if byteOffset < 0 ∨ byteLength < 0 ∨ byteOffset + byteLength > buffer.length then
    .error .RangeError
  else
    .ok ((buffer.drop byteOffset.toNat).take byteLength.toNat)

/-- `new ArrayBuffer(byteLength)`. -/
def newArrayBuffer (byteLength : Int) : Except CapnpError Bytes :=
  if byteLength < 0 then .error .RangeError else .ok (List.replicate byteLength.toNat 0)

/-- `TypedArray.prototype.set`: the source must fit behind the offset. -/
def setBytes (dst src : Bytes) (offset : Nat) : Except CapnpError Bytes :=
  if offset + src.length > dst.length then
    .error .RangeError
  else
    .ok (dst.take offset ++ src ++ dst.drop (offset + src.length))

/-- `(size + 7) & ~7`. The operators work on 32-bit integers, so the sum wraps. -/
def padToWord (size : Int) : Int :=
  (BitVec.ofInt 32 (size + 7) &&& ~~~(7 : BitVec 32)).toInt

theorem and_not_seven (x : BitVec 32) : (x &&& ~~~(7 : BitVec 32)).toNat = x.toNat / 8 * 8 := by
  have shifted : x &&& ~~~(7 : BitVec 32) = (x >>> 3) <<< 3 := by
    apply BitVec.eq_of_getLsbD_eq
    intro index bound
    have mask : ∀ position : Fin 32, (~~~(7 : BitVec 32)).getLsbD position.val =
        !decide (position.val < 3) := by decide
    simp only [BitVec.getLsbD_and, mask ⟨index, bound⟩, BitVec.getLsbD_shiftLeft,
      BitVec.getLsbD_ushiftRight, bound, decide_true, Bool.true_and]
    by_cases low : index < 3
    · simp [low]
    · simp [low, show 3 + (index - 3) = index by omega]
  rw [shifted, BitVec.toNat_shiftLeft, BitVec.toNat_ushiftRight, Nat.shiftLeft_eq,
    Nat.shiftRight_eq_div_pow]
  have bound := x.isLt
  omega

/-- Padding is rounding up to a word only while the sum stays below `2 ^ 31`. -/
theorem padToWord_of_lt {size : Int} (lower : 0 ≤ size) (upper : size + 7 < 2 ^ 31) :
    padToWord size = (size + 7) / 8 * 8 := by
  have value : (BitVec.ofInt 32 (size + 7)).toNat = (size + 7).toNat := by
    rw [BitVec.toNat_ofInt]
    omega
  rw [padToWord, BitVec.toInt_eq_toNat_of_msb, and_not_seven, value]
  · omega
  · rw [BitVec.msb_eq_false_iff_two_mul_lt, and_not_seven, value]
    omega

theorem padToWord_aligned {size : Int} (lower : 0 ≤ size) (upper : size < 2 ^ 31)
    (aligned : size % 8 = 0) : padToWord size = size := by
  rw [padToWord_of_lt lower (by omega)]
  omega

theorem padToWord_of_aligned {size : Int} (aligned : size % 8 = 0) :
    padToWord size = if size % 2 ^ 32 < 2 ^ 31 then size % 2 ^ 32 else size % 2 ^ 32 - 2 ^ 32 := by
  have value : ((BitVec.ofInt 32 (size + 7)).toNat : Int) = (size + 7) % 2 ^ 32 := by
    rw [BitVec.toNat_ofInt]
    omega
  have masked : ((BitVec.ofInt 32 (size + 7) &&& ~~~(7 : BitVec 32)).toNat : Int) = size % 2 ^ 32 := by
    rw [and_not_seven]
    omega
  rw [padToWord, BitVec.toInt_eq_toNat_cond]
  split
  · rw [if_pos (by omega), masked]
  · rw [if_neg (by omega), masked]
    rfl

theorem padToWord_emod (size : Int) : padToWord size % 8 = 0 := by
  have multiple := and_not_seven (BitVec.ofInt 32 (size + 7))
  rw [padToWord, BitVec.toInt_eq_toNat_cond]
  split <;> omega

theorem padToWord_lt (size : Int) : padToWord size < 2 ^ 31 := by
  have bound := BitVec.toInt_lt (x := BitVec.ofInt 32 (size + 7) &&& ~~~(7 : BitVec 32))
  simpa [padToWord] using bound

theorem padToWord_negative {size : Int} (lower : 2 ^ 31 ≤ size + 7) (upper : size + 7 < 2 ^ 32) :
    padToWord size < 0 := by
  have value : (BitVec.ofInt 32 (size + 7)).toNat = (size + 7).toNat := by
    rw [BitVec.toNat_ofInt]
    omega
  rw [padToWord, BitVec.toInt_eq_toNat_cond, and_not_seven, value]
  rw [if_neg (by omega)]
  omega

theorem padToWord_padded (size : Int) : padToWord (padToWord size) = padToWord size := by
  have aligned := padToWord_emod size
  have upper := padToWord_lt size
  have lower := BitVec.le_toInt (BitVec.ofInt 32 (size + 7) &&& ~~~(7 : BitVec 32))
  change -2 ^ 31 ≤ padToWord size at lower
  rw [padToWord_of_aligned aligned]
  split <;> omega

/-! What a successful view or copy is. -/

theorem uint8View_eq_ok {buffer view : Bytes} {byteOffset byteLength : Int}
    (found : uint8View buffer byteOffset byteLength = .ok view) :
    0 ≤ byteOffset ∧ 0 ≤ byteLength ∧ byteOffset + byteLength ≤ buffer.length ∧
      view = (buffer.drop byteOffset.toNat).take byteLength.toNat := by
  rw [uint8View] at found
  split at found
  · simp at found
  · rename_i inside
    exact ⟨by omega, by omega, by omega, (Except.ok.inj found).symm⟩

theorem uint8View_length {buffer view : Bytes} {byteOffset byteLength : Int}
    (found : uint8View buffer byteOffset byteLength = .ok view) :
    (view.length : Int) = byteLength := by
  obtain ⟨lower, nonneg, inside, rfl⟩ := uint8View_eq_ok found
  simp only [List.length_take, List.length_drop]
  omega

theorem uint8View_whole (buffer : Bytes) : uint8View buffer 0 buffer.length = .ok buffer := by
  rw [uint8View, if_neg (by omega)]
  simp

theorem setBytes_eq {dst src : Bytes} {offset : Nat} (inside : offset + src.length ≤ dst.length) :
    setBytes dst src offset = .ok (dst.take offset ++ src ++ dst.drop (offset + src.length)) := by
  rw [setBytes, if_neg (by omega)]

theorem setBytes_length {dst src after : Bytes} {offset : Nat}
    (done : setBytes dst src offset = .ok after) : after.length = dst.length := by
  rw [setBytes] at done
  split at done
  · simp at done
  · rename_i fits
    rw [← Except.ok.inj done]
    simp only [List.length_append, List.length_take, List.length_drop]
    omega

end CapnpEs
