import CapnpEs.Library.Outcome
import CapnpEs.Serialization.Message

/-! Default values as masks, `mask.ts`, and the scratch word through which the accessors turn numbers into
bits. The scratch word is shared, but every use writes the bytes that it reads, so its contents before are a
parameter. -/

namespace CapnpEs

namespace DataView

def inOrder (littleEndian : Bool) (bytes : Bytes) : Bytes := if littleEndian then bytes else bytes.reverse

def getOrdered (littleEndian : Bool) (width : Nat) (buffer : Bytes) (byteOffset : Int) : Except CapnpError Nat :=
  if byteOffset < 0 ∨ byteOffset + width > buffer.length then
    .error .RangeError
  else
    .ok (LittleEndian.read (LittleEndian.memoryOf
      (inOrder littleEndian ((buffer.drop byteOffset.toNat).take width))) 0 width)

def setOrdered (littleEndian : Bool) (width : Nat) (buffer : Bytes) (byteOffset value : Int) :
    Except CapnpError Bytes :=
  if byteOffset < 0 ∨ byteOffset + width > buffer.length then
    .error .RangeError
  else
    .ok (LittleEndian.overwrite buffer byteOffset.toNat
      (inOrder littleEndian (LittleEndian.encode width (value % 256 ^ width).toNat)))

/-- The number that a signed or an unsigned getter makes of the bits. -/
def number (signed : Bool) (width bits : Nat) : Int :=
  if signed then (bits : Int).bmod (256 ^ width) else bits

end DataView

/-- `a ^ b`, a signed 32-bit integer. -/
def xor32 (a b : Int) : Int := (BitVec.ofInt 32 a ^^^ BitVec.ofInt 32 b).toInt

def makePrimitiveMaskFn (byteLength : Nat) (x : Int) : Except CapnpError Bytes :=
  DataView.setOrdered true byteLength (List.replicate byteLength 0) 0 x

def getInt8Mask : Int → Except CapnpError Bytes := makePrimitiveMaskFn 1
def getInt16Mask : Int → Except CapnpError Bytes := makePrimitiveMaskFn 2
def getInt32Mask : Int → Except CapnpError Bytes := makePrimitiveMaskFn 4
def getInt64Mask : Int → Except CapnpError Bytes := makePrimitiveMaskFn 8
def getUint8Mask : Int → Except CapnpError Bytes := makePrimitiveMaskFn 1
def getUint16Mask : Int → Except CapnpError Bytes := makePrimitiveMaskFn 2
def getUint32Mask : Int → Except CapnpError Bytes := makePrimitiveMaskFn 4
def getUint64Mask : Int → Except CapnpError Bytes := makePrimitiveMaskFn 8

/-- `1 << (bitOffset % 8)`; a negative remainder shifts by its low five bits. -/
def bitMaskOf (bitOffset : Int) : BitVec 32 := 1 <<< (bitOffset.tmod 8 % 32).toNat

def getBitMask (value : Bool) (bitOffset : Int) : Except CapnpError Bytes :=
  if !value then .ok (List.replicate 1 0)
  else DataView.setOrdered true 1 (List.replicate 1 0) 0 (bitMaskOf bitOffset).toInt

/-- The contents of `TMP_WORD`. -/
abbrev TmpWord := { bytes : Bytes // bytes.length = 8 }

namespace TmpWord

variable (nativeLittleEndian : Bool) (tmp : TmpWord)

/-- Bits written to the scratch word and read back as a signed number. -/
def readInt (width : Nat) (bits : Int) : Except CapnpError Int := do
  let word ← DataView.setOrdered nativeLittleEndian width tmp.val 0 bits
  let bits ← DataView.getOrdered nativeLittleEndian width word 0
  return DataView.number true width bits

/-- A number written to the scratch word and read back as bits. -/
def readBits (width : Nat) (value : Int) : Except CapnpError Nat := do
  let word ← DataView.setOrdered nativeLittleEndian width tmp.val 0 value
  DataView.getOrdered nativeLittleEndian width word 0

/-- Two halves written to the scratch word and read back as one number. -/
def readHalves (signed : Bool) (lo hi : Int) : Except CapnpError Int := do
  let word ← DataView.setOrdered nativeLittleEndian 4 tmp.val (if nativeLittleEndian then 0 else 4) lo
  let word ← DataView.setOrdered nativeLittleEndian 4 word (if nativeLittleEndian then 4 else 0) hi
  let bits ← DataView.getOrdered nativeLittleEndian 8 word 0
  return DataView.number signed 8 bits

/-- A number written to the scratch word and read back as two halves. -/
def splitHalves (value : Int) : Except CapnpError (Nat × Nat) := do
  let word ← DataView.setOrdered nativeLittleEndian 8 tmp.val 0 value
  let lo ← DataView.getOrdered nativeLittleEndian 4 word (if nativeLittleEndian then 0 else 4)
  let hi ← DataView.getOrdered nativeLittleEndian 4 word (if nativeLittleEndian then 4 else 0)
  return (lo, hi)

end TmpWord

/-! What they come to. -/

open LittleEndian (memoryOf read encode overwrite)

namespace DataView

@[simp] theorem inOrder_length (littleEndian : Bool) (bytes : Bytes) :
    (inOrder littleEndian bytes).length = bytes.length := by
  cases littleEndian <;> simp [inOrder]

@[simp] theorem inOrder_inOrder (littleEndian : Bool) (bytes : Bytes) :
    inOrder littleEndian (inOrder littleEndian bytes) = bytes := by
  cases littleEndian <;> simp [inOrder]

theorem getOrdered_eq (littleEndian : Bool) {width : Nat} {buffer : Bytes} {byteOffset : Int}
    (lower : 0 ≤ byteOffset) (inside : byteOffset + width ≤ buffer.length) :
    getOrdered littleEndian width buffer byteOffset =
      .ok (read (memoryOf (inOrder littleEndian ((buffer.drop byteOffset.toNat).take width))) 0 width) := by
  rw [getOrdered, if_neg (by omega)]

theorem setOrdered_eq (littleEndian : Bool) {width : Nat} {buffer : Bytes} {byteOffset : Int} (value : Int)
    (lower : 0 ≤ byteOffset) (inside : byteOffset + width ≤ buffer.length) :
    setOrdered littleEndian width buffer byteOffset value =
      .ok (overwrite buffer byteOffset.toNat
        (inOrder littleEndian (encode width (value % 256 ^ width).toNat))) := by
  rw [setOrdered, if_neg (by omega)]

theorem overwrite_front {buffer patch : Bytes} {width : Nat} (length : patch.length = width) :
    (overwrite buffer 0 patch).take width = patch := by
  simp [overwrite, ← length]

theorem read_encode (width value : Nat) : read (memoryOf (encode width value)) 0 width = value % 256 ^ width := by
  apply LittleEndian.read_of_encode
  intro index _
  rw [Nat.zero_add, memoryOf]

theorem toNat_emod_lt (value : Int) (width : Nat) : (value % 256 ^ width).toNat < 256 ^ width := by
  have positive : (0 : Int) < 256 ^ width := Int.pow_pos (by decide)
  have lower := Int.emod_nonneg value (Int.ne_of_gt positive)
  have upper := Int.emod_lt_of_pos value positive
  have size : ((256 ^ width : Nat) : Int) = 256 ^ width := Int.natCast_pow 256 width
  omega

end DataView

namespace TmpWord

open DataView

variable (nativeLittleEndian : Bool) (tmp : TmpWord)

theorem readBits_eq {width : Nat} (fits : width ≤ 8) (value : Int) :
    readBits nativeLittleEndian tmp width value = .ok (value % 256 ^ width).toNat := by
  have length := tmp.property
  have inside : 0 + (width : Int) ≤ tmp.val.length := by omega
  have cut := toNat_emod_lt value width
  rw [readBits, setOrdered_eq nativeLittleEndian value (by omega) inside]
  change getOrdered nativeLittleEndian width _ 0 = _
  rw [getOrdered_eq nativeLittleEndian (by omega)]
  · simp only [Int.toNat_zero, List.drop_zero]
    rw [overwrite_front (by simp), inOrder_inOrder, read_encode, Nat.mod_eq_of_lt cut]
  · rw [LittleEndian.overwrite_length] <;> simp <;> omega

theorem readInt_eq {width : Nat} (fits : width ≤ 8) (bits : Int) :
    readInt nativeLittleEndian tmp width bits = .ok (number true width (bits % 256 ^ width).toNat) := by
  have same : readInt nativeLittleEndian tmp width bits =
      (readBits nativeLittleEndian tmp width bits >>= fun found => pure (number true width found)) := by
    rw [readInt, readBits, bind_assoc]
  rw [same, readBits_eq nativeLittleEndian tmp fits]
  rfl

theorem overwrite_halves {word lo hi : Bytes} (length : word.length = 8) (low : lo.length = 4)
    (high : hi.length = 4) :
    overwrite (overwrite word 0 lo) 4 hi = lo ++ hi ∧ overwrite (overwrite word 4 lo) 0 hi = hi ++ lo := by
  constructor
  · simp [overwrite, low, high, length, List.drop_append]
  · simp [overwrite, low, high, length, List.take_append]

theorem setHalves_eq {word : Bytes} (length : word.length = 8) (lo hi : Int) :
    (setOrdered nativeLittleEndian 4 word (if nativeLittleEndian then 0 else 4) lo >>= fun word =>
        setOrdered nativeLittleEndian 4 word (if nativeLittleEndian then 4 else 0) hi) =
      .ok (inOrder nativeLittleEndian
        (encode 4 (lo % 256 ^ 4).toNat ++ encode 4 (hi % 256 ^ 4).toNat)) := by
  have low := LittleEndian.encode_length 4 (lo % 256 ^ 4).toNat
  have high := LittleEndian.encode_length 4 (hi % 256 ^ 4).toNat
  cases nativeLittleEndian with
  | true =>
      rw [if_pos rfl, if_pos rfl, setOrdered_eq true lo (by omega) (by omega), Outcome.except_ok_bind]
      generalize encode 4 (lo % 256 ^ 4).toNat = first at *
      rw [setOrdered_eq true hi (by omega)]
      · generalize encode 4 (hi % 256 ^ 4).toNat = second at *
        exact congrArg Except.ok (overwrite_halves length low high).1
      · rw [LittleEndian.overwrite_length] <;> simp [low, length]
  | false =>
      rw [if_neg (by decide), if_neg (by decide), setOrdered_eq false lo (by omega) (by omega), Outcome.except_ok_bind]
      generalize encode 4 (lo % 256 ^ 4).toNat = first at *
      rw [setOrdered_eq false hi (by omega)]
      · generalize encode 4 (hi % 256 ^ 4).toNat = second at *
        have halves : overwrite (overwrite word 4 first.reverse) 0 second.reverse =
            second.reverse ++ first.reverse :=
          (overwrite_halves length (by simp [low]) (by simp [high])).2
        rw [← List.reverse_append] at halves
        exact congrArg Except.ok halves
      · rw [LittleEndian.overwrite_length] <;> simp [low, length]

theorem readHalves_eq (signed : Bool) (lo hi : Int) :
    readHalves nativeLittleEndian tmp signed lo hi =
      .ok (number signed 8 ((lo % 256 ^ 4).toNat + 256 ^ 4 * (hi % 256 ^ 4).toNat)) := by
  have low := toNat_emod_lt lo 4
  have high := toNat_emod_lt hi 4
  have whole := read_encode 8 ((lo % 256 ^ 4).toNat + 256 ^ 4 * (hi % 256 ^ 4).toNat)
  have fits : (lo % 256 ^ 4).toNat + 256 ^ 4 * (hi % 256 ^ 4).toNat < 256 ^ 8 := by omega
  have written := setHalves_eq nativeLittleEndian tmp.property lo hi
  rw [Nat.mod_eq_of_lt fits] at whole
  rw [LittleEndian.encode_append low] at written
  rw [readHalves, ← bind_assoc, written, Outcome.except_ok_bind, getOrdered_eq nativeLittleEndian (by omega) (by simp)]
  generalize (lo % 256 ^ 4).toNat + 256 ^ 4 * (hi % 256 ^ 4).toNat = value at *
  have all : ((inOrder nativeLittleEndian (encode 8 value)).drop (Int.toNat 0)).take 8 =
      inOrder nativeLittleEndian (encode 8 value) := by
    rw [Int.toNat_zero, List.drop_zero, List.take_of_length_le (by simp)]
  rw [all, inOrder_inOrder, whole]
  rfl

theorem take_halves {lo hi : Bytes} (low : lo.length = 4) (high : hi.length = 4) :
    inOrder nativeLittleEndian (((inOrder nativeLittleEndian (lo ++ hi)).drop
        (if nativeLittleEndian then 0 else 4 : Int).toNat).take 4) = lo ∧
      inOrder nativeLittleEndian (((inOrder nativeLittleEndian (lo ++ hi)).drop
        (if nativeLittleEndian then 4 else 0 : Int).toNat).take 4) = hi := by
  cases nativeLittleEndian with
  | true => simp [inOrder, ← low, List.take_of_length_le, high]
  | false => simp [inOrder, ← high, List.take_of_length_le, low]

theorem splitHalves_eq (value : Int) :
    splitHalves nativeLittleEndian tmp value =
      .ok ((value % 256 ^ 8).toNat % 256 ^ 4, (value % 256 ^ 8).toNat / 256 ^ 4) := by
  have length := tmp.property
  have bound := toNat_emod_lt value 8
  rw [splitHalves, setOrdered_eq nativeLittleEndian value (by omega) (by omega)]
  generalize (value % 256 ^ 8).toNat = bits at *
  have joined := LittleEndian.encode_add 4 4 bits
  have first := read_encode 4 bits
  have second := read_encode 4 (bits / 256 ^ 4)
  rw [Nat.mod_eq_of_lt (by omega : bits / 256 ^ 4 < 256 ^ 4)] at second
  have whole : overwrite tmp.val (Int.toNat 0) (inOrder nativeLittleEndian (encode 8 bits)) =
      inOrder nativeLittleEndian (encode 4 bits ++ encode 4 (bits / 256 ^ 4)) := by
    rw [← joined, overwrite]
    simp [length]
  have halves := take_halves nativeLittleEndian (LittleEndian.encode_length 4 bits)
    (LittleEndian.encode_length 4 (bits / 256 ^ 4))
  rw [whole, Outcome.except_ok_bind, getOrdered_eq nativeLittleEndian (by split <;> omega) (by split <;> simp), halves.1,
    Outcome.except_ok_bind, getOrdered_eq nativeLittleEndian (by split <;> omega) (by split <;> simp), halves.2, first, second]
  rfl

end TmpWord

/-! Exclusive or on 32-bit integers. -/

theorem xor32_natCast (a b : Nat) : xor32 a b = ((a ^^^ b : Nat) : Int).bmod (2 ^ 32) := by
  rw [xor32, BitVec.ofInt_natCast, BitVec.ofInt_natCast, ← BitVec.ofNat_xor, BitVec.toInt_ofNat']

theorem xor_lt {width a b : Nat} (first : a < 256 ^ width) (second : b < 256 ^ width) : a ^^^ b < 256 ^ width := by
  rw [show (256 : Nat) = 2 ^ 8 from rfl, ← Nat.pow_mul] at *
  exact Nat.xor_lt_two_pow first second

theorem xor32_emod {width a b : Nat} (fits : width ≤ 4) (first : a < 256 ^ width) (second : b < 256 ^ width) :
    (xor32 a b % 256 ^ width).toNat = a ^^^ b := by
  have bound := xor_lt first second
  have power : ((256 ^ width : Nat) : Int) = 256 ^ width := Int.natCast_pow 256 width
  have divides : ((256 ^ width : Nat) : Int) ∣ ((2 ^ 32 : Nat) : Int) := by
    rw [show (2 : Nat) ^ 32 = 256 ^ 4 from rfl]
    exact Int.natCast_dvd_natCast.mpr (Nat.pow_dvd_pow 256 fits)
  have cut : ((a ^^^ b : Nat) : Int).bmod (2 ^ 32) % (256 ^ width : Nat) = (a ^^^ b : Nat) % (256 ^ width : Nat) := by
    apply Int.emod_eq_emod_iff_emod_sub_eq_zero.mpr
    exact Int.emod_eq_zero_of_dvd (divides.trans Int.dvd_bmod_sub_self)
  rw [xor32_natCast, ← power, cut, ← Int.natCast_mod, Int.toNat_natCast, Nat.mod_eq_of_lt bound]

theorem xor_halves (a b : Nat) :
    (a % 256 ^ 4 ^^^ b % 256 ^ 4) + 256 ^ 4 * (a / 256 ^ 4 ^^^ b / 256 ^ 4) = a ^^^ b := by
  rw [show (256 : Nat) ^ 4 = 2 ^ 32 from rfl, ← Nat.xor_mod_two_pow, ← Nat.xor_div_two_pow, Nat.mod_add_div]

theorem xor32_eq_iff {a b : Nat} (first : a < 2 ^ 32) (second : b < 2 ^ 32) :
    xor32 a b = (a ^^^ b : Nat) ↔ a ^^^ b < 2 ^ 31 := by
  have bound := Nat.xor_lt_two_pow first second
  rw [xor32_natCast, Int.bmod_def]
  split <;> omega

namespace DataView

theorem number_false (width bits : Nat) : number false width bits = bits := by
  simp [number]

theorem number_true {width : Nat} {value : Int} (lower : -(256 ^ width : Nat) ≤ 2 * value)
    (upper : 2 * value < (256 ^ width : Nat)) : number true width (value % 256 ^ width).toNat = value := by
  have positive : 0 < 256 ^ width := Nat.pow_pos (by decide)
  have nonneg := Int.emod_nonneg value (Int.natCast_ne_zero_iff_pos.mpr positive)
  rw [number, if_pos rfl, show (256 : Int) ^ width = (256 ^ width : Nat) by simp, Int.toNat_of_nonneg nonneg,
    Int.emod_bmod]
  apply Int.bmod_eq_of_le_mul_two <;> omega

end DataView

theorem makePrimitiveMaskFn_eq (byteLength : Nat) (x : Int) :
    makePrimitiveMaskFn byteLength x = .ok (encode byteLength (x % 256 ^ byteLength).toNat) := by
  rw [makePrimitiveMaskFn, DataView.setOrdered_eq true x (by omega) (by simp)]
  simp [overwrite, DataView.inOrder]

theorem getOrdered_encode {byteLength width : Nat} (value byteOffset : Nat) (inside : byteOffset + width ≤ byteLength) :
    DataView.getOrdered true width (encode byteLength value) byteOffset =
      .ok (value / 256 ^ byteOffset % 256 ^ width) := by
  obtain ⟨rest, rfl⟩ : ∃ rest, byteLength = byteOffset + (width + rest) :=
    ⟨byteLength - (byteOffset + width), by omega⟩
  have behind : ((encode (byteOffset + (width + rest)) value).drop byteOffset).take width =
      encode width (value / 256 ^ byteOffset) := by
    rw [LittleEndian.encode_add, LittleEndian.encode_add, List.drop_left', List.take_left']
    · simp
    · simp
  rw [DataView.getOrdered_eq true (by omega) (by rw [LittleEndian.encode_length]; omega), Int.toNat_natCast, behind, DataView.inOrder,
    if_pos rfl, DataView.read_encode]

theorem getOrdered_mask {width value : Nat} (small : value < 256 ^ width) :
    DataView.getOrdered true width (encode width value) 0 = .ok value := by
  have found := getOrdered_encode value 0 (by omega : 0 + width ≤ width)
  rw [Nat.pow_zero, Nat.div_one, Nat.mod_eq_of_lt small] at found
  exact found

theorem getOrdered_halves {value : Nat} (small : value < 256 ^ 8) :
    DataView.getOrdered true 4 (encode 8 value) 0 = .ok (value % 256 ^ 4) ∧
      DataView.getOrdered true 4 (encode 8 value) 4 = .ok (value / 256 ^ 4) := by
  have low := getOrdered_encode value 0 (by decide : 0 + 4 ≤ 8)
  have high := getOrdered_encode value 4 (by decide : 4 + 4 ≤ 8)
  rw [Nat.pow_zero, Nat.div_one] at low
  rw [Nat.mod_eq_of_lt (by omega)] at high
  exact ⟨low, high⟩

/-! Single bits. -/

section bits

variable {bitOffset : Int}

theorem bitMaskOf_eq (lower : 0 ≤ bitOffset) : bitMaskOf bitOffset = BitVec.twoPow 32 (bitOffset % 8).toNat := by
  rw [bitMaskOf, Int.tmod_eq_emod_of_nonneg lower, show bitOffset % 8 % 32 = bitOffset % 8 by omega]
  rfl

theorem and_bitMaskOf (lower : 0 ≤ bitOffset) (byte : BitVec 32) :
    decide (byte &&& bitMaskOf bitOffset ≠ 0) = byte.getLsbD (bitOffset % 8).toNat := by
  have bound : (bitOffset % 8).toNat < 32 := by omega
  have power : BitVec.twoPow 32 (bitOffset % 8).toNat ≠ 0 := by
    intro zero
    have bit := congrArg (fun word => word.getLsbD (bitOffset % 8).toNat) zero
    simp [bound] at bit
  rw [bitMaskOf_eq lower, BitVec.and_twoPow]
  cases byte.getLsbD (bitOffset % 8).toNat with
  | true => simpa using power
  | false => simp

theorem getLsbD_natCast (byte : Nat) {index : Nat} (bound : index < 32) :
    (BitVec.ofInt 32 byte).getLsbD index = byte.testBit index := by
  rw [BitVec.ofInt_natCast, BitVec.getLsbD_ofNat]
  simp [bound]

theorem ofInt_xor32 (a b : Nat) : BitVec.ofInt 32 (xor32 a b) = BitVec.ofInt 32 (a ^^^ b : Nat) := by
  rw [xor32, BitVec.ofInt_toInt, BitVec.ofInt_natCast, BitVec.ofInt_natCast, BitVec.ofInt_natCast, BitVec.ofNat_xor]

theorem getBitMask_eq (value : Bool) (lower : 0 ≤ bitOffset) :
    getBitMask value bitOffset = .ok (encode 1 (if value then 2 ^ (bitOffset % 8).toNat else 0)) := by
  have bound : (bitOffset % 8).toNat < 8 := by omega
  rw [getBitMask, bitMaskOf_eq lower]
  generalize (bitOffset % 8).toNat = index at *
  cases value with
  | false => rfl
  | true =>
      revert bound
      revert index
      decide

def putBit (byte index : Nat) (value : Bool) : Nat :=
  if value then byte ||| 2 ^ index else byte ^^^ (byte &&& 2 ^ index)

theorem testBit_putBit (byte index other : Nat) (value : Bool) :
    (putBit byte index value).testBit other = if other = index then value else byte.testBit other := by
  rw [putBit]
  cases value with
  | true =>
      by_cases same : other = index
      · simp [same, Nat.testBit_two_pow_self]
      · simp [same, Ne.symm same]
  | false =>
      by_cases same : other = index
      · simp [same, Nat.testBit_two_pow_self]
      · simp [same, Ne.symm same]

theorem putBit_lt {byte index : Nat} (value : Bool) (small : byte < 256) (bound : index < 8) :
    putBit byte index value < 256 := by
  have power : 2 ^ index < 2 ^ 8 := Nat.pow_lt_pow_right (by decide) bound
  rw [putBit]
  split
  · exact Nat.or_lt_two_pow small power
  · exact Nat.xor_lt_two_pow small (Nat.and_lt_two_pow _ power)

/-- What `setBit` stores. -/
theorem setBit_byte (lower : 0 ≤ bitOffset) {byte : Nat} (small : byte < 256) (value : Bool) :
    ((if value then BitVec.ofInt 32 byte ||| bitMaskOf bitOffset
        else BitVec.ofInt 32 byte &&& ~~~bitMaskOf bitOffset).toInt % 256 ^ 1).toNat =
      putBit byte (bitOffset % 8).toNat value := by
  have bound : (bitOffset % 8).toNat < 8 := by omega
  rw [bitMaskOf_eq lower]
  generalize (bitOffset % 8).toNat = index at *
  have after := putBit_lt value small bound
  have shown : (if value then BitVec.ofInt 32 byte ||| BitVec.twoPow 32 index
        else BitVec.ofInt 32 byte &&& ~~~BitVec.twoPow 32 index) = BitVec.ofNat 32 (putBit byte index value) := by
    apply BitVec.eq_of_getLsbD_eq
    intro other inside
    rw [BitVec.getLsbD_ofNat, testBit_putBit]
    cases value with
    | true =>
        rw [if_pos rfl, BitVec.getLsbD_or, getLsbD_natCast byte inside, BitVec.getLsbD_twoPow]
        by_cases same : other = index
        · simp [same, show index < 32 by omega]
        · simp [same, inside, Ne.symm same]
    | false =>
        rw [if_neg (by decide), BitVec.getLsbD_and, BitVec.getLsbD_not, getLsbD_natCast byte inside,
          BitVec.getLsbD_twoPow]
        by_cases same : other = index
        · simp [same]
        · simp [same, inside, Ne.symm same]
  rw [shown, BitVec.toInt_ofNat', Int.bmod_eq_of_le_mul_two (by omega) (by omega)]
  omega

end bits

end CapnpEs
