import Mathlib.Algebra.Group.Nat.Even
import Mathlib.Data.List.Basic
import Mathlib.Data.Nat.Bits

/-!
Little-endian numbers in a byte-addressed memory. A memory is a function from addresses to bytes;
a list of bytes is the memory that is zero behind its end.
-/

namespace LittleEndian

/-- The `width` low bytes of `value`, least significant first. -/
def encode : Nat → Nat → List UInt8
  | 0, _ => []
  | width + 1, value => UInt8.ofNat (value % 256) :: encode width (value / 256)

/-- The number stored in `width` bytes of `memory` from `offset`. -/
def read (memory : Nat → UInt8) : Nat → Nat → Nat
  | _, 0 => 0
  | offset, width + 1 => (memory offset).toNat + 256 * read memory (offset + 1) width

def memoryOf (bytes : List UInt8) : Nat → UInt8 :=
  fun address => bytes.getD address 0

/-- `bytes` with `patch` written over it from `offset`. -/
def overwrite (bytes : List UInt8) (offset : Nat) (patch : List UInt8) : List UInt8 :=
  bytes.take offset ++ patch ++ bytes.drop (offset + patch.length)

/-- `memory` with `patch` written over it from `offset`. -/
def store (memory : Nat → UInt8) (offset : Nat) (patch : List UInt8) : Nat → UInt8 :=
  fun address =>
    if offset ≤ address ∧ address < offset + patch.length then patch.getD (address - offset) 0
    else memory address

@[simp] theorem encode_length (width value : Nat) : (encode width value).length = width := by
  induction width generalizing value with
  | zero => rfl
  | succ width ih => simp [encode, ih]

theorem read_lt (memory : Nat → UInt8) (offset width : Nat) :
    read memory offset width < 256 ^ width := by
  induction width generalizing offset with
  | zero => simp [read]
  | succ width ih =>
      have head := (memory offset).toNat_lt
      have tail := ih (offset + 1)
      rw [read, pow_succ]
      omega

theorem read_congr {memory other : Nat → UInt8} (offset width : Nat)
    (same : ∀ address, offset ≤ address → address < offset + width →
      memory address = other address) :
    read memory offset width = read other offset width := by
  induction width generalizing offset with
  | zero => rfl
  | succ width ih =>
      rw [read, read, same offset (Nat.le_refl _) (by omega),
        ih (offset + 1) fun address lower upper => same address (by omega) (by omega)]

theorem read_shift (memory : Nat → UInt8) (base offset width : Nat) :
    read (fun address => memory (base + address)) offset width = read memory (base + offset) width := by
  induction width generalizing offset with
  | zero => rfl
  | succ width ih => rw [read, read, ih (offset + 1), Nat.add_assoc]

theorem eq_of_read_eq {memory other : Nat → UInt8} (offset width : Nat)
    (same : read memory offset width = read other offset width) {address : Nat}
    (lower : offset ≤ address) (upper : address < offset + width) : memory address = other address := by
  induction width generalizing offset with
  | zero => omega
  | succ width ih =>
      have low := (memory offset).toNat_lt
      have otherLow := (other offset).toNat_lt
      rw [read, read] at same
      have tail : read memory (offset + 1) width = read other (offset + 1) width := by omega
      by_cases first : address = offset
      · subst first
        apply UInt8.toNat_inj.mp
        omega
      · exact ih (offset + 1) tail (by omega) (by omega)

theorem read_eq_zero {memory : Nat → UInt8} {offset width : Nat} :
    read memory offset width = 0 ↔
      ∀ address, offset ≤ address → address < offset + width → memory address = 0 := by
  induction width generalizing offset with
  | zero =>
      simp only [read, true_iff]
      omega
  | succ width ih =>
      have rest := @ih (offset + 1)
      rw [read]
      constructor
      · intro zero address lower upper
        by_cases first : address = offset
        · subst first
          apply UInt8.toNat_inj.mp
          change (memory address).toNat = 0
          omega
        · exact rest.mp (by omega) address (by omega) (by omega)
      · intro zeros
        rw [zeros offset (by omega) (by omega), rest.mpr fun address lower upper =>
          zeros address (by omega) (by omega)]
        rfl

theorem read_of_encode {memory : Nat → UInt8} (offset width value : Nat)
    (stored : ∀ index, index < width →
      memory (offset + index) = (encode width value).getD index 0) :
    read memory offset width = value % 256 ^ width := by
  induction width generalizing offset value with
  | zero => simp [read, Nat.mod_one]
  | succ width ih =>
      have head : memory offset = UInt8.ofNat (value % 256) := by
        simpa [encode] using stored 0 (by omega)
      have tail := ih (offset + 1) (value / 256) fun index bound => by
        have next := stored (index + 1) (by omega)
        simpa [encode, Nat.add_assoc, Nat.add_comm 1 index] using next
      have low : (UInt8.ofNat (value % 256)).toNat = value % 256 := by
        rw [UInt8.toNat_ofNat']
        omega
      rw [read, head, tail, low, pow_succ', Nat.mod_mul]

theorem read_store_same (memory : Nat → UInt8) (offset width value : Nat) :
    read (store memory offset (encode width value)) offset width = value % 256 ^ width := by
  apply read_of_encode
  intro index bound
  simp only [store, encode_length]
  rw [if_pos (by omega)]
  congr 1
  omega

theorem read_store_disjoint (memory : Nat → UInt8) (offset other width : Nat) (patch : List UInt8)
    (apart : other + width ≤ offset ∨ offset + patch.length ≤ other) :
    read (store memory offset patch) other width = read memory other width := by
  apply read_congr
  intro address lower upper
  rw [store, if_neg (by omega)]

@[simp] theorem overwrite_length {bytes : List UInt8} {offset : Nat} {patch : List UInt8}
    (inside : offset + patch.length ≤ bytes.length) :
    (overwrite bytes offset patch).length = bytes.length := by
  simp only [overwrite, List.length_append, List.length_take, List.length_drop]
  omega

theorem memoryOf_overwrite {bytes : List UInt8} {offset : Nat} {patch : List UInt8}
    (inside : offset + patch.length ≤ bytes.length) :
    memoryOf (overwrite bytes offset patch) = store (memoryOf bytes) offset patch := by
  funext address
  have front : (bytes.take offset).length = offset := by
    simp only [List.length_take]
    omega
  simp only [memoryOf, overwrite, store, List.getD_eq_getElem?_getD, List.append_assoc]
  by_cases before : address < offset
  · rw [List.getElem?_append_left (by omega), List.getElem?_take_of_lt before, if_neg (by omega)]
  · rw [List.getElem?_append_right (by omega), front]
    by_cases within : address < offset + patch.length
    · rw [List.getElem?_append_left (by omega), if_pos (by omega)]
    · rw [List.getElem?_append_right (by omega), List.getElem?_drop, if_neg (by omega)]
      congr 2
      omega

theorem ext_memoryOf {bytes other : List UInt8} (length : bytes.length = other.length)
    (same : ∀ address, address < bytes.length → memoryOf bytes address = memoryOf other address) :
    bytes = other := by
  apply List.ext_getElem length
  intro address bound otherBound
  have equal := same address bound
  simpa [memoryOf, List.getD_eq_getElem?_getD, bound, otherBound] using equal

theorem read_add (memory : Nat → UInt8) (offset first second : Nat) :
    read memory offset (first + second) =
      read memory offset first + 256 ^ first * read memory (offset + first) second := by
  induction first generalizing offset with
  | zero => simp [read]
  | succ first ih =>
      rw [Nat.succ_add, read, ih (offset + 1), read, pow_succ', Nat.mul_add, Nat.mul_assoc,
        Nat.add_assoc, Nat.add_assoc, Nat.add_comm 1 first]

theorem store_append (memory : Nat → UInt8) (offset : Nat) (first second : List UInt8) :
    store (store memory offset first) (offset + first.length) second =
      store memory offset (first ++ second) := by
  funext address
  simp only [store, List.length_append, List.getD_eq_getElem?_getD]
  by_cases before : address < offset + first.length
  · rw [if_neg (by omega)]
    by_cases inside : offset ≤ address
    · rw [if_pos (by omega), if_pos (by omega), List.getElem?_append_left (by omega)]
    · rw [if_neg (by omega), if_neg (by omega)]
  · by_cases inside : address < offset + first.length + second.length
    · rw [if_pos (by omega), if_pos (by omega), List.getElem?_append_right (by omega)]
      congr 2
      omega
    · rw [if_neg (by omega), if_neg (by omega), if_neg (by omega)]

theorem overwrite_append {bytes : List UInt8} {offset : Nat} {first second : List UInt8}
    (inside : offset + first.length + second.length ≤ bytes.length) :
    overwrite (overwrite bytes offset first) (offset + first.length) second =
      overwrite bytes offset (first ++ second) := by
  have firstFits : offset + first.length ≤ bytes.length := by omega
  have length := overwrite_length firstFits
  have bothFit : offset + (first ++ second).length ≤ bytes.length := by
    rw [List.length_append]
    omega
  apply ext_memoryOf
  · rw [overwrite_length (by omega), length, overwrite_length bothFit]
  · intro address _
    rw [memoryOf_overwrite (by omega), memoryOf_overwrite firstFits, memoryOf_overwrite bothFit,
      store_append]

theorem encode_mod (width value : Nat) : encode width (value % 256 ^ width) = encode width value := by
  induction width generalizing value with
  | zero => rfl
  | succ width ih =>
      have low : value % 256 ^ (width + 1) % 256 = value % 256 := by
        rw [pow_succ', Nat.mod_mul_right_mod]
      have high : value % 256 ^ (width + 1) / 256 = value / 256 % 256 ^ width := by
        rw [pow_succ', Nat.mod_mul_right_div_self]
      rw [encode, low, high, ih, encode]

theorem encode_add (first second value : Nat) :
    encode (first + second) value = encode first value ++ encode second (value / 256 ^ first) := by
  induction first generalizing value with
  | zero => simp [encode]
  | succ first ih =>
      rw [Nat.succ_add, encode, ih, encode, List.cons_append, pow_succ', Nat.div_div_eq_div_mul]

theorem encode_append {first lo : Nat} (low : lo < 256 ^ first) (second hi : Nat) :
    encode first lo ++ encode second hi = encode (first + second) (lo + 256 ^ first * hi) := by
  have positive : 0 < 256 ^ first := Nat.pow_pos (by decide)
  have front := encode_mod first (lo + 256 ^ first * hi)
  rw [Nat.add_mul_mod_self_left, Nat.mod_eq_of_lt low] at front
  rw [encode_add, ← front, Nat.add_mul_div_left _ _ positive, Nat.div_eq_of_lt low, Nat.zero_add]

end LittleEndian
