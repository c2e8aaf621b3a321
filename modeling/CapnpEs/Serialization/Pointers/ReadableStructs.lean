import CapnpEs.Serialization.Pointers.FieldAccess
import CapnpEs.Serialization.Pointers.TextFields

/-! What the getters read in a struct of a received message, in bounds or beyond them. -/

namespace CapnpEs

open LittleEndian (encode)

namespace Pointer

variable {w : World} {s : Pointer}

/-- The size that `getSize` finds: a null struct has none. -/
def readSize (s : Pointer) (w : World) : ObjectSize := if s.isNullWord w then ⟨0, 0⟩ else s.size w

def slot (s : Pointer) (index : Int) (w : World) : Pointer :=
  { message := s.message
    segment := (s.dataSection w).segment
    byteOffset := (s.dataSection w).byteOffset + (s.size w).dataByteLength + index * 8
    depthLimit := s.depthLimit - 1 }

/-- The pointer leads to an object; a list of bytes lies in allocated space. -/
structure LeadsToObject (p : Pointer) (w : World) : Prop where
  resolves : p.Resolves w
  bytes : p.targetType w = .LIST → p.elementSize w = .BYTE →
    (p.content w).byteOffset + p.listLength w ≤ (w p.message).allocated (p.content w).segment

/-- A struct that is only read: null, or with both of its sections in allocated space. -/
structure Readable (s : Pointer) (w : World) : Prop where
  wellFormed : (w s.message).WellFormed
  readonly : (w s.message).readonly = true
  inBounds : s.InBounds w
  holds : s.isNullWord w = false → s.HoldsStruct w
  pointers : s.isNullWord w = false → (s.dataSection w).byteOffset + (s.size w).getByteLength ≤
    (w s.message).allocated (s.dataSection w).segment
  leads : ∀ index : Int, 0 ≤ index → index < (s.readSize w).pointerLength →
    (s.slot index w).isNullWord w = false → (s.slot index w).LeadsToObject w

@[simp] theorem isNullWord_spend (message count : Nat) : s.isNullWord (w.spend message count) = s.isNullWord w := by
  simp [isNullWord]

@[simp] theorem readSize_spend (message count : Nat) : s.readSize (w.spend message count) = s.readSize w := by
  simp [readSize, size_spend]

@[simp] theorem slot_spend (index : Int) (message count : Nat) : s.slot index (w.spend message count) = s.slot index w := by
  simp [slot, size_spend, dataSection_spend]

theorem readSize_of_notNull (notNull : s.isNullWord w = false) : s.readSize w = s.size w := by
  rw [readSize, notNull]
  rfl

theorem notNull_of_data {length : Int} (positive : 0 < length) (inside : length ≤ (s.readSize w).dataByteLength) :
    s.isNullWord w = false := by
  rw [readSize] at inside
  split at inside
  · have none : (0 : Int) < 0 := Int.lt_of_lt_of_le positive inside
    exact absurd none (by decide)
  · simp_all

theorem notNull_of_pointer {index : Int} (lower : 0 ≤ index) (inside : index < (s.readSize w).pointerLength) :
    s.isNullWord w = false := by
  rw [readSize] at inside
  split at inside
  · have none : (0 : Int) < 0 := Int.lt_of_le_of_lt lower inside
    exact absurd none (by decide)
  · simp_all

/-! The bounds. -/

section bounds

variable (readable : s.Readable w) (budget : 64 < (w s.message).traversalLimit)
include readable budget

theorem getSize_readable : Reads (getSize s) s.message 4 w (s.readSize w) := by
  cases null : s.isNullWord w with
  | true =>
      rw [readSize, null, if_pos rfl]
      refine (Reads.bind (k := 0) (r := 0) (Reads.of_run (isNull_run readable.wellFormed readable.inBounds)) ?_).mono (by decide)
      intro none _
      rw [null]
      exact Reads.pure _
  | false =>
      rw [readSize_of_notNull null]
      exact getSize_reads readable.wellFormed (readable.holds null) (by omega)

omit budget in
theorem isReadOnly_readable (count : Nat) : Reads (isReadOnly s) s.message 0 (w.spend s.message count) true := by
  have same : (w.spend s.message count s.message).readonly = true := by
    rw [World.spend, Function.update_self]
    exact readable.readonly
  rw [← same]
  exact isReadOnly_reads

theorem checkReadDataBounds_readable {byteOffset : Int} (width : Nat) (lower : 0 ≤ byteOffset) :
    Reads (checkReadDataBounds byteOffset width s) s.message 4 w
      (decide (byteOffset + width ≤ (s.readSize w).dataByteLength)) := by
  refine Reads.bind (k := 4) (r := 0) (getSize_readable readable budget) ?_
  intro count _
  by_cases inside : byteOffset + width ≤ (s.readSize w).dataByteLength
  · rw [if_pos ⟨lower, by omega, inside⟩, decide_eq_true inside]
    exact Reads.pure _
  · rw [if_neg (by omega), decide_eq_false inside]
    refine Reads.bind (k := 0) (r := 0) (isReadOnly_readable readable count) ?_
    intro none _
    rw [if_pos ⟨rfl, lower, by omega⟩]
    exact Reads.pure _

theorem checkReadPointerBounds_readable {index : Int} (lower : 0 ≤ index) :
    Reads (checkReadPointerBounds index s) s.message 4 w (decide (index < (s.readSize w).pointerLength)) := by
  refine Reads.bind (k := 4) (r := 0) (getSize_readable readable budget) ?_
  intro count _
  by_cases inside : index < (s.readSize w).pointerLength
  · rw [if_pos ⟨lower, inside⟩, decide_eq_true inside]
    exact Reads.pure _
  · rw [if_neg (by omega), decide_eq_false inside]
    refine Reads.bind (k := 0) (r := 0) (isReadOnly_readable readable count) ?_
    intro none _
    rw [if_pos ⟨rfl, lower⟩]
    exact Reads.pure _

theorem getter_beyond {α : Type} {byteOffset : Int} {width : Nat} {next : Pointer → WorldM α} {otherwise : WorldM α}
    {result : α} (lower : 0 ≤ byteOffset) (beyond : ¬ byteOffset + width ≤ (s.readSize w).dataByteLength)
    (continues : ∀ count, Reads otherwise s.message 0 (w.spend s.message count) result) :
    Reads (do
      if ← checkReadDataBounds byteOffset width s then
        let ds ← getDataSection s
        next ds
      else otherwise) s.message 8 w result := by
  have checked := checkReadDataBounds_readable readable budget width lower
  rw [decide_eq_false beyond] at checked
  refine (Reads.bind (k := 4) (r := 0) checked ?_).mono (by decide)
  intro count _
  rw [if_neg (by decide)]
  exact continues count

end bounds

/-! The fields of the data section. -/

theorem natCast_emod {bits width : Nat} (small : bits < 256 ^ width) : ((bits : Int) % 256 ^ width).toNat = bits := by
  have power : ((256 ^ width : Nat) : Int) = 256 ^ width := Int.natCast_pow 256 width
  rw [← power, ← Int.natCast_mod, Int.toNat_natCast, Nat.mod_eq_of_lt small]

def stored (s : Pointer) (byteOffset : Int) (width : Nat) (w : World) : Option Nat :=
  if byteOffset + width ≤ (s.readSize w).dataByteLength then some (s.field byteOffset width w) else none

section fields

variable {native : Bool} {tmp : TmpWord} {mask : Option Nat} {byteOffset bitOffset : Int} {width : Nat}
variable (readable : s.Readable w) (budget : 64 < (w s.message).traversalLimit)
include readable budget

theorem getIntOf_readable {maskWidth : Nat} (positive : 0 < width) (narrow : maskWidth ≤ width) (fits : width ≤ 4)
    (lower : 0 ≤ byteOffset) (bounded : ∀ m ∈ mask, m < 256 ^ width) :
    Reads (getIntOf native tmp width maskWidth byteOffset s (mask.map (encode width))) s.message 8 w
      (DataView.number true width (match s.stored byteOffset width w with
        | some bits => bits ^^^ mask.getD 0 % 256 ^ maskWidth
        | none => mask.getD 0)) := by
  rw [stored]
  by_cases inside : byteOffset + width ≤ (s.readSize w).dataByteLength
  · have notNull := notNull_of_data (by omega) inside
    rw [if_pos inside]
    rw [readSize_of_notNull notNull] at inside
    exact getIntOf_reads readable.wellFormed (readable.holds notNull) budget positive narrow fits lower inside bounded
  · rw [if_neg inside]
    apply getter_beyond readable budget lower inside
    intro count
    cases mask with
    | none =>
        rw [Option.getD_none, DataView.number, Int.natCast_zero, Int.zero_bmod, ite_self]
        exact Reads.pure _
    | some m =>
        refine Reads.bind (k := 0) (r := 0) (ofExcept_reads (getOrdered_mask (bounded m rfl))) ?_
        intro none _
        apply ofExcept_reads
        rw [TmpWord.readInt_eq native tmp (by omega)]
        rw [natCast_emod (bounded m rfl), Option.getD_some]

theorem getUintOf_readable (positive : 0 < width) (lower : 0 ≤ byteOffset) (bounded : ∀ m ∈ mask, m < 256 ^ width) :
    Reads (getUintOf width byteOffset s (mask.map (encode width))) s.message 8 w
      (match s.stored byteOffset width w with
        | some bits => shownUint mask bits
        | none => mask.getD 0) := by
  rw [stored]
  by_cases inside : byteOffset + width ≤ (s.readSize w).dataByteLength
  · have notNull := notNull_of_data (by omega) inside
    rw [if_pos inside]
    rw [readSize_of_notNull notNull] at inside
    exact getUintOf_reads readable.wellFormed (readable.holds notNull) budget positive lower inside bounded
  · rw [if_neg inside]
    apply getter_beyond readable budget lower inside
    intro count
    cases mask with
    | none => exact Reads.pure _
    | some m =>
        refine Reads.bind (k := 0) (r := 0) (ofExcept_reads (getOrdered_mask (bounded m rfl))) ?_
        intro none _
        exact Reads.pure _

theorem getBigOf_readable {signed : Bool} (lower : 0 ≤ byteOffset) (bounded : ∀ m ∈ mask, m < 256 ^ 8) :
    Reads (getBigOf native tmp signed byteOffset s (mask.map (encode 8))) s.message 8 w
      (DataView.number signed 8 ((s.stored byteOffset 8 w).getD 0 ^^^ mask.getD 0)) := by
  rw [stored]
  by_cases inside : byteOffset + (8 : Nat) ≤ (s.readSize w).dataByteLength
  · have notNull := notNull_of_data (by omega) inside
    rw [if_pos inside]
    rw [readSize_of_notNull notNull] at inside
    exact getBigOf_reads readable.wellFormed (readable.holds notNull) budget lower inside bounded
  · rw [if_neg inside]
    apply getter_beyond readable budget lower inside
    intro count
    rw [Option.getD_none, Nat.zero_xor]
    cases mask with
    | none =>
        rw [Option.getD_none, DataView.number, Int.natCast_zero, Int.zero_bmod, ite_self]
        exact Reads.pure _
    | some m =>
        have small := bounded m rfl
        refine Reads.bind (k := 0) (r := 0) (ofExcept_reads (getOrdered_halves small).1) ?_
        intro none _
        refine Reads.bind (k := 0) (r := 0) (ofExcept_reads (getOrdered_halves small).2) ?_
        intro none _
        apply ofExcept_reads
        have low : m % 256 ^ 4 < 256 ^ 4 := Nat.mod_lt _ (by decide)
        have high : m / 256 ^ 4 < 256 ^ 4 := by omega
        rw [TmpWord.readHalves_eq, natCast_emod low, natCast_emod high, Nat.mod_add_div, Option.getD_some]

theorem getBit_readable (lower : 0 ≤ bitOffset) (bounded : ∀ m ∈ mask, m < 256 ^ 1) :
    Reads (getBit bitOffset s (mask.map (encode 1))) s.message 8 w
      (((s.stored (bitOffset / 8) 1 w).getD 0 ^^^ mask.getD 0).testBit (bitOffset % 8).toNat) := by
  rw [stored]
  by_cases inside : bitOffset / 8 + (1 : Nat) ≤ (s.readSize w).dataByteLength
  · have notNull := notNull_of_data (by omega) inside
    rw [if_pos inside]
    rw [readSize_of_notNull notNull] at inside
    exact getBit_reads readable.wellFormed (readable.holds notNull) budget lower (by omega) bounded
  · rw [if_neg inside]
    apply getter_beyond readable budget (by omega) inside
    intro count
    rw [Option.getD_none, Nat.zero_xor]
    have index : (bitOffset % 8).toNat < 32 := by omega
    cases mask with
    | none =>
        rw [Option.getD_none, Nat.zero_testBit]
        exact Reads.pure _
    | some m =>
        refine Reads.bind (k := 0) (r := 0) (ofExcept_reads (getOrdered_mask (bounded m rfl))) ?_
        intro none _
        rw [and_bitMaskOf lower, BitVec.getLsbD_ofNat, decide_eq_true index, Bool.true_and, Option.getD_some]
        exact Reads.pure _

end fields

end Pointer

end CapnpEs
