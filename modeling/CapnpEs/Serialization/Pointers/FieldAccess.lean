import CapnpEs.Serialization.Pointers.StructUtils
import CapnpEs.Serialization.Pointers.ErasedTrees

/-! Where the data section of a struct is, and what its accessors read and write there. -/

namespace CapnpEs

open LittleEndian (read encode store)

namespace Pointer

variable {w w' : World} {s : Pointer}

/-- The word that holds the size of a struct: its pointer's, or the tag in front of the elements. -/
def sizeWord (s : Pointer) (w : World) : Pointer :=
  match s.compositeIndex with
  | some _ => s.objectStart w
  | none => s.target w

def size (s : Pointer) (w : World) : ObjectSize := PointerWord.structSize ((s.sizeWord w).hi w)

def dataSection (s : Pointer) (w : World) : Pointer :=
  match s.compositeIndex with
  | some compositeIndex =>
      { s.content w with
        byteOffset := (s.content w).byteOffset + compositeIndex * (s.size w).getByteLength }
  | none => s.content w

def dataBytes (s : Pointer) (w : World) : Set Byte :=
  span (s.dataSection w).segment (s.dataSection w).byteOffset (s.size w).dataByteLength

/-- A struct with contents: the object of a struct pointer, or an element of a composite list. Its data section
is its own: the words that lead to it are elsewhere. -/
structure StructAt (s : Pointer) (w : World) : Prop where
  resolves : s.Resolves w
  notNull : s.isNullWord w = false
  kind : if s.compositeIndex.isSome then s.isComposite w = true else s.targetType w = .STRUCT
  sized : (s.sizeWord w).InBounds w
  inside : (s.dataSection w).byteOffset + (s.size w).dataByteLength ≤
    (w s.message).allocated (s.dataSection w).segment
  apart : Disjoint (s.path w ∪ (s.sizeWord w).word) (s.dataBytes w)

/-- Reading a struct does not need its data section to be its own. -/
structure HoldsStruct (s : Pointer) (w : World) : Prop where
  resolves : s.Resolves w
  notNull : s.isNullWord w = false
  kind : if s.compositeIndex.isSome then s.isComposite w = true else s.targetType w = .STRUCT
  sized : (s.sizeWord w).InBounds w
  inside : (s.dataSection w).byteOffset + (s.size w).dataByteLength ≤
    (w s.message).allocated (s.dataSection w).segment

theorem StructAt.holds (struct : s.StructAt w) : s.HoldsStruct w :=
  ⟨struct.resolves, struct.notNull, struct.kind, struct.sized, struct.inside⟩

theorem sizeWord_message : (s.sizeWord w).message = s.message := by
  rw [sizeWord]
  split
  · exact objectStart_message
  · exact target_message

theorem dataSection_message : (s.dataSection w).message = s.message := by
  rw [dataSection]
  split
  · exact content_message
  · exact content_message

theorem isComposite_struct (type : s.targetType w = .STRUCT) : s.isComposite w = false := by
  simp [isComposite, type]

theorem HoldsStruct.dataSection_nonneg (struct : s.HoldsStruct w) : 0 ≤ (s.dataSection w).byteOffset := by
  have lower := struct.resolves.lower
  have start : 0 ≤ (s.content w).byteOffset := by
    rw [content]
    split
    · exact Int.add_nonneg lower (by decide)
    · exact lower
  rw [dataSection]
  split
  · exact Int.add_nonneg start (Int.natCast_nonneg _)
  · exact start

theorem structSize_padToWord (hi : BitVec 32) :
    (PointerWord.structSize hi).padToWord = PointerWord.structSize hi := by
  simp only [ObjectSize.padToWord, PointerWord.structSize]
  rw [padToWord_aligned (by omega) (by omega) (by omega), Int.toNat_natCast]

theorem getContent_element {ignoreCompositeIndex : Bool} {compositeIndex : Nat} {result : Pointer}
    (wf : (w s.message).WellFormed) (resolves : s.Resolves w) (budget : 32 < (w s.message).traversalLimit)
    (element : s.compositeIndex = some compositeIndex)
    (continues : ∀ count ≤ 4, Reads
      (if ignoreCompositeIndex then Pure.pure (s.content w) else do
        let size ← ({ s.content w with byteOffset := (s.content w).byteOffset - 8 } : Pointer).getStructSize
        return { s.content w with
          byteOffset := (s.content w).byteOffset - 8 + (8 + compositeIndex * size.padToWord.getByteLength) })
      s.message 0 (w.spend s.message count) result) :
    Reads (s.getContent ignoreCompositeIndex) s.message 4 w result := by
  refine Reads.bind (k := 2) (r := 2) (getObject_reads wf resolves (by omega)) ?_
  intro count le
  refine Reads.bind (k := 2) (r := 0) (isCompositeList_reads (wf.spend s.message count)
    (resolves.toFollows.spend s.message count) (by simpa using resolves.notFar) ?_) ?_
  · rw [World.spend_traversalLimit]
    omega
  · intro more bound
    have rest := continues (count + more) (by omega)
    rw [isComposite_spend, element, World.spend_spend]
    exact rest

theorem getSize_reads (wf : (w s.message).WellFormed) (struct : s.HoldsStruct w)
    (budget : 32 < (w s.message).traversalLimit) : Reads (getSize s) s.message 4 w (s.size w) := by
  have kind := struct.kind
  have sized := struct.sized
  refine Reads.bind (k := 0) (r := 4) (Reads.of_run (isNull_run wf struct.resolves.inBounds)) ?_
  intro none le
  rw [Nat.le_zero.mp le, World.spend_zero, struct.notNull]
  simp only [Bool.false_eq_true, if_false]
  rw [size]
  rw [sizeWord] at sized ⊢
  cases element : s.compositeIndex with
  | none =>
      exact (getTargetStructSize_reads wf struct.resolves.toFollows (by omega)).mono (by decide)
  | some compositeIndex =>
      rw [element] at kind sized
      simp only at sized ⊢
      have composite : s.isComposite w = true := by simpa using kind
      have tag : ({ s.content w with byteOffset := (s.content w).byteOffset - 8 } : Pointer) = s.objectStart w := by
        simp only [content, if_pos composite, Int.add_sub_cancel]
      have found : Reads (s.getContent true) s.message 4 w (s.content w) := by
        apply getContent_element wf struct.resolves budget element
        intro count _
        exact Reads.pure _
      refine Reads.bind (k := 4) (r := 0) found ?_
      intro count _
      have tagWf : (w.spend s.message count (s.objectStart w).message).WellFormed := by
        rw [objectStart_message]
        exact wf.spend s.message count
      rw [tag, ← hi_spend s.message count]
      exact Reads.of_run (getStructSize_run tagWf (sized.spend s.message count))

theorem getDataSection_reads (wf : (w s.message).WellFormed) (struct : s.HoldsStruct w)
    (budget : 32 < (w s.message).traversalLimit) : Reads (getDataSection s) s.message 4 w (s.dataSection w) := by
  have kind := struct.kind
  have sized := struct.sized
  rw [getDataSection, dataSection]
  cases element : s.compositeIndex with
  | none => exact getContent_reads wf struct.resolves budget element
  | some compositeIndex =>
      rw [element] at kind
      rw [sizeWord, element] at sized
      simp only at sized ⊢
      have composite : s.isComposite w = true := by simpa using kind
      have tag : ({ s.content w with byteOffset := (s.content w).byteOffset - 8 } : Pointer) = s.objectStart w := by
        simp only [content, if_pos composite, Int.add_sub_cancel]
      apply getContent_element wf struct.resolves budget element
      intro count _
      have tagWf : (w.spend s.message count (s.objectStart w).message).WellFormed := by
        rw [objectStart_message]
        exact wf.spend s.message count
      have read := getStructSize_run tagWf (sized.spend s.message count)
      simp only [Bool.false_eq_true, if_false]
      rw [tag]
      refine Reads.bind (k := 0) (r := 0) (Reads.of_run read) ?_
      intro none _
      rw [hi_spend, structSize_padToWord, size, sizeWord, element]
      have place (bytes : Int) : (s.content w).byteOffset - 8 + (8 + bytes) = (s.content w).byteOffset + bytes := by
        omega
      rw [place]
      exact Reads.pure _

/-! The accessors. A field is the bytes from an offset of the data section. -/

variable {byteOffset : Int} {width : Nat}

theorem isReadOnly_reads : Reads (isReadOnly s) s.message 0 w (w s.message).readonly :=
  Reads.of_run rfl

theorem throwDataBounds_reads (wf : (w s.message).WellFormed) (struct : s.HoldsStruct w)
    (budget : 32 < (w s.message).traversalLimit) (lower : 0 ≤ byteOffset)
    (upper : byteOffset + width ≤ (s.size w).dataByteLength) :
    Reads (throwDataBounds byteOffset width s) s.message 4 w () := by
  refine Reads.bind (k := 4) (r := 0) (getSize_reads wf struct budget) ?_
  intro count _
  rw [if_neg (by omega)]
  exact Reads.pure _

theorem checkDataBounds_reads (wf : (w s.message).WellFormed) (struct : s.HoldsStruct w)
    (writable : (w s.message).readonly = false) (budget : 32 < (w s.message).traversalLimit)
    (lower : 0 ≤ byteOffset) (upper : byteOffset + width ≤ (s.size w).dataByteLength) :
    Reads (checkDataBounds byteOffset width s) s.message 4 w () := by
  have checked : Reads (checkWrite s) s.message 0 w () := by
    refine Reads.bind (k := 0) (r := 0) isReadOnly_reads ?_
    intro none _
    rw [writable]
    exact Reads.pure _
  refine Reads.bind (k := 0) (r := 4) checked ?_
  intro none le
  rw [Nat.le_zero.mp le, World.spend_zero]
  exact throwDataBounds_reads wf struct budget lower upper

theorem checkReadDataBounds_reads (wf : (w s.message).WellFormed) (struct : s.HoldsStruct w)
    (budget : 32 < (w s.message).traversalLimit) (lower : 0 ≤ byteOffset)
    (upper : byteOffset + width ≤ (s.size w).dataByteLength) :
    Reads (checkReadDataBounds byteOffset width s) s.message 4 w true := by
  refine Reads.bind (k := 4) (r := 0) (getSize_reads wf struct budget) ?_
  intro count _
  rw [if_pos (by omega)]
  exact Reads.pure _

def field (s : Pointer) (byteOffset : Int) (width : Nat) (w : World) : Nat :=
  read ((w s.message).memory (s.dataSection w).segment) ((s.dataSection w).byteOffset + byteOffset).toNat width

theorem sizeWord_spend (message count : Nat) : s.sizeWord (w.spend message count) = s.sizeWord w := by
  simp [sizeWord]

theorem size_spend (message count : Nat) : s.size (w.spend message count) = s.size w := by
  simp [size, sizeWord_spend]

theorem dataSection_spend (message count : Nat) : s.dataSection (w.spend message count) = s.dataSection w := by
  simp [dataSection, size_spend]

theorem segmentGet_reads (signed : Bool) (wf : (w s.message).WellFormed) (struct : s.HoldsStruct w)
    (positive : 0 < width) (lower : 0 ≤ byteOffset) (upper : byteOffset + width ≤ (s.size w).dataByteLength)
    (count : Nat) :
    Reads ((s.dataSection w).segmentGet signed width ((s.dataSection w).byteOffset + byteOffset)) s.message 0
      (w.spend s.message count) (DataView.number signed width (s.field byteOffset width w)) := by
  have start := struct.dataSection_nonneg
  have inside := struct.inside
  have room := wf.allocated_le (s.dataSection w).segment
  apply Reads.of_run
  rw [segmentGet, dataSection_message, Outcome.bind_apply, onMessage_reads (Message.getUint_run (by omega) positive
    (by rw [World.spend_capacity]; omega))]
  rw [World.spend_memory, field]
  rfl

theorem HoldsStruct.spend (struct : s.HoldsStruct w) (message count : Nat) : s.HoldsStruct (w.spend message count) := by
  constructor
  · exact struct.resolves.spend message count
  · simpa [isNullWord] using struct.notNull
  · simpa using struct.kind
  · rw [sizeWord_spend]
    exact struct.sized.spend message count
  · simpa [dataSection_spend, size_spend] using struct.inside

theorem getter_reads {α : Type} {next : Pointer → WorldM α} {otherwise : WorldM α} {result : α}
    (wf : (w s.message).WellFormed) (struct : s.HoldsStruct w) (budget : 64 < (w s.message).traversalLimit)
    (lower : 0 ≤ byteOffset) (upper : byteOffset + width ≤ (s.size w).dataByteLength)
    (continues : ∀ count, Reads (next (s.dataSection w)) s.message 0 (w.spend s.message count) result) :
    Reads (do
      if ← checkReadDataBounds byteOffset width s then
        let ds ← getDataSection s
        next ds
      else otherwise) s.message 8 w result := by
  refine Reads.bind (k := 4) (r := 4) (checkReadDataBounds_reads wf struct (by omega) lower upper) ?_
  intro count le
  rw [if_pos rfl]
  refine Reads.bind (k := 4) (r := 0) (v := s.dataSection w) ?_ ?_
  · rw [← dataSection_spend s.message count]
    exact getDataSection_reads (wf.spend s.message count) (struct.spend s.message count)
      (by rw [World.spend_traversalLimit]; omega)
  · intro more _
    rw [World.spend_spend]
    exact continues (count + more)

theorem ofExcept_reads {α : Type} {result : Except CapnpError α} {value : α} {message : Nat}
    (found : result = .ok value) : Reads (ofExcept result : WorldM α) message 0 w value := by
  rw [found]
  exact Reads.of_run rfl

theorem field_lt : s.field byteOffset width w < 256 ^ width := LittleEndian.read_lt _ _ _

/-- The value of an unsigned getter, from the bits of the mask and of the field. -/
def shownUint (mask : Option Nat) (bits : Nat) : Int :=
  match mask with
  | none => bits
  | some m => xor32 bits m

theorem HoldsStruct.field_halves (struct : s.HoldsStruct w) (lower : 0 ≤ byteOffset) :
    s.field byteOffset 4 w = s.field byteOffset 8 w % 256 ^ 4 ∧
      s.field (byteOffset + 4) 4 w = s.field byteOffset 8 w / 256 ^ 4 := by
  have start := struct.dataSection_nonneg
  have halves := LittleEndian.read_add ((w s.message).memory (s.dataSection w).segment)
    ((s.dataSection w).byteOffset + byteOffset).toNat 4 4
  have low := LittleEndian.read_lt ((w s.message).memory (s.dataSection w).segment)
    ((s.dataSection w).byteOffset + byteOffset).toNat 4
  have high : ((s.dataSection w).byteOffset + (byteOffset + 4)).toNat =
      ((s.dataSection w).byteOffset + byteOffset).toNat + 4 := by omega
  simp only [field]
  rw [high, show 8 = 4 + 4 from rfl, halves, Nat.add_mul_mod_self_left, Nat.mod_eq_of_lt low,
    Nat.add_mul_div_left _ _ (by decide), Nat.div_eq_of_lt low, Nat.zero_add]
  exact ⟨rfl, rfl⟩

section getters

variable {native : Bool} {tmp : TmpWord} {mask : Option Nat} {bitOffset : Int}
variable (wf : (w s.message).WellFormed) (struct : s.HoldsStruct w) (budget : 64 < (w s.message).traversalLimit)
include wf struct budget

theorem getIntOf_reads {maskWidth : Nat} (positive : 0 < width) (narrow : maskWidth ≤ width) (fits : width ≤ 4)
    (lower : 0 ≤ byteOffset) (upper : byteOffset + width ≤ (s.size w).dataByteLength)
    (bounded : ∀ m ∈ mask, m < 256 ^ width) :
    Reads (getIntOf native tmp width maskWidth byteOffset s (mask.map (encode width))) s.message 8 w
      (DataView.number true width (s.field byteOffset width w ^^^ mask.getD 0 % 256 ^ maskWidth)) := by
  apply getter_reads wf struct budget lower upper
  intro count
  cases mask with
  | none =>
      simp only [Option.getD_none, Nat.zero_mod, Nat.xor_zero]
      exact segmentGet_reads true wf struct positive lower upper count
  | some m =>
      refine Reads.bind (k := 0) (r := 0) (segmentGet_reads false wf struct positive lower upper count) ?_
      intro none _
      refine Reads.bind (k := 0) (r := 0) (ofExcept_reads (getOrdered_encode m 0 (by omega))) ?_
      intro none _
      apply ofExcept_reads
      have small : m % 256 ^ maskWidth < 256 ^ width :=
        Nat.lt_of_le_of_lt (Nat.mod_le _ _) (bounded m rfl)
      rw [TmpWord.readInt_eq native tmp (by omega), DataView.number_false, Nat.pow_zero, Nat.div_one,
        xor32_emod fits field_lt small, Option.getD_some]

theorem getUintOf_reads (positive : 0 < width) (lower : 0 ≤ byteOffset)
    (upper : byteOffset + width ≤ (s.size w).dataByteLength) (bounded : ∀ m ∈ mask, m < 256 ^ width) :
    Reads (getUintOf width byteOffset s (mask.map (encode width))) s.message 8 w
      (shownUint mask (s.field byteOffset width w)) := by
  apply getter_reads wf struct budget lower upper
  intro count
  refine Reads.bind (k := 0) (r := 0) (segmentGet_reads false wf struct positive lower upper count) ?_
  intro none _
  rw [DataView.number_false]
  cases mask with
  | none => exact Reads.pure _
  | some m =>
      refine Reads.bind (k := 0) (r := 0) (ofExcept_reads (getOrdered_mask (bounded m rfl))) ?_
      intro none _
      exact Reads.pure _

theorem getBigOf_reads {signed : Bool} (lower : 0 ≤ byteOffset)
    (upper : byteOffset + (8 : Nat) ≤ (s.size w).dataByteLength) (bounded : ∀ m ∈ mask, m < 256 ^ 8) :
    Reads (getBigOf native tmp signed byteOffset s (mask.map (encode 8))) s.message 8 w
      (DataView.number signed 8 (s.field byteOffset 8 w ^^^ mask.getD 0)) := by
  apply getter_reads wf struct budget lower upper
  intro count
  cases mask with
  | none =>
      rw [Option.getD_none, Nat.xor_zero]
      exact segmentGet_reads signed wf struct (by decide) lower upper count
  | some m =>
      obtain ⟨low, high⟩ := struct.field_halves lower
      have small := bounded m rfl
      have lowBits : s.field byteOffset 8 w % 256 ^ 4 < 256 ^ 4 := Nat.mod_lt _ (by decide)
      have highBits : s.field byteOffset 8 w / 256 ^ 4 < 256 ^ 4 := by
        have bound : s.field byteOffset 8 w < 256 ^ 8 := field_lt
        omega
      have lowRead : Reads ((s.dataSection w).segmentGet false 4 ((s.dataSection w).byteOffset + byteOffset))
          s.message 0 (w.spend s.message count) (DataView.number false 4 (s.field byteOffset 4 w)) :=
        segmentGet_reads false wf struct (by decide) lower (by omega) count
      refine Reads.bind (k := 0) (r := 0) lowRead ?_
      intro none le
      rw [Nat.le_zero.mp le, World.spend_zero]
      refine Reads.bind (k := 0) (r := 0) (ofExcept_reads (getOrdered_halves small).1) ?_
      intro none le
      rw [Nat.le_zero.mp le, World.spend_zero]
      have highRead : Reads ((s.dataSection w).segmentGet false 4 ((s.dataSection w).byteOffset + (byteOffset + 4)))
          s.message 0 (w.spend s.message count) (DataView.number false 4 (s.field (byteOffset + 4) 4 w)) :=
        segmentGet_reads false wf struct (by decide) (by omega) (by omega) count
      rw [← Int.add_assoc] at highRead
      refine Reads.bind (k := 0) (r := 0) highRead ?_
      intro none _
      refine Reads.bind (k := 0) (r := 0) (ofExcept_reads (getOrdered_halves small).2) ?_
      intro none _
      apply ofExcept_reads
      rw [TmpWord.readHalves_eq, DataView.number_false, DataView.number_false, low, high,
        xor32_emod (by decide) lowBits (Nat.mod_lt _ (by decide)), xor32_emod (by decide) highBits (by omega),
        xor_halves, Option.getD_some]

theorem getBit_reads (lower : 0 ≤ bitOffset) (upper : bitOffset < 8 * (s.size w).dataByteLength)
    (bounded : ∀ m ∈ mask, m < 256 ^ 1) :
    Reads (getBit bitOffset s (mask.map (encode 1))) s.message 8 w
      ((s.field (bitOffset / 8) 1 w ^^^ mask.getD 0).testBit (bitOffset % 8).toNat) := by
  have inside : bitOffset / 8 + (1 : Nat) ≤ (s.size w).dataByteLength := by omega
  apply getter_reads wf struct budget (by omega) inside
  intro count
  refine Reads.bind (k := 0) (r := 0) (segmentGet_reads false wf struct (by decide) (by omega) inside count) ?_
  intro none _
  rw [DataView.number_false]
  have byte : s.field (bitOffset / 8) 1 w < 256 := field_lt
  have index : (bitOffset % 8).toNat < 32 := by omega
  cases mask with
  | none =>
      rw [and_bitMaskOf lower, getLsbD_natCast _ index, Option.getD_none, Nat.xor_zero]
      exact Reads.pure _
  | some m =>
      refine Reads.bind (k := 0) (r := 0) (ofExcept_reads (getOrdered_mask (bounded m rfl))) ?_
      intro none _
      rw [and_bitMaskOf lower, ofInt_xor32,
        getLsbD_natCast _ index]
      exact Reads.pure _

end getters

end Pointer

/-- `w` with bytes written over one of the segments of a message. -/
def World.overwrite (w : World) (message segment : Nat) (byteOffset : Int) (bytes : Bytes) : World :=
  Function.update w message ((w message).patch segment byteOffset.toNat bytes)

namespace World

variable (w : World) (message segment : Nat)

@[simp] theorem overwrite_self (byteOffset : Int) (bytes : Bytes) :
    w.overwrite message segment byteOffset bytes message = (w message).patch segment byteOffset.toNat bytes := by
  simp [overwrite]

theorem overwrite_append {byteOffset : Int} {first second : Bytes} (lower : 0 ≤ byteOffset)
    (inside : byteOffset + first.length + second.length ≤ (w message).capacity segment) :
    (w.overwrite message segment byteOffset first).overwrite message segment (byteOffset + first.length) second =
      w.overwrite message segment byteOffset (first ++ second) := by
  rw [overwrite, overwrite_self, overwrite, Function.update_idem,
    show (byteOffset + first.length).toNat = byteOffset.toNat + first.length by omega,
    Message.patch_append (w message) byteOffset.toNat first second (by omega)]
  rfl

end World

namespace Pointer

variable {w w' : World} {s : Pointer} {byteOffset : Int} {width : Nat}

/-- A program that writes a number to a field, and nothing else. -/
def Stores (program : WorldM Unit) (s : Pointer) (byteOffset : Int) (width bits : Nat) (w : World) : Prop :=
  ∃ count ≤ 8, program w = .ok () ((w.spend s.message count).overwrite s.message (s.dataSection w).segment
    ((s.dataSection w).byteOffset + byteOffset) (encode width bits))

theorem segmentSet_ok {p : Pointer} (writable : (w p.message).readonly = false) (positive : 0 < width)
    (lower : 0 ≤ byteOffset) (inside : byteOffset + width ≤ (w p.message).capacity p.segment) (value : Int) :
    p.segmentSet width byteOffset value w =
      .ok () (w.overwrite p.message p.segment byteOffset (encode width (value % 256 ^ width).toNat)) := by
  rw [segmentSet, onMessage_ok (Message.setUint_run writable lower positive inside)]
  rfl

theorem segmentSet_run (wf : (w s.message).WellFormed) (struct : s.HoldsStruct w)
    (writable : (w s.message).readonly = false) (positive : 0 < width) (lower : 0 ≤ byteOffset)
    (upper : byteOffset + width ≤ (s.size w).dataByteLength) (count : Nat) (value : Int) :
    (s.dataSection w).segmentSet width ((s.dataSection w).byteOffset + byteOffset) value (w.spend s.message count) =
      .ok () ((w.spend s.message count).overwrite s.message (s.dataSection w).segment
        ((s.dataSection w).byteOffset + byteOffset) (encode width (value % 256 ^ width).toNat)) := by
  have start := struct.dataSection_nonneg
  have inside := struct.inside
  have room := wf.allocated_le (s.dataSection w).segment
  rw [segmentSet_ok (by rw [dataSection_message]; simpa using writable) positive (by omega)
    (by rw [dataSection_message, World.spend_capacity]; omega), dataSection_message]

theorem setter_stores {next : Pointer → WorldM Unit} {bits : Nat}
    (wf : (w s.message).WellFormed) (struct : s.HoldsStruct w) (writable : (w s.message).readonly = false)
    (budget : 64 < (w s.message).traversalLimit) (lower : 0 ≤ byteOffset)
    (upper : byteOffset + width ≤ (s.size w).dataByteLength)
    (continues : ∀ count, next (s.dataSection w) (w.spend s.message count) = .ok ()
      ((w.spend s.message count).overwrite s.message (s.dataSection w).segment
        ((s.dataSection w).byteOffset + byteOffset) (encode width bits))) :
    Stores (do
      checkDataBounds byteOffset width s
      let ds ← getDataSection s
      next ds) s byteOffset width bits w := by
  obtain ⟨count, le, checked⟩ := checkDataBounds_reads wf struct writable (by omega) lower upper
  obtain ⟨more, bound, found⟩ := getDataSection_reads (wf.spend s.message count) (struct.spend s.message count)
    (by rw [World.spend_traversalLimit]; omega)
  rw [dataSection_spend, World.spend_spend] at found
  refine ⟨count + more, by omega, ?_⟩
  rw [Outcome.bind_apply, checked]
  simp only
  rw [Outcome.bind_apply, found]
  exact continues (count + more)

section setters

variable {native : Bool} {tmp : TmpWord} {mask : Option Nat} {bitOffset : Int} {value : Int}
variable (wf : (w s.message).WellFormed) (struct : s.HoldsStruct w) (writable : (w s.message).readonly = false)
variable (budget : 64 < (w s.message).traversalLimit)
include wf struct writable budget

theorem setIntOf_stores (positive : 0 < width) (fits : width ≤ 4)
    (lower : 0 ≤ byteOffset) (upper : byteOffset + width ≤ (s.size w).dataByteLength)
    (bounded : ∀ m ∈ mask, m < 256 ^ width) :
    Stores (setIntOf native tmp width byteOffset value s (mask.map (encode width))) s byteOffset width
      ((value % 256 ^ width).toNat ^^^ mask.getD 0) w := by
  apply setter_stores wf struct writable budget lower upper
  intro count
  cases mask with
  | none =>
      rw [Option.getD_none, Nat.xor_zero]
      exact segmentSet_run wf struct writable positive lower upper count value
  | some m =>
      have small := DataView.toNat_emod_lt value width
      have stored := segmentSet_run wf struct writable positive lower upper count
        (xor32 (value % 256 ^ width).toNat m)
      rw [xor32_emod fits small (bounded m rfl)] at stored
      simp only [Option.getD_some, Option.map_some]
      rw [Outcome.ofExcept_bind (TmpWord.readBits_eq native tmp (by omega) value),
        Outcome.ofExcept_bind (getOrdered_mask (bounded m rfl))]
      exact stored

theorem setUintOf_stores (positive : 0 < width) (fits : width ≤ 4) (nonneg : 0 ≤ value) (small : value < 256 ^ width)
    (lower : 0 ≤ byteOffset) (upper : byteOffset + width ≤ (s.size w).dataByteLength)
    (bounded : ∀ m ∈ mask, m < 256 ^ width) :
    Stores (setUintOf width byteOffset value s (mask.map (encode width))) s byteOffset width
      ((value % 256 ^ width).toNat ^^^ mask.getD 0) w := by
  apply setter_stores wf struct writable budget lower upper
  intro count
  cases mask with
  | none =>
      rw [Option.getD_none, Nat.xor_zero]
      exact segmentSet_run wf struct writable positive lower upper count value
  | some m =>
      have bits := DataView.toNat_emod_lt value width
      have kept : ((value % 256 ^ width).toNat : Int) = value := by
        rw [Int.emod_eq_of_lt nonneg small, Int.toNat_of_nonneg nonneg]
      have stored := segmentSet_run wf struct writable positive lower upper count
        (xor32 (value % 256 ^ width).toNat m)
      rw [xor32_emod fits bits (bounded m rfl), kept] at stored
      simp only [Option.getD_some, Option.map_some]
      rw [Outcome.ofExcept_bind (getOrdered_mask (bounded m rfl))]
      exact stored

theorem setBigOf_stores (lower : 0 ≤ byteOffset) (upper : byteOffset + (8 : Nat) ≤ (s.size w).dataByteLength)
    (bounded : ∀ m ∈ mask, m < 256 ^ 8) :
    Stores (setBigOf native tmp byteOffset value s (mask.map (encode 8))) s byteOffset 8
      ((value % 256 ^ 8).toNat ^^^ mask.getD 0) w := by
  apply setter_stores wf struct writable budget lower upper
  intro count
  cases mask with
  | none =>
      rw [Option.getD_none, Nat.xor_zero]
      exact segmentSet_run wf struct writable (by decide) lower upper count value
  | some m =>
      have small := bounded m rfl
      simp only [Option.getD_some, Option.map_some]
      rw [Outcome.ofExcept_bind (TmpWord.splitHalves_eq native tmp value)]
      simp only
      rw [Outcome.ofExcept_bind (getOrdered_halves small).1, Outcome.ofExcept_bind (getOrdered_halves small).2]
      have start := struct.dataSection_nonneg
      have inside := struct.inside
      have room := wf.allocated_le (s.dataSection w).segment
      have bits := DataView.toNat_emod_lt value 8
      generalize (value % 256 ^ 8).toNat = number at *
      have low := segmentSet_run wf struct writable (by decide) lower (by omega : byteOffset + (4 : Nat) ≤ _) count
        (xor32 (number % 256 ^ 4 : Nat) (m % 256 ^ 4 : Nat))
      rw [xor32_emod (by decide) (Nat.mod_lt _ (by decide)) (Nat.mod_lt _ (by decide))] at low
      rw [Outcome.bind_apply, low]
      simp only
      have highBits : (number / 256 ^ 4) < 256 ^ 4 ∧ m / 256 ^ 4 < 256 ^ 4 := by omega
      have both : (s.dataSection w).byteOffset + byteOffset +
          (encode 4 (number % 256 ^ 4 ^^^ m % 256 ^ 4)).length + (encode 4 (number / 256 ^ 4 ^^^ m / 256 ^ 4)).length ≤
            (w.spend s.message count s.message).capacity (s.dataSection w).segment := by
        simp only [LittleEndian.encode_length, World.spend_capacity]
        omega
      have joined := World.overwrite_append (w.spend s.message count) s.message (s.dataSection w).segment (by omega) both
      rw [LittleEndian.encode_length, LittleEndian.encode_append (xor_lt (Nat.mod_lt _ (by decide)) (Nat.mod_lt _ (by decide))),
        xor_halves] at joined
      rw [segmentSet_ok (by rw [dataSection_message]; simpa using writable) (by decide) (by omega)
        (by rw [dataSection_message]; simp only [World.overwrite_self, Message.patch_capacity, World.spend_capacity]; omega),
        dataSection_message, xor32_emod (by decide) highBits.1 highBits.2]
      exact congrArg (EStateM.Result.ok ()) joined

theorem setBit_stores {flag : Bool} (lower : 0 ≤ bitOffset) (upper : bitOffset < 8 * (s.size w).dataByteLength)
    (bounded : ∀ m ∈ mask, m < 256 ^ 1) :
    Stores (setBit bitOffset flag s (mask.map (encode 1))) s (bitOffset / 8) 1
      (putBit (s.field (bitOffset / 8) 1 w) (bitOffset % 8).toNat
        (flag != (mask.getD 0).testBit (bitOffset % 8).toNat)) w := by
  have inside : bitOffset / 8 + (1 : Nat) ≤ (s.size w).dataByteLength := by omega
  have byte : s.field (bitOffset / 8) 1 w < 256 := field_lt
  apply setter_stores wf struct writable budget (by omega) inside
  intro count
  have start := struct.dataSection_nonneg
  have within := struct.inside
  have room := wf.allocated_le (s.dataSection w).segment
  obtain ⟨none, le, read⟩ := segmentGet_reads false wf struct (by decide) (by omega) inside count
  rw [Nat.le_zero.mp le, World.spend_zero, DataView.number_false] at read
  rw [Outcome.bind_apply, read]
  simp only
  have stored (shown : Bool) := segmentSet_run wf struct writable (by decide) (by omega) inside count
    (if shown then BitVec.ofInt 32 (s.field (bitOffset / 8) 1 w) ||| bitMaskOf bitOffset
      else BitVec.ofInt 32 (s.field (bitOffset / 8) 1 w) &&& ~~~bitMaskOf bitOffset).toInt
  simp only [setBit_byte lower byte] at stored
  cases mask with
  | none =>
      have same := stored flag
      simp only [Option.getD_none, Nat.zero_testBit, Bool.bne_false]
      exact same
  | some m =>
      have same := stored (flag != m.testBit (bitOffset % 8).toNat)
      have index : (bitOffset % 8).toNat < 32 := by omega
      have test : (BitVec.ofNat 32 m &&& bitMaskOf bitOffset = 0) ↔ m.testBit (bitOffset % 8).toNat = false := by
        have bit := and_bitMaskOf lower (BitVec.ofNat 32 m)
        rw [BitVec.getLsbD_ofNat, decide_eq_true index, Bool.true_and] at bit
        rw [← bit, decide_eq_false_iff_not, not_not]
      have value : (if BitVec.ofNat 32 m &&& bitMaskOf bitOffset = 0 then flag else !flag) =
          (flag != m.testBit (bitOffset % 8).toNat) := by
        simp only [test]
        cases m.testBit (bitOffset % 8).toNat <;> simp
      simp only [Option.getD_some, Option.map_some]
      rw [bind_assoc, Outcome.ofExcept_bind (getOrdered_mask (bounded m rfl)), pure_bind, value]
      exact same

end setters

end Pointer

end CapnpEs
