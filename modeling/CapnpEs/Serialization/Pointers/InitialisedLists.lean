import CapnpEs.Serialization.Pointers.InitialisedStructs

/-! When a list that was just initialised has the requested length and room for its elements: the length has 29 bits,
and the number of bytes is rounded as a 32-bit integer. -/

namespace CapnpEs

open Outcome
open PointerShape (SizeFits)

theorem ObjectSize.padToWord_fits (size : ObjectSize) (data : size.dataByteLength ≤ (2 ^ 16 - 1) * 8)
    (pointers : size.pointerLength < 2 ^ 16) : SizeFits size.padToWord := by
  have padded := padToWord_of_lt (Int.natCast_nonneg size.dataByteLength) (by omega)
  refine ⟨?_, ?_, pointers⟩
  · simp only [ObjectSize.padToWord, padded]
    omega
  · simp only [ObjectSize.padToWord, padded]
    omega

theorem Message.setUint_writable {m after : Message} {width id : Nat} {byteOffset value : Int}
    (run : Message.setUint width id byteOffset value m = .ok () after) : m.readonly = false := by
  obtain ⟨_, _, writable, _⟩ := bind_eq_ok.mp run
  unfold Message.assertWritable at writable
  cases readonly : m.readonly with
  | false => rfl
  | true => simp [readonly] at writable

namespace Pointer

variable {p written : Pointer} {w after : World} {segment : Nat} {byteOffset : Int} {shape : PointerShape}
  {elementSize : ListElementSize} {length : Nat} {compositeSize : Option ObjectSize}

/-! No getter reports a longer length than 29 bits hold. -/

theorem getOffsetWords_lt {offsetWords : Int} (run : p.getOffsetWords w = .ok offsetWords after) :
    offsetWords < 2 ^ 29 := by
  obtain ⟨word, _, _, value⟩ := bind_eq_ok.mp run
  cases value
  have bound := word.isLt
  split
  · rw [BitVec.toInt_sshiftRight, BitVec.toInt_eq_toNat_cond, Int.shiftRight_eq_div_pow]
    split <;> omega
  · rw [BitVec.toInt_sshiftRight, BitVec.toInt_eq_toNat_cond, Int.shiftRight_eq_div_pow]
    split <;> omega

theorem getListLength_lt {listLength : Nat} (run : p.getListLength w = .ok listLength after) : listLength < 2 ^ 29 := by
  obtain ⟨word, _, _, value⟩ := bind_eq_ok.mp run
  cases value
  have bound := word.isLt
  rw [BitVec.toNat_ushiftRight, Nat.shiftRight_eq_div_pow]
  omega

theorem getTargetListLength_lt {listLength : Int} (run : p.getTargetListLength w = .ok listLength after) :
    listLength < 2 ^ 29 := by
  obtain ⟨target, _, _, rest⟩ := bind_eq_ok.mp run
  obtain ⟨size, _, _, measured⟩ := bind_eq_ok.mp rest
  split at measured
  · obtain ⟨tag, _, _, last⟩ := bind_eq_ok.mp measured
    exact getOffsetWords_lt last
  · obtain ⟨found, _, last, value⟩ := bind_eq_ok.mp measured
    cases value
    have bound := getListLength_lt last
    omega

/-! Writing a pointer to content that was just allocated. -/

theorem encodable_of_compact (site : p.WriteSite w segment byteOffset shape) (compact : (w p.message).Compact) :
    p.Encodable w segment byteOffset := by
  have top := compact.small segment
  have slotTop := compact.small p.segment
  have padTop := compact.small ((w p.message).place p.segment 16)
  have upper := site.upper
  have lower := site.lower
  have slotLower := site.slot.lower
  have slotUpper := site.slot.upper
  rw [Encodable]
  split
  · omega
  · split <;> omega

theorem writePointer_readsAs (site : p.WriteSite w segment byteOffset shape) (compact : (w p.message).Compact)
    (run : writePointer shape segment byteOffset p w = .ok written after) :
    p.ReadsAs after written segment byteOffset shape :=
  (readsAs_iff_of_run site run).mpr (encodable_of_compact site compact)

/-! The list. -/

def elementBytes (elementSize : ListElementSize) (length : Int) (compositeSize : Option ObjectSize) : Int :=
  match elementSize with
  | .BIT => (length + 7) / 8
  | .COMPOSITE => ((compositeSize.map fun size => size.padToWord.getByteLength).getD 0 : Nat) * length
  | elementSize => length * (getListElementByteLength elementSize).getD 0

def tagBytes : ListElementSize → Int
  | .COMPOSITE => 8
  | _ => 0

/-- What the getters say of a list that was just initialised. -/
structure HoldsList (p : Pointer) (w : World) (elementSize : ListElementSize) (length : Nat)
    (compositeSize : Option ObjectSize) : Prop where
  sized : Returns p.getTargetListElementSize w (· = elementSize)
  counted : Returns p.getTargetListLength w (· = length)
  structs : elementSize = .COMPOSITE → ∀ size, compositeSize = some size →
    Returns p.getTargetCompositeListSize w (· = size.padToWord)
  region : Returns p.getContent w fun c =>
    c.message = p.message ∧ tagBytes elementSize ≤ c.byteOffset ∧
      c.byteOffset + elementBytes elementSize length compositeSize ≤ (w p.message).allocated c.segment

/-- The length fits the pointer, and the content a 32-bit integer. -/
def LengthFits (elementSize : ListElementSize) (length : Nat) (compositeSize : Option ObjectSize) : Prop :=
  length < 2 ^ 29 ∧ tagBytes elementSize + elementBytes elementSize length compositeSize < 2 ^ 31

theorem HoldsList.lengthFits (holds : p.HoldsList w elementSize length compositeSize)
    (compact : (w p.message).Compact) : LengthFits elementSize length compositeSize := by
  obtain ⟨found, _, run, same⟩ := holds.counted
  obtain ⟨c, _, _, _, lower, upper⟩ := holds.region
  have short := getTargetListLength_lt run
  have top := compact.small c.segment
  refine ⟨by omega, ?_⟩
  omega

theorem ReadsAs.holdsList (readsAs : p.ReadsAs w written segment byteOffset (.list elementSize length))
    (other : elementSize ≠ .COMPOSITE) (lower : 0 ≤ byteOffset)
    (inside : byteOffset + elementBytes elementSize length compositeSize ≤ (w p.message).allocated segment) :
    p.HoldsList w elementSize length compositeSize := by
  obtain ⟨size, counted⟩ := readsAs.described
  refine ⟨size, counted, fun composite => absurd composite other, ?_⟩
  obtain ⟨c, last, run, message, rfl, start⟩ := readsAs.content
  refine ⟨c, last, run, message, ?_, ?_⟩
  · rw [start]
    cases elementSize with
    | COMPOSITE => exact absurd rfl other
    | _ => exact Int.add_nonneg lower (Int.le_refl 0)
  · rw [start]
    simpa [PointerShape.tagLength] using inside

theorem ReadsAs.holdsComposite {size : ObjectSize}
    (readsAs : p.ReadsAs w written segment byteOffset (.composite length size.padToWord)) (lower : 0 ≤ byteOffset)
    (inside : byteOffset + 8 + elementBytes .COMPOSITE length (some size) ≤ (w p.message).allocated segment) :
    p.HoldsList w .COMPOSITE length (some size) := by
  obtain ⟨element, counted, sized⟩ := readsAs.described
  refine ⟨element, counted, ?_, ?_⟩
  · rintro _ _ ⟨⟩
    exact sized
  · obtain ⟨c, last, run, message, rfl, start⟩ := readsAs.content
    refine ⟨c, last, run, message, ?_, ?_⟩
    · rw [start]
      exact Int.add_le_add lower (Int.le_refl 8)
    · rw [start]
      exact inside

theorem Apart.symm {q : Pointer} (apart : p.Apart q) : q.Apart p := by
  rcases apart with message | segment | before | behind
  · exact Or.inl (Ne.symm message)
  · exact Or.inr (Or.inl (Ne.symm segment))
  · exact Or.inr (Or.inr (Or.inr before))
  · exact Or.inr (Or.inr (Or.inl behind))

/-! What `initList` does up to the pointer. -/

theorem initListContent_data (data : elementSize ≠ .COMPOSITE) :
    initListContent elementSize length p compositeSize =
      (do return (← p.allocate (elementBytes elementSize length compositeSize), compositeSize)) := by
  cases elementSize with
  | COMPOSITE => exact absurd rfl data
  | _ => rfl

theorem setListPointer_data (data : elementSize ≠ .COMPOSITE) (offsetWords listLength : Int) :
    setListPointer offsetWords elementSize listLength p compositeSize =
      setListPointer offsetWords elementSize listLength p none := by
  simp [setListPointer, data]

theorem le_padToWord (size : Int) (lower : 0 ≤ size) (upper : size < 2 ^ 31) (rounded : 0 ≤ padToWord size) :
    size ≤ padToWord size := by
  by_cases small : size + 7 < 2 ^ 31
  · rw [padToWord_of_lt lower small]
    omega
  · have negative := padToWord_negative (show 2 ^ 31 ≤ size + 7 by omega) (by omega)
    omega

theorem elementBytes_nonneg (elementSize : ListElementSize) (length : Nat) (compositeSize : Option ObjectSize) :
    0 ≤ elementBytes elementSize length compositeSize := by
  unfold elementBytes
  split
  · omega
  · exact Int.mul_nonneg (Int.natCast_nonneg _) (Int.natCast_nonneg _)
  · exact Int.mul_nonneg (Int.natCast_nonneg _) (Int.natCast_nonneg _)

theorem listPointer_larger {contentMessage contentSegment : Nat} {contentOffset listLength : Int}
    (run : (do
      let res ← initPointer contentMessage contentSegment contentOffset p
      setListPointer res.offsetWords elementSize listLength res.pointer compositeSize) w = .ok () after) :
    w.Larger after := by
  refine larger_of_uses ?_ run
  apply Built.bind (initPointer_uses trivial trivial _ _ _ _)
  intro res
  exact setListPointer_uses _ _ _ _ _

section initList

variable (slot : p.Slot w) (compact : (after p.message).Compact) (budget : 48 < (after p.message).traversalLimit)
include slot compact budget

theorem Slot.readsAs {taken filled : World} {id : Nat} {byteLength : Int} (writable : (w p.message).readonly = false)
    (nonneg : 0 ≤ byteLength) (fresh : w.Allocated taken p.message id byteLength) (larger : taken.Larger filled)
    (fits : shape.Fits) (tagged : Tagged filled p.message id ((w p.message).allocated id) shape)
    (tagApart : 0 < shape.tagLength → (Pointer.fresh p.message id ((w p.message).allocated id)).Apart p)
    (run : writePointer shape id ((w p.message).allocated id) p filled = .ok written after)
    (finished : filled.Larger after) :
    p.ReadsAs after written id ((w p.message).allocated id) shape ∧
      (w p.message).allocated id + byteLength ≤ (after p.message).allocated id := by
  have bound := fresh.here.bound
  have grown := larger p.message ⟨fresh.here.wellFormed, by omega⟩
  have last := finished p.message grown.sound
  have left := last.traversalLimit
  have early := last.compact compact
  have site := slot.writeSite writable nonneg fresh larger early.few (by omega) fits tagged tagApart
  refine ⟨writePointer_readsAs site early run, ?_⟩
  have own := fresh.here.allocated id
  have more := grown.allocated id
  have most := last.allocated id
  rw [if_pos rfl] at own
  omega

theorem initList_data (data : elementSize ≠ .COMPOSITE) (some : elementSize ≠ .VOID)
    (fits : LengthFits elementSize length compositeSize)
    (run : initList elementSize length p compositeSize w = .ok () after) :
    p.HoldsList after elementSize length compositeSize := by
  rw [initList, if_neg some, initListContent_data data] at run
  obtain ⟨found, taken, content, rest⟩ := bind_eq_ok.mp run
  obtain ⟨c, _, allocated, made⟩ := bind_eq_ok.mp content
  cases made
  simp only at rest
  obtain ⟨rounded, writable, _, rfl, fresh⟩ := allocate_ok slot.wellFormed allocated
  obtain ⟨res, _, placed, set⟩ := bind_eq_ok.mp rest
  rw [setListPointer_data data] at set
  have fitting : (PointerShape.list elementSize length).Fits := ⟨data, fits.1⟩
  obtain ⟨readsAs, inside⟩ := slot.readsAs compact budget writable rounded fresh (refl_of World.Larger taken) fitting
    trivial (fun tag => absurd tag (by simp [PointerShape.tagLength]))
    (bind_eq_ok.mpr ⟨res, _, placed, bind_eq_ok.mpr ⟨(), after, set, rfl⟩⟩) (listPointer_larger rest)
  have enough := le_padToWord _ (elementBytes_nonneg elementSize length compositeSize)
    (by have room := fits.2; unfold tagBytes at room; split at room <;> omega) rounded
  exact readsAs.holdsList data (slot.wellFormed.allocated_nonneg _) (by omega)

theorem initList_composite {size : ObjectSize} (data : size.dataByteLength ≤ (2 ^ 16 - 1) * 8)
    (pointers : size.pointerLength < 2 ^ 16) (fits : LengthFits .COMPOSITE length (some size))
    (run : initList .COMPOSITE length p (some size) w = .ok () after) :
    p.HoldsList after .COMPOSITE length (some size) := by
  rw [initList, if_neg (by decide)] at run
  obtain ⟨found, filled, content, rest⟩ := bind_eq_ok.mp run
  obtain ⟨c, taken, allocated, more⟩ := bind_eq_ok.mp content
  obtain ⟨_, _, tag, made⟩ := bind_eq_ok.mp more
  cases made
  simp only at rest
  have request : (size.padToWord.getByteLength : Int) * length + 8 = elementBytes .COMPOSITE length (some size) + 8 := rfl
  rw [request] at allocated
  obtain ⟨rounded, writable, _, rfl, fresh⟩ := allocate_ok slot.wellFormed allocated
  have wf := fresh.here.wellFormed
  have requested := elementBytes_nonneg .COMPOSITE length (some size)
  obtain ⟨short, room⟩ := fits
  rw [tagBytes] at room
  have enough := le_padToWord (elementBytes .COMPOSITE length (some size) + 8) (by omega) (by omega) rounded
  have start := slot.wellFormed.allocated_nonneg
    ((w p.message).place p.segment (padToWord (elementBytes .COMPOSITE length (some size) + 8)))
  generalize (w p.message).place p.segment (padToWord (elementBytes .COMPOSITE length (some size) + 8)) = id at *
  have tagIn : (Pointer.fresh p.message id ((w p.message).allocated id)).InBounds taken :=
    fresh_inBounds slot.wellFormed fresh (Int.le_refl _) (by omega)
  have tagWritable : (taken p.message).readonly = false := by
    rw [fresh.here.readonly]
    exact writable
  have tagLarger := larger_of_uses (setStructPointer_uses _ _ _) tag
  rw [setStructPointer_run (p := Pointer.fresh p.message id ((w p.message).allocated id)) wf tagWritable tagIn length
    size.padToWord] at tag
  cases tag
  have tagged : Tagged (taken.putPointer (Pointer.fresh p.message id ((w p.message).allocated id))
      (PointerWord.nearLo .STRUCT length) (PointerWord.structHi size.padToWord)) p.message id
      ((w p.message).allocated id) (.composite length size.padToWord) :=
    ⟨tagIn.putPointer, lo_putPointer wf tagIn ⟨rfl, rfl, rfl⟩, hi_putPointer wf tagIn ⟨rfl, rfl, rfl⟩⟩
  have tagApart : (Pointer.fresh p.message id ((w p.message).allocated id)).Apart p :=
    (slot.inBounds.apart_fresh (Int.le_refl _)).symm
  obtain ⟨res, _, placed, set⟩ := bind_eq_ok.mp rest
  have fitting : (PointerShape.composite length size.padToWord).Fits := ⟨short, size.padToWord_fits data pointers⟩
  obtain ⟨readsAs, inside⟩ := slot.readsAs compact budget writable rounded fresh tagLarger fitting tagged
    (fun _ => tagApart) (bind_eq_ok.mpr ⟨res, _, placed, bind_eq_ok.mpr ⟨(), after, set, rfl⟩⟩) (listPointer_larger rest)
  exact readsAs.holdsComposite start (by omega)

theorem initList_void (short : length < 2 ^ 29) (run : initList .VOID length p compositeSize w = .ok () after) :
    p.HoldsList after .VOID length compositeSize := by
  rw [initList, if_pos rfl] at run
  have larger := larger_of_uses (setListPointer_uses _ _ _ _ _) run
  have kept := larger p.message slot.sound
  have left := kept.traversalLimit
  have early := kept.compact compact
  have slotLower := slot.inBounds.lower
  have slotUpper := slot.inBounds.upper
  have bound := slot.inBounds.bound
  have writable : (w p.message).readonly = false := by
    obtain ⟨_, _, measured, set⟩ := bind_eq_ok.mp run
    cases measured
    obtain ⟨_, _, first, _⟩ := bind_eq_ok.mp set
    obtain ⟨m, ended, _⟩ := onMessage_ends first
    exact Message.setUint_writable ended
  have aligned := slot.aligned
  have site : p.WriteSite w p.segment (p.byteOffset + 8) (.list .VOID length) :=
    ⟨⟨slot.wellFormed, writable, slot.inBounds, aligned, bound, by omega, early.few, ⟨by decide, short⟩, slot.depth,
      by omega⟩, slot.plain, by omega, slotUpper, trivial, fun tag => absurd tag (by simp [PointerShape.tagLength])⟩
  have wrote : writePointer (.list .VOID length) p.segment (p.byteOffset + 8) p w = .ok p after := by
    rw [writePointer, bind_apply, initPointer_near rfl]
    simp only
    have near : p.byteOffset + 8 - p.byteOffset - 8 = 0 := by omega
    rw [near, Int.zero_tdiv]
    exact bind_eq_ok.mpr ⟨(), after, run, rfl⟩
  have readsAs := writePointer_readsAs site early wrote
  apply readsAs.holdsList (by decide) (by omega)
  have same := kept.allocated p.segment
  have nothing : elementBytes .VOID length compositeSize = 0 := Int.mul_zero _
  omega

/-- After a normal end, the list is the requested one if and only if its length fits. -/
theorem initList_holdsList_iff
    (sizes : ∀ size, compositeSize = some size →
      size.dataByteLength ≤ (2 ^ 16 - 1) * 8 ∧ size.pointerLength < 2 ^ 16)
    (run : initList elementSize length p compositeSize w = .ok () after) :
    p.HoldsList after elementSize length compositeSize ↔ LengthFits elementSize length compositeSize := by
  constructor
  · exact fun holds => holds.lengthFits compact
  · intro fits
    by_cases void : elementSize = .VOID
    · subst void
      exact initList_void slot compact budget fits.1 run
    · by_cases composite : elementSize = .COMPOSITE
      · subst composite
        cases sized : compositeSize with
        | none =>
            rw [sized, initList, if_neg void] at run
            cases run
        | some size =>
            obtain ⟨data, pointers⟩ := sizes size sized
            subst sized
            exact initList_composite slot compact budget data pointers fits run
      · exact initList_data slot compact budget composite void fits run

end initList

theorem root_runs (elementSize : ListElementSize) (length : Nat) (check : World → Bool)
    (checked : (match initList elementSize length (fresh 0 0 0) none oneWord with
      | .ok _ after => check after
      | .error _ _ => false) = true) :
    ∃ after, initList elementSize length (fresh 0 0 0) none oneWord = .ok () after ∧ check after = true := by
  cases run : initList elementSize length (fresh 0 0 0) none oneWord with
  | error reason after =>
      rw [run] at checked
      cases checked
  | ok value after =>
      rw [run] at checked
      exact ⟨after, rfl, checked⟩

theorem initList_holdsList_iff_bytes : ∃ after, initList .BYTE 11 (fresh 0 0 0) none oneWord = .ok () after ∧
    ((fresh 0 0 0).HoldsList after .BYTE 11 none ↔ LengthFits .BYTE 11 none) := by
  obtain ⟨after, run, checked⟩ := root_runs .BYTE 11 (fun after =>
    (after 0).segments.length < 2 ^ 32 ∧ (∀ s ∈ (after 0).segments, s.byteLength < 2 ^ 31) ∧
      48 < (after 0).traversalLimit) (by decide +kernel)
  obtain ⟨few, small, budget⟩ := of_decide_eq_true checked
  exact ⟨after, run, initList_holdsList_iff oneWord_slot (Message.compact_of_segments few small) budget nofun run⟩

/-- A length of thirty bits is cut to nothing. -/
theorem voidRoot_truncated : ¬ ∀ (p : Pointer) (w after : World) (elementSize : ListElementSize) (length : Nat)
    (compositeSize : Option ObjectSize), p.Slot w →
    initList elementSize length p compositeSize w = .ok () after →
    p.HoldsList after elementSize length compositeSize := by
  intro holds
  obtain ⟨after, run, empty⟩ := root_runs .VOID (2 ^ 29) (fun after =>
    match (fresh 0 0 0).getTargetListLength after with
    | .ok length _ => length = 0
    | .error _ _ => false) (by decide +kernel)
  obtain ⟨length, last, read, same⟩ := (holds _ _ after .VOID (2 ^ 29) none oneWord_slot run).counted
  simp only [read, same] at empty
  exact absurd (of_decide_eq_true empty) (by decide)

end Pointer

end CapnpEs
