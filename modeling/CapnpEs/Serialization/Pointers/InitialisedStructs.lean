import CapnpEs.Serialization.Pointers.CompletedRuns
import CapnpEs.Serialization.Pointers.ErasedTrees
import CapnpEs.Serialization.Pointers.Initializing
import CapnpEs.Serialization.Pointers.StructUtils

/-! When a struct pointer that was just written reads as null: `isNull` takes two words for the null pointer, and an
empty struct right behind its slot has one of them. -/

namespace CapnpEs

open Outcome
open PointerShape (SizeFits)

/-- No segment has reached 2 GiB, and every segment has a number for a far pointer. -/
structure Message.Compact (m : Message) : Prop where
  few : m.segments.length < 2 ^ 32
  small : ∀ s, m.allocated s < 2 ^ 31

theorem Message.compact_of_segments {m : Message} (few : m.segments.length < 2 ^ 32)
    (small : ∀ s ∈ m.segments, s.byteLength < 2 ^ 31) : m.Compact := by
  refine ⟨few, fun segment => ?_⟩
  rw [Message.allocated]
  split
  · rename_i s found
    exact small s (List.mem_of_getElem? found)
  · decide

theorem Message.Larger.compact {m m' : Message} (larger : m.Larger m') (compact : m'.Compact) :
    m.Compact :=
  ⟨Nat.lt_of_le_of_lt larger.length compact.few,
    fun s => Int.lt_of_le_of_lt (larger.allocated s) (compact.small s)⟩

theorem Message.SameSize.place {m m' : Message} (same : m.SameSize m') (segment : Nat) (byteLength : Int) :
    m'.place segment byteLength = m.place segment byteLength := by
  rw [Message.place, Message.place, same.sameAllocated, same.sameCapacity, Message.freshSegment,
    Message.freshSegment, same.kind, same.sameLength]

namespace Pointer

variable {p src written : Pointer} {w after : World} {segment : Nat} {start byteOffset : Int} {size : ObjectSize}

/-- What the getters say of a struct pointer that was just initialised. -/
structure Initialised (p : Pointer) (w : World) (size : ObjectSize) : Prop where
  notNull : Returns p.isNull w (· = false)
  size : Returns (getSize p) w (· = size)

/-- The sizes whose half of the word `isNull` takes for a null pointer's. -/
def LooksNull (size : ObjectSize) : Prop :=
  size.dataByteLength = 0 ∧ (size.pointerLength = 0 ∨ size.pointerLength = 2 ^ 15)

theorem structHi_null_iff (fits : SizeFits size) :
    (PointerWord.structHi size = 0 ∨ PointerWord.structHi size = BitVec.twoPow 32 31) ↔ LooksNull size := by
  obtain ⟨whole, data, pointers⟩ := fits
  have value : (PointerWord.structHi size).toNat = size.dataByteLength / 8 + 2 ^ 16 * size.pointerLength := by
    rw [PointerWord.structHi, ObjectSize.getDataWordLength, BitVec.toNat_ofNat]
    omega
  have sign : (BitVec.twoPow 32 31).toNat = 2 ^ 31 := by decide
  rw [← BitVec.toNat_inj, ← BitVec.toNat_inj, value, sign, LooksNull]
  constructor
  · rintro (zero | half)
    · have none : size.dataByteLength / 8 + 2 ^ 16 * size.pointerLength = 0 := zero
      omega
    · omega
  · rintro ⟨empty, none | half⟩
    · left
      change size.dataByteLength / 8 + 2 ^ 16 * size.pointerLength = 0
      omega
    · right
      omega

theorem nearLo_null_iff (offsetWords : Int) : PointerWord.nearLo .STRUCT offsetWords = 0 ↔ offsetWords % 2 ^ 30 = 0 := by
  rw [← BitVec.toNat_inj, PointerWord.nearLo_toNat]
  change 0 + 4 * (offsetWords % 2 ^ 30).toNat = 0 ↔ _
  omega

theorem farLo_ne_zero (doubleFar : Bool) (offsetWords : Int) : PointerWord.farLo doubleFar offsetWords ≠ 0 := by
  intro zero
  have value := PointerWord.farLo_toNat doubleFar offsetWords
  rw [zero] at value
  change 0 = _ at value
  omega

theorem isNullWord_near_iff (fits : SizeFits size) {offsetWords : Int}
    (lo : p.lo w = PointerWord.nearLo .STRUCT offsetWords) (hi : p.hi w = PointerWord.structHi size) :
    p.isNullWord w = true ↔ offsetWords % 2 ^ 30 = 0 ∧ LooksNull size := by
  rw [isNullWord, Bool.and_eq_true, Bool.or_eq_true, beq_iff_eq, beq_iff_eq, beq_iff_eq, lo, hi, nearLo_null_iff,
    structHi_null_iff fits]

theorem isNullWord_far {doubleFar : Bool} {offsetWords : Int}
    (lo : p.lo w = PointerWord.farLo doubleFar offsetWords) : p.isNullWord w = false := by
  rw [isNullWord, lo, Bool.and_eq_false_imp]
  intro zero
  exact absurd (beq_iff_eq.mp zero) (farLo_ne_zero doubleFar offsetWords)

theorem Encoded.initialised_iff (encoded : p.Encoded w written segment start (.struct size))
    (plain : p.compositeIndex = none) (budget : 8 < (w p.message).traversalLimit) (fits : SizeFits size) :
    p.Initialised w size ↔ p.isNullWord w = false := by
  have wf := encoded.wellFormed
  have null := isNull_run wf encoded.follows.inBounds
  constructor
  · rintro ⟨⟨value, last, run, isFalse⟩, _⟩
    rw [null] at run
    cases run
    exact isFalse
  · intro filled
    refine ⟨⟨_, _, null, filled⟩, ?_⟩
    obtain ⟨count, _, run⟩ := getTargetStructSize_reads wf encoded.follows budget
    rw [encoded.hi, PointerShape.hi, PointerWord.structSize_structHi fits.1 fits.2.1 fits.2.2] at run
    refine ⟨size, w.spend p.message count, ?_, rfl⟩
    rw [getSize, bind_apply, null, filled]
    simp only [Bool.false_eq_true, if_false, plain]
    exact run

theorem writePointer_initialised_iff (site : p.WriteSite w segment byteOffset (.struct size))
    (run : writePointer (.struct size) segment byteOffset p w = .ok written after)
    (compact : (after p.message).Compact) (larger : w.Larger after) :
    p.Initialised after size ↔ ¬ (LooksNull size ∧ p.segment = segment ∧ byteOffset = p.byteOffset + 8) := by
  have wf := site.wellFormed
  have budget := site.budget
  have aligned := site.aligned
  have slotAligned := site.slotAligned
  have sound : (w p.message).Sound := ⟨wf, by have bound := site.bound; omega⟩
  have before := (larger p.message sound).compact compact
  by_cases same : p.segment = segment
  · rw [writePointer_near site.toPointerSite same] at run
    cases run
    rw [(near_encoded site.toPointerSite same).initialised_iff site.plain (by rw [World.putPointer_traversalLimit]; omega) site.fits]
    let near := w.putPointer p (PointerWord.nearLo .STRUCT ((byteOffset - p.byteOffset - 8) / 8))
      (PointerWord.structHi size)
    have lo : p.lo near = PointerWord.nearLo .STRUCT ((byteOffset - p.byteOffset - 8) / 8) :=
      lo_putPointer wf site.slot ⟨rfl, rfl, rfl⟩
    have hi : p.hi near = PointerWord.structHi size := hi_putPointer wf site.slot ⟨rfl, rfl, rfl⟩
    have words := isNullWord_near_iff site.fits lo hi
    have top := before.small segment
    have slotTop := before.small p.segment
    have upper := site.upper
    have lower := site.lower
    have slotLower := site.slot.lower
    have slotUpper := site.slot.upper
    have offset : (byteOffset - p.byteOffset - 8) / 8 % 2 ^ 30 = 0 ↔ byteOffset = p.byteOffset + 8 := by omega
    rw [← Bool.not_eq_true]
    change ¬ p.isNullWord near = true ↔ _
    rw [words, offset, and_comm (a := byteOffset = p.byteOffset + 8)]
    simp only [same, true_and]
  · have never : ¬ (LooksNull size ∧ p.segment = segment ∧ byteOffset = p.byteOffset + 8) := fun null => same null.2.1
    by_cases room : (w p.message).allocated segment + 8 ≤ (w p.message).capacity segment
    · obtain ⟨w', allocated, ran⟩ := writePointer_far site.toPointerSite same room
      rw [ran] at run
      cases run
      have limit := allocated.here.traversalLimit
      have top := before.small segment
      rw [(far_encoded site.toPointerSite rfl allocated (by omega)).initialised_iff site.plain ?_ site.fits]
      · obtain ⟨_, _, _, lo, _⟩ := far_words site.toPointerSite rfl allocated
        simp only [isNullWord_far lo, never, not_false_eq_true]
      · rw [writeFar, World.putPointer_traversalLimit, World.putPointer_traversalLimit]
        omega
    · obtain ⟨w', allocated, ran⟩ := writePointer_doubleFar site.toPointerSite same room
      rw [ran] at run
      cases run
      have limit := allocated.here.traversalLimit
      have top := before.small ((w p.message).place p.segment 16)
      rw [(doubleFar_encoded site.toPointerSite rfl allocated (by omega) (place_lt site.toPointerSite 16)).initialised_iff site.plain ?_ site.fits]
      · obtain ⟨_, _, _, _, lo, _⟩ := doubleFar_words site.toPointerSite rfl allocated
        simp only [isNullWord_far lo, never, not_false_eq_true]
      · rw [writeDoubleFar, World.putPointer_traversalLimit, World.putPointer_traversalLimit,
          World.putPointer_traversalLimit]
        omega

/-! Writing a pointer to content that was just allocated. -/

theorem allocate_ok {byteLength : Int} {c : Pointer} (wf : (w p.message).WellFormed)
    (run : p.allocate byteLength w = .ok c after) :
    0 ≤ padToWord byteLength ∧ (w p.message).readonly = false ∧ p.segment < (w p.message).segments.length ∧
      c = fresh p.message ((w p.message).place p.segment (padToWord byteLength))
        ((w p.message).allocated ((w p.message).place p.segment (padToWord byteLength))) ∧
      w.Allocated after p.message ((w p.message).place p.segment (padToWord byteLength)) (padToWord byteLength) := by
  obtain ⟨found, middle, taken, made⟩ := bind_eq_ok.mp run
  cases made
  obtain ⟨m, ended, rfl⟩ := onMessage_ends taken
  obtain ⟨rounded, writable, bound, _, rfl, allocated⟩ := Message.allocate_ends wf ended
  refine ⟨rounded, writable, bound, rfl, ?_, ?_⟩
  · rw [Function.update_self]
    exact allocated
  · intro other different
    exact Function.update_of_ne different _ _

/-- What is known of a slot before its content is allocated. -/
structure Slot (p : Pointer) (w : World) : Prop where
  wellFormed : (w p.message).WellFormed
  inBounds : p.InBounds w
  aligned : p.byteOffset % 8 = 0
  plain : p.compositeIndex = none
  depth : 2 ≤ p.depthLimit

theorem Slot.sound (slot : p.Slot w) : (w p.message).Sound := by
  have bound := slot.inBounds.bound
  exact ⟨slot.wellFormed, by omega⟩

theorem Slot.sameSize (slot : p.Slot w) (same : w.SameSize after) : p.Slot after := by
  have kept := same p.message slot.sound
  refine ⟨kept.sound.wellFormed, ⟨slot.inBounds.lower, ?_⟩, slot.aligned, slot.plain, slot.depth⟩
  rw [kept.sameAllocated]
  exact slot.inBounds.upper

section site

variable {filled : World} {id : Nat} {byteLength : Int} {shape : PointerShape}

theorem Slot.writeSite (slot : p.Slot w) (writable : (w p.message).readonly = false) (nonneg : 0 ≤ byteLength)
    (allocated : w.Allocated after p.message id byteLength) (larger : after.Larger filled)
    (few : (filled p.message).segments.length < 2 ^ 32) (budget : 48 < (filled p.message).traversalLimit)
    (fits : shape.Fits) (tagged : Tagged filled p.message id ((w p.message).allocated id) shape)
    (tagApart : 0 < shape.tagLength → (fresh p.message id ((w p.message).allocated id)).Apart p) :
    p.WriteSite filled id ((w p.message).allocated id) shape := by
  have here := allocated.here
  have sound := slot.sound
  have bound := sound.some
  have longer := here.length
  have kept := larger p.message ⟨here.wellFormed, by omega⟩
  have grown := here.allocated p.segment
  have inside := kept.allocated p.segment
  have own := here.allocated id
  have ownKept := kept.allocated id
  have slotUpper := slot.inBounds.upper
  have idBound := here.bound
  have total := kept.length
  have base := slot.wellFormed.allocated_aligned id
  rw [if_pos rfl] at own
  refine ⟨⟨kept.sound.wellFormed, ?_, ⟨slot.inBounds.lower, ?_⟩, slot.aligned, by omega, base, few, fits, slot.depth,
    budget⟩, slot.plain, slot.wellFormed.allocated_nonneg id, by omega, tagged, tagApart⟩
  · rw [kept.readonly, here.readonly]
    exact writable
  · split at grown <;> omega

end site

/-- The new pointer is null: it has such a size, and its content starts right behind it. -/
def Vanishes (p : Pointer) (w : World) (size : ObjectSize) : Prop :=
  LooksNull size ∧ (w p.message).place p.segment size.getByteLength = p.segment ∧
    (w p.message).allocated p.segment = p.byteOffset + 8

theorem padToWord_getByteLength (fits : SizeFits size) : padToWord size.getByteLength = size.getByteLength := by
  obtain ⟨whole, data, pointers⟩ := fits
  rw [ObjectSize.getByteLength, padToWord_of_lt (by omega) (by omega)]
  omega

theorem filled_initialised_iff {c : Pointer} {taken filled : World} (slot : p.Slot w) (fits : SizeFits size)
    (allocated : p.allocate size.getByteLength w = .ok c taken) (larger : taken.Larger filled)
    (run : writePointer (.struct size) c.segment c.byteOffset p filled = .ok written after)
    (finished : filled.Larger after) (compact : (after p.message).Compact)
    (budget : 48 < (after p.message).traversalLimit) :
    p.Initialised after size ↔ ¬ p.Vanishes w size := by
  obtain ⟨_, writable, _, rfl, fresh⟩ := allocate_ok slot.wellFormed allocated
  rw [padToWord_getByteLength fits] at run fresh
  have room : (filled p.message).Sound := by
    have bound := fresh.here.bound
    exact (larger p.message ⟨fresh.here.wellFormed, by omega⟩).sound
  have last := finished p.message room
  have left := last.traversalLimit
  have site : p.WriteSite filled _ _ (.struct size) :=
    slot.writeSite writable (Int.natCast_nonneg _) fresh larger (last.compact compact).few (by omega) fits trivial
      fun tag => absurd tag (by simp [PointerShape.tagLength])
  rw [writePointer_initialised_iff site run compact finished, Vanishes]
  constructor
  · rintro broken ⟨looks, here, behind⟩
    exact broken ⟨looks, here.symm, by rw [here]; exact behind⟩
  · rintro broken ⟨looks, here, behind⟩
    exact broken ⟨looks, here.symm, by rw [here]; exact behind⟩

/-! The two ways to initialise a slot. -/

theorem initStruct_initialised_iff (slot : p.Slot w) (fits : SizeFits size) (run : initStruct size p w = .ok () after)
    (compact : (after p.message).Compact) (budget : 48 < (after p.message).traversalLimit) :
    p.Initialised after size ↔ ¬ p.Vanishes w size := by
  rw [initStruct, if_neg (by simp [slot.plain])] at run
  obtain ⟨_, erased, ran, rest⟩ := bind_eq_ok.mp run
  obtain ⟨c, taken, allocated, more⟩ := bind_eq_ok.mp rest
  obtain ⟨res, _, placed, set⟩ := bind_eq_ok.mp more
  have same := sameSize_of_uses p.erase_uses ran
  have kept := same p.message slot.sound
  have here : c.message = p.message := by
    obtain ⟨_, _, _, rfl, _⟩ := allocate_ok (slot.sameSize same).wellFormed allocated
    rfl
  have wrote : writePointer (.struct size) c.segment c.byteOffset p taken = .ok res.pointer after := by
    rw [writePointer]
    apply bind_eq_ok.mpr
    rw [here] at placed
    exact ⟨res, _, placed, bind_eq_ok.mpr ⟨(), after, set, rfl⟩⟩
  have finished : taken.Larger after := by
    refine larger_of_uses ?_ more
    apply Built.bind (initPointer_uses trivial trivial _ _ _ _)
    intro res
    exact setStructPointer_uses _ _ _
  rw [filled_initialised_iff (slot.sameSize same) fits allocated (refl_of World.Larger taken) wrote finished compact budget,
    Vanishes, Vanishes, kept.place, kept.sameAllocated]

/-! A copied struct pointer. -/

theorem structSize_fits (hi : BitVec 32) : SizeFits (PointerWord.structSize hi) := by
  have bound := hi.isLt
  refine ⟨?_, ?_, ?_⟩
  all_goals
    simp only [PointerWord.structSize]
    omega

structure IsReadableStruct (src : Pointer) (w : World) : Prop where
  wellFormed : (w src.message).WellFormed
  resolves : src.Resolves w
  plain : src.compositeIndex = none
  filled : src.isNullWord w = false
  struct : src.targetType w = .STRUCT

def OutlivesErase (src p : Pointer) (w : World) : Prop :=
  src.message = p.message → Disjoint (src.path w) (footprint w p.depthLimit.toNat p)

theorem IsReadableStruct.like {bytes : Set Byte} {w' : World} (source : src.IsReadableStruct w)
    (like : World.Like src.message bytes w w') (covered : src.path w ⊆ bytes) :
    src.IsReadableStruct w' ∧ src.structSize w' = src.structSize w := by
  obtain ⟨lo, hi, target, targetLo, targetHi, start⟩ := path_like like source.resolves.inBounds.lower covered
  have notComposite : ¬ src.isComposite w = true := by
    simp [isComposite, source.struct]
  have same : SameNode src w w' :=
    ⟨lo, hi, target, targetLo, targetHi, start, fun composite => absurd composite notComposite,
      fun composite => absurd composite notComposite⟩
  refine ⟨⟨like.wellFormed, same.resolves like source.resolves, source.plain, ?_, ?_⟩, ?_⟩
  · rw [same.isNullWord]
    exact source.filled
  · rw [same.targetType]
    exact source.struct
  · rw [Pointer.structSize, Pointer.structSize, target, targetHi]

theorem IsReadableStruct.spend (source : src.IsReadableStruct w) (message count : Nat) :
    src.IsReadableStruct (w.spend message count) := by
  refine ⟨source.wellFormed.spend message count, source.resolves.spend message count, source.plain, ?_, ?_⟩
  · rw [isNullWord, lo_spend, hi_spend]
    exact source.filled
  · rw [targetType_spend]
    exact source.struct

section source

variable (source : src.IsReadableStruct w)
include source

theorem IsReadableStruct.afterErase {cleared : World} (slot : p.Slot w) (writable : (w p.message).readonly = false)
    (tree : IsTree w p.depthLimit.toNat p)
    (treeBudget : 8 * visits w p.depthLimit.toNat p < (w p.message).traversalLimit) (outlives : src.OutlivesErase p w)
    (run : p.erase w = .ok () cleared) :
    src.IsReadableStruct cleared ∧ src.structSize cleared = src.structSize w := by
  have depth := slot.depth
  rcases eraseWithin_erases p.depthLimit.toNat p slot.wellFormed writable (by omega) tree treeBudget with
    ⟨_, after, ran, zeroed⟩ | ⟨_, reason, after, failed⟩
  · rw [erase, ran] at run
    cases run
    by_cases same : src.message = p.message
    · have like := zeroed.like
      rw [← same] at like
      apply source.like like
      intro byte member gone
      exact Set.disjoint_left.mp (outlives same) member (erased_subset_footprint _ _ gone)
    · have untouched := zeroed.others src.message same
      have like : World.Like src.message Set.univ w cleared := by
        constructor
        · rw [untouched]
          exact source.wellFormed
        all_goals simp [untouched]
      exact source.like like (Set.subset_univ _)
  · rw [erase, failed] at run
    cases run

theorem IsReadableStruct.copyTarget_ok {depth : Nat} (single : p.compositeList = false)
    (budget : 48 < (w src.message).traversalLimit) (run : copyTarget (copyWithin depth) src p w = .ok () after) :
    ∃ count c taken filled written, p.allocate (src.structSize w).getByteLength (w.spend src.message count) = .ok c taken ∧
      taken.Larger filled ∧ c.message = p.message ∧
      writePointer (.struct (src.structSize w)) c.segment c.byteOffset p filled = .ok written after ∧
      filled.Larger after := by
  rw [copyTarget, bind_apply, isNull_run source.wellFormed source.resolves.inBounds, source.filled] at run
  simp only [Bool.false_eq_true, if_false] at run
  obtain ⟨first, firstLe, type⟩ := getTargetPointerType_reads source.wellFormed source.resolves.toFollows (by omega)
    source.resolves.notFar
  rw [bind_apply, type, source.struct] at run
  simp only at run
  unfold copyFromStruct at run
  split at run
  · cases run
  · have once := source.spend src.message first
    have found : Reads (src.getContent false) _ 4 _ _ := getContent_reads once.wellFormed once.resolves
      (by rw [World.spend_traversalLimit]; omega) once.plain
    obtain ⟨second, secondLe, content⟩ := found
    rw [bind_apply, content, World.spend_spend] at run
    simp only at run
    have twice := source.spend src.message (first + second)
    obtain ⟨third, thirdLe, sized⟩ := getTargetStructSize_reads twice.wellFormed twice.resolves.toFollows
      (by rw [World.spend_traversalLimit]; push_cast; omega)
    rw [bind_apply, sized, World.spend_spend, target_spend, hi_spend] at run
    obtain ⟨c, filled, copied, rest⟩ := bind_eq_ok.mp run
    obtain ⟨_, taken, allocated, more⟩ := bind_eq_ok.mp copied
    obtain ⟨_, last, fill, ended⟩ := bind_eq_ok.mp more
    cases ended
    rw [single] at rest
    simp only [Bool.false_eq_true, if_false] at rest
    obtain ⟨res, _, placed, set⟩ := bind_eq_ok.mp rest
    refine ⟨first + second + third, c, taken, filled, res.pointer, allocated, ?_, ?_, ?_, ?_⟩
    · exact larger_of_uses (fillStruct_uses (fun src dst => copyWithin_uses (fun _ => trivial) depth src dst) _ _ _ _ _) fill
    · obtain ⟨found, _, _, made⟩ := bind_eq_ok.mp allocated
      cases made
      rfl
    · exact bind_eq_ok.mpr ⟨res, _, placed, bind_eq_ok.mpr ⟨(), after, set, rfl⟩⟩
    · refine larger_of_uses ?_ rest
      apply Built.bind (initPointer_uses trivial trivial _ _ _ _)
      intro res
      exact setStructPointer_uses _ _ _

end source

theorem copyFrom_initialised_iff (slot : p.Slot w) (writable : (w p.message).readonly = false)
    (single : p.compositeList = false) (tree : IsTree w p.depthLimit.toNat p)
    (treeBudget : 8 * visits w p.depthLimit.toNat p < (w p.message).traversalLimit) (source : src.IsReadableStruct w)
    (outlives : src.OutlivesErase p w) (run : copyFrom src p w = .ok () after) (compact : (after p.message).Compact)
    (budget : 48 < (after p.message).traversalLimit) (srcBudget : 48 < (after src.message).traversalLimit) :
    p.Initialised after (src.structSize w) ↔ ¬ p.Vanishes w (src.structSize w) := by
  have depth := slot.depth
  rw [copyFrom, copyWithin] at run
  have different : ¬ (p.message = src.message ∧ p.segment = src.segment ∧ p.byteOffset = src.byteOffset) := by
    rintro ⟨message, segment, byteOffset⟩
    have lower := slot.inBounds.lower
    have apart := outlives message.symm
    have inSource : (p.segment, p.byteOffset.toNat) ∈ src.path w :=
      Or.inl ⟨segment, by dsimp only; omega, by dsimp only; omega⟩
    obtain ⟨within, more⟩ := Nat.exists_eq_succ_of_ne_zero (show p.depthLimit.toNat ≠ 0 by omega)
    rw [more] at apart
    exact Set.disjoint_left.mp apart inSource
      (Or.inl (Or.inl ⟨rfl, by dsimp only; omega, by dsimp only; omega⟩))
  rw [if_neg different] at run
  obtain ⟨_, cleared, erased, rest⟩ := bind_eq_ok.mp run
  obtain ⟨remains, size⟩ := source.afterErase slot writable tree treeBudget outlives erased
  have same := sameSize_of_uses p.erase_uses erased
  have larger := larger_of_uses
    (copyTarget_uses (fun _ => trivial) (fun src dst => copyWithin_uses (fun _ => trivial) _ src dst) src p) rest
  have srcSound : (cleared src.message).Sound := by
    have bound := remains.resolves.inBounds.bound
    exact ⟨remains.wellFormed, by omega⟩
  have srcLeft := (larger src.message srcSound).traversalLimit
  obtain ⟨count, c, taken, filled, written, allocated, filling, _, wrote, finished⟩ :=
    remains.copyTarget_ok single (by omega) rest
  have spent := trans_of World.SameSize same (World.SameSize.spend cleared src.message count)
  have kept := spent p.message slot.sound
  have fits : SizeFits (src.structSize w) := structSize_fits _
  rw [size] at allocated wrote
  rw [filled_initialised_iff (slot.sameSize spent) fits allocated filling wrote finished compact budget, Vanishes, Vanishes,
    kept.place, kept.sameAllocated]

theorem isWordZero_run (wf : (w p.message).WellFormed) (inBounds : p.InBounds w) :
    p.isWordZero p.byteOffset w = .ok (p.isNullWord w) w := by
  have run := isNull_run wf inBounds
  unfold isNull at run
  dsimp only at run
  split at run
  · cases run
  · exact run

theorem isWordZero_iff (slot : p.Slot w) :
    Returns (p.isWordZero p.byteOffset) w (fun zero => zero = true ↔ p.lo w = 0 ∧ p.hi w = 0) ↔
      ¬ (p.lo w = 0 ∧ p.hi w = BitVec.twoPow 32 31) := by
  have run := isWordZero_run slot.wellFormed slot.inBounds
  have word : p.isNullWord w = true ↔ p.lo w = 0 ∧ (p.hi w = 0 ∨ p.hi w = BitVec.twoPow 32 31) := by
    rw [isNullWord, Bool.and_eq_true, Bool.or_eq_true, beq_iff_eq, beq_iff_eq, beq_iff_eq]
  constructor
  · rintro ⟨value, last, ran, holds⟩ ⟨low, sign⟩
    rw [run] at ran
    cases ran
    have zero := (holds.mp (word.mpr ⟨low, Or.inr sign⟩)).2
    rw [sign] at zero
    exact absurd zero (by decide)
  · intro other
    refine ⟨_, _, run, word.trans ?_⟩
    constructor
    · rintro ⟨low, none | sign⟩
      · exact ⟨low, none⟩
      · exact absurd ⟨low, sign⟩ other
    · rintro ⟨low, none⟩
      exact ⟨low, Or.inl none⟩

/-- Which initialised slots read as null, and which words as zero. -/
structure NullExactly (p : Pointer) (w : World) : Prop where
  initStruct : ∀ size after, SizeFits size → initStruct size p w = .ok () after → (after p.message).Compact →
    48 < (after p.message).traversalLimit → (p.Initialised after size ↔ ¬ p.Vanishes w size)
  copyFrom : ∀ src after, (w p.message).readonly = false → p.compositeList = false →
    IsTree w p.depthLimit.toNat p → 8 * visits w p.depthLimit.toNat p < (w p.message).traversalLimit →
    src.IsReadableStruct w → src.OutlivesErase p w → copyFrom src p w = .ok () after →
    (after p.message).Compact → 48 < (after p.message).traversalLimit → 48 < (after src.message).traversalLimit →
    (p.Initialised after (src.structSize w) ↔ ¬ p.Vanishes w (src.structSize w))
  isWordZero : Returns (p.isWordZero p.byteOffset) w (fun zero => zero = true ↔ p.lo w = 0 ∧ p.hi w = 0) ↔
    ¬ (p.lo w = 0 ∧ p.hi w = BitVec.twoPow 32 31)

theorem null_exactly (slot : p.Slot w) : p.NullExactly w where
  initStruct _ _ fits run compact budget := initStruct_initialised_iff slot fits run compact budget
  copyFrom _ _ writable single tree treeBudget source outlives run compact budget srcBudget :=
    copyFrom_initialised_iff slot writable single tree treeBudget source outlives run compact budget srcBudget
  isWordZero := isWordZero_iff slot

def oneWord : World := fun _ =>
  { arena := { kind := .SINGLE_SEGMENT, buffers := [] }
    segments := [{ buffer := [0, 0, 0, 0, 0, 0, 0, 0], byteLength := 8 }]
    traversalLimit := DEFAULT_TRAVERSE_LIMIT
    readonly := false
    capTable := none }

theorem oneWord_slot : (fresh 0 0 0).Slot oneWord := by
  refine ⟨?_, ⟨Int.le_refl 0, Int.le_refl 8⟩, rfl, rfl, by decide⟩
  constructor <;> decide

/-- A message with room for its root alone, and one whose root is a struct of a word. -/
def besideStruct : World := fun message =>
  if message = 0 then
    oneWord 0
  else
    { arena := { kind := .SINGLE_SEGMENT, buffers := [] }
      segments := [{ buffer := [0, 0, 0, 0, 1, 0, 0, 0, 7, 0, 0, 0, 0, 0, 0, 0], byteLength := 16 }]
      traversalLimit := DEFAULT_TRAVERSE_LIMIT
      readonly := false
      capTable := none }

theorem besideStruct_slot : (fresh 0 0 0).Slot besideStruct := by
  refine ⟨?_, ⟨Int.le_refl 0, Int.le_refl 8⟩, rfl, rfl, by decide⟩
  constructor <;> decide

theorem besideStruct_source : (fresh 1 0 0).IsReadableStruct besideStruct where
  wellFormed := by constructor <;> decide
  resolves :=
    { inBounds := by constructor <;> decide +kernel
      depth := by decide +kernel
      pad := fun far => absurd far (by decide +kernel)
      target := by constructor <;> decide +kernel
      notFar := by decide +kernel
      segment := by decide +kernel
      lower := by decide +kernel
      upper := by decide +kernel }
  plain := rfl
  filled := by decide +kernel
  struct := by decide +kernel

theorem null_exactly_besideStruct : (fresh 0 0 0).NullExactly besideStruct ∧
    ∃ after, copyFrom (fresh 1 0 0) (fresh 0 0 0) besideStruct = .ok () after ∧
      ((fresh 0 0 0).Initialised after ⟨8, 0⟩ ↔ ¬ (fresh 0 0 0).Vanishes besideStruct ⟨8, 0⟩) := by
  refine ⟨null_exactly besideStruct_slot, ?_⟩
  have checked : (match copyFrom (fresh 1 0 0) (fresh 0 0 0) besideStruct with
      | .ok _ after => decide ((after 0).segments.length < 2 ^ 32 ∧
          (∀ s ∈ (after 0).segments, s.byteLength < 2 ^ 31) ∧ 48 < (after 0).traversalLimit ∧
          48 < (after 1).traversalLimit)
      | .error _ _ => false) = true := by
    decide +kernel
  cases run : copyFrom (fresh 1 0 0) (fresh 0 0 0) besideStruct with
  | error reason after =>
      rw [run] at checked
      cases checked
  | ok value after =>
      rw [run] at checked
      obtain ⟨few, small, budget, srcBudget⟩ := of_decide_eq_true checked
      have tree : IsTree besideStruct (fresh 0 0 0).depthLimit.toNat (fresh 0 0 0) := by
        refine ⟨besideStruct_slot.inBounds, rfl, ?_⟩
        intro filled
        exact absurd filled (by decide +kernel)
      refine ⟨after, rfl, ?_⟩
      exact (null_exactly besideStruct_slot).copyFrom (fresh 1 0 0) after rfl rfl tree (by decide +kernel)
        besideStruct_source (fun same => absurd same (by decide)) run (Message.compact_of_segments few small)
        budget srcBudget

/-- An empty struct as the root of a new message is null. -/
theorem emptyRoot_null : ¬ ∀ (p : Pointer) (w after : World) (size : ObjectSize), p.Slot w → SizeFits size →
    initStruct size p w = .ok () after → p.Initialised after size := by
  intro initialised
  have null : (match initStruct ⟨0, 0⟩ (fresh 0 0 0) oneWord with
      | .ok _ after =>
          match (fresh 0 0 0).isNull after with
          | .ok zero _ => zero
          | .error _ _ => false
      | .error _ _ => false) = true := by
    decide +kernel
  cases run : initStruct ⟨0, 0⟩ (fresh 0 0 0) oneWord with
  | error reason after =>
      rw [run] at null
      cases null
  | ok value after =>
      obtain ⟨zero, last, read, filled⟩ :=
        (initialised _ _ after ⟨0, 0⟩ oneWord_slot ⟨by decide, by decide, by decide⟩ run).notNull
      rw [run] at null
      simp only [read, filled] at null
      cases null

end Pointer

end CapnpEs
