import CapnpEs.Serialization.Pointers.DataBuffers
import CapnpEs.Serialization.Pointers.GrowingMessages
import CapnpEs.Serialization.Pointers.InitialisedLists
import CapnpEs.Serialization.Pointers.LaidPointers

/-! What a text holds after `set`: what is kept of the old text, zeros up to the index, the new bytes, and a NUL. -/

namespace CapnpEs

open LittleEndian (encode store)
open Outcome

namespace Pointer

variable {p : Pointer} {w after : World}

/-! A list of bytes that was just initialised. -/

def CleanBehind (message : Nat) (w : World) : Prop :=
  ∀ segment (address : Nat), (w message).allocated segment ≤ address → (w message).memory segment address = 0

/-- The list is new, and of what was allocated only the slot has changed. -/
structure Opened (p : Pointer) (w after : World) (count : Nat) : Prop where
  data : p.IsData after
  list : p.targetType after = .LIST ∧ p.elementSize after = .BYTE
  length : p.listLength after = count
  fits : p.ContentFits after
  apart : Disjoint (p.path after) (p.own after)
  places : ∀ byte ∈ p.path after ∪ p.own after, byte ∈ p.word ∨ (w p.message).allocated byte.1 ≤ byte.2
  zero : CleanBehind p.message w → ∀ byte ∈ p.own after, (after p.message).memory byte.1 byte.2 = 0
  clean : CleanBehind p.message w → CleanBehind p.message after
  wellFormed : (after p.message).WellFormed
  memory : ∀ segment (address : Nat), (segment, address) ∉ p.word → address < (w p.message).allocated segment →
    (after p.message).memory segment address = (w p.message).memory segment address

theorem initList_opens {length : Nat} (slot : p.Slot w) (compact : (after p.message).Compact)
    (budget : 48 < (after p.message).traversalLimit) (short : length < 2 ^ 29)
    (run : initList .BYTE length p none w = .ok () after) : p.Opened w after length := by
  rw [initList, if_neg (by decide), initListContent_data (by decide)] at run
  obtain ⟨found, taken, content, rest⟩ := bind_eq_ok.mp run
  obtain ⟨c, _, allocated, made⟩ := bind_eq_ok.mp content
  cases made
  simp only at rest
  obtain ⟨rounded, writable, _, rfl, fresh⟩ := allocate_ok slot.wellFormed allocated
  have request : elementBytes .BYTE length none = length := Int.mul_one _
  rw [request] at rounded fresh rest
  have enough := le_padToWord length (by omega) (by omega) rounded
  generalize (w p.message).place p.segment (padToWord length) = id at *
  obtain ⟨res, _, placed, set⟩ := bind_eq_ok.mp rest
  have larger := listPointer_larger rest
  have wf := fresh.here.wellFormed
  have bound := fresh.here.bound
  have grown := larger p.message ⟨wf, by omega⟩
  have early := grown.compact compact
  have limit := grown.traversalLimit
  have fits : (PointerShape.list .BYTE length).Fits := ⟨by decide, short⟩
  have site : p.WriteSite taken id ((w p.message).allocated id) (.list .BYTE length) :=
    slot.writeSite writable rounded fresh (refl_of World.Larger taken) early.few (by omega) fits trivial
      fun tag => absurd tag (by simp [PointerShape.tagLength])
  have wrote : writePointer (.list .BYTE length) id ((w p.message).allocated id) p taken = .ok res.pointer after :=
    bind_eq_ok.mpr ⟨res, _, placed, bind_eq_ok.mpr ⟨(), after, set, rfl⟩⟩
  have laid := writePointer_laid site early wrote
  obtain ⟨written, encoded⟩ := laid.encoded
  have start := slot.wellFormed.allocated_nonneg id
  have own := fresh.here.allocated id
  rw [if_pos rfl] at own
  have kept := grown.allocated id
  have place : p.content after = Pointer.fresh p.message id ((w p.message).allocated id) := by
    rw [encoded.content fits]
    exact congrArg (Pointer.fresh p.message id) (Int.add_zero _)
  have list : p.targetType after = .LIST := encoded.targetType
  have size : p.elementSize after = .BYTE := by
    rw [elementSize, encoded.hi]
    exact PointerWord.ofBits_listHi _ _
  have single : ¬ p.isComposite after = true := by
    rw [encoded.isComposite fits]
    rintro ⟨_, _, impossible⟩
    cases impossible
  have counted : p.listLength after = length := by
    rw [listLength, if_neg single, encoded.hi]
    simp only [PointerShape.hi, PointerWord.listHi_shiftRight]
    omega
  have resolves : p.Resolves after := by
    refine ⟨encoded.follows, ?_, ?_, ?_, ?_⟩
    · rw [list]
      decide
    all_goals rw [encoded.start]
    · exact Nat.lt_of_lt_of_le bound grown.length
    · exact start
    · simp only [Pointer.fresh]
      omega
  have padded := padToWord_of_lt (Int.natCast_nonneg length) (by omega)
  have extent : p.extent after = padToWord length := by
    rw [Pointer.extent, list, size, counted, padded]
    simp only [if_neg (by decide : ListElementSize.BYTE ≠ .POINTER), if_neg (by decide : ListElementSize.BYTE ≠ .COMPOSITE),
      listWords, getListElementByteLength]
    omega
  have region : p.own after = span id ((w p.message).allocated id) (padToWord length) := by
    rw [Pointer.own, if_neg single, place, extent]
    rfl
  have slotUpper := slot.inBounds.upper
  have outside : ∀ byte ∈ p.own after, byte ∉ p.path after := by
    intro byte member inPath
    rw [region] at member
    obtain ⟨here, above, below⟩ := member
    rcases laid.path byte inPath with ⟨sameSegment, lower, upper⟩ | behind
    · rw [sameSegment] at here
      rw [here] at slotUpper
      omega
    · rw [here] at behind
      omega
  refine ⟨⟨⟨by decide, resolves, slot.plain, Or.inl ⟨list, size⟩⟩, ?_⟩, ⟨list, size⟩, counted, ⟨?_, ?_, ?_, ?_⟩,
    ?_, ?_, ?_, ?_, encoded.wellFormed, ?_⟩
  · rw [place, counted]
    simp only [Pointer.fresh]
    omega
  · rw [place]
    exact slot.wellFormed.allocated_aligned id
  · rw [counted]
    exact Int.natCast_nonneg length
  · exact fun composite => absurd composite single
  · rw [place, extent]
    simp only [Pointer.fresh]
    omega
  · exact Set.disjoint_right.mpr outside
  · rintro byte (inPath | inOwn)
    · refine (laid.path byte inPath).imp_right fun behind => ?_
      have total := fresh.here.allocated byte.1
      split at total <;> omega
    · right
      rw [region] at inOwn
      obtain ⟨here, above, below⟩ := inOwn
      rw [here]
      exact above
  · intro clean byte member
    have elsewhere : byte ∉ p.word := fun inWord => outside byte member (Or.inl inWord)
    rw [region] at member
    obtain ⟨here, above, below⟩ := member
    rw [laid.memory byte.1 byte.2 elsewhere (Or.inl (by rw [here]; omega)), memory_allocated fresh]
    exact clean byte.1 byte.2 (by rw [here]; exact above)
  · intro clean segment address behind
    have total := fresh.here.allocated segment
    have most := grown.allocated segment
    have old : (w p.message).allocated segment ≤ address := by
      split at total <;> omega
    have elsewhere : (segment, address) ∉ p.word := by
      rintro ⟨here, above, below⟩
      dsimp only at here above below
      rw [here] at old
      omega
    rw [laid.memory segment address elsewhere (Or.inr behind), memory_allocated fresh]
    exact clean segment address old
  · intro segment address elsewhere inside
    have total := fresh.here.allocated segment
    rw [laid.memory segment address elsewhere (Or.inl (by split at total <;> omega)), memory_allocated fresh]

/-! The view of a content. -/

theorem overwrite_view {buffer : Bytes} {start count offset : Nat} {bytes : Bytes} (inside : start + count ≤ buffer.length)
    (fits : offset + bytes.length ≤ count) :
    LittleEndian.overwrite buffer start (((buffer.drop start).take count).take offset ++ bytes ++
        ((buffer.drop start).take count).drop (offset + bytes.length)) =
      LittleEndian.overwrite buffer (start + offset) bytes := by
  have length : (((buffer.drop start).take count).take offset ++ bytes ++
      ((buffer.drop start).take count).drop (offset + bytes.length)).length = count := by
    simp only [List.length_append, List.length_take, List.length_drop]
    omega
  have front : ((buffer.drop start).take count).take offset = (buffer.drop start).take offset := by
    rw [List.take_take, Nat.min_eq_left (by omega)]
  have back : ((buffer.drop start).take count).drop (offset + bytes.length) ++ buffer.drop (start + count) =
      buffer.drop (start + offset + bytes.length) := by
    rw [List.drop_take, List.drop_drop]
    have split := List.take_append_drop (count - (offset + bytes.length)) (buffer.drop (start + offset + bytes.length))
    rw [List.drop_drop, show start + offset + bytes.length + (count - (offset + bytes.length)) = start + count by omega]
      at split
    rw [← Nat.add_assoc]
    exact split
  rw [LittleEndian.overwrite, length, front, LittleEndian.overwrite, List.take_add]
  simp only [List.append_assoc]
  rw [back]

theorem setView_ends {c : Pointer} {count : Int} {bytes : Bytes} {offset : Nat}
    (run : c.setView count bytes offset w = .ok () after) :
    0 ≤ c.byteOffset ∧ c.byteOffset + offset + bytes.length ≤ (w c.message).capacity c.segment ∧
      after = w.overwrite c.message c.segment (c.byteOffset + offset) bytes := by
  obtain ⟨s, _, located, later⟩ := bind_eq_ok.mp run
  obtain ⟨same, found⟩ := onMessage_segment_ok located
  rw [same] at later
  obtain ⟨before, _, viewing, filling⟩ := bind_eq_ok.mp later
  obtain ⟨viewed, rfl⟩ := ofExcept_eq_ok.mp viewing
  obtain ⟨view, _, setting, storing⟩ := bind_eq_ok.mp filling
  obtain ⟨filled, rfl⟩ := ofExcept_eq_ok.mp setting
  cases storing
  have whole := uint8View_length viewed
  obtain ⟨lower, nonneg, inside, rfl⟩ := uint8View_eq_ok viewed
  have fits : offset + bytes.length ≤ ((s.buffer.drop c.byteOffset.toNat).take count.toNat).length := by
    by_contra long
    rw [setBytes, if_pos (by omega)] at filled
    cases filled
  rw [setBytes_eq fits] at filled
  cases filled
  have room : (c.byteOffset + offset).toNat + bytes.length ≤ s.buffer.length := by omega
  have capacity : (w c.message).capacity c.segment = s.buffer.length := by
    rw [Message.capacity, found]
  refine ⟨lower, by omega, ?_⟩
  rw [World.overwrite, Message.patch, found]
  simp only
  rw [if_pos room, overwrite_view (by omega) (by omega),
    show (c.byteOffset + offset).toNat = c.byteOffset.toNat + offset by omega]

theorem bytesAt_layout {memory : Nat → UInt8} {start index : Nat} {kept bytes : Bytes} (short : kept.length ≤ index)
    (zero : ∀ i < index + bytes.length + 1, memory (start + i) = 0) :
    ((List.range (index + bytes.length + 1)).map fun i =>
        store (store memory start kept) (start + index) bytes (start + i)) =
      kept ++ List.replicate (index - kept.length) 0 ++ bytes ++ [0] := by
  have front : (kept ++ List.replicate (index - kept.length) (0 : UInt8)).length = index := by
    rw [List.length_append, List.length_replicate]
    omega
  have whole : (kept ++ List.replicate (index - kept.length) (0 : UInt8) ++ bytes).length = index + bytes.length := by
    rw [List.length_append, front]
  apply List.ext_getElem
  · rw [List.length_append, whole, List.length_map, List.length_range, List.length_singleton]
  · intro i first second
    rw [List.length_map, List.length_range] at first
    have clear := zero i first
    rw [List.getElem_map, List.getElem_range]
    simp only [store, List.getD_eq_getElem?_getD]
    by_cases inBytes : i < index + bytes.length
    · rw [List.getElem_append_left (by omega)]
      by_cases behind : index ≤ i
      · rw [if_pos (by omega), List.getElem_append_right (by omega), List.getElem?_eq_getElem (by omega), Option.getD_some]
        congr 1
        omega
      · rw [if_neg (by omega), List.getElem_append_left (by omega)]
        by_cases inKept : i < kept.length
        · rw [if_pos (by omega), List.getElem_append_left inKept, Nat.add_sub_cancel_left,
            List.getElem?_eq_getElem inKept, Option.getD_some]
        · rw [if_neg (by omega), List.getElem_append_right (by omega), List.getElem_replicate, clear]
    · rw [if_neg (by omega), if_neg (by omega), List.getElem_append_right (by omega), List.getElem_singleton, clear]

/-! The old text. -/

structure HoldsText (t : Pointer) (w : World) : Prop where
  resolves : t.Resolves w
  list : t.targetType w = .LIST ∧ t.elementSize w = .BYTE
  nul : 1 ≤ t.listLength w
  fits : t.ContentFits w
  apart : Disjoint (t.path w) (t.own w)

def textBytes (t : Pointer) (w : World) : Bytes :=
  if t.isNullWord w then []
  else bytesAt w t.message (t.content w).segment (t.content w).byteOffset.toNat (t.listLength w - 1).toNat

/-- The bytes of the list, with the NUL byte. -/
def storedBytes (t : Pointer) (w : World) : Bytes :=
  if t.isNullWord w then []
  else bytesAt w t.message (t.content w).segment (t.content w).byteOffset.toNat (t.listLength w).toNat

variable {t : Pointer}

namespace HoldsText

variable (text : t.HoldsText w)
include text

theorem single : t.isComposite w = false := by
  simp only [isComposite, Bool.and_eq_false_iff, decide_eq_false_iff_not]
  right
  have size := text.list.2
  rw [elementSize] at size
  rw [size]
  decide

theorem children_nil : t.children w = [] := by
  rw [children, text.list.1]
  simp [text.list.2]

theorem extent_eq : t.extent w = 8 * ((t.listLength w + 7) / 8) := by
  rw [Pointer.extent, text.list.1, text.list.2]
  simp [listWords, getListElementByteLength]

theorem inside : (t.content w).byteOffset + t.listLength w ≤ (w t.message).allocated (t.content w).segment := by
  have fits := text.fits.inside
  rw [text.extent_eq] at fits
  omega

theorem own_eq : t.own w = span (t.content w).segment (t.content w).byteOffset (8 * ((t.listLength w + 7) / 8)) := by
  rw [Pointer.own, text.single, text.extent_eq]
  rfl

theorem own_allocated : ∀ byte ∈ t.own w, byte.2 < (w t.message).allocated byte.1 := by
  have inside := text.fits.inside
  rw [text.own_eq]
  rw [text.extent_eq] at inside
  rintro byte ⟨here, above, below⟩
  rw [here]
  omega

theorem isTree (plain : t.compositeIndex = none) (depth : Nat) : IsTree w (depth + 1) t := by
  refine ⟨text.resolves.inBounds, plain, fun _ => ⟨text.resolves, text.fits, ?_, text.apart, ?_, ?_⟩⟩
  · simp [text.children_nil]
  · simp [text.children_nil]
  · simp [text.children_nil]

theorem like (plain : t.compositeIndex = none) {w' : World} (like : World.Like t.message (t.path w) w w') :
    t.HoldsText w' ∧ SameNode t w w' := by
  have simple : t.IsSimpleList .BYTE w := ⟨by decide, text.resolves, plain, Or.inl text.list⟩
  obtain ⟨still, same⟩ := simple.like like
  refine ⟨⟨still.resolves, ?_, ?_, same.fits like text.fits, ?_⟩, same⟩
  · rw [same.targetType, same.elementSize]
    exact text.list
  · rw [same.listLength]
    exact text.nul
  · rw [same.path, same.own]
    exact text.apart

theorem erase_ends (slot : t.Slot w) (notNull : t.isNullWord w = false) (writable : (w t.message).readonly = false)
    (budget : 128 < (w t.message).traversalLimit) {cleared : World} (run : t.erase w = .ok () cleared) :
    ∃ cost, Zeroed t.message cost (t.path w ∪ t.own w) w cleared := by
  have deep := slot.depth
  obtain ⟨depth, limit⟩ : ∃ depth, t.depthLimit.toNat = depth + 1 := ⟨t.depthLimit.toNat - 1, by omega⟩
  have tree := text.isTree slot.plain depth
  have visited : visits w (depth + 1) t = 16 := by
    simp [visits, notNull, text.children_nil]
  have wiped : t.wiped w = t.own w := by
    simp [Pointer.wiped, isBitList, text.list.2]
  have zeros : erased w (depth + 1) t = t.path w ∪ t.own w := by
    simp [erased, notNull, text.children_nil, wiped]
  have erases := eraseWithin_erases (depth + 1) t slot.wellFormed writable (by omega) tree (by omega)
  rw [erase, limit] at run
  rcases erases with ⟨_, after, ran, zeroed⟩ | ⟨_, reason, after, ran⟩
  · rw [ran] at run
    cases run
    rw [zeros] at zeroed
    exact ⟨_, zeroed⟩
  · rw [ran] at run
    cases run

end HoldsText

/-- The old text is out of the way, and what is kept of it is at hand. -/
structure Cleared (t : Pointer) (index : Nat) (w : World) (original : Option Bytes) (cleared : World) : Prop where
  slot : t.Slot cleared
  kept : original.getD [] = (t.textBytes w).take index
  clean : CleanBehind t.message cleared
  readonly : (cleared t.message).readonly = (w t.message).readonly
  allocated : ∀ segment, (cleared t.message).allocated segment = (w t.message).allocated segment
  memory : ∀ segment address, (segment, address) ∉ t.path w ∪ t.own w →
    (cleared t.message).memory segment address = (w t.message).memory segment address

theorem slice_eq {buffer : Bytes} {start length : Int} {index : Nat} (lower : 0 ≤ start) (nonneg : 0 ≤ length) :
    arrayBufferSlice buffer start (start + min length index) =
      ((buffer.drop start.toNat).take length.toNat).take index := by
  rw [arrayBufferSlice]
  simp only
  rw [if_neg (by omega), if_neg (by omega), List.drop_take, List.take_take]
  congr 1
  omega

theorem original_ends {index : Nat} {original : Option Bytes} {cleared : World} (slot : t.Slot w)
    (text : t.isNullWord w = false → t.HoldsText w) (clean : CleanBehind t.message w)
    (writable : (w t.message).readonly = false) (budget : 256 < (w t.message).traversalLimit)
    (run : Text.original index t w = .ok original cleared) : t.Cleared index w original cleared := by
  rw [Text.original, bind_apply, isNull_run slot.wellFormed slot.inBounds] at run
  cases null : t.isNullWord w with
  | true =>
      rw [null] at run
      cases run
      refine ⟨slot, ?_, clean, rfl, fun _ => rfl, fun _ _ _ => rfl⟩
      simp [textBytes, null]
  | false =>
      have held := text null
      have resolves := held.resolves
      have wf := slot.wellFormed
      have inside := held.inside
      have nul := held.nul
      have room := wf.allocated_le (t.content w).segment
      have start : 0 ≤ (t.content w).byteOffset := by
        rw [content_plain held.single]
        exact resolves.lower
      obtain ⟨s, found⟩ := Message.segment_of_lt (content_bound resolves)
      have buffer : (w t.message).capacity (t.content w).segment = s.buffer.length := by
        rw [Message.capacity, found]
      have memory : (w t.message).memory (t.content w).segment = LittleEndian.memoryOf s.buffer := by
        rw [Message.memory, found]
      obtain ⟨count, le, content⟩ : Reads t.getContent t.message 4 w (t.content w) :=
        getContent_reads wf resolves (by omega) slot.plain
      obtain ⟨more, few, counted⟩ := getTargetListLength_reads (wf.spend t.message count)
        (resolves.spend t.message count) (by rw [World.spend_traversalLimit]; omega) slot.plain
        (by rw [targetType_spend]; exact held.list.1)
        (by rw [isComposite_spend, held.single]; exact fun impossible => absurd impossible (by decide))
      rw [listLength_spend, World.spend_spend] at counted
      have segment : onMessage (t.content w).message (Message.segment (t.content w).segment)
          (w.spend t.message (count + more)) = .ok s (w.spend t.message (count + more)) := by
        rw [content_message]
        exact onMessage_reads (Message.segment_run (by rw [World.spend_segments]; exact found))
      rw [null] at run
      simp only [Bool.false_eq_true, if_false] at run
      rw [bind_apply, content] at run
      simp only at run
      rw [bind_apply, Text.length, bind_apply, counted] at run
      simp only [pure_apply] at run
      rw [bind_apply, segment] at run
      obtain ⟨_, _, erasing, ended⟩ := bind_eq_ok.mp run
      cases ended
      have spent := Zeroed.spend wf (count + more)
      obtain ⟨still, same⟩ := held.like slot.plain (spent.like.mono (by simp))
      have slotAfter : t.Slot (w.spend t.message (count + more)) :=
        ⟨wf.spend t.message _, slot.inBounds.spend t.message _, slot.aligned, slot.plain, slot.depth⟩
      obtain ⟨cost, zeroed⟩ := still.erase_ends slotAfter (by rw [same.isNullWord]; exact null) (by simpa using writable)
        (by rw [World.spend_traversalLimit]; omega) erasing
      rw [same.path, same.own] at zeroed
      have total := spent.trans zeroed
      rw [Set.empty_union] at total
      have kept : ∀ segment address, (segment, address) ∉ t.path w ∪ t.own w →
          (cleared t.message).memory segment address = (w t.message).memory segment address :=
        fun segment address outside => total.like.memory (segment, address) outside
      refine ⟨⟨total.like.wellFormed, ⟨slot.inBounds.lower, ?_⟩, slot.aligned, slot.plain, slot.depth⟩, ?_, ?_,
        total.like.readonly, total.like.allocated, kept⟩
      · rw [total.like.allocated]
        exact slot.inBounds.upper
      · rw [Option.getD_some, slice_eq start (by omega), textBytes, null]
        simp only [Bool.false_eq_true, if_false]
        rw [bytesAt, memory, ← take_eq_memory (by omega)]
      · intro segment address behind
        rw [total.like.allocated] at behind
        by_cases inside : (segment, address) ∈ t.path w ∪ t.own w
        · exact total.zero (segment, address) inside
        · rw [kept segment address inside]
          exact clean segment address behind

/-! The new text. -/

/-- Bytes were written over others, and nothing else has changed. -/
structure Filled (message segment : Nat) (start : Int) (bytes : Bytes) (w after : World) : Prop where
  like : ∀ others, Disjoint others (span segment start bytes.length) → World.Like message others w after
  limit : (after message).traversalLimit = (w message).traversalLimit
  memory : (after message).memory segment = store ((w message).memory segment) start.toNat bytes

theorem store_nil (memory : Nat → UInt8) (start : Nat) : store memory start [] = memory := by
  funext address
  rw [store, if_neg (by simp only [List.length_nil]; omega)]

theorem Filled.nothing {message segment : Nat} {start : Int} (wf : (w message).WellFormed) :
    Filled message segment start [] w w :=
  ⟨fun _ _ => ⟨wf, rfl, rfl, fun _ => rfl, fun _ => rfl, fun _ _ => rfl⟩, rfl, (store_nil _ _).symm⟩

theorem overwrite_filled {message segment : Nat} {start : Int} {bytes : Bytes} (wf : (w message).WellFormed)
    (lower : 0 ≤ start) (room : start + bytes.length ≤ (w message).capacity segment) :
    Filled message segment start bytes w (w.overwrite message segment start bytes) := by
  have inside : start.toNat + bytes.length ≤ (w message).capacity segment := by omega
  have memory (other : Nat) := Message.patch_memory (w message) _ _ inside other
  refine ⟨?_, by simp, ?_⟩
  · intro others apart
    constructor
    · rw [World.overwrite_self]
      exact Message.WellFormed.patch _ _ _ wf
    · simp
    · simp
    · simp
    · simp
    · rintro ⟨other, address⟩ member
      rw [World.overwrite_self, memory]
      split
      · rename_i here
        have beside : ¬ (start.toNat ≤ address ∧ address < start.toNat + bytes.length) := fun within =>
          Set.disjoint_left.mp apart member ⟨here, by dsimp only; omega, by dsimp only; omega⟩
        rw [store, if_neg beside, here]
      · rfl
  · rw [World.overwrite_self, memory, if_pos rfl]

theorem setView_fills {c : Pointer} {count : Int} {bytes : Bytes} {offset : Nat} (wf : (w c.message).WellFormed)
    (run : c.setView count bytes offset w = .ok () after) :
    Filled c.message c.segment (c.byteOffset + offset) bytes w after := by
  obtain ⟨lower, room, rfl⟩ := setView_ends run
  exact overwrite_filled wf (by omega) room

structure TextSite (t : Pointer) (w : World) : Prop where
  slot : t.Slot w
  text : t.isNullWord w = false → t.HoldsText w
  clean : CleanBehind t.message w
  writable : (w t.message).readonly = false

/-- What `set` makes of the bytes of a text. -/
def spliced (old : Bytes) (index : Nat) (bytes : Bytes) : Bytes :=
  old.take index ++ List.replicate (index - (old.take index).length) 0 ++ bytes

/-- The bytes that have been allocated and do not belong to the text. -/
def Besides (t : Pointer) (w : World) : Set Byte :=
  { byte | byte ∉ t.path w ∪ t.own w ∧ byte.2 < (w t.message).allocated byte.1 }

/-- `after` shows a text of these bytes, and what does not belong to the text as before. -/
structure Shows (t : Pointer) (w after : World) (bytes : Bytes) : Prop where
  site : t.TextSite after
  stored : t.storedBytes after = bytes ++ [0]
  bytes : t.textBytes after = bytes
  besides : t.Besides w ⊆ t.Besides after
  memory : ∀ byte ∈ t.Besides w, (after t.message).memory byte.1 byte.2 = (w t.message).memory byte.1 byte.2

theorem notNull_of_list (list : t.targetType w = .LIST) : t.isNullWord w = false := by
  rw [isNullWord, Bool.and_eq_false_imp]
  intro zero
  have lo := beq_iff_eq.mp zero
  have target : t.target w = t := by
    rw [Pointer.target, lo, if_neg (by decide)]
  rw [targetType, target, lo] at list
  exact absurd list (by decide)

def fill (t : Pointer) (count : Int) (original : Option Bytes) (bytes : Bytes) (index : Nat) : WorldM Unit := do
  let c ← t.getContent
  original.elim (pure ()) fun original => c.setView count original 0
  c.setView count bytes index

theorem fill_grown {count : Int} {original : Option Bytes} {bytes : Bytes} {index : Nat} (sound : (w t.message).Sound)
    (run : t.fill count original bytes index w = .ok () after) : (w t.message).Larger (after t.message) := by
  obtain ⟨c, found, content, writing⟩ := bind_eq_ok.mp run
  obtain ⟨_, copied, first, second⟩ := bind_eq_ok.mp writing
  have grows : w.Grows t.message found := grows_of_uses (t.getContent_uses false) content
  refine Message.Grows.larger ?_ sound
  cases original with
  | none =>
      cases first
      exact trans_of (World.Grows t.message) grows (setView_grows second)
  | some original =>
      exact trans_of (World.Grows t.message) grows (trans_of (World.Grows t.message) (setView_grows first)
        (setView_grows second))

theorem fill_fills {count : Int} {original : Option Bytes} {bytes : Bytes} {index : Nat} (wf : (w t.message).WellFormed)
    (resolves : t.Resolves w) (plain : t.compositeIndex = none) (budget : 32 < (w t.message).traversalLimit)
    (run : t.fill count original bytes index w = .ok () after) :
    ∃ spent copied, Filled t.message (t.content w).segment (t.content w).byteOffset (original.getD [])
        (w.spend t.message spent) copied ∧
      Filled t.message (t.content w).segment ((t.content w).byteOffset + index) bytes copied after := by
  obtain ⟨c, found, content, writing⟩ := bind_eq_ok.mp run
  obtain ⟨_, copied, first, second⟩ := bind_eq_ok.mp writing
  obtain ⟨spent, _, got⟩ := getContent_reads wf resolves budget plain
  rw [got] at content
  cases content
  have spentWf := wf.spend t.message spent
  have filled : Filled t.message (t.content w).segment (t.content w).byteOffset (original.getD [])
      (w.spend t.message spent) copied := by
    cases original with
    | none =>
        cases first
        exact Filled.nothing spentWf
    | some original =>
        have fills := setView_fills (by rw [content_message]; exact spentWf) first
        rw [content_message, Int.natCast_zero, Int.add_zero] at fills
        exact fills
  refine ⟨spent, copied, filled, ?_⟩
  have wfCopied := (filled.like ∅ (Set.empty_disjoint _)).wellFormed
  have fills := setView_fills (by rw [content_message]; exact wfCopied) second
  rw [content_message] at fills
  exact fills

theorem set_ends {encode : String → Bytes} {index : Nat} {value : String}
    (run : Text.set encode index value t w = .ok () after) :
    ∃ original cleared made, Text.original index t w = .ok original cleared ∧
      initList .BYTE (index + (encode value).length + 1 : Nat) t none cleared = .ok () made ∧
      t.fill ((encode value).length + index) original (encode value) index made = .ok () after := by
  obtain ⟨original, cleared, read, later⟩ := bind_eq_ok.mp run
  obtain ⟨_, made, initialised, opening⟩ := bind_eq_ok.mp later
  refine ⟨original, cleared, made, read, ?_, ?_⟩
  · have count : (((encode value).length : Int) + index + 1) = (index + (encode value).length + 1 : Nat) := by omega
    rw [count] at initialised
    exact initialised
  · cases original with
    | none => exact opening
    | some original => exact opening

theorem Opened.holdsText {cleared made : World} {count : Nat} (opened : t.Opened cleared made count) (some : 0 < count) :
    t.HoldsText made := by
  have length := opened.length
  exact ⟨opened.data.resolves, opened.list, by omega, opened.fits, opened.apart⟩

theorem Opened.fill_ends {cleared made copied : World} {index spent : Nat} {kept bytes : Bytes}
    (opened : t.Opened cleared made (index + bytes.length + 1)) (plain : t.compositeIndex = none)
    (clean : CleanBehind t.message cleared) (short : kept.length ≤ index)
    (first : Filled t.message (t.content made).segment (t.content made).byteOffset kept (made.spend t.message spent) copied)
    (second : Filled t.message (t.content made).segment ((t.content made).byteOffset + index) bytes copied after) :
    World.Like t.message (t.own made)ᶜ made after ∧ t.HoldsText after ∧ SameNode t made after ∧
      t.storedBytes after = kept ++ List.replicate (index - kept.length) 0 ++ bytes ++ [0] := by
  have text := opened.holdsText (by omega)
  have length := opened.length
  have start : 0 ≤ (t.content made).byteOffset := opened.data.start_nonneg
  have ends : (t.listLength made).toNat = index + bytes.length + 1 := by omega
  have beside (offset : Int) (count : Nat) (above : (t.content made).byteOffset ≤ offset)
      (below : offset + count ≤ (t.content made).byteOffset + (index + bytes.length : Nat)) :
      Disjoint (t.own made)ᶜ (span (t.content made).segment offset count) := by
    rw [Set.disjoint_compl_left_iff_subset, text.own_eq]
    rintro byte ⟨here, lower, upper⟩
    exact ⟨here, by omega, by omega⟩
  have like : World.Like t.message (t.own made)ᶜ made after := by
    have spentLike : World.Like t.message (t.own made)ᶜ made (made.spend t.message spent) :=
      (Zeroed.spend opened.wellFormed spent).like.mono (by simp)
    have firstLike := first.like _ (beside _ _ (Int.le_refl _) (by omega))
    have secondLike := second.like _ (beside _ _ (by omega) (by omega))
    exact spentLike.trans (firstLike.trans secondLike)
  obtain ⟨still, same⟩ := text.like plain (like.mono (Set.disjoint_left.mp text.apart))
  have zero : ∀ i < index + bytes.length + 1,
      (made t.message).memory (t.content made).segment ((t.content made).byteOffset.toNat + i) = 0 := by
    intro i below
    refine opened.zero clean ((t.content made).segment, (t.content made).byteOffset.toNat + i) ?_
    rw [text.own_eq]
    exact ⟨rfl, by dsimp only; omega, by dsimp only; omega⟩
  have layout := bytesAt_layout short zero
  have memory : (after t.message).memory (t.content made).segment =
      store (store ((made t.message).memory (t.content made).segment) (t.content made).byteOffset.toNat kept)
        ((t.content made).byteOffset.toNat + index) bytes := by
    have there : ((t.content made).byteOffset + index).toNat = (t.content made).byteOffset.toNat + index := by omega
    rw [second.memory, first.memory, World.spend_memory, there]
  refine ⟨like, still, same, ?_⟩
  rw [storedBytes, notNull_of_list still.list.1, if_neg (by decide), same.content, same.listLength, ends, bytesAt, memory]
  exact layout

theorem HoldsText.textBytes_of_stored {bytes : Bytes} (text : t.HoldsText w) (stored : t.storedBytes w = bytes ++ [0]) :
    t.textBytes w = bytes := by
  have nul := text.nul
  have count : (t.listLength w).toNat = (t.listLength w - 1).toNat + 1 := by omega
  rw [storedBytes, notNull_of_list text.list.1, if_neg (by decide), bytesAt, count, List.range_succ, List.map_append]
    at stored
  rw [textBytes, notNull_of_list text.list.1, if_neg (by decide), bytesAt]
  exact List.append_inj_left' stored rfl

theorem set_shows {encode : String → Bytes} {index : Nat} {value : String} (site : t.TextSite w)
    (short : index + (encode value).length + 1 < 2 ^ 29) (compact : (after t.message).Compact)
    (budget : 256 < (after t.message).traversalLimit) (run : Text.set encode index value t w = .ok () after) :
    t.Shows w after (spliced (t.textBytes w) index (encode value)) := by
  have slot := site.slot
  have enough := (Message.Grows.larger (Text.set_grows run) slot.sound : (w t.message).Larger (after t.message)).traversalLimit
  obtain ⟨original, cleared, made, read, initialised, filling⟩ := set_ends run
  have was := original_ends slot site.text site.clean site.writable (by omega) read
  have early := larger_of_uses (t.initList_uses _ _ _) initialised t.message was.slot.sound
  have late := fill_grown early.sound filling
  have limit := late.traversalLimit
  have opened := initList_opens was.slot (late.compact compact) (by omega) short initialised
  have text := opened.holdsText (by omega)
  obtain ⟨spent, copied, first, second⟩ :=
    fill_fills opened.wellFormed opened.data.resolves slot.plain (by omega) filling
  have keptLength : (original.getD []).length ≤ index := by
    rw [was.kept]
    exact List.length_take_le ..
  obtain ⟨like, still, same, stored⟩ := opened.fill_ends slot.plain was.clean keptLength first second
  have outside : ∀ byte ∈ t.Besides w, byte ∉ t.path made ∪ t.own made := by
    rintro byte ⟨beside, inside⟩ member
    rcases opened.places byte member with inWord | new
    · exact beside (Or.inl (Or.inl inWord))
    · rw [was.allocated] at new
      omega
  have grown (segment : Nat) : (w t.message).allocated segment ≤ (after t.message).allocated segment := by
    rw [like.allocated, ← was.allocated]
    exact early.allocated segment
  refine ⟨⟨⟨like.wellFormed, ⟨slot.inBounds.lower, ?_⟩, slot.aligned, slot.plain, slot.depth⟩,
    fun _ => still, ?_, ?_⟩, ?_, ?_, ?_, ?_⟩
  · exact Int.le_trans slot.inBounds.upper (grown t.segment)
  · intro segment address free
    rw [like.allocated] at free
    have notOwn : (segment, address) ∉ t.own made := by
      intro member
      have below := text.own_allocated _ member
      dsimp only at below
      omega
    rw [like.memory (segment, address) notOwn]
    exact opened.clean was.clean segment address free
  · rw [like.readonly, early.readonly, was.readonly]
    exact site.writable
  · rw [stored, was.kept]
    rfl
  · rw [still.textBytes_of_stored stored, was.kept]
    rfl
  · intro byte member
    refine ⟨?_, Int.lt_of_lt_of_le member.2 (grown byte.1)⟩
    rw [same.path, same.own]
    exact outside byte member
  · intro byte member
    have beside := outside byte member
    have notWord : byte ∉ t.word := fun inWord => member.1 (Or.inl (Or.inl inWord))
    rw [like.memory byte fun inOwn => beside (Or.inr inOwn),
      opened.memory byte.1 byte.2 notWord (by rw [was.allocated]; exact member.2), was.memory byte.1 byte.2 member.1]

end Pointer

end CapnpEs
