import CapnpEs.Serialization.Pointers.ErasedTrees
import CapnpEs.Serialization.Pointers.InitialisedLists
import CapnpEs.Serialization.Pointers.ShownObjects

/-! The bytes of a pointer, and where a pointer that is written then leads. -/

namespace CapnpEs

open LittleEndian (store)

namespace Pointer

variable {p written : Pointer} {w w' after : World} {segment : Nat} {byteOffset : Int} {shape : PointerShape}

theorem Follows.path_allocated (follows : p.Follows w) : ∀ byte ∈ p.path w, byte.2 < (w p.message).allocated byte.1 := by
  rintro byte (⟨here, above, below⟩ | inPads)
  · have upper := follows.inBounds.upper
    rw [here]
    omega
  · by_cases far : PointerType.ofBits (p.lo w) = .FAR
    · rw [pads, if_pos far] at inPads
      obtain ⟨here, above, below⟩ := inPads
      have padUpper := (follows.pad far).upper
      have targetUpper := follows.target.upper
      have padMessage : (p.landingPad w).message = p.message := rfl
      rw [target_message, Pointer.target, if_pos far] at targetUpper
      rw [padMessage] at padUpper
      rw [here]
      split at below
      · rename_i double
        rw [if_pos double] at targetUpper
        dsimp only at targetUpper
        omega
      · omega
    · rw [pads, if_neg far] at inPads
      exact absurd inPads (Set.notMem_empty byte)

theorem target_of_null (null : p.isNullWord w = true) : p.lo w = 0 ∧ p.target w = p := by
  have lo : p.lo w = 0 := by
    rw [isNullWord, Bool.and_eq_true] at null
    exact beq_iff_eq.mp null.1
  exact ⟨lo, by rw [Pointer.target, lo, if_neg (by decide)]⟩

theorem isComposite_of_null (null : p.isNullWord w = true) : p.isComposite w = false := by
  obtain ⟨lo, target⟩ := target_of_null null
  rw [isComposite, targetType, target, lo]
  rfl

theorem own_of_null (null : p.isNullWord w = true) : p.own w = ∅ := by
  obtain ⟨lo, target⟩ := target_of_null null
  have struct : p.targetType w = .STRUCT := by
    rw [targetType, target, lo]
    rfl
  have hi : p.hi w = 0 ∨ p.hi w = BitVec.twoPow 32 31 := by
    simpa [isNullWord, lo] using null
  have empty : p.extent w = 0 := by
    rw [Pointer.extent, struct, structSize, target]
    rcases hi with zero | top
    · rw [zero]
      rfl
    · rw [top]
      rfl
  rw [Pointer.own, isComposite_of_null null, if_neg (by decide), empty, Set.eq_empty_iff_forall_notMem]
  rintro byte ⟨here, above, below⟩
  omega

theorem bytes_of_null (null : p.isNullWord w = true) : p.path w ∪ p.own w = p.word := by
  obtain ⟨lo, _⟩ := target_of_null null
  rw [own_of_null null, Set.union_empty, path, pads, lo, if_neg (by decide), Set.union_empty]

theorem sameNode_single (kept : World.Kept p.message (p.path w ∪ p.own w) w w') (lower : 0 ≤ p.byteOffset)
    (single : p.isComposite w = false) : SameNode p w w' := by
  obtain ⟨lo, hi, target, targetLo, targetHi, start⟩ := path_same lower fun byte member => kept.memory byte (Or.inl member)
  exact ⟨lo, hi, target, targetLo, targetHi, start, fun composite => by simp [single] at composite,
    fun composite => by simp [single] at composite⟩

theorem putPointer_outside {lo hi : BitVec 32} (wf : (w p.message).WellFormed) (inBounds : p.InBounds w)
    {segment address : Nat} (outside : (segment, address) ∉ p.word) :
    (w.putPointer p lo hi p.message).memory segment address = (w p.message).memory segment address := by
  have lower := inBounds.lower
  rw [putPointer_memory wf inBounds]
  by_cases here : segment = p.segment
  · subst here
    have apart : ¬ (p.byteOffset ≤ address ∧ (address : Int) < p.byteOffset + 8) := fun within =>
      outside ⟨rfl, within.1, within.2⟩
    rw [if_pos ⟨rfl, rfl⟩, store, if_neg (by rw [LittleEndian.encode_length]; omega), store,
      if_neg (by rw [LittleEndian.encode_length]; omega)]
  · rw [if_neg fun same => here same.2]

/-- A pointer was written to a slot: of what was allocated only the slot has changed. -/
structure Put (p : Pointer) (w after : World) : Prop where
  wellFormed : (after p.message).WellFormed
  readonly : (after p.message).readonly = (w p.message).readonly
  traversalLimit : (w p.message).traversalLimit - 8 ≤ (after p.message).traversalLimit
  length : (w p.message).segments.length ≤ (after p.message).segments.length
  allocated : ∀ segment, (w p.message).allocated segment ≤ (after p.message).allocated segment
  memory : ∀ segment (address : Nat), (segment, address) ∉ p.word →
    (address < (w p.message).allocated segment ∨ (after p.message).allocated segment ≤ address) →
      (after p.message).memory segment address = (w p.message).memory segment address
  others : ∀ other ≠ p.message, after other = w other

/-- What it leads through beside the slot is new. -/
structure Laid (p : Pointer) (w after : World) (segment : Nat) (byteOffset : Int) (shape : PointerShape) : Prop
    extends p.Put w after where
  encoded : ∃ written, p.Encoded after written segment byteOffset shape
  path : ∀ byte ∈ p.path after, byte ∈ p.word ∨ (w p.message).allocated byte.1 ≤ byte.2

/-- Where the offsets lead that are written for a place. -/
def leadsTo (p : Pointer) (w : World) (segment : Nat) (byteOffset : Int) : Int :=
  if p.segment = segment then p.byteOffset + 8 + ((byteOffset - p.byteOffset - 8) / 8).bmod (2 ^ 30) * 8
  else if (w p.message).allocated segment + 8 ≤ (w p.message).capacity segment then
    (w p.message).allocated segment + 8 + ((byteOffset - (w p.message).allocated segment - 8) / 8).bmod (2 ^ 30) * 8
  else (byteOffset / 8).bmod (2 ^ 29) * 8

/-- The landing pad, if there is to be one, starts where a far pointer can name it. -/
def PadFits (p : Pointer) (w : World) (segment : Nat) : Prop :=
  p.segment = segment ∨ (w p.message).allocated
    (if (w p.message).allocated segment + 8 ≤ (w p.message).capacity segment then segment
      else (w p.message).place p.segment 16) < 2 ^ 32

theorem putPointer_others {lo hi : BitVec 32} {other : Nat} (different : other ≠ p.message) :
    w.putPointer p lo hi other = w other :=
  Function.update_of_ne different _ _

theorem far_put {offset : Int} (site : p.PointerSite w segment byteOffset shape)
    (behind : (w p.message).allocated segment = offset) (allocated : w.Allocated w' p.message segment 8) :
    p.Put w (writeFar w' p segment offset byteOffset shape) := by
  have here := allocated.here
  have pad := far_pad site behind allocated
  obtain ⟨wf, -⟩ := far_words site behind allocated
  constructor
  · exact wf
  · simp only [writeFar, World.putPointer_readonly, here.readonly]
  · simp only [writeFar, World.putPointer_traversalLimit, here.traversalLimit]
    omega
  · simp only [writeFar, World.putPointer_length, here.length]
  · intro other
    simp only [writeFar, World.putPointer_allocated, here.allocated]
    split <;> omega
  · intro other address outside inside
    have grown := here.allocated segment
    rw [if_pos rfl] at grown
    have beside : (other, address) ∉ (fresh p.message segment offset).word := by
      rintro ⟨here, above, below⟩
      simp only [fresh, writeFar, World.putPointer_allocated] at here above below inside
      rw [here] at inside
      omega
    have wf' := here.wellFormed
    rw [writeFar]
    refine (putPointer_outside (p := fresh p.message segment _) (wf'.putPointer _ _ _) pad.putPointer beside).trans ?_
    refine (putPointer_outside wf' (site.slot.allocated (by decide) allocated) outside).trans ?_
    rw [memory_allocated allocated]
  · intro other different
    rw [writeFar, putPointer_others (p := fresh p.message segment _) different, putPointer_others different,
      allocated.others other different]

theorem doubleFar_put {id : Nat} {offset : Int} (site : p.PointerSite w segment byteOffset shape)
    (behind : (w p.message).allocated id = offset) (allocated : w.Allocated w' p.message id 16) :
    p.Put w (writeDoubleFar w' p id offset segment byteOffset shape) := by
  have here := allocated.here
  have pad := doubleFar_pad site behind allocated
  have tag := doubleFar_tag site behind allocated
  obtain ⟨wf, -⟩ := doubleFar_words site behind allocated
  constructor
  · exact wf
  · simp only [writeDoubleFar, World.putPointer_readonly, here.readonly]
  · simp only [writeDoubleFar, World.putPointer_traversalLimit, here.traversalLimit]
    omega
  · simp only [writeDoubleFar, World.putPointer_length, here.length]
  · intro other
    simp only [writeDoubleFar, World.putPointer_allocated, here.allocated]
    split <;> omega
  · intro other address outside inside
    have grown := here.allocated id
    rw [if_pos rfl] at grown
    have beside (start : Int) (after : offset ≤ start) (before : start + 8 ≤ offset + 16) :
        (other, address) ∉ (fresh p.message id start).word := by
      rintro ⟨here, above, below⟩
      simp only [fresh, writeDoubleFar, World.putPointer_allocated] at here above below inside
      rw [here] at inside
      omega
    have wf' := here.wellFormed
    have wfPad : (w'.putPointer p (PointerWord.farLo true (offset / 8)) (BitVec.ofNat 32 id) p.message).WellFormed :=
      wf'.putPointer _ _ _
    rw [writeDoubleFar]
    refine (putPointer_outside (p := fresh p.message _ _) (wfPad.putPointer _ _ _) tag.putPointer.putPointer
      (beside _ (by omega) (by omega))).trans ?_
    refine (putPointer_outside (p := fresh p.message _ _) wfPad pad.putPointer (beside _ (by omega) (by omega))).trans ?_
    refine (putPointer_outside wf' (site.slot.allocated (by decide) allocated) outside).trans ?_
    rw [memory_allocated allocated]
  · intro other different
    rw [writeDoubleFar, putPointer_others (p := fresh p.message id _) different,
      putPointer_others (p := fresh p.message id _) different, putPointer_others different, allocated.others other different]

theorem writePointer_put (site : p.PointerSite w segment byteOffset shape)
    (run : writePointer shape segment byteOffset p w = .ok written after) : p.Put w after := by
  by_cases same : p.segment = segment
  · rw [writePointer_near site same] at run
    cases run
    constructor
    · exact site.wellFormed.putPointer _ _ _
    · exact World.putPointer_readonly _ _ _ _ _
    · rw [World.putPointer_traversalLimit]
      omega
    · rw [World.putPointer_length]
    · intro segment
      rw [World.putPointer_allocated]
    · intro segment address outside _
      exact putPointer_outside site.wellFormed site.slot outside
    · intro other different
      exact putPointer_others different
  · by_cases room : (w p.message).allocated segment + 8 ≤ (w p.message).capacity segment
    · obtain ⟨w', allocated, ran⟩ := writePointer_far site same room
      rw [ran] at run
      cases run
      exact far_put site rfl allocated
    · obtain ⟨w', allocated, ran⟩ := writePointer_doubleFar site same room
      rw [ran] at run
      cases run
      exact doubleFar_put site rfl allocated

theorem Encoded.path_far {start : Int} (encoded : p.Encoded w written segment start shape)
    (far : PointerType.ofBits (p.lo w) = .FAR) (offset : Int)
    (behind : offset ≤ written.byteOffset - if PointerWord.isDoubleFar (p.lo w) then 8 else 0) :
    ∀ byte ∈ p.path w, byte ∈ p.word ∨ (byte.1 = written.segment ∧ offset ≤ byte.2) := by
  have slot := encoded.slot
  rintro byte (own | beside)
  · exact Or.inl own
  · right
    rw [pads, if_pos far] at beside
    obtain ⟨here, above, -⟩ := beside
    have target : p.target w = if PointerWord.isDoubleFar (p.lo w) then
        { p.landingPad w with byteOffset := (p.landingPad w).byteOffset + 8 } else p.landingPad w := by
      rw [Pointer.target, if_pos far]
    rw [target] at slot
    split at slot
    · rename_i double
      have segments := slot.segment
      have offsets := slot.byteOffset
      dsimp only at segments offsets
      rw [if_pos double] at behind
      exact ⟨here.trans segments.symm, by omega⟩
    · rename_i single
      have segments := slot.segment
      have offsets := slot.byteOffset
      rw [if_neg single] at behind
      exact ⟨here.trans segments.symm, by omega⟩

theorem writePointer_leads (site : p.PointerSite w segment byteOffset shape) (fits : p.PadFits w segment)
    (run : writePointer shape segment byteOffset p w = .ok written after) :
    p.Laid w after segment (p.leadsTo w segment byteOffset) shape := by
  have put := writePointer_put site run
  by_cases same : p.segment = segment
  · rw [writePointer_near site same] at run
    cases run
    rw [leadsTo, if_pos same]
    refine ⟨put, ⟨_, near_encoded site same⟩, ?_⟩
    intro byte member
    left
    rwa [path_near] at member
    rw [lo_putPointer site.wellFormed site.slot ⟨rfl, rfl, rfl⟩, PointerWord.ofBits_nearLo]
    exact type_ne_far shape
  · have small := fits.resolve_left same
    rw [leadsTo, if_neg same]
    by_cases room : (w p.message).allocated segment + 8 ≤ (w p.message).capacity segment
    · obtain ⟨w', allocated, ran⟩ := writePointer_far site same room
      rw [ran] at run
      cases run
      rw [if_pos room] at small ⊢
      have encoded := far_encoded site rfl allocated small
      obtain ⟨_, _, _, lo, _⟩ := far_words site rfl allocated
      have inPath := encoded.path_far (by rw [lo, PointerWord.ofBits_farLo]) ((w p.message).allocated segment)
        (by rw [lo, PointerWord.isDoubleFar_farLo]; simp [fresh])
      refine ⟨put, ⟨_, encoded⟩, ?_⟩
      intro byte member
      refine (inPath byte member).imp_right ?_
      rintro ⟨here, behind⟩
      rw [here]
      exact behind
    · obtain ⟨w', allocated, ran⟩ := writePointer_doubleFar site same room
      rw [ran] at run
      cases run
      rw [if_neg room] at small ⊢
      have encoded := doubleFar_encoded site rfl allocated small (place_lt site 16)
      obtain ⟨_, _, _, _, lo, _⟩ := doubleFar_words site rfl allocated
      have inPath := encoded.path_far (by rw [lo, PointerWord.ofBits_farLo])
        ((w p.message).allocated ((w p.message).place p.segment 16)) (by rw [lo, PointerWord.isDoubleFar_farLo]; simp [fresh])
      refine ⟨put, ⟨_, encoded⟩, ?_⟩
      intro byte member
      refine (inPath byte member).imp_right ?_
      rintro ⟨here, behind⟩
      rw [here]
      exact behind

theorem leadsTo_compact (site : p.WriteSite w segment byteOffset shape) (compact : (w p.message).Compact) :
    p.leadsTo w segment byteOffset = byteOffset := by
  have lower := site.lower
  have upper := site.upper
  have aligned := site.aligned
  have slotLower := site.slot.lower
  have slotUpper := site.slot.upper
  have slotAligned := site.slotAligned
  have top := compact.small segment
  have slotTop := compact.small p.segment
  have padAligned := site.wellFormed.allocated_aligned segment
  rw [leadsTo]
  simp only [Int.bmod]
  split_ifs <;> omega

theorem writePointer_laid (site : p.WriteSite w segment byteOffset shape) (compact : (w p.message).Compact)
    (run : writePointer shape segment byteOffset p w = .ok written after) : p.Laid w after segment byteOffset shape := by
  have leads := writePointer_leads site.toPointerSite (Or.inr (Int.lt_trans (compact.small _) (by decide))) run
  rwa [leadsTo_compact site compact] at leads

end Pointer

end CapnpEs
