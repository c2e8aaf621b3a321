import CapnpEs.Serialization.Pointers.PointerEncoding

/-! A pointer written through `initPointer` leads back to the content it was written for. -/

namespace CapnpEs

open LittleEndian (memoryOf read store encode)

inductive PointerShape
  | struct (size : ObjectSize)
  | list (elementSize : ListElementSize) (length : Nat)
  | composite (length : Nat) (size : ObjectSize)
  deriving DecidableEq, Repr

namespace PointerShape

def type : PointerShape → PointerType
  | struct _ => .STRUCT
  | list _ _ => .LIST
  | composite _ _ => .LIST

def hi : PointerShape → BitVec 32
  | struct size => PointerWord.structHi size
  | list elementSize length => PointerWord.listHi elementSize length
  | composite length size => PointerWord.listHi .COMPOSITE (length * size.getWordLength)

/-- The word in front of the elements of a composite list. -/
def tagLength : PointerShape → Int
  | composite _ _ => 8
  | _ => 0

def SizeFits (size : ObjectSize) : Prop :=
  size.dataByteLength % 8 = 0 ∧ size.dataByteLength < 2 ^ 16 * 8 ∧ size.pointerLength < 2 ^ 16

def Fits : PointerShape → Prop
  | struct size => SizeFits size
  | list elementSize length => elementSize ≠ .COMPOSITE ∧ length < 2 ^ 29
  | composite length size => length < 2 ^ 29 ∧ SizeFits size

end PointerShape

namespace Pointer

def setPointer (shape : PointerShape) (offsetWords : Int) (p : Pointer) : WorldM Unit :=
  match shape with
  | .struct size => setStructPointer offsetWords size p
  | .list elementSize length => setListPointer offsetWords elementSize length p none
  | .composite length size => setListPointer offsetWords .COMPOSITE length p (some size)

/-- What every writer of a pointer does; the result is the word that was written last. -/
def writePointer (shape : PointerShape) (contentSegment : Nat) (contentOffset : Int)
    (p : Pointer) : WorldM Pointer := do
  let res ← initPointer p.message contentSegment contentOffset p
  setPointer shape res.offsetWords res.pointer
  return res.pointer

end Pointer

/-- `program` ends normally, with a value that has a property. -/
def Returns {α : Type} (program : WorldM α) (w : World) (good : α → Prop) : Prop :=
  ∃ value after, program w = .ok value after ∧ good value

theorem Reads.returns {α : Type} {program : WorldM α} {message cost : Nat} {w : World} {value : α}
    {good : α → Prop} (reads : Reads program message cost w value) (holds : good value) :
    Returns program w good := by
  obtain ⟨count, _, run⟩ := reads
  exact ⟨value, _, run, holds⟩

namespace Pointer

def DescribedAs (p : Pointer) (w : World) : PointerShape → Prop
  | .struct size => Returns p.getTargetStructSize w (· = size)
  | .list elementSize length =>
      Returns p.getTargetListElementSize w (· = elementSize) ∧
        Returns p.getTargetListLength w (· = length)
  | .composite length size =>
      Returns p.getTargetListElementSize w (· = .COMPOSITE) ∧
        Returns p.getTargetListLength w (· = length) ∧
          Returns p.getTargetCompositeListSize w (· = size)

/-- `p` reads as a pointer of this shape to the content at this place, through the word that
`written` stands for. -/
structure ReadsAs (p : Pointer) (w : World) (written : Pointer) (segment : Nat) (byteOffset : Int)
    (shape : PointerShape) : Prop where
  target : Returns p.followFars w written.SameSlot
  type : Returns p.getTargetPointerType w (· = shape.type)
  content : Returns p.getContent w fun c =>
    c.message = p.message ∧ c.segment = segment ∧ c.byteOffset = byteOffset + shape.tagLength
  described : p.DescribedAs w shape

/-- `p` leads to the word `written`, which describes an object at this place. -/
structure Encoded (p : Pointer) (w : World) (written : Pointer) (segment : Nat) (start : Int)
    (shape : PointerShape) : Prop where
  wellFormed : (w p.message).WellFormed
  follows : p.Follows w
  slot : written.SameSlot (p.target w)
  lo : ∃ offsetWords, (p.target w).lo w = PointerWord.nearLo shape.type offsetWords
  hi : (p.target w).hi w = shape.hi
  start : p.objectStart w = fresh p.message segment start

/-- The tag in front of a composite list's elements, as its writer leaves it. -/
def Tagged (w : World) (message segment : Nat) (byteOffset : Int) : PointerShape → Prop
  | .composite length size =>
      (fresh message segment byteOffset).InBounds w ∧
        (fresh message segment byteOffset).lo w = PointerWord.nearLo .STRUCT length ∧
          (fresh message segment byteOffset).hi w = PointerWord.structHi size
  | _ => True

variable {p written : Pointer} {w : World} {segment : Nat} {start byteOffset : Int}
  {shape : PointerShape}

theorem type_near (shape : PointerShape) : shape.type = .STRUCT ∨ shape.type = .LIST := by
  cases shape with
  | struct size => exact Or.inl rfl
  | list elementSize length => exact Or.inr rfl
  | composite length size => exact Or.inr rfl

theorem type_ne_far (shape : PointerShape) : shape.type ≠ .FAR := by
  rcases type_near shape with type | type <;> simp [type]

theorem Encoded.targetType (encoded : p.Encoded w written segment start shape) :
    p.targetType w = shape.type := by
  obtain ⟨offsetWords, lo⟩ := encoded.lo
  rw [Pointer.targetType, lo, PointerWord.ofBits_nearLo]

theorem Encoded.isComposite (encoded : p.Encoded w written segment start shape)
    (fits : shape.Fits) : p.isComposite w = true ↔ ∃ length size, shape = .composite length size := by
  rw [Pointer.isComposite, encoded.targetType, encoded.hi]
  cases shape with
  | struct size => simp [PointerShape.type]
  | list elementSize length =>
      have other := fits.1
      simp [PointerShape.type, PointerShape.hi, PointerWord.ofBits_listHi, other]
  | composite length size =>
      simp [PointerShape.type, PointerShape.hi, PointerWord.ofBits_listHi]

theorem Encoded.content (encoded : p.Encoded w written segment start shape) (fits : shape.Fits) :
    p.content w = fresh p.message segment (start + shape.tagLength) := by
  have composite := encoded.isComposite fits
  rw [Pointer.content, encoded.start]
  cases shape with
  | struct size => simp [composite, PointerShape.tagLength]
  | list elementSize length => simp [composite, PointerShape.tagLength]
  | composite length size => simp [composite, PointerShape.tagLength, fresh]

theorem Encoded.describedAs (encoded : p.Encoded w written segment start shape)
    (resolves : p.Resolves w) (plain : p.compositeIndex = none)
    (budget : 40 < (w p.message).traversalLimit) (fits : shape.Fits)
    (tagged : Tagged w p.message segment start shape) : p.DescribedAs w shape := by
  have wf := encoded.wellFormed
  have follows := encoded.follows
  have composite := encoded.isComposite fits
  have size := getTargetStructSize_reads wf follows (by omega)
  have elementSize := getTargetListElementSize_reads wf follows (by omega)
  rw [encoded.hi] at size elementSize
  cases shape with
  | struct wanted =>
      obtain ⟨aligned, data, pointers⟩ := fits
      exact size.returns (PointerWord.structSize_structHi aligned data pointers)
  | list wanted length =>
      have plainList : ¬ p.isComposite w = true := by simp [composite]
      have found := getTargetListLength_reads wf resolves budget plain encoded.targetType
        fun isComposite => absurd isComposite plainList
      refine ⟨elementSize.returns (PointerWord.ofBits_listHi _ _), found.returns ?_⟩
      rw [listLength, if_neg plainList, encoded.hi]
      have bound := fits.2
      simp only [PointerShape.hi, PointerWord.listHi_shiftRight]
      omega
  | composite length wanted =>
      obtain ⟨bound, aligned, data, pointers⟩ := fits
      obtain ⟨inBounds, lo, hi⟩ := tagged
      have isComposite : p.isComposite w = true := by simp [composite]
      rw [← encoded.start] at inBounds lo hi
      have found := getTargetListLength_reads wf resolves budget plain encoded.targetType
        fun _ => inBounds
      have tag := getTargetCompositeListSize_reads wf resolves (by omega) plain isComposite inBounds
      refine ⟨elementSize.returns (PointerWord.ofBits_listHi _ _), found.returns ?_, tag.returns ?_⟩
      · rw [listLength, if_pos isComposite, lo, PointerWord.offsetWords_nearLo (Or.inl rfl),
          Int.bmod]
        split <;> omega
      · rw [hi]
        exact PointerWord.structSize_structHi aligned data pointers

theorem Encoded.readsAs_iff (encoded : p.Encoded w written segment start shape)
    (plain : p.compositeIndex = none) (budget : 40 < (w p.message).traversalLimit)
    (fits : shape.Fits) (bound : segment < (w p.message).segments.length) (lower : 0 ≤ byteOffset)
    (upper : byteOffset ≤ (w p.message).allocated segment)
    (tagged : Tagged w p.message segment byteOffset shape) :
    p.ReadsAs w written segment byteOffset shape ↔ start = byteOffset := by
  have wf := encoded.wellFormed
  have follows := encoded.follows
  have notFar : p.targetType w ≠ .FAR := by
    rw [encoded.targetType]
    exact type_ne_far shape
  constructor
  · intro readsAs
    obtain ⟨c, after, run, -, -, found⟩ := readsAs.content
    rw [getContent_ok wf follows notFar (by omega) plain run, encoded.content fits] at found
    simp only [fresh] at found
    omega
  · rintro rfl
    have resolves : p.Resolves w := by
      refine ⟨follows, notFar, ?_, ?_, ?_⟩
      all_goals rw [encoded.start]
      · exact bound
      · exact lower
      · exact upper
    constructor
    · exact (followFars_reads wf follows (by omega)).returns encoded.slot
    · exact (getTargetPointerType_reads wf follows (by omega) notFar).returns encoded.targetType
    · refine (getContent_reads wf resolves (by omega) plain).returns ?_
      rw [encoded.content fits]
      exact ⟨rfl, rfl, rfl⟩
    · exact encoded.describedAs resolves plain budget fits tagged

theorem setPointer_run (wf : (w p.message).WellFormed)
    (writable : (w p.message).readonly = false) (inBounds : p.InBounds w) (fits : shape.Fits)
    (offsetWords : Int) :
    setPointer shape offsetWords p w =
      .ok () (w.putPointer p (PointerWord.nearLo shape.type offsetWords) shape.hi) := by
  cases shape with
  | struct size => exact setStructPointer_run wf writable inBounds offsetWords size
  | list elementSize length =>
      have run := setListPointer_run wf writable inBounds offsetWords elementSize length none
        fun composite => absurd composite fits.1
      rwa [listD, if_neg fits.1] at run
  | composite length size =>
      exact setListPointer_run wf writable inBounds offsetWords .COMPOSITE length (some size)
        fun _ => by simp

/-- A slot, and a place in the same message that a pointer in it is to lead to. -/
structure PointerSite (p : Pointer) (w : World) (segment : Nat) (byteOffset : Int)
    (shape : PointerShape) : Prop where
  wellFormed : (w p.message).WellFormed
  writable : (w p.message).readonly = false
  slot : p.InBounds w
  slotAligned : p.byteOffset % 8 = 0
  bound : segment < (w p.message).segments.length
  aligned : byteOffset % 8 = 0
  few : (w p.message).segments.length < 2 ^ 32
  fits : shape.Fits
  depth : 2 ≤ p.depthLimit
  budget : 48 < (w p.message).traversalLimit

/-- The place lies in allocated space and holds what the pointer is to lead to. -/
structure WriteSite (p : Pointer) (w : World) (segment : Nat) (byteOffset : Int)
    (shape : PointerShape) : Prop extends p.PointerSite w segment byteOffset shape where
  plain : p.compositeIndex = none
  lower : 0 ≤ byteOffset
  upper : byteOffset ≤ (w p.message).allocated segment
  tagged : Tagged w p.message segment byteOffset shape
  tagApart : 0 < shape.tagLength → (fresh p.message segment byteOffset).Apart p

def Encodable (p : Pointer) (w : World) (segment : Nat) (byteOffset : Int) : Prop :=
  if p.segment = segment then
    -2 ^ 32 ≤ byteOffset - p.byteOffset - 8 ∧ byteOffset - p.byteOffset - 8 < 2 ^ 32
  else if (w p.message).allocated segment + 8 ≤ (w p.message).capacity segment then
    (w p.message).allocated segment < 2 ^ 32
  else
    byteOffset < 2 ^ 31 ∧
      (w p.message).allocated ((w p.message).place p.segment 16) < 2 ^ 32

theorem Tagged.putPointer {q : Pointer} {l h : BitVec 32} (wf : (w q.message).WellFormed)
    (inBounds : q.InBounds w) {message : Nat} (tagged : Tagged w message segment byteOffset shape)
    (apart : 0 < shape.tagLength → (fresh message segment byteOffset).Apart q) :
    Tagged (w.putPointer q l h) message segment byteOffset shape := by
  cases shape with
  | struct size => trivial
  | list elementSize length => trivial
  | composite length size =>
      obtain ⟨tag, tagLo, tagHi⟩ := tagged
      have separate := apart (by simp [PointerShape.tagLength])
      refine ⟨tag.putPointer, ?_, ?_⟩
      · rw [lo_putPointer_apart wf inBounds tag.lower separate, tagLo]
      · rw [hi_putPointer_apart wf inBounds tag.lower separate, tagHi]

theorem Tagged.allocated {w' : World} {message id : Nat} {byteLength : Int}
    (tagged : Tagged w message segment byteOffset shape) (positive : 0 ≤ byteLength)
    (allocated : w.Allocated w' message id byteLength) :
    Tagged w' message segment byteOffset shape := by
  cases shape with
  | struct size => trivial
  | list elementSize length => trivial
  | composite length size =>
      obtain ⟨tag, tagLo, tagHi⟩ := tagged
      refine ⟨tag.allocated positive allocated, ?_, ?_⟩
      · rw [lo_allocated allocated, tagLo]
      · rw [hi_allocated allocated, tagHi]

theorem target_nearLo {offsetWords : Int} (lo : p.lo w = PointerWord.nearLo shape.type offsetWords) :
    p.target w = p ∧ PointerWord.isDoubleFar (p.lo w) = false := by
  constructor
  · rw [target, lo, PointerWord.ofBits_nearLo, if_neg (type_ne_far shape)]
  · rw [lo, PointerWord.isDoubleFar_nearLo (type_ne_far shape)]

theorem tdiv_eight {value : Int} (aligned : value % 8 = 0) : value.tdiv 8 = value / 8 :=
  Int.tdiv_eq_ediv_of_dvd (Int.dvd_of_emod_eq_zero aligned)

/-! The near encoding. -/

section near

variable (site : p.PointerSite w segment byteOffset shape) (same : p.segment = segment)
include site same

theorem writePointer_near :
    writePointer shape segment byteOffset p w =
      .ok p (w.putPointer p
        (PointerWord.nearLo shape.type ((byteOffset - p.byteOffset - 8) / 8)) shape.hi) := by
  have slotAligned := site.slotAligned
  have aligned := site.aligned
  rw [writePointer, Outcome.bind_apply, initPointer_near same]
  simp only
  rw [Outcome.bind_apply, setPointer_run site.wellFormed site.writable site.slot site.fits,
    tdiv_eight (by omega)]
  rfl

theorem near_encoded :
    p.Encoded (w.putPointer p
        (PointerWord.nearLo shape.type ((byteOffset - p.byteOffset - 8) / 8)) shape.hi) p segment
      (p.byteOffset + 8 + ((byteOffset - p.byteOffset - 8) / 8).bmod (2 ^ 30) * 8) shape := by
  let offsetWords := (byteOffset - p.byteOffset - 8) / 8
  let w' := w.putPointer p (PointerWord.nearLo shape.type offsetWords) shape.hi
  have lo : p.lo w' = PointerWord.nearLo shape.type offsetWords :=
    lo_putPointer site.wellFormed site.slot ⟨rfl, rfl, rfl⟩
  have hi : p.hi w' = shape.hi := hi_putPointer site.wellFormed site.slot ⟨rfl, rfl, rfl⟩
  obtain ⟨target, single⟩ := target_nearLo lo
  have notFar : PointerType.ofBits (p.lo w') ≠ .FAR := by
    rw [lo, PointerWord.ofBits_nearLo]
    exact type_ne_far shape
  constructor
  · exact site.wellFormed.putPointer _ _ _
  · refine ⟨site.slot.putPointer, ?_, ?_, ?_⟩
    · intro far
      exact absurd far notFar
    · intro far
      exact absurd far notFar
    · rw [target]
      exact site.slot.putPointer
  · rw [target]
    exact ⟨rfl, rfl, rfl⟩
  · rw [target]
    exact ⟨offsetWords, lo⟩
  · rw [target, hi]
  · rw [objectStart, single, target, lo, PointerWord.offsetWords_nearLo (type_near shape), same]
    rfl

end near

theorem near_readsAs_iff (site : p.WriteSite w segment byteOffset shape) (same : p.segment = segment) :
    p.ReadsAs (w.putPointer p
        (PointerWord.nearLo shape.type ((byteOffset - p.byteOffset - 8) / 8)) shape.hi) p segment
      byteOffset shape ↔ p.Encodable w segment byteOffset := by
  have slotAligned := site.slotAligned
  have aligned := site.aligned
  rw [(near_encoded site.toPointerSite same).readsAs_iff site.plain ?_ site.fits ?_ site.lower ?_
    (site.tagged.putPointer site.wellFormed site.slot site.tagApart)]
  · rw [Encodable, if_pos same, Int.bmod]
    split <;> omega
  · have enough := site.budget
    simp only [World.putPointer_traversalLimit]
    omega
  · simpa using site.bound
  · simpa using site.upper

/-! The far encoding: a landing pad behind the content. -/

/-- `w` after the far pointer and the word in its landing pad are written. -/
def writeFar (w : World) (p : Pointer) (segment : Nat) (offset byteOffset : Int)
    (shape : PointerShape) : World :=
  (w.putPointer p (PointerWord.farLo false (offset / 8)) (BitVec.ofNat 32 segment)).putPointer
    (fresh p.message segment offset)
    (PointerWord.nearLo shape.type ((byteOffset - offset - 8) / 8)) shape.hi

section far

variable {w' : World} {offset : Int} (site : p.PointerSite w segment byteOffset shape)
  (behind : (w p.message).allocated segment = offset)
  (allocated : w.Allocated w' p.message segment 8)
include site behind allocated

theorem far_pad : (fresh p.message segment offset).InBounds w' :=
  fresh_inBounds site.wellFormed allocated (by omega) (by omega)

theorem far_words :
    let after := writeFar w' p segment offset byteOffset shape
    (after p.message).WellFormed ∧ p.InBounds after ∧
      (fresh p.message segment offset).InBounds after ∧
      p.lo after = PointerWord.farLo false (offset / 8) ∧ p.hi after = BitVec.ofNat 32 segment ∧
      (fresh p.message segment offset).lo after =
        PointerWord.nearLo shape.type ((byteOffset - offset - 8) / 8) ∧
      (fresh p.message segment offset).hi after = shape.hi := by
  have wf := allocated.here.wellFormed
  have slot := site.slot.allocated (by decide) allocated
  have apart : p.Apart (fresh p.message segment offset) := site.slot.apart_fresh (by omega)
  have padIn := far_pad site behind allocated
  have wfMiddle : (w'.putPointer p (PointerWord.farLo false (offset / 8))
      (BitVec.ofNat 32 segment) (fresh p.message segment offset).message).WellFormed :=
    wf.putPointer _ _ _
  have padMiddle : (fresh p.message segment offset).InBounds (w'.putPointer p
      (PointerWord.farLo false (offset / 8)) (BitVec.ofNat 32 segment)) :=
    padIn.putPointer
  refine ⟨wfMiddle.putPointer _ _ _, slot.putPointer.putPointer, padMiddle.putPointer,
    ?_, ?_, ?_, ?_⟩
  · exact (lo_putPointer_apart wfMiddle padMiddle site.slot.lower apart).trans
      (lo_putPointer wf slot ⟨rfl, rfl, rfl⟩)
  · exact (hi_putPointer_apart wfMiddle padMiddle site.slot.lower apart).trans
      (hi_putPointer wf slot ⟨rfl, rfl, rfl⟩)
  · exact lo_putPointer wfMiddle padMiddle ⟨rfl, rfl, rfl⟩
  · exact hi_putPointer wfMiddle padMiddle ⟨rfl, rfl, rfl⟩

theorem far_encoded (small : offset < 2 ^ 32) :
    p.Encoded (writeFar w' p segment offset byteOffset shape) (fresh p.message segment offset)
      segment (offset + 8 + ((byteOffset - offset - 8) / 8).bmod (2 ^ 30) * 8) shape := by
  obtain ⟨wf, slot, padIn, lo, hi, padLo, padHi⟩ := far_words site behind allocated
  have aligned := site.wellFormed.allocated_aligned segment
  have nonneg := site.wellFormed.allocated_nonneg segment
  have few := site.few
  have bound := site.bound
  have far : PointerType.ofBits (p.lo (writeFar w' p segment offset byteOffset shape)) = .FAR := by
    rw [lo, PointerWord.ofBits_farLo]
  have single : PointerWord.isDoubleFar
      (p.lo (writeFar w' p segment offset byteOffset shape)) = false := by
    rw [lo, PointerWord.isDoubleFar_farLo]
  have padSlot : (p.landingPad (writeFar w' p segment offset byteOffset shape)) =
      { fresh p.message segment offset with depthLimit := p.depthLimit - 1 } := by
    have words := PointerWord.farLo_shiftRight false (offset / 8)
    rw [landingPad, lo, hi, BitVec.toNat_ofNat, Nat.mod_eq_of_lt (by omega), fresh]
    congr 1
    dsimp only
    omega
  have target : p.target (writeFar w' p segment offset byteOffset shape) =
      { fresh p.message segment offset with depthLimit := p.depthLimit - 1 } := by
    rw [Pointer.target, if_pos far, single, padSlot]
    rfl
  constructor
  · exact wf
  · refine ⟨slot, fun _ => site.depth, ?_, ?_⟩
    · intro _
      rw [padSlot]
      exact ⟨padIn.lower, padIn.upper⟩
    · rw [target]
      exact ⟨padIn.lower, padIn.upper⟩
  · rw [target]
    exact ⟨rfl, rfl, rfl⟩
  · rw [target]
    exact ⟨_, padLo⟩
  · rw [target]
    exact padHi
  · have offsetLo : ({ fresh p.message segment offset with depthLimit := p.depthLimit - 1 } :
        Pointer).lo (writeFar w' p segment offset byteOffset shape) = _ := padLo
    rw [objectStart, single, target, offsetLo, PointerWord.offsetWords_nearLo (type_near shape)]
    rfl

end far

section farReads

variable {w' : World} {offset : Int} (site : p.WriteSite w segment byteOffset shape)
  (behind : (w p.message).allocated segment = offset)
  (allocated : w.Allocated w' p.message segment 8)
include site behind allocated

theorem far_tagged : Tagged (writeFar w' p segment offset byteOffset shape) p.message segment
    byteOffset shape := by
  have wf := allocated.here.wellFormed
  have padIn := far_pad site.toPointerSite behind allocated
  have moved := (site.tagged.allocated (by decide) allocated).putPointer
    (l := PointerWord.farLo false (offset / 8)) (h := BitVec.ofNat 32 segment)
    wf (site.slot.allocated (by decide) allocated) site.tagApart
  refine moved.putPointer (q := fresh p.message segment offset) (wf.putPointer _ _ _)
    padIn.putPointer ?_
  intro composite
  cases shape with
  | struct size => simp [PointerShape.tagLength] at composite
  | list elementSize length => simp [PointerShape.tagLength] at composite
  | composite length size => exact site.tagged.1.apart_fresh (by omega)

theorem far_readsAs_iff :
    p.ReadsAs (writeFar w' p segment offset byteOffset shape) (fresh p.message segment offset)
      segment byteOffset shape ↔ offset < 2 ^ 32 := by
  have upper := site.upper
  have lower := site.lower
  have aligned := site.aligned
  have padAligned := site.wellFormed.allocated_aligned segment
  obtain ⟨wf, slot, padIn, lo, hi, -, -⟩ := far_words site.toPointerSite behind allocated
  by_cases small : offset < 2 ^ 32
  · rw [(far_encoded site.toPointerSite behind allocated small).readsAs_iff site.plain ?_ site.fits ?_ site.lower ?_
      (far_tagged site behind allocated)]
    · rw [Int.bmod]
      split <;> omega
    · have enough := site.budget
      simp only [writeFar, World.putPointer_traversalLimit,
        allocated.here.traversalLimit]
      omega
    · have grown := allocated.here.length
      have bound := site.bound
      simp only [writeFar, World.putPointer_length]
      omega
    · have grown := allocated.here.allocated segment
      simp only [writeFar, World.putPointer_allocated, grown]
      split <;> omega
  · refine ⟨?_, fun impossible => absurd impossible small⟩
    intro readsAs
    obtain ⟨t, after, run, same⟩ := readsAs.target
    have found := followFars_far_ok wf slot (by rw [lo, PointerWord.ofBits_farLo]) run
    have words := PointerWord.farLo_shiftRight false (offset / 8)
    rw [← same.byteOffset, lo, PointerWord.isDoubleFar_farLo] at found
    simp only [fresh, Bool.false_eq_true, if_false] at found
    omega

end farReads

theorem writePointer_far (site : p.PointerSite w segment byteOffset shape)
    (apart : p.segment ≠ segment)
    (room : (w p.message).allocated segment + 8 ≤ (w p.message).capacity segment) :
    let offset := (w p.message).allocated segment
    ∃ w', w.Allocated w' p.message segment 8 ∧
      writePointer shape segment byteOffset p w =
        .ok (fresh p.message segment offset) (writeFar w' p segment offset byteOffset shape) := by
  have wf := site.wellFormed
  have budget := site.budget
  have aligned := site.aligned
  have padAligned := wf.allocated_aligned segment
  obtain ⟨w', allocated, run⟩ := initPointer_far byteOffset wf site.writable
    (by omega) site.slot site.bound apart room
  refine ⟨w', allocated, ?_⟩
  have padIn := far_pad site rfl allocated
  rw [writePointer, Outcome.bind_apply, run]
  simp only
  rw [Outcome.bind_apply, setPointer_run _ _ padIn.putPointer site.fits, tdiv_eight padAligned,
    tdiv_eight (by omega)]
  · rfl
  · exact allocated.here.wellFormed.putPointer _ _ _
  · change (w'.putPointer p _ _ p.message).readonly = false
    simp only [World.putPointer_readonly, allocated.here.readonly, site.writable]

/-! The double-far encoding: a far pointer to a far pointer, with the description behind it. -/

/-- `w` after the far pointer, its landing pad and the word behind the pad are written. -/
def writeDoubleFar (w : World) (p : Pointer) (id : Nat) (offset : Int) (segment : Nat)
    (byteOffset : Int) (shape : PointerShape) : World :=
  ((w.putPointer p (PointerWord.farLo true (offset / 8)) (BitVec.ofNat 32 id)).putPointer
    (fresh p.message id offset) (PointerWord.farLo false (byteOffset / 8))
      (BitVec.ofNat 32 segment)).putPointer
    (fresh p.message id (offset + 8)) (PointerWord.nearLo shape.type 0) shape.hi

section doubleFar

variable {w' : World} {id : Nat} {offset : Int} (site : p.PointerSite w segment byteOffset shape)
  (behind : (w p.message).allocated id = offset) (allocated : w.Allocated w' p.message id 16)
include site behind allocated

theorem doubleFar_pad : (fresh p.message id offset).InBounds w' :=
  fresh_inBounds site.wellFormed allocated (by omega) (by omega)

theorem doubleFar_tag : (fresh p.message id (offset + 8)).InBounds w' :=
  fresh_inBounds site.wellFormed allocated (by omega) (by omega)

theorem doubleFar_words :
    let after := writeDoubleFar w' p id offset segment byteOffset shape
    (after p.message).WellFormed ∧ p.InBounds after ∧ (fresh p.message id offset).InBounds after ∧
      (fresh p.message id (offset + 8)).InBounds after ∧
      p.lo after = PointerWord.farLo true (offset / 8) ∧ p.hi after = BitVec.ofNat 32 id ∧
      (fresh p.message id offset).lo after = PointerWord.farLo false (byteOffset / 8) ∧
      (fresh p.message id offset).hi after = BitVec.ofNat 32 segment ∧
      (fresh p.message id (offset + 8)).lo after = PointerWord.nearLo shape.type 0 ∧
      (fresh p.message id (offset + 8)).hi after = shape.hi := by
  let first := w'.putPointer p (PointerWord.farLo true (offset / 8)) (BitVec.ofNat 32 id)
  let second := first.putPointer (fresh p.message id offset)
    (PointerWord.farLo false (byteOffset / 8)) (BitVec.ofNat 32 segment)
  have wf : (w' p.message).WellFormed := allocated.here.wellFormed
  have wfFirst : (first (fresh p.message id offset).message).WellFormed := wf.putPointer _ _ _
  have wfSecond : (second (fresh p.message id (offset + 8)).message).WellFormed :=
    wfFirst.putPointer _ _ _
  have slot := site.slot.allocated (by decide) allocated
  have pad : (fresh p.message id offset).InBounds first :=
    (doubleFar_pad site behind allocated).putPointer
  have tag : (fresh p.message id (offset + 8)).InBounds second :=
    (doubleFar_tag site behind allocated).putPointer.putPointer
  have slotPad : p.Apart (fresh p.message id offset) := site.slot.apart_fresh (by omega)
  have slotTag : p.Apart (fresh p.message id (offset + 8)) := site.slot.apart_fresh (by omega)
  have padTag : (fresh p.message id offset).Apart (fresh p.message id (offset + 8)) :=
    Or.inr (Or.inr (Or.inl (Int.le_refl _)))
  have lower := site.slot.lower
  refine ⟨wfSecond.putPointer _ _ _, slot.putPointer.putPointer.putPointer,
    pad.putPointer.putPointer, tag.putPointer, ?_, ?_, ?_, ?_, ?_, ?_⟩
  · exact (lo_putPointer_apart wfSecond tag lower slotTag).trans
      ((lo_putPointer_apart wfFirst pad lower slotPad).trans
        (lo_putPointer wf slot ⟨rfl, rfl, rfl⟩))
  · exact (hi_putPointer_apart wfSecond tag lower slotTag).trans
      ((hi_putPointer_apart wfFirst pad lower slotPad).trans
        (hi_putPointer wf slot ⟨rfl, rfl, rfl⟩))
  · exact (lo_putPointer_apart wfSecond tag pad.lower padTag).trans
      (lo_putPointer wfFirst pad ⟨rfl, rfl, rfl⟩)
  · exact (hi_putPointer_apart wfSecond tag pad.lower padTag).trans
      (hi_putPointer wfFirst pad ⟨rfl, rfl, rfl⟩)
  · exact lo_putPointer wfSecond tag ⟨rfl, rfl, rfl⟩
  · exact hi_putPointer wfSecond tag ⟨rfl, rfl, rfl⟩

theorem doubleFar_encoded (small : offset < 2 ^ 32) (idBound : id < 2 ^ 32) :
    p.Encoded (writeDoubleFar w' p id offset segment byteOffset shape)
      (fresh p.message id (offset + 8)) segment ((byteOffset / 8).bmod (2 ^ 29) * 8) shape := by
  obtain ⟨wf, slot, padIn, tagIn, lo, hi, padLo, padHi, tagLo, tagHi⟩ :=
    doubleFar_words site behind allocated
  have aligned := site.wellFormed.allocated_aligned id
  have nonneg := site.wellFormed.allocated_nonneg id
  have few := site.few
  have bound := site.bound
  let after := writeDoubleFar w' p id offset segment byteOffset shape
  have far : PointerType.ofBits (p.lo after) = .FAR := by
    rw [lo, PointerWord.ofBits_farLo]
  have double : PointerWord.isDoubleFar (p.lo after) = true := by
    rw [lo, PointerWord.isDoubleFar_farLo]
  have padSlot : p.landingPad after =
      { fresh p.message id offset with depthLimit := p.depthLimit - 1 } := by
    have words := PointerWord.farLo_shiftRight true (offset / 8)
    rw [landingPad, lo, hi, BitVec.toNat_ofNat, Nat.mod_eq_of_lt idBound, fresh]
    congr 1
    dsimp only
    omega
  have target : p.target after =
      { fresh p.message id (offset + 8) with depthLimit := p.depthLimit - 1 } := by
    rw [Pointer.target, if_pos far, if_pos double, padSlot]
    rfl
  constructor
  · exact wf
  · refine ⟨slot, fun _ => site.depth, ?_, ?_⟩
    · intro _
      rw [padSlot]
      exact ⟨padIn.lower, padIn.upper⟩
    · rw [target]
      exact ⟨tagIn.lower, tagIn.upper⟩
  · rw [target]
    exact ⟨rfl, rfl, rfl⟩
  · rw [target]
    exact ⟨0, tagLo⟩
  · rw [target]
    exact tagHi
  · have offsetLo : ({ fresh p.message id offset with depthLimit := p.depthLimit - 1 } :
        Pointer).lo after = _ := padLo
    have segmentHi : ({ fresh p.message id offset with depthLimit := p.depthLimit - 1 } :
        Pointer).hi after = _ := padHi
    rw [objectStart, if_pos double, padSlot, offsetLo, segmentHi, PointerWord.offsetWords_farLo,
      BitVec.toNat_ofNat, Nat.mod_eq_of_lt (by omega)]
    rfl

end doubleFar

section doubleFarReads

variable {w' : World} {id : Nat} {offset : Int} (site : p.WriteSite w segment byteOffset shape)
  (behind : (w p.message).allocated id = offset) (allocated : w.Allocated w' p.message id 16)
include site behind allocated

theorem doubleFar_tagged : Tagged (writeDoubleFar w' p id offset segment byteOffset shape)
    p.message segment byteOffset shape := by
  have wf := allocated.here.wellFormed
  have moved := (site.tagged.allocated (by decide) allocated).putPointer
    (l := PointerWord.farLo true (offset / 8)) (h := BitVec.ofNat 32 id)
    wf (site.slot.allocated (by decide) allocated) site.tagApart
  have apart : ∀ next, offset ≤ next → 0 < shape.tagLength →
      (fresh p.message segment byteOffset).Apart (fresh p.message id next) := by
    intro next le composite
    cases shape with
    | struct size => simp [PointerShape.tagLength] at composite
    | list elementSize length => simp [PointerShape.tagLength] at composite
    | composite length size => exact site.tagged.1.apart_fresh (by omega)
  refine (moved.putPointer (q := fresh p.message id offset) (wf.putPointer _ _ _)
    (doubleFar_pad site.toPointerSite behind allocated).putPointer (apart offset (Int.le_refl _))).putPointer
    (q := fresh p.message id (offset + 8)) ?_
    (doubleFar_tag site.toPointerSite behind allocated).putPointer.putPointer (apart (offset + 8) (by omega))
  exact Message.WellFormed.putPointer (wf.putPointer _ _ _) _ _ _

theorem doubleFar_readsAs_iff (idBound : id < 2 ^ 32) :
    p.ReadsAs (writeDoubleFar w' p id offset segment byteOffset shape)
        (fresh p.message id (offset + 8)) segment byteOffset shape ↔
      byteOffset < 2 ^ 31 ∧ offset < 2 ^ 32 := by
  have upper := site.upper
  have lower := site.lower
  have aligned := site.aligned
  have padAligned := site.wellFormed.allocated_aligned id
  have nonneg := site.wellFormed.allocated_nonneg id
  obtain ⟨wf, slot, padIn, -, lo, hi, -, -, -, -⟩ := doubleFar_words site.toPointerSite behind allocated
  by_cases small : offset < 2 ^ 32
  · rw [(doubleFar_encoded site.toPointerSite behind allocated small idBound).readsAs_iff site.plain ?_ site.fits
      ?_ site.lower ?_ (doubleFar_tagged site behind allocated)]
    · rw [Int.bmod]
      split <;> omega
    · have enough := site.budget
      simp only [writeDoubleFar, World.putPointer_traversalLimit, allocated.here.traversalLimit]
      omega
    · have grown := allocated.here.length
      have bound := site.bound
      simp only [writeDoubleFar, World.putPointer_length]
      omega
    · have grown := allocated.here.allocated segment
      simp only [writeDoubleFar, World.putPointer_allocated, grown]
      split <;> omega
  · refine ⟨?_, fun impossible => absurd impossible.2 small⟩
    intro readsAs
    obtain ⟨t, after, run, same⟩ := readsAs.target
    have found := followFars_far_ok wf slot (by rw [lo, PointerWord.ofBits_farLo]) run
    have words := PointerWord.farLo_shiftRight true (offset / 8)
    rw [← same.byteOffset, lo, PointerWord.isDoubleFar_farLo] at found
    simp only [fresh, if_true] at found
    omega

end doubleFarReads

theorem writePointer_doubleFar (site : p.PointerSite w segment byteOffset shape)
    (apart : p.segment ≠ segment)
    (full : ¬ (w p.message).allocated segment + 8 ≤ (w p.message).capacity segment) :
    let id := (w p.message).place p.segment 16
    let offset := (w p.message).allocated id
    ∃ w', w.Allocated w' p.message id 16 ∧
      writePointer shape segment byteOffset p w =
        .ok (fresh p.message id (offset + 8))
          (writeDoubleFar w' p id offset segment byteOffset shape) := by
  have wf := site.wellFormed
  have budget := site.budget
  have aligned := site.aligned
  have padAligned := wf.allocated_aligned ((w p.message).place p.segment 16)
  obtain ⟨w', allocated, run⟩ := initPointer_doubleFar byteOffset wf
    site.writable (by omega) site.slot site.bound apart full
  refine ⟨w', allocated, ?_⟩
  have tagIn := doubleFar_tag site rfl allocated
  rw [writePointer, Outcome.bind_apply, run]
  simp only
  rw [Outcome.bind_apply, setPointer_run _ _ tagIn.putPointer.putPointer site.fits,
    tdiv_eight padAligned, tdiv_eight aligned]
  · rfl
  · exact Message.WellFormed.putPointer (allocated.here.wellFormed.putPointer _ _ _) _ _ _
  · change ((w'.putPointer p _ _).putPointer _ _ _ p.message).readonly = false
    simp only [World.putPointer_readonly, allocated.here.readonly, site.writable]

/-! All three encodings. -/

/-- The pointer is written, and what is written reads back. -/
def RoundTrips (p : Pointer) (w : World) (segment : Nat) (byteOffset : Int)
    (shape : PointerShape) : Prop :=
  ∃ written after, writePointer shape segment byteOffset p w = .ok written after ∧
    p.ReadsAs after written segment byteOffset shape

theorem RoundTrips.iff_of_run {after : World}
    (run : writePointer shape segment byteOffset p w = .ok written after) :
    p.RoundTrips w segment byteOffset shape ↔ p.ReadsAs after written segment byteOffset shape := by
  constructor
  · rintro ⟨_, _, again, readsAs⟩
    rw [run] at again
    cases again
    exact readsAs
  · intro readsAs
    exact ⟨written, after, run, readsAs⟩

theorem place_lt (site : p.PointerSite w segment byteOffset shape) (byteLength : Int) :
    (w p.message).place p.segment byteLength < 2 ^ 32 := by
  have few := site.few
  have bound := site.slot.bound
  rw [Message.place]
  split
  · omega
  · rw [Message.freshSegment]
    split <;> omega

theorem readsAs_iff_of_run {after : World} (site : p.WriteSite w segment byteOffset shape)
    (run : writePointer shape segment byteOffset p w = .ok written after) :
    p.ReadsAs after written segment byteOffset shape ↔ p.Encodable w segment byteOffset := by
  by_cases same : p.segment = segment
  · rw [writePointer_near site.toPointerSite same] at run
    cases run
    exact near_readsAs_iff site same
  · by_cases room : (w p.message).allocated segment + 8 ≤ (w p.message).capacity segment
    · obtain ⟨w', allocated, ran⟩ := writePointer_far site.toPointerSite same room
      rw [ran] at run
      cases run
      rw [far_readsAs_iff site rfl allocated, Encodable, if_neg same, if_pos room]
    · obtain ⟨w', allocated, ran⟩ := writePointer_doubleFar site.toPointerSite same room
      rw [ran] at run
      cases run
      rw [doubleFar_readsAs_iff site rfl allocated (place_lt site.toPointerSite 16), Encodable, if_neg same, if_neg room]

theorem writePointer_ends (site : p.PointerSite w segment byteOffset shape) :
    ∃ written after, writePointer shape segment byteOffset p w = .ok written after := by
  by_cases same : p.segment = segment
  · exact ⟨_, _, writePointer_near site same⟩
  · by_cases room : (w p.message).allocated segment + 8 ≤ (w p.message).capacity segment
    · obtain ⟨w', _, run⟩ := writePointer_far site same room
      exact ⟨_, _, run⟩
    · obtain ⟨w', _, run⟩ := writePointer_doubleFar site same room
      exact ⟨_, _, run⟩

theorem roundTrips_iff (site : p.WriteSite w segment byteOffset shape) :
    p.RoundTrips w segment byteOffset shape ↔ p.Encodable w segment byteOffset := by
  obtain ⟨written, after, run⟩ := writePointer_ends site.toPointerSite
  rw [RoundTrips.iff_of_run run, readsAs_iff_of_run site run]

/-- A message of two full segments, a root pointer and some content. -/
def fullMessage (content : Bytes) : Message :=
  { arena := { kind := .MULTI_SEGMENT, buffers := [] }
    segments :=
      [{ buffer := List.replicate 8 0, byteLength := 8 },
        { buffer := content, byteLength := content.length }]
    traversalLimit := DEFAULT_TRAVERSE_LIMIT
    readonly := false
    capTable := none }

theorem fullMessage_site {content : Bytes} {byteOffset : Int} (whole : content.length % 8 = 0)
    (lower : 0 ≤ byteOffset) (aligned : byteOffset % 8 = 0) (upper : byteOffset ≤ content.length) :
    (fresh 0 0 0).WriteSite (fun _ => fullMessage content) 1 byteOffset (.struct ⟨8, 0⟩) := by
  constructor
  · constructor
    · constructor
      · intro s member
        rcases List.mem_cons.mp member with rfl | member
        · decide
        · cases List.mem_singleton.mp member
          exact Int.natCast_nonneg _
      · intro s member
        rcases List.mem_cons.mp member with rfl | member
        · decide
        · rw [List.mem_singleton.mp member]
          dsimp only
          omega
      · intro s member
        rcases List.mem_cons.mp member with rfl | member
        · decide
        · cases List.mem_singleton.mp member
          exact Int.le_refl _
      · rfl
      · intro single
        cases single
    · rfl
    · exact ⟨Int.le_refl 0, Int.le_refl 8⟩
    · decide
    · exact (by decide : 1 < 2)
    · exact aligned
    · exact (by decide : 2 < 2 ^ 32)
    · exact ⟨by decide, by decide, by decide⟩
    · decide
    · exact (by decide : 48 < DEFAULT_TRAVERSE_LIMIT)
  · rfl
  · exact lower
  · exact upper
  · trivial
  · simp [PointerShape.tagLength]

theorem roundTrips_iff_oneWord :
    (fresh 0 0 0).RoundTrips (fun _ => fullMessage (List.replicate 8 0)) 1 0 (.struct ⟨8, 0⟩) ↔
      (fresh 0 0 0).Encodable (fun _ => fullMessage (List.replicate 8 0)) 1 0 :=
  roundTrips_iff (fullMessage_site (by decide) (by decide) (by decide) (by decide))

theorem fullMessage_not_roundTrips {content : Bytes} {byteOffset : Int}
    (whole : content.length % 8 = 0) (large : 2 ^ 31 ≤ byteOffset) (aligned : byteOffset % 8 = 0)
    (upper : byteOffset ≤ content.length) :
    ¬ (fresh 0 0 0).RoundTrips (fun _ => fullMessage content) 1 byteOffset (.struct ⟨8, 0⟩) := by
  have site := fullMessage_site whole (by omega) aligned upper
  have full : ¬ (fullMessage content).allocated 1 + 8 ≤ (fullMessage content).capacity 1 := by
    change ¬ (content.length : Int) + 8 ≤ content.length
    omega
  obtain ⟨w', allocated, run⟩ := writePointer_doubleFar site.toPointerSite (by decide) full
  rw [RoundTrips.iff_of_run run, doubleFar_readsAs_iff site rfl allocated (place_lt site.toPointerSite 16)]
  omega

theorem twoGigabyteSegment_not_roundTrips :
    (fresh 0 0 0).WriteSite (fun _ => fullMessage (List.replicate (2 ^ 31 + 8) 0)) 1 (2 ^ 31)
        (.struct ⟨8, 0⟩) ∧
      ¬ (fresh 0 0 0).RoundTrips (fun _ => fullMessage (List.replicate (2 ^ 31 + 8) 0)) 1 (2 ^ 31)
        (.struct ⟨8, 0⟩) :=
  ⟨fullMessage_site (by rw [List.length_replicate]; omega) (by omega) (by omega)
      (by rw [List.length_replicate]; omega),
    fullMessage_not_roundTrips (by rw [List.length_replicate]; omega) (by omega) (by omega)
      (by rw [List.length_replicate]; omega)⟩

end Pointer

end CapnpEs
