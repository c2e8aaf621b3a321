import CapnpEs.Serialization.Pointers.Copying
import CapnpEs.Serialization.Pointers.PointerRoundTrip
import Mathlib.Data.List.Pairwise
import Mathlib.Data.Set.Lattice
import Mathlib.Order.CompletePartialOrder

/-! The tree of objects that a pointer leads to: the bytes it is made of, and what keeps it readable. -/

namespace CapnpEs

open LittleEndian (read)

abbrev Byte := Nat × Nat

def span (segment : Nat) (start length : Int) : Set Byte :=
  { byte | byte.1 = segment ∧ start ≤ byte.2 ∧ (byte.2 : Int) < start + length }

/-- `w'` has the shape of `w`, and the same bytes where it matters. -/
structure World.Like (message : Nat) (bytes : Set Byte) (w w' : World) : Prop where
  wellFormed : (w' message).WellFormed
  readonly : (w' message).readonly = (w message).readonly
  length : (w' message).segments.length = (w message).segments.length
  allocated : ∀ s, (w' message).allocated s = (w message).allocated s
  capacity : ∀ s, (w' message).capacity s = (w message).capacity s
  memory : ∀ byte ∈ bytes, (w' message).memory byte.1 byte.2 = (w message).memory byte.1 byte.2

theorem World.Like.mono {message : Nat} {bytes fewer : Set Byte} {w w' : World} (like : World.Like message bytes w w')
    (less : fewer ⊆ bytes) : World.Like message fewer w w' :=
  { like with memory := fun byte member => like.memory byte (less member) }

/-- `w'` has grown from `w`, and has the same bytes where it matters. -/
structure World.Kept (message : Nat) (bytes : Set Byte) (w w' : World) : Prop where
  length : (w message).segments.length ≤ (w' message).segments.length
  allocated : ∀ s, (w message).allocated s ≤ (w' message).allocated s
  memory : ∀ byte ∈ bytes, (w' message).memory byte.1 byte.2 = (w message).memory byte.1 byte.2

theorem World.Kept.mono {message : Nat} {bytes fewer : Set Byte} {w w' : World} (kept : World.Kept message bytes w w')
    (less : fewer ⊆ bytes) : World.Kept message fewer w w' :=
  { kept with memory := fun byte member => kept.memory byte (less member) }

theorem World.Like.kept {message : Nat} {bytes : Set Byte} {w w' : World} (like : World.Like message bytes w w') :
    World.Kept message bytes w w' :=
  ⟨Nat.le_of_eq like.length.symm, fun s => Int.le_of_eq (like.allocated s).symm, like.memory⟩

namespace Pointer

variable {w w' : World} {p : Pointer} {bytes : Set Byte}

def word (p : Pointer) : Set Byte := span p.segment p.byteOffset 8

theorem word_same (lower : 0 ≤ p.byteOffset)
    (same : ∀ byte ∈ p.word, (w' p.message).memory byte.1 byte.2 = (w p.message).memory byte.1 byte.2) :
    p.lo w' = p.lo w ∧ p.hi w' = p.hi w := by
  have here : ∀ address : Nat, p.byteOffset ≤ address → (address : Int) < p.byteOffset + 8 →
      (w' p.message).memory p.segment address = (w p.message).memory p.segment address := by
    intro address above below
    exact same (p.segment, address) ⟨rfl, above, below⟩
  constructor
  · exact congrArg (BitVec.ofNat 32)
      (LittleEndian.read_congr _ _ fun i above below => here i (by omega) (by omega))
  · exact congrArg (BitVec.ofNat 32)
      (LittleEndian.read_congr _ _ fun i above below => here i (by omega) (by omega))

theorem word_like {message : Nat} (like : World.Like message bytes w w') (here : p.message = message)
    (lower : 0 ≤ p.byteOffset) (covered : p.word ⊆ bytes) : p.lo w' = p.lo w ∧ p.hi w' = p.hi w := by
  subst here
  exact word_same lower fun byte member => like.memory byte (covered member)

/-- The landing pad of a far pointer, with the tag behind that of a double-far pointer. -/
def pads (p : Pointer) (w : World) : Set Byte :=
  if PointerType.ofBits (p.lo w) = .FAR then
    span (p.landingPad w).segment (p.landingPad w).byteOffset (if PointerWord.isDoubleFar (p.lo w) then 16 else 8)
  else ∅

def path (p : Pointer) (w : World) : Set Byte := p.word ∪ p.pads w

theorem word_subset_path : p.word ⊆ p.path w := Set.subset_union_left

theorem path_same (lower : 0 ≤ p.byteOffset)
    (same : ∀ byte ∈ p.path w, (w' p.message).memory byte.1 byte.2 = (w p.message).memory byte.1 byte.2) :
    p.lo w' = p.lo w ∧ p.hi w' = p.hi w ∧ p.target w' = p.target w ∧ (p.target w).lo w' = (p.target w).lo w ∧
      (p.target w).hi w' = (p.target w).hi w ∧ p.objectStart w' = p.objectStart w := by
  obtain ⟨lo, hi⟩ := word_same lower fun byte member => same byte (word_subset_path member)
  have pad : p.landingPad w' = p.landingPad w := by
    rw [landingPad, landingPad, lo, hi]
  have target : p.target w' = p.target w := by
    rw [Pointer.target, Pointer.target, lo, pad]
  have padsSame : ∀ byte ∈ p.pads w, (w' p.message).memory byte.1 byte.2 = (w p.message).memory byte.1 byte.2 :=
    fun byte member => same byte (Or.inr member)
  by_cases far : PointerType.ofBits (p.lo w) = .FAR
  · have padLower : 0 ≤ (p.landingPad w).byteOffset := by
      simp only [landingPad]
      omega
    rw [pads, if_pos far] at padsSame
    have padWords : (p.landingPad w).lo w' = (p.landingPad w).lo w ∧
        (p.landingPad w).hi w' = (p.landingPad w).hi w := by
      apply word_same padLower
      intro byte member
      apply padsSame
      obtain ⟨segment, above, below⟩ := member
      refine ⟨segment, above, ?_⟩
      split <;> omega
    by_cases double : PointerWord.isDoubleFar (p.lo w) = true
    · rw [if_pos double] at padsSame
      have shape : p.target w = { p.landingPad w with byteOffset := (p.landingPad w).byteOffset + 8 } := by
        rw [Pointer.target, if_pos far, if_pos double]
      have tagWords : (p.target w).lo w' = (p.target w).lo w ∧ (p.target w).hi w' = (p.target w).hi w := by
        rw [shape]
        apply word_same
        · exact Int.add_nonneg padLower (by decide)
        intro byte member
        apply padsSame
        obtain ⟨segment, above, below⟩ := member
        dsimp only at above below
        exact ⟨segment, by omega, by omega⟩
      refine ⟨lo, hi, target, tagWords.1, tagWords.2, ?_⟩
      rw [objectStart, objectStart, lo, pad, if_pos double, if_pos double, padWords.1, padWords.2]
    · have shape : p.target w = p.landingPad w := by
        rw [Pointer.target, if_pos far, if_neg double]
      rw [shape] at target ⊢
      refine ⟨lo, hi, target, padWords.1, padWords.2, ?_⟩
      rw [objectStart, objectStart, lo, if_neg double, if_neg double, target, shape, padWords.1]
  · have shape : p.target w = p := by
      rw [Pointer.target, if_neg far]
    have single : ¬ PointerWord.isDoubleFar (p.lo w) = true := by
      simp [PointerWord.isDoubleFar, far]
    rw [shape] at target ⊢
    refine ⟨lo, hi, target, lo, hi, ?_⟩
    rw [objectStart, objectStart, lo, if_neg single, if_neg single, target, shape, lo]

theorem path_like (like : World.Like p.message bytes w w') (lower : 0 ≤ p.byteOffset) (covered : p.path w ⊆ bytes) :
    p.lo w' = p.lo w ∧ p.hi w' = p.hi w ∧ p.target w' = p.target w ∧ (p.target w).lo w' = (p.target w).lo w ∧
      (p.target w).hi w' = (p.target w).hi w ∧ p.objectStart w' = p.objectStart w :=
  path_same lower fun byte member => like.memory byte (covered member)

/-! The object itself. -/

def structSize (p : Pointer) (w : World) : ObjectSize := PointerWord.structSize ((p.target w).hi w)

def elementSize (p : Pointer) (w : World) : ListElementSize := .ofBits ((p.target w).hi w)

def compositeSize (p : Pointer) (w : World) : ObjectSize := PointerWord.structSize ((p.objectStart w).hi w)

section spend

variable (message count : Nat)

theorem structSize_spend : p.structSize (w.spend message count) = p.structSize w := by
  rw [structSize, structSize, target_spend, hi_spend]

theorem elementSize_spend : p.elementSize (w.spend message count) = p.elementSize w := by
  rw [elementSize, elementSize, target_spend, hi_spend]

theorem compositeSize_spend : p.compositeSize (w.spend message count) = p.compositeSize w := by
  rw [compositeSize, compositeSize, objectStart_spend, hi_spend]

theorem listLength_spend : p.listLength (w.spend message count) = p.listLength w := by
  rw [listLength, listLength, isComposite_spend, objectStart_spend, lo_spend, target_spend, hi_spend]

end spend

/-- The words of a list whose elements are neither pointers nor structs. -/
def listWords (elementSize : ListElementSize) (length : Int) : Int :=
  match getListElementByteLength elementSize with
  | none => ((length + 7) / 8 + 7) / 8
  | some bytes => (length * bytes + 7) / 8

def child (p c : Pointer) (byteOffset : Int) : Pointer :=
  { message := c.message, segment := c.segment, byteOffset := byteOffset, depthLimit := p.depthLimit - 1 }

def pointersAt (p c : Pointer) (byteOffset : Int) (count : Nat) : List Pointer :=
  (List.range count).map fun i : Nat => child p c (byteOffset + i * 8)

def elementPointers (p : Pointer) (w : World) (i : Nat) : List Pointer :=
  pointersAt p (p.content w)
    ((p.content w).byteOffset + i * (p.compositeSize w).getByteLength + (p.compositeSize w).dataByteLength)
    (p.compositeSize w).pointerLength

def children (p : Pointer) (w : World) : List Pointer :=
  match p.targetType w with
  | .STRUCT =>
      pointersAt p (p.content w) ((p.content w).byteOffset + (p.structSize w).dataByteLength)
        (p.structSize w).pointerLength
  | .LIST =>
      if p.elementSize w = .POINTER then
        pointersAt p (p.content w) (p.content w).byteOffset (p.listLength w).toNat
      else if p.elementSize w = .COMPOSITE then
        (List.range (p.listLength w).toNat).flatMap (p.elementPointers w)
      else []
  | _ => []

/-- The length of the object, but for the pointers of structs and of pointer lists. -/
def extent (p : Pointer) (w : World) : Int :=
  match p.targetType w with
  | .STRUCT => (p.structSize w).dataByteLength
  | .LIST =>
      if p.elementSize w = .POINTER then 0
      else if p.elementSize w = .COMPOSITE then p.listLength w * (p.compositeSize w).getByteLength
      else 8 * listWords (p.elementSize w) (p.listLength w)
  | _ => 0

def own (p : Pointer) (w : World) : Set Byte :=
  if p.isComposite w then span (p.content w).segment ((p.content w).byteOffset - 8) (8 + p.extent w)
  else span (p.content w).segment (p.content w).byteOffset (p.extent w)

/-- The bytes that belong to the object and to none of its pointers. -/
def inner (p : Pointer) (w : World) : Set Byte :=
  if p.isComposite w then p.own w \ { byte | ∃ c ∈ p.children w, byte ∈ c.word } else p.own w

/-- `isNull` also takes the word that has only its sign bit set for null. -/
def isNullWord (p : Pointer) (w : World) : Bool := p.lo w == 0 && (p.hi w == 0 || p.hi w == BitVec.twoPow 32 31)

def isBitList (p : Pointer) (w : World) : Bool := p.targetType w = .LIST && p.elementSize w = .BIT

def wiped (p : Pointer) (w : World) : Set Byte := if p.isBitList w then ∅ else p.own w

/-! The tree, as deep as the depth limit lets it be. -/

def footprint (w : World) : Nat → Pointer → Set Byte
  | 0, _ => ∅
  | depth + 1, p =>
      p.path w ∪
        if p.isNullWord w then ∅ else p.own w ∪ { byte | ∃ c ∈ p.children w, byte ∈ footprint w depth c }

/-- The bytes that are set to zero when the tree is erased. -/
def erased (w : World) : Nat → Pointer → Set Byte
  | 0, _ => ∅
  | depth + 1, p =>
      if p.isNullWord w then ∅
      else p.path w ∪ p.wiped w ∪ { byte | ∃ c ∈ p.children w, byte ∈ erased w depth c }

/-- The bytes that are not: the contents of bit lists, and the words that are null already, but for those in
composite lists. -/
def spared (w : World) : Nat → Pointer → Set Byte
  | 0, _ => ∅
  | depth + 1, p =>
      if p.isNullWord w then p.word
      else ((if p.isBitList w then p.own w else ∅) ∪ { byte | ∃ c ∈ p.children w, byte ∈ spared w depth c }) \
        p.wiped w

def visits (w : World) : Nat → Pointer → Nat
  | 0, _ => 0
  | depth + 1, p =>
      if p.isNullWord w then 0 else 16 + ((p.children w).map fun c => 1 + visits w depth c).sum

/-- The content lies in allocated space, on word boundaries. -/
structure ContentFits (p : Pointer) (w : World) : Prop where
  aligned : (p.content w).byteOffset % 8 = 0
  length : 0 ≤ p.listLength w
  tag : p.isComposite w = true → (p.objectStart w).InBounds w
  inside : (p.content w).byteOffset + p.extent w ≤ (w p.message).allocated (p.content w).segment

structure IsNode (bytes : Pointer → Set Byte) (sound : Pointer → Prop) (p : Pointer) (w : World) : Prop where
  resolves : p.Resolves w
  fits : p.ContentFits w
  children : ∀ c ∈ p.children w, sound c
  pathApart : Disjoint (p.path w) (p.own w)
  childrenApart : ∀ c ∈ p.children w, Disjoint (p.path w ∪ p.inner w) (bytes c)
  siblingsApart : (p.children w).Pairwise fun c d => Disjoint (bytes c) (bytes d)

def IsSmall (p : Pointer) (w : World) : Prop :=
  p.targetType w = .LIST → p.elementSize w ≠ .POINTER →
    ∀ bytes, getListElementByteLength (p.elementSize w) = some bytes → p.listLength w * bytes + 7 < 2 ^ 31

def SmallLists (w : World) : Nat → Pointer → Prop
  | 0, _ => True
  | depth + 1, p => p.isNullWord w = false → p.IsSmall w ∧ ∀ c ∈ p.children w, SmallLists w depth c

/-- A well-formed tree, unshared and within the depth limit. -/
def IsTree (w : World) : Nat → Pointer → Prop
  | 0, _ => False
  | depth + 1, p =>
      p.InBounds w ∧ p.compositeIndex = none ∧
        (p.isNullWord w = false → IsNode (footprint w depth) (IsTree w depth) p w)

/-! What is outside a tree does not matter to it. -/

theorem content_message : (p.content w).message = p.message := by
  rw [content]
  split
  · dsimp only
    rw [objectStart_message]
  · exact objectStart_message

theorem content_plain (notComposite : p.isComposite w = false) : p.content w = p.objectStart w := by
  rw [content, notComposite]
  simp only [Bool.false_eq_true, if_false]

/-- What a pointer in the object has from the pointer to it. -/
structure IsChild (p c : Pointer) : Prop where
  message : c.message = p.message
  depthLimit : c.depthLimit = p.depthLimit - 1
  plain : c.compositeIndex = none
  single : c.compositeList = false

theorem IsChild.rebuilt {c : Pointer} (child : IsChild p c) :
    (⟨c.message, c.segment, c.byteOffset, c.depthLimit, none, false⟩ : Pointer) = c := by
  have plain := child.plain
  have single := child.single
  cases c
  simp_all

theorem pointersAt_isChild {c q : Pointer} {byteOffset : Int} {count : Nat} (here : q.message = p.message)
    (member : c ∈ pointersAt p q byteOffset count) : IsChild p c := by
  obtain ⟨i, _, rfl⟩ := List.mem_map.mp member
  exact ⟨here, rfl, rfl, rfl⟩

theorem children_isChild {c : Pointer} (member : c ∈ p.children w) : IsChild p c := by
  unfold children at member
  split at member
  · exact pointersAt_isChild content_message member
  · split at member
    · exact pointersAt_isChild content_message member
    · split at member
      · obtain ⟨i, _, inside⟩ := List.mem_flatMap.mp member
        exact pointersAt_isChild content_message inside
      · cases member
  · cases member

/-- `w'` shows the same object. -/
structure SameNode (p : Pointer) (w w' : World) : Prop where
  lo : p.lo w' = p.lo w
  hi : p.hi w' = p.hi w
  target : p.target w' = p.target w
  targetLo : (p.target w).lo w' = (p.target w).lo w
  targetHi : (p.target w).hi w' = (p.target w).hi w
  start : p.objectStart w' = p.objectStart w
  tagLo : p.isComposite w = true → (p.objectStart w).lo w' = (p.objectStart w).lo w
  tagHi : p.isComposite w = true → (p.objectStart w).hi w' = (p.objectStart w).hi w

theorem tag_subset_own (composite : p.isComposite w = true) (length : 0 ≤ p.listLength w) :
    (p.objectStart w).word ⊆ p.own w := by
  have list : p.targetType w = .LIST ∧ p.elementSize w = .COMPOSITE := by
    simpa [isComposite, elementSize] using composite
  have long : 0 ≤ p.extent w := by
    rw [extent, list.1]
    dsimp only
    rw [if_neg (by rw [list.2]; decide), if_pos list.2]
    exact Int.mul_nonneg length (by omega)
  rw [own, if_pos composite, content, if_pos composite]
  intro byte member
  obtain ⟨segment, above, below⟩ := member
  exact ⟨segment, by dsimp only; omega, by dsimp only; omega⟩

theorem sameNode_kept (kept : World.Kept p.message bytes w w') (lower : 0 ≤ p.byteOffset)
    (resolves : p.Resolves w) (length : 0 ≤ p.listLength w) (pathCovered : p.path w ⊆ bytes)
    (ownCovered : p.own w ⊆ bytes) : SameNode p w w' := by
  obtain ⟨lo, hi, target, targetLo, targetHi, start⟩ := path_same lower fun byte member => kept.memory byte (pathCovered member)
  have tag : p.isComposite w = true → (p.objectStart w).lo w' = (p.objectStart w).lo w ∧
      (p.objectStart w).hi w' = (p.objectStart w).hi w := by
    intro composite
    apply word_same resolves.lower
    intro byte member
    rw [objectStart_message]
    exact kept.memory byte (ownCovered (tag_subset_own composite length member))
  exact ⟨lo, hi, target, targetLo, targetHi, start, fun composite => (tag composite).1,
    fun composite => (tag composite).2⟩

namespace SameNode

variable (same : SameNode p w w')
include same

theorem targetType : p.targetType w' = p.targetType w := by
  rw [Pointer.targetType, Pointer.targetType, same.target, same.targetLo]

theorem elementSize : p.elementSize w' = p.elementSize w := by
  rw [Pointer.elementSize, Pointer.elementSize, same.target, same.targetHi]

theorem structSize : p.structSize w' = p.structSize w := by
  rw [Pointer.structSize, Pointer.structSize, same.target, same.targetHi]

theorem isComposite : p.isComposite w' = p.isComposite w := by
  rw [Pointer.isComposite, Pointer.isComposite, same.targetType, same.target, same.targetHi]

theorem content : p.content w' = p.content w := by
  rw [Pointer.content, Pointer.content, same.isComposite, same.start]

theorem compositeSize (composite : p.isComposite w = true) : p.compositeSize w' = p.compositeSize w := by
  rw [Pointer.compositeSize, Pointer.compositeSize, same.start, same.tagHi composite]

theorem listLength : p.listLength w' = p.listLength w := by
  rw [Pointer.listLength, Pointer.listLength, same.isComposite]
  by_cases composite : p.isComposite w = true
  · rw [if_pos composite, if_pos composite, same.start, same.tagLo composite]
  · rw [if_neg composite, if_neg composite, same.target, same.targetHi]

theorem path : p.path w' = p.path w := by
  have pad : p.landingPad w' = p.landingPad w := by
    rw [landingPad, landingPad, same.lo, same.hi]
  rw [Pointer.path, Pointer.path, pads, pads, same.lo, pad]

theorem isNullWord : p.isNullWord w' = p.isNullWord w := by
  rw [Pointer.isNullWord, Pointer.isNullWord, same.lo, same.hi]

theorem isBitList : p.isBitList w' = p.isBitList w := by
  rw [Pointer.isBitList, Pointer.isBitList, same.targetType, same.elementSize]

omit same in
theorem composite_of (list : p.targetType w = .LIST) (size : p.elementSize w = .COMPOSITE) :
    p.isComposite w = true := by
  simpa [Pointer.isComposite, list, Pointer.elementSize] using size

theorem children : p.children w' = p.children w := by
  unfold Pointer.children
  rw [same.targetType, same.content, same.structSize, same.elementSize, same.listLength]
  split
  · rfl
  · rename_i list
    split
    · rfl
    · split
      · rename_i size
        have pointers : p.elementPointers w' = p.elementPointers w := by
          funext i
          rw [elementPointers, elementPointers, same.content, same.compositeSize (composite_of list size)]
        rw [pointers]
      · rfl
  · rfl

theorem extent : p.extent w' = p.extent w := by
  unfold Pointer.extent
  rw [same.targetType, same.structSize, same.elementSize, same.listLength]
  split
  · rfl
  · rename_i list
    split
    · rfl
    · split
      · rename_i size
        rw [same.compositeSize (composite_of list size)]
      · rfl
  · rfl

theorem own : p.own w' = p.own w := by
  rw [Pointer.own, Pointer.own, same.isComposite, same.content, same.extent]

theorem inner : p.inner w' = p.inner w := by
  rw [Pointer.inner, Pointer.inner, same.isComposite, same.own, same.children]

theorem isSmall : p.IsSmall w' ↔ p.IsSmall w := by
  unfold Pointer.IsSmall
  rw [same.targetType, same.elementSize, same.listLength]

theorem wiped : p.wiped w' = p.wiped w := by
  rw [Pointer.wiped, Pointer.wiped, same.isBitList, same.own]

end SameNode

theorem InBounds.kept {q : Pointer} {message : Nat} (kept : World.Kept message bytes w w') (here : q.message = message)
    (inBounds : q.InBounds w) : q.InBounds w' := by
  subst here
  exact ⟨inBounds.lower, Int.le_trans inBounds.upper (kept.allocated q.segment)⟩

theorem InBounds.like {q : Pointer} {message : Nat} (like : World.Like message bytes w w') (here : q.message = message)
    (inBounds : q.InBounds w) : q.InBounds w' :=
  inBounds.kept like.kept here

theorem SameNode.resolves_kept (same : SameNode p w w') (kept : World.Kept p.message bytes w w') (resolves : p.Resolves w) :
    p.Resolves w' := by
  have pad : p.landingPad w' = p.landingPad w := by
    rw [landingPad, landingPad, same.lo, same.hi]
  refine ⟨⟨resolves.inBounds.kept kept rfl, ?_, ?_, ?_⟩, ?_, ?_, ?_, ?_⟩
  · rw [same.lo]
    exact resolves.depth
  · intro far
    rw [same.lo] at far
    rw [pad]
    exact (resolves.pad far).kept kept rfl
  · rw [same.target]
    exact resolves.target.kept kept target_message
  · rw [same.targetType]
    exact resolves.notFar
  · rw [same.start]
    exact Nat.lt_of_lt_of_le resolves.segment kept.length
  · rw [same.start]
    exact resolves.lower
  · rw [same.start]
    exact Int.le_trans resolves.upper (kept.allocated _)

theorem SameNode.resolves (same : SameNode p w w') (like : World.Like p.message bytes w w') (resolves : p.Resolves w) :
    p.Resolves w' :=
  same.resolves_kept like.kept resolves

theorem SameNode.fits_kept (same : SameNode p w w') (kept : World.Kept p.message bytes w w') (fits : p.ContentFits w) :
    p.ContentFits w' := by
  constructor
  · rw [same.content]
    exact fits.aligned
  · rw [same.listLength]
    exact fits.length
  · intro composite
    rw [same.isComposite] at composite
    rw [same.start]
    exact (fits.tag composite).kept kept objectStart_message
  · rw [same.content, same.extent]
    exact Int.le_trans fits.inside (kept.allocated _)

theorem SameNode.fits (same : SameNode p w w') (like : World.Like p.message bytes w w') (fits : p.ContentFits w) :
    p.ContentFits w' :=
  same.fits_kept like.kept fits

structure SameTree (w w' : World) (depth : Nat) (p : Pointer) : Prop where
  footprint : Pointer.footprint w' depth p = Pointer.footprint w depth p
  erased : Pointer.erased w' depth p = Pointer.erased w depth p
  spared : Pointer.spared w' depth p = Pointer.spared w depth p
  visits : Pointer.visits w' depth p = Pointer.visits w depth p
  small : Pointer.SmallLists w' depth p ↔ Pointer.SmallLists w depth p
  isTree : Pointer.IsTree w' depth p

theorem childBytes_congr {bytes bytes' : Pointer → Set Byte} {pointers : List Pointer}
    (same : ∀ c ∈ pointers, bytes' c = bytes c) :
    { byte | ∃ c ∈ pointers, byte ∈ bytes' c } = { byte | ∃ c ∈ pointers, byte ∈ bytes c } := by
  ext byte
  constructor
  · rintro ⟨c, member, inside⟩
    rw [same c member] at inside
    exact ⟨c, member, inside⟩
  · rintro ⟨c, member, inside⟩
    rw [← same c member] at inside
    exact ⟨c, member, inside⟩

theorem tree_kept (depth : Nat) (p : Pointer) (kept : World.Kept p.message (footprint w depth p) w w')
    (tree : IsTree w depth p) : SameTree w w' depth p := by
  induction depth generalizing p with
  | zero => exact absurd tree id
  | succ depth ih =>
      obtain ⟨inBounds, plain, node⟩ := tree
      have pathCovered : p.path w ⊆ footprint w (depth + 1) p := Set.subset_union_left
      obtain ⟨lo, hi, target, targetLo, targetHi, start⟩ :=
        path_same inBounds.lower fun byte member => kept.memory byte (pathCovered member)
      have isNull : p.isNullWord w' = p.isNullWord w := by
        rw [Pointer.isNullWord, Pointer.isNullWord, lo, hi]
      have pad : p.landingPad w' = p.landingPad w := by
        rw [landingPad, landingPad, lo, hi]
      have path : p.path w' = p.path w := by
        rw [Pointer.path, Pointer.path, pads, pads, lo, pad]
      cases null : p.isNullWord w with
      | true =>
          have still : p.isNullWord w' = true := isNull.trans null
          constructor
          · simp only [Pointer.footprint, null, still, path, if_true]
          · simp only [Pointer.erased, null, still, if_true]
          · simp only [Pointer.spared, null, still, if_true]
          · simp only [Pointer.visits, null, still, if_true]
          · simp [Pointer.SmallLists, null, still]
          · refine ⟨inBounds.kept kept rfl, plain, fun filled => ?_⟩
            rw [still] at filled
            cases filled
      | false =>
          have still : p.isNullWord w' = false := isNull.trans null
          have here := node null
          have covered : p.own w ∪ { byte | ∃ c ∈ p.children w, byte ∈ footprint w depth c } ⊆
              footprint w (depth + 1) p := by
            simp only [Pointer.footprint, null, Bool.false_eq_true, if_false]
            exact Set.subset_union_right
          have same := sameNode_kept kept inBounds.lower here.resolves here.fits.length pathCovered
            (Set.subset_union_left.trans covered)
          have each : ∀ c ∈ p.children w, SameTree w w' depth c := by
            intro c member
            apply ih
            · rw [(children_isChild member).message]
              apply kept.mono
              intro byte inside
              exact covered (Or.inr ⟨c, member, inside⟩)
            · exact here.children c member
          have footprints := childBytes_congr fun c member => (each c member).footprint
          have eraseds := childBytes_congr fun c member => (each c member).erased
          have spareds := childBytes_congr fun c member => (each c member).spared
          constructor
          · simp only [Pointer.footprint, null, still, path, same.own, same.children, footprints]
          · simp only [Pointer.erased, null, still, path, same.wiped, same.children, eraseds]
          · simp only [Pointer.spared, null, still, same.isBitList, same.own, same.children, same.wiped, spareds]
          · simp only [Pointer.visits, null, still, same.children]
            have counts : (p.children w).map (fun c => 1 + Pointer.visits w' depth c) =
                (p.children w).map fun c => 1 + Pointer.visits w depth c := by
              apply List.map_congr_left
              intro c member
              rw [(each c member).visits]
            rw [counts]
          · constructor
            · intro small _
              obtain ⟨first, rest⟩ := small still
              refine ⟨same.isSmall.mp first, fun c member => ?_⟩
              rw [same.children] at rest
              exact (each c member).small.mp (rest c member)
            · intro small _
              obtain ⟨first, rest⟩ := small null
              refine ⟨same.isSmall.mpr first, fun c member => ?_⟩
              rw [same.children] at member
              exact (each c member).small.mpr (rest c member)
          · refine ⟨inBounds.kept kept rfl, plain, fun _ => ?_⟩
            constructor
            · exact same.resolves_kept kept here.resolves
            · exact same.fits_kept kept here.fits
            · rw [same.children]
              exact fun c member => (each c member).isTree
            · rw [path, same.own]
              exact here.pathApart
            · rw [same.children, path, same.inner]
              intro c member
              rw [(each c member).footprint]
              exact here.childrenApart c member
            · rw [same.children]
              refine here.siblingsApart.imp_of_mem ?_
              intro c d first second apart
              rw [(each c first).footprint, (each d second).footprint]
              exact apart

theorem tree_like (depth : Nat) (p : Pointer) (like : World.Like p.message (footprint w depth p) w w')
    (tree : IsTree w depth p) : SameTree w w' depth p :=
  tree_kept depth p like.kept tree

end Pointer

end CapnpEs
