import CapnpEs.Serialization.Pointers.ErasedTrees
import CapnpEs.Serialization.Pointers.Orphans

/-! What `dispose` sets to zero, and when that is the object that was disowned. -/

namespace CapnpEs

open Outcome

namespace Pointer

variable {w : World} {p : Pointer}

def whole (p : Pointer) : Pointer := { p with depthLimit := DEFAULT_DEPTH_LIMIT }

theorem SameSlot.lo {q : Pointer} (same : q.SameSlot p) : q.lo w = p.lo w := by
  rw [Pointer.lo, Pointer.lo, same.message, same.segment, same.byteOffset]

theorem SameSlot.hi {q : Pointer} (same : q.SameSlot p) : q.hi w = p.hi w := by
  rw [Pointer.hi, Pointer.hi, same.message, same.segment, same.byteOffset]

theorem whole_slot : p.whole.SameSlot p := ⟨Eq.refl _, Eq.refl _, Eq.refl _⟩

theorem whole_pad : (p.whole.landingPad w).SameSlot (p.landingPad w) := by
  have lo := whole_slot.lo (p := p) (w := w)
  have hi := whole_slot.hi (p := p) (w := w)
  constructor
  · exact Eq.refl p.message
  · simp only [landingPad, hi]
  · simp only [landingPad, lo]

theorem whole_target : (p.whole.target w).SameSlot (p.target w) := by
  have pad := whole_pad (p := p) (w := w)
  unfold target
  rw [whole_slot.lo]
  split
  · split
    · exact ⟨pad.message, pad.segment, congrArg (· + 8) pad.byteOffset⟩
    · exact pad
  · exact whole_slot

theorem whole_targetLo : (p.whole.target w).lo w = (p.target w).lo w := whole_target.lo

theorem whole_targetHi : (p.whole.target w).hi w = (p.target w).hi w := whole_target.hi

theorem whole_objectStart : p.whole.objectStart w = p.objectStart w := by
  have pad := whole_pad (p := p) (w := w)
  have target := whole_target (p := p) (w := w)
  unfold objectStart
  rw [whole_slot.lo, pad.lo, pad.hi, target.lo, target.segment, target.byteOffset, whole_slot.message]

theorem whole_targetType : p.whole.targetType w = p.targetType w := by
  rw [targetType, targetType, whole_targetLo]

theorem whole_isComposite : p.whole.isComposite w = p.isComposite w := by
  rw [isComposite, isComposite, whole_targetType, whole_targetHi]

theorem whole_content : p.whole.content w = p.content w := by
  rw [content, content, whole_isComposite, whole_objectStart]

theorem whole_elementSize : p.whole.elementSize w = p.elementSize w := by
  rw [elementSize, elementSize, whole_targetHi]

theorem whole_structSize : p.whole.structSize w = p.structSize w := by
  rw [structSize, structSize, whole_targetHi]

theorem whole_compositeSize : p.whole.compositeSize w = p.compositeSize w := by
  rw [compositeSize, compositeSize, whole_objectStart]

theorem whole_listLength : p.whole.listLength w = p.listLength w := by
  rw [listLength, listLength, whole_isComposite, whole_objectStart, whole_targetHi]

def orphanOf (p : Pointer) (w : World) : OrphanType :=
  match p.targetType w with
  | .STRUCT => .STRUCT (p.structSize w)
  | .LIST =>
      .LIST (p.elementSize w) (p.listLength w) (if p.elementSize w = .COMPOSITE then some (p.compositeSize w) else none)
  | _ => .OTHER (p.hi w).toNat

def orphan (p : Pointer) (w : World) : Orphan :=
  { capnp := some (p.orphanOf w), message := p.message, segment := (p.content w).segment
    byteOffset := (p.content w).byteOffset }

section disown

variable (wf : (w p.message).WellFormed) (resolves : p.Resolves w) (plain : p.compositeIndex = none)
  (tag : p.isComposite w = true → (p.objectStart w).InBounds w)
include wf resolves plain tag

theorem orphanList_reads (list : p.targetType w = .LIST) (budget : 88 < (w p.message).traversalLimit) :
    Reads p.orphanList p.message 10 w (.LIST (p.elementSize w) (p.listLength w)
      (if p.elementSize w = .COMPOSITE then some (p.compositeSize w) else none)) := by
  refine Reads.bind (k := 5) (r := 5) (getTargetListLength_reads wf resolves (by omega) plain list tag) ?_
  intro first firstLe
  have size := getTargetListElementSize_reads (wf.spend p.message first) (resolves.toFollows.spend p.message first)
    (by rw [World.spend_traversalLimit]; omega)
  rw [target_spend, hi_spend] at size
  refine Reads.bind (k := 1) (r := 4) size ?_
  intro second secondLe
  rw [World.spend_spend]
  change Reads (if p.elementSize w = .COMPOSITE then _ else _) _ _ _ _
  by_cases composite : p.elementSize w = .COMPOSITE
  · have isComposite : p.isComposite w = true := SameNode.composite_of list composite
    rw [if_pos composite, if_pos composite]
    have found := getTargetCompositeListSize_reads (wf.spend p.message (first + second))
      (resolves.spend p.message (first + second)) (by rw [World.spend_traversalLimit]; omega) plain
      (by simpa using isComposite) (by rw [objectStart_spend]; exact (tag isComposite).spend _ _)
    rw [objectStart_spend, hi_spend] at found
    exact Reads.bind (k := 4) (r := 0) found fun _ _ => Reads.pure _
  · rw [if_neg composite, if_neg composite]
    exact (Reads.pure _).mono (Nat.zero_le 4)

theorem orphanType_reads (budget : 96 < (w p.message).traversalLimit) :
    Reads p.orphanType p.message 11 w (p.orphanOf w) := by
  refine Reads.bind (k := 1) (r := 10)
    (getTargetPointerType_reads wf resolves.toFollows (by omega) resolves.notFar) ?_
  intro first firstLe
  rw [orphanOf]
  cases type : p.targetType w with
  | STRUCT =>
      have size := getTargetStructSize_reads (wf.spend p.message first) (resolves.toFollows.spend p.message first)
        (by rw [World.spend_traversalLimit]; omega)
      rw [target_spend, hi_spend] at size
      exact Reads.mono (Reads.bind (k := 1) (r := 0) size fun _ _ => Reads.pure _) (by decide : 1 + 0 ≤ 10)
  | LIST =>
      have list := orphanList_reads (wf.spend p.message first) (resolves.spend p.message first) plain
        (by rw [isComposite_spend, objectStart_spend]; exact fun composite => (tag composite).spend _ _)
        (by simpa using type) (by rw [World.spend_traversalLimit]; omega)
      rw [elementSize_spend, listLength_spend, compositeSize_spend] at list
      exact list
  | FAR => exact absurd type resolves.notFar
  | OTHER =>
      have run := getUint32_hi (wf.spend p.message first) (resolves.inBounds.spend p.message first)
      have id : Reads p.getCapabilityId p.message 0 (w.spend p.message first) (p.hi w).toNat := by
        apply Reads.of_run
        rw [getCapabilityId, bind_apply, run, hi_spend]
        rfl
      exact Reads.mono (Reads.bind (k := 0) (r := 0) id fun _ _ => Reads.pure _) (by decide : 0 + 0 ≤ 10)

theorem disown_run (writable : (w p.message).readonly = false) (budget : 128 < (w p.message).traversalLimit) :
    ∃ middle, p.disown w = .ok (p.orphan w) middle ∧ Zeroed p.message 16 (p.path w) w middle := by
  obtain ⟨first, firstLe, content⟩ := @getContent_reads w p false wf resolves (by omega) plain
  obtain ⟨second, secondLe, type⟩ := orphanType_reads (wf.spend p.message first) (resolves.spend p.message first) plain
    (by rw [isComposite_spend, objectStart_spend]; exact fun composite => (tag composite).spend _ _)
    (by rw [World.spend_traversalLimit]; omega)
  have same : p.orphanOf (w.spend p.message first) = p.orphanOf w := by
    simp only [orphanOf, targetType_spend, structSize_spend, elementSize_spend, listLength_spend, compositeSize_spend,
      hi_spend]
  rw [same, World.spend_spend] at type
  have erases := erasePointer_erases (wf.spend p.message (first + second)) (by simpa using writable)
    (resolves.toFollows.spend p.message (first + second)) (by rw [World.spend_traversalLimit]; omega)
  have path : p.path (w.spend p.message (first + second)) = p.path w := by
    simp [Pointer.path, pads]
  rw [path] at erases
  rcases erases with ⟨_, middle, run, zeroed⟩ | ⟨impossible, _⟩
  · refine ⟨middle, ?_, ?_⟩
    · rw [disown, bind_apply, content]
      simp only
      rw [bind_apply, type]
      simp only
      rw [bind_apply, run]
      simp only [pure_apply, orphan, content_message]
    · have both := (Zeroed.spend wf (first + second)).trans zeroed
      rw [Set.empty_union] at both
      exact both.mono (by omega)
  · exact absurd trivial impossible

end disown

/-! Disposing of what was disowned. -/

def childDepth : Nat := (DEFAULT_DEPTH_LIMIT - 1).toNat

/-- Every byte of the object and of what its pointers lead to. -/
def objectBytes (w : World) (p : Pointer) : Set Byte :=
  p.own w ∪ { byte | ∃ c ∈ p.whole.children w, byte ∈ footprint w childDepth c }

def sections (p : Pointer) (w : World) : Set Byte :=
  span (p.content w).segment (p.content w).byteOffset (8 * (p.structSize w).getWordLength)

def listBytes (p : Pointer) (w : World) : Int :=
  match getListByteLength (p.elementSize w) (p.listLength w)
      (if p.elementSize w = .COMPOSITE then some (p.compositeSize w) else none) with
  | .ok byteLength => byteLength
  | .error _ => 0

def listWindow (p : Pointer) (w : World) : Set Byte :=
  span (p.content w).segment (p.content w).byteOffset (8 * p.listBytes w)

/-- What `dispose` sets to zero. -/
def disposed (w : World) (p : Pointer) : Set Byte :=
  match p.targetType w with
  | .STRUCT => { byte | ∃ c ∈ p.whole.children w, byte ∈ erased w childDepth c } ∪ p.sections w
  | .LIST => p.listWindow w
  | _ => ∅

/-- The window of a list lies in its buffer; the lists below a struct can be erased. -/
def DisposeFits (w : World) (p : Pointer) : Prop :=
  match p.targetType w with
  | .STRUCT => ∀ c ∈ p.whole.children w, SmallLists w childDepth c
  | .LIST =>
      0 ≤ p.listBytes w ∧
        (p.content w).byteOffset + 8 * p.listBytes w ≤ (w p.message).capacity (p.content w).segment
  | _ => True

/-- The bytes of the object that `dispose` leaves as they are. -/
def leftBehind (w : World) (p : Pointer) : Set Byte :=
  match p.targetType w with
  | .STRUCT => { byte | ∃ c ∈ p.whole.children w, byte ∈ spared w childDepth c } \ p.sections w
  | .LIST => objectBytes w p \ p.listWindow w
  | _ => ∅

/-- The bytes behind a list that `dispose` sets to zero too. -/
def overrun (w : World) (p : Pointer) : Set Byte :=
  match p.targetType w with
  | .LIST => p.listWindow w \ (objectBytes w p ∪ p.path w)
  | _ => ∅

theorem orphan_pointer : (p.orphan w).pointer = fresh p.message (p.content w).segment (p.content w).byteOffset := by
  simp only [Orphan.pointer, orphan, fresh]

section fresh

variable {message segment : Nat} {byteOffset : Int} (wf : (w message).WellFormed)
  (writable : (w message).readonly = false) (lower : 0 ≤ byteOffset)
  (bound : segment < (w message).segments.length) (aligned : byteOffset % 8 = 0)
include wf writable lower bound aligned

theorem fresh_fillZeroWords {count : Nat} (inside : byteOffset + 8 * count ≤ (w message).allocated segment) :
    Erases ((fresh message segment byteOffset).fillZeroWords byteOffset count) message 0
      (span segment byteOffset (8 * count)) True w :=
  fillZeroWords_erases wf writable lower bound aligned inside

theorem fresh_fillZeroWordsOf (words : Int) :
    Erases ((fresh message segment byteOffset).fillZeroWordsOf byteOffset words) message 0
      (span segment byteOffset (8 * words))
      (0 ≤ words ∧ byteOffset + 8 * words ≤ (w message).capacity segment) w :=
  fillZeroWordsOf_fits wf writable lower bound aligned words

end fresh

theorem getListByteLength_ok : getListByteLength (p.elementSize w) (p.listLength w)
    (if p.elementSize w = .COMPOSITE then some (p.compositeSize w) else none) = .ok (p.listBytes w) := by
  unfold listBytes
  cases p.elementSize w <;> rfl

section dispose

variable {middle : World} (writable : (w p.message).readonly = false)
  (tree : IsTree w DEFAULT_DEPTH_LIMIT.toNat p.whole) (filled : p.isNullWord w = false)
  (zeroed : Zeroed p.message 16 (p.path w) w middle)

include tree filled in
theorem whole_node : IsNode (footprint w childDepth) (IsTree w childDepth) p.whole w :=
  tree.2.2 filled

include tree filled in
theorem content_lower : 0 ≤ (p.content w).byteOffset := by
  have lower := (whole_node tree filled).resolves.lower
  rw [whole_objectStart] at lower
  rw [content]
  split
  · dsimp only
    omega
  · exact lower

include tree filled in
theorem whole_bound : (p.content w).segment < (w p.message).segments.length := by
  rw [← whole_content]
  exact content_bound (whole_node tree filled).resolves

include tree filled in
theorem whole_aligned : (p.content w).byteOffset % 8 = 0 := by
  rw [← whole_content]
  exact (whole_node tree filled).fits.aligned

include writable tree filled zeroed

theorem disposeList_erases (elementSize : ListElementSize) (length : Int) (size : Option ObjectSize) (byteLength : Int)
    (found : getListByteLength elementSize length size = .ok byteLength) :
    Erases ((p.orphan w).disposeList elementSize length size) p.message 0
      (span (p.content w).segment (p.content w).byteOffset (8 * byteLength))
      (0 ≤ byteLength ∧
        (p.content w).byteOffset + 8 * byteLength ≤ (w p.message).capacity (p.content w).segment) middle := by
  have bound := whole_bound tree filled
  have aligned := whole_aligned tree filled
  have locked : (middle p.message).readonly = false := zeroed.like.readonly.trans writable
  rw [← zeroed.like.length] at bound
  rw [← zeroed.like.capacity, Erases, Orphan.disposeList, orphan_pointer, found, bind_apply, ofExcept_ok]
  exact fresh_fillZeroWordsOf zeroed.like.wellFormed locked (content_lower tree filled) bound aligned byteLength

omit writable tree filled zeroed in
theorem orphan_children (struct : p.targetType w = .STRUCT) :
    p.whole.children w = pointersAt (p.orphan w).pointer (p.orphan w).pointer
      ((p.content w).byteOffset + (p.structSize w).dataByteLength) (p.structSize w).pointerLength := by
  rw [children, whole_targetType, struct, whole_content, whole_structSize, orphan_pointer]
  simp only [pointersAt, child, content_message, fresh]
  rfl

omit writable zeroed in
theorem sections_inside (struct : p.targetType w = .STRUCT) :
    (p.content w).byteOffset + 8 * (p.structSize w).getWordLength ≤ (w p.message).allocated (p.content w).segment := by
  have node := whole_node tree filled
  have words := structSize_aligned ((p.target w).hi w)
  have inside := node.fits.inside
  rw [whole_content, extent, whole_targetType, struct, whole_structSize] at inside
  have message : p.whole.message = p.message := rfl
  rw [message] at inside
  dsimp only at inside
  rw [ObjectSize.getWordLength]
  cases pointers : (p.structSize w).pointerLength with
  | zero =>
      simp only [structSize] at words inside ⊢
      omega
  | succ last =>
      have member : child (p.orphan w).pointer (p.orphan w).pointer
          ((p.content w).byteOffset + (p.structSize w).dataByteLength + (last : Nat) * 8) ∈ p.whole.children w := by
        rw [orphan_children struct, pointers]
        exact List.mem_map.mpr ⟨last, List.mem_range.mpr (Nat.lt_succ_self last), rfl⟩
      have upper := (node.children _ member).1.upper
      simp only [child, Orphan.pointer, orphan] at upper
      simp only [structSize] at words upper ⊢
      push_cast at upper ⊢
      omega

theorem orphanChild_erases {c : Pointer} (member : c ∈ p.whole.children w) {w' : World}
    (like : World.Like p.message (footprint w childDepth c) middle w')
    (left : 8 * (1 + visits w childDepth c : Nat) < (w' p.message).traversalLimit) :
    Erases (eraseChild erase c) p.message (1 + visits w childDepth c) (erased w childDepth c)
      (SmallLists w childDepth c) w' := by
  have node := whole_node tree filled
  have child := children_isChild member
  have here : c.message = p.message := child.message
  have depth : c.depthLimit = childDepth := child.depthLimit
  have like : World.Like p.message (footprint w childDepth c) w w' := by
    apply World.Like.trans _ like
    apply zeroed.like.mono
    intro byte inside inPath
    exact Set.disjoint_left.mp (node.childrenApart c member) (Or.inl inPath) inside
  rw [← here] at like left ⊢
  apply eraseChild_erases like (node.children c member) child left rfl
  · rw [here]
    exact writable
  · intro v wellFormed writable subtree budget
    have erases := eraseWithin_erases childDepth c wellFormed writable depth subtree budget
    rw [erase, depth]
    exact erases

theorem sections_erases (struct : p.targetType w = .STRUCT) {w' : World} {cost : Nat} {zeros : Set Byte}
    (later : Zeroed p.message cost zeros middle w') :
    Erases ((p.orphan w).pointer.fillZeroWords (p.content w).byteOffset (p.structSize w).getWordLength) p.message 0
      (p.sections w) True w' := by
  have bound := whole_bound tree filled
  have aligned := whole_aligned tree filled
  have locked : (w' p.message).readonly = false :=
    later.like.readonly.trans (zeroed.like.readonly.trans writable)
  have inside := sections_inside tree filled struct
  rw [← zeroed.like.length, ← later.like.length] at bound
  rw [← zeroed.like.allocated, ← later.like.allocated] at inside
  rw [orphan_pointer]
  exact fresh_fillZeroWords later.like.wellFormed locked (content_lower tree filled) bound aligned inside

theorem disposeStruct_erases (struct : p.targetType w = .STRUCT)
    (budget : 8 * visits w DEFAULT_DEPTH_LIMIT.toNat p.whole < (w p.message).traversalLimit) :
    Erases ((p.orphan w).disposeStruct (p.structSize w)) p.message
      ((p.whole.children w).map fun c => 1 + visits w childDepth c).sum
      ({ byte | ∃ c ∈ p.whole.children w, byte ∈ erased w childDepth c } ∪ p.sections w)
      (∀ c ∈ p.whole.children w, SmallLists w childDepth c) middle := by
  have node := whole_node tree filled
  have visited : visits w (childDepth + 1) p.whole =
      16 + ((p.whole.children w).map fun c => 1 + visits w childDepth c).sum := by
    have wholeFilled : p.whole.isNullWord w = false := filled
    simp [visits, wholeFilled]
  have depth : DEFAULT_DEPTH_LIMIT.toNat = childDepth + 1 := by decide
  rw [depth, visited] at budget
  have left := zeroed.budget
  have loop := @Erases.forM p.message middle (eraseChild erase) (footprint w childDepth) (erased w childDepth)
    (fun c => 1 + visits w childDepth c) (SmallLists w childDepth) (p.whole.children w) zeroed.like.wellFormed
    (fun c _ => erased_subset_footprint childDepth c) node.siblingsApart (by omega)
    (fun c member w' like left => orphanChild_erases writable tree filled zeroed member like left)
  have both := loop.seq fun w' later => sections_erases writable tree filled zeroed struct later
  rw [orphan_children struct, ← erasePointers_eq, ← orphan_children struct] at both
  exact both.mono (by omega) (Eq.refl _) (by simp)

theorem disposeContent_erases
    (budget : 8 * visits w DEFAULT_DEPTH_LIMIT.toNat p.whole < (w p.message).traversalLimit) :
    Erases ((p.orphan w).disposeContent (p.orphanOf w)) p.message
      ((p.whole.children w).map fun c => 1 + visits w childDepth c).sum (disposed w p) (DisposeFits w p) middle := by
  cases type : p.targetType w with
  | STRUCT =>
      have erases := disposeStruct_erases writable tree filled zeroed type budget
      simpa only [Orphan.disposeContent, orphanOf, disposed, DisposeFits, type] using erases
  | LIST =>
      have erases := disposeList_erases writable tree filled zeroed _ _ _ _ (getListByteLength_ok (p := p) (w := w))
      have more := erases.mono (Nat.zero_le ((p.whole.children w).map fun c => 1 + visits w childDepth c).sum)
        (Eq.refl _) Iff.rfl
      simpa only [Orphan.disposeContent, orphanOf, disposed, DisposeFits, listWindow, type] using more
  | FAR =>
      have notFar := (whole_node tree filled).resolves.notFar
      rw [whole_targetType] at notFar
      exact absurd type notFar
  | OTHER =>
      have erases := (Erases.pure zeroed.like.wellFormed).mono
        (Nat.zero_le ((p.whole.children w).map fun c => 1 + visits w childDepth c).sum) (Eq.refl _) Iff.rfl
      simpa only [Orphan.disposeContent, orphanOf, disposed, DisposeFits, type] using erases

end dispose

/-! Which bytes are treated wrongly. -/

theorem whole_own : p.whole.own w = p.own w := by
  have extent : p.whole.extent w = p.extent w := by
    rw [Pointer.extent, Pointer.extent, whole_targetType, whole_structSize, whole_elementSize, whole_listLength,
      whole_compositeSize]
  rw [own, own, whole_isComposite, whole_content, extent]

theorem own_struct (struct : p.targetType w = .STRUCT) :
    p.own w = span (p.content w).segment (p.content w).byteOffset (p.structSize w).dataByteLength := by
  have notComposite : p.isComposite w = false := by
    simp [isComposite, struct]
  rw [own, notComposite, extent, struct]
  rfl

theorem sections_length : (8 * (p.structSize w).getWordLength : Int) =
    (p.structSize w).dataByteLength + 8 * (p.structSize w).pointerLength := by
  have words := structSize_aligned ((p.target w).hi w)
  simp only [ObjectSize.getWordLength, structSize] at words ⊢
  push_cast
  omega

theorem word_of_pointersAt (q : Pointer) {segment : Nat} (here : q.segment = segment) {start : Int}
    {count address : Nat} (above : start ≤ address) (below : (address : Int) < start + 8 * count) :
    ∃ c ∈ pointersAt q q start count, (segment, address) ∈ c.word := by
  subst here
  have index : 0 ≤ ((address : Int) - start) / 8 := by omega
  obtain ⟨i, equal⟩ := Int.eq_ofNat_of_zero_le index
  refine ⟨child q q (start + i * 8), ?_, rfl, ?_, ?_⟩
  · exact List.mem_map.mpr ⟨i, List.mem_range.mpr (by omega), rfl⟩
  · simp only [child]
    omega
  · simp only [child]
    omega

theorem sections_subset (struct : p.targetType w = .STRUCT) : p.sections w ⊆ objectBytes w p := by
  rintro ⟨segment, address⟩ ⟨same, above, below⟩
  rw [sections_length] at below
  dsimp only at same above below
  by_cases data : (address : Int) < (p.content w).byteOffset + (p.structSize w).dataByteLength
  · apply Or.inl
    rw [own_struct struct]
    exact ⟨same, above, data⟩
  · obtain ⟨c, member, inside⟩ := @word_of_pointersAt
      (fresh p.message (p.content w).segment (p.content w).byteOffset) (p.content w).segment (by simp only [fresh])
      ((p.content w).byteOffset + (p.structSize w).dataByteLength) (p.structSize w).pointerLength address
      (by omega) (by omega)
    refine Or.inr ⟨c, ?_, Or.inl (Or.inl ?_)⟩
    · rw [orphan_children struct, orphan_pointer]
      exact member
    · rw [same]
      exact inside

section exact

variable (tree : IsTree w DEFAULT_DEPTH_LIMIT.toNat p.whole) (filled : p.isNullWord w = false)
include tree filled

theorem objectBytes_apart : Disjoint (p.path w) (objectBytes w p) := by
  have node := whole_node tree filled
  rw [Set.disjoint_left]
  rintro byte inPath (own | ⟨c, member, inside⟩)
  · rw [← whole_own] at own
    exact Set.disjoint_left.mp node.pathApart inPath own
  · exact Set.disjoint_left.mp (node.childrenApart c member) (Or.inl inPath) inside

theorem leftBehind_eq : leftBehind w p = objectBytes w p \ disposed w p := by
  have node := whole_node tree filled
  cases type : p.targetType w with
  | STRUCT =>
      simp only [leftBehind, disposed, type]
      ext byte
      constructor
      · rintro ⟨⟨c, member, kept⟩, outside⟩
        have inside : byte ∈ footprint w childDepth c := by
          rw [footprint_eq]
          exact Or.inr kept
        refine ⟨Or.inr ⟨c, member, inside⟩, ?_⟩
        rintro (⟨d, sibling, gone⟩ | wiped)
        · by_cases same : c = d
          · subst same
            exact Set.disjoint_left.mp (spared_apart childDepth c (node.children c member)) kept gone
          · have symmetric : Std.Symm fun c d : Pointer =>
                Disjoint (footprint w childDepth c) (footprint w childDepth d) :=
              ⟨fun _ _ disjoint => disjoint.symm⟩
            have apart := node.siblingsApart.forall member sibling same
            exact Set.disjoint_left.mp apart inside (erased_subset_footprint childDepth d gone)
        · exact outside wiped
      · rintro ⟨own | ⟨c, member, inside⟩, outside⟩
        · rw [own_struct type] at own
          obtain ⟨same, above, below⟩ := own
          refine absurd (Or.inr ⟨same, above, ?_⟩) outside
          rw [sections_length]
          omega
        · rw [footprint_eq] at inside
          rcases inside with gone | kept
          · exact absurd (Or.inl ⟨c, member, gone⟩) outside
          · exact ⟨⟨c, member, kept⟩, fun wiped => outside (Or.inr wiped)⟩
  | LIST => simp only [leftBehind, disposed, type]
  | FAR =>
      have notFar := node.resolves.notFar
      rw [whole_targetType] at notFar
      exact absurd type notFar
  | OTHER =>
      have children : p.whole.children w = [] := by
        rw [Pointer.children, whole_targetType, type]
      have notComposite : p.isComposite w = false := by
        simp [isComposite, type]
      have own : p.own w = ∅ := by
        rw [own, notComposite, extent, type]
        simp
      simp [leftBehind, objectBytes, type, children, own]

omit tree filled in
theorem overrun_eq : overrun w p = disposed w p \ (objectBytes w p ∪ p.path w) := by
  cases type : p.targetType w with
  | STRUCT =>
      simp only [overrun, disposed, type]
      symm
      rw [Set.sdiff_eq_empty]
      rintro byte (⟨c, member, gone⟩ | wiped)
      · exact Or.inl (Or.inr ⟨c, member, erased_subset_footprint childDepth c gone⟩)
      · exact Or.inl (sections_subset type wiped)
  | LIST => simp only [overrun, disposed, type]
  | FAR => simp only [overrun, disposed, type, Set.empty_sdiff]
  | OTHER => simp only [overrun, disposed, type, Set.empty_sdiff]

end exact

/-- The object is disowned, and disposing of the orphan sets its bytes to zero and no others. -/
def DisposesExactly (p : Pointer) (w : World) : Prop :=
  ∃ o middle, p.disown w = .ok o middle ∧ ∃ after, o.dispose middle = .ok { o with capnp := none } after ∧
    ((∀ byte ∈ objectBytes w p, (after p.message).memory byte.1 byte.2 = 0) ∧
      ∀ byte ∉ objectBytes w p,
        (after p.message).memory byte.1 byte.2 = (middle p.message).memory byte.1 byte.2) ∧
    (∀ s, (after p.message).allocated s = (middle p.message).allocated s) ∧
    ∀ other ≠ p.message, after other = middle other

theorem dispose_exact_iff (wf : (w p.message).WellFormed) (writable : (w p.message).readonly = false)
    (follows : p.Follows w) (tree : IsTree w DEFAULT_DEPTH_LIMIT.toNat p.whole) (filled : p.isNullWord w = false)
    (budget : 8 * visits w DEFAULT_DEPTH_LIMIT.toNat p.whole < (w p.message).traversalLimit) :
    DisposesExactly p w ↔ DisposeFits w p ∧
      (∀ byte ∈ leftBehind w p, (w p.message).memory byte.1 byte.2 = 0) ∧
      ∀ byte ∈ overrun w p, (w p.message).memory byte.1 byte.2 = 0 := by
  have node := whole_node tree filled
  have resolves : p.Resolves w := by
    refine ⟨follows, ?_, ?_, ?_, ?_⟩
    · rw [← whole_targetType]
      exact node.resolves.notFar
    · rw [← whole_objectStart]
      exact node.resolves.segment
    · rw [← whole_objectStart]
      exact node.resolves.lower
    · rw [← whole_objectStart]
      exact node.resolves.upper
  have tag : p.isComposite w = true → (p.objectStart w).InBounds w := by
    rw [← whole_isComposite, ← whole_objectStart]
    exact node.fits.tag
  have some : 16 ≤ visits w DEFAULT_DEPTH_LIMIT.toNat p.whole := by
    change 16 ≤ visits w (childDepth + 1) p.whole
    have wholeFilled : p.whole.isNullWord w = false := filled
    simp [visits, wholeFilled]
  obtain ⟨middle, run, zeroed⟩ := disown_run wf resolves tree.2.1 tag writable (by omega)
  have erases := disposeContent_erases writable tree filled zeroed budget
  have apart := objectBytes_apart tree filled
  have left : (∀ byte ∈ objectBytes w p, byte ∉ disposed w p → (middle p.message).memory byte.1 byte.2 = 0) ↔
      ∀ byte ∈ leftBehind w p, (w p.message).memory byte.1 byte.2 = 0 := by
    rw [leftBehind_eq tree filled]
    constructor
    · rintro zero byte ⟨inside, kept⟩
      rw [← zeroed.like.memory byte (Set.disjoint_right.mp apart inside)]
      exact zero byte inside kept
    · intro zero byte inside kept
      rw [zeroed.like.memory byte (Set.disjoint_right.mp apart inside)]
      exact zero byte ⟨inside, kept⟩
  have beyond : (∀ byte ∈ disposed w p, byte ∉ objectBytes w p → (middle p.message).memory byte.1 byte.2 = 0) ↔
      ∀ byte ∈ overrun w p, (w p.message).memory byte.1 byte.2 = 0 := by
    rw [overrun_eq]
    constructor
    · rintro zero byte ⟨gone, outside⟩
      rw [← zeroed.like.memory byte fun inPath => outside (Or.inr inPath)]
      exact zero byte gone fun inside => outside (Or.inl inside)
    · intro zero byte gone outside
      by_cases inPath : byte ∈ p.path w
      · exact zeroed.zero byte inPath
      · rw [zeroed.like.memory byte inPath]
        exact zero byte ⟨gone, fun either => either.elim outside inPath⟩
  have dispose : (p.orphan w).dispose middle =
      ((p.orphan w).disposeContent (p.orphanOf w) >>= fun _ => pure { p.orphan w with capnp := none }) middle := rfl
  rw [bind_apply] at dispose
  rw [← left, ← beyond]
  constructor
  · rintro ⟨o, middle', run', after, ended, exactly, _⟩
    rw [run] at run'
    cases run'
    rcases erases with ⟨fits, after', ran, later⟩ | ⟨_, reason, after', ran⟩
    · rw [dispose, ran] at ended
      cases ended
      exact ⟨fits, (zeroed_exact later).mp exactly⟩
    · rw [dispose, ran] at ended
      cases ended
  · rintro ⟨fits, exactly⟩
    rcases erases with ⟨_, after, ran, later⟩ | ⟨long, _⟩
    · refine ⟨p.orphan w, middle, run, after, ?_, (zeroed_exact later).mpr exactly, later.like.allocated, later.others⟩
      rw [dispose, ran]
      rfl
    · exact absurd fits long

/-! A list of eight bytes, and seven more words behind it. -/

def neighbours : World := fun _ =>
  { arena := { kind := .SINGLE_SEGMENT, buffers := [] }
    segments := [{
      buffer := [1, 0, 0, 0, 66, 0, 0, 0] ++ List.replicate 8 5 ++ List.replicate 56 7
      byteLength := 72 }]
    traversalLimit := DEFAULT_TRAVERSE_LIMIT
    readonly := false
    capTable := none }

theorem neighbours_wellFormed : (neighbours 0).WellFormed := by
  constructor <;> decide

theorem neighbours_shape : bitRoot.IsNear neighbours ∧ bitRoot.children neighbours = [] ∧
    bitRoot.isNullWord neighbours = false ∧ (bitRoot.objectStart neighbours).byteOffset = 8 ∧
    bitRoot.extent neighbours = 8 ∧
    8 * visits neighbours DEFAULT_DEPTH_LIMIT.toNat bitRoot.whole < (neighbours 0).traversalLimit := by
  decide +kernel

theorem neighbours_isTree (depth : Nat) : IsTree neighbours (depth + 1) bitRoot :=
  neighbours_shape.1.leaf_isTree neighbours_shape.2.1 depth

theorem dispose_exact_iff_neighbours : DisposesExactly bitRoot neighbours ↔ DisposeFits neighbours bitRoot ∧
    (∀ byte ∈ leftBehind neighbours bitRoot, (neighbours 0).memory byte.1 byte.2 = 0) ∧
    ∀ byte ∈ overrun neighbours bitRoot, (neighbours 0).memory byte.1 byte.2 = 0 :=
  dispose_exact_iff (p := bitRoot) neighbours_wellFormed rfl neighbours_shape.1.resolves.toFollows
    (neighbours_isTree 63) neighbours_shape.2.2.1 neighbours_shape.2.2.2.2.2

/-- The words behind the list are set to zero with it. -/
theorem neighbours_wiped : (neighbours 0).WellFormed ∧ (neighbours 0).readonly = false ∧ bitRoot.Follows neighbours ∧
    IsTree neighbours DEFAULT_DEPTH_LIMIT.toNat bitRoot.whole ∧ bitRoot.isNullWord neighbours = false ∧
    8 * visits neighbours DEFAULT_DEPTH_LIMIT.toNat bitRoot.whole < (neighbours 0).traversalLimit ∧
    (∃ o middle o' after, bitRoot.disown neighbours = .ok o middle ∧ o.dispose middle = .ok o' after ∧
      (middle 0).memory 0 16 = 7 ∧ (after 0).memory 0 16 = 0) ∧ ¬ DisposesExactly bitRoot neighbours := by
  have wiped : (match bitRoot.disown neighbours with
      | .ok o middle =>
          match o.dispose middle with
          | .ok _ after => some ((middle 0).memory 0 16, (after 0).memory 0 16)
          | .error _ _ => none
      | .error _ _ => none) = some (7, 0) := by
    decide +kernel
  obtain ⟨near, children, filled, start, extent, budget⟩ := neighbours_shape
  refine ⟨neighbours_wellFormed, rfl, near.resolves.toFollows, neighbours_isTree 63, filled, budget, ?_, ?_⟩
  · cases disowned : bitRoot.disown neighbours with
    | error reason middle =>
        rw [disowned] at wiped
        cases wiped
    | ok o middle =>
        rw [disowned] at wiped
        cases ended : o.dispose middle with
        | error reason after =>
            simp only [ended] at wiped
            cases wiped
        | ok o' after =>
            simp only [ended, Option.some.injEq, Prod.mk.injEq] at wiped
            exact ⟨o, middle, o', after, rfl, ended, wiped.1, wiped.2⟩
  · rintro ⟨o, middle, disowned, after, ended, ⟨_, same⟩, _⟩
    simp only [disowned, ended, Option.some.injEq, Prod.mk.injEq] at wiped
    have kept := same (0, 16) ?_
    · have equal := wiped.2.symm.trans (kept.trans wiped.1)
      exact absurd equal (by decide)
    · rintro (own | ⟨c, member, _⟩)
      · rw [near.own, start, extent] at own
        exact absurd own.2.2 (by decide)
      · change c ∈ bitRoot.children neighbours at member
        rw [children] at member
        cases member

end Pointer

end CapnpEs
