import CapnpEs.Serialization.Pointers.CompositeElements
import CapnpEs.Serialization.Pointers.DataBuffers
import CapnpEs.Serialization.Pointers.FieldRoundTrip
import CapnpEs.Serialization.Pointers.FieldWriters
import CapnpEs.Serialization.Pointers.PrimitiveLists

/-! Everything that a program can do with its messages, and what it is made of. -/

namespace CapnpEs

open Outcome

variable {message : Nat} {α : Type}

/-! What the functions on fields, lists and orphans are made of. -/

theorem isReadOnly_uses (s : Pointer) : Uses (fun _ => True) (isReadOnly s) := by
  have unfolded : isReadOnly s = (do
      let w ← get
      return (w s.message).readonly) := rfl
  rw [unfolded]
  exact Built.bind (Built.basic Accessor.get) fun w => Built.pure _

theorem newPointerAt_uses (p : Pointer) : Uses (fun _ => True) (newPointerAt p) := newPointer_uses _ _ _ _

namespace Pointer

theorem validate_uses (type : PointerType) (p : Pointer) : Uses (fun _ => True) (p.validate type) := by
  apply Built.bind p.isNull_uses
  intro isNull
  split
  · exact Built.pure _
  · apply Built.bind p.followFars_uses
    intro target
    apply Built.bind target.getPointerType_uses
    intro found
    split
    · exact Built.throw _
    · exact Built.pure _

theorem validateList_uses (elementSize : ListElementSize) (p : Pointer) :
    Uses (fun _ => True) (p.validateList elementSize) := by
  apply Built.bind p.isNull_uses
  intro isNull
  split
  · exact Built.pure _
  · apply Built.bind p.followFars_uses
    intro target
    apply Built.bind target.getPointerType_uses
    intro found
    split
    · exact Built.throw _
    · apply Built.bind target.getListElementSize_uses
      intro size
      split
      · exact Built.throw _
      · exact Built.pure _

theorem initPointer_any (contentMessage contentSegment : Nat) (contentOffset : Int) (p : Pointer) :
    Uses (fun _ => True) (initPointer contentMessage contentSegment contentOffset p) :=
  initPointer_uses trivial trivial _ _ _ _

theorem initStruct_uses (size : ObjectSize) (s : Pointer) : Uses (fun _ => True) (initStruct size s) := by
  unfold initStruct
  split
  · exact Built.throw _
  · apply Built.bind s.erase_uses
    intro _
    apply Built.bind (s.allocate_uses trivial)
    intro c
    apply Built.bind (initPointer_any _ _ _ s)
    intro res
    exact setStructPointer_uses _ _ _

theorem initListContent_uses (elementSize : ListElementSize) (length : Int) (list : Pointer)
    (compositeSize : Option ObjectSize) :
    Uses (fun _ => True) (initListContent elementSize length list compositeSize) := by
  have plain : ∀ byteLength : Int, Uses (fun _ => True) (do return (← list.allocate byteLength, compositeSize)) :=
    fun byteLength => Built.bind (list.allocate_uses trivial) fun c => Built.pure _
  cases elementSize with
  | COMPOSITE =>
      cases compositeSize with
      | none => exact Built.throw _
      | some compositeSize =>
          apply Built.bind (list.allocate_uses trivial)
          intro c
          exact Built.bind (setStructPointer_uses _ _ c) fun _ => Built.pure _
  | BIT => exact plain _
  | VOID => exact plain _
  | BYTE => exact plain _
  | BYTE_2 => exact plain _
  | BYTE_4 => exact plain _
  | BYTE_8 => exact plain _
  | POINTER => exact plain _

theorem initList_uses (elementSize : ListElementSize) (length : Int) (list : Pointer)
    (compositeSize : Option ObjectSize) : Uses (fun _ => True) (initList elementSize length list compositeSize) := by
  unfold initList
  split
  · exact setListPointer_uses _ _ _ _ _
  · apply Built.bind (initListContent_uses elementSize length list compositeSize)
    rintro ⟨c, compositeSize⟩
    apply Built.bind (initPointer_any _ _ _ list)
    intro res
    exact setListPointer_uses _ _ _ _ _

theorem getTargetCompositeListSize_uses (p : Pointer) : Uses (fun _ => True) p.getTargetCompositeListSize :=
  Built.bind p.getTargetCompositeListTag_uses fun tag => tag.getStructSize_uses

theorem disown_uses (src : Pointer) : Uses (fun _ => True) src.disown := by
  apply Built.bind (src.getContent_uses false)
  intro c
  apply Built.bind
  · apply Built.bind src.getTargetPointerType_uses
    intro type
    cases type with
    | STRUCT => exact Built.bind src.getTargetStructSize_uses fun _ => Built.pure _
    | LIST =>
        apply Built.bind src.getTargetListLength_uses
        intro length
        apply Built.bind src.getTargetListElementSize_uses
        intro elementSize
        split
        · exact Built.bind src.getTargetCompositeListSize_uses fun _ => Built.pure _
        · exact Built.pure _
    | OTHER => exact Built.bind (Built.bind (src.getUint32_uses _) fun _ => Built.pure _) fun _ => Built.pure _
    | FAR => exact Built.throw _
  · intro type
    exact Built.bind src.erasePointer_uses fun _ => Built.pure _

end Pointer

theorem Orphan.dispose_uses (o : Orphan) : Uses (fun _ => True) o.dispose := by
  unfold Orphan.dispose
  cases o.capnp with
  | none => exact Built.pure _
  | some type =>
      refine Built.bind ?_ fun _ => Built.pure _
      cases type with
      | STRUCT size =>
          apply Built.bind (Pointer.erasePointers_uses Pointer.erase_uses _ _ _ _)
          intro _
          exact o.pointer.fillZeroWords_uses _ _
      | LIST elementSize length size =>
          apply Built.bind (Built.ofExcept _)
          intro byteLength
          exact o.pointer.fillZeroWordsOf_uses _ _
      | OTHER capId => exact Built.pure _

section fields

variable (s : Pointer)

theorem getSize_uses : Uses (fun _ => True) (getSize s) := by
  apply Built.bind s.isNull_uses
  intro isNull
  split
  · exact Built.pure _
  · cases s.compositeIndex with
    | none => exact s.getTargetStructSize_uses
    | some index => exact Built.bind (s.getContent_uses true) fun c => Pointer.getStructSize_uses _

theorem throwDataBounds_uses (byteOffset byteLength : Int) :
    Uses (fun _ => True) (throwDataBounds byteOffset byteLength s) := by
  apply Built.bind (getSize_uses s)
  intro size
  split
  · exact Built.throw _
  · exact Built.pure _

theorem checkDataBounds_uses (byteOffset byteLength : Int) :
    Uses (fun _ => True) (checkDataBounds byteOffset byteLength s) := by
  refine Built.bind ?_ fun _ => throwDataBounds_uses s byteOffset byteLength
  apply Built.bind (isReadOnly_uses s)
  intro readOnly
  split
  · exact Built.throw _
  · exact Built.pure _

theorem checkReadDataBounds_uses (byteOffset byteLength : Int) :
    Uses (fun _ => True) (checkReadDataBounds byteOffset byteLength s) := by
  apply Built.bind (getSize_uses s)
  intro size
  split
  · exact Built.pure _
  · apply Built.bind (isReadOnly_uses s)
    intro readOnly
    split
    · exact Built.pure _
    · exact Built.bind (throwDataBounds_uses s _ _) fun _ => Built.pure _

theorem segmentGet_uses (signed : Bool) (width : Nat) (byteOffset : Int) :
    Uses (fun _ => True) (s.segmentGet signed width byteOffset) :=
  Built.bind (Built.basic (.getUint ..)) fun _ => Built.pure _

theorem segmentSet_uses (width : Nat) (byteOffset value : Int) :
    Uses (fun _ => True) (s.segmentSet width byteOffset value) :=
  Built.basic (.setUint ..)

variable (native : Bool) (tmp : TmpWord) (defaultMask : Option Bytes)

theorem getIntOf_uses (width maskWidth : Nat) (byteOffset : Int) :
    Uses (fun _ => True) (getIntOf native tmp width maskWidth byteOffset s defaultMask) := by
  apply Built.bind (checkReadDataBounds_uses s _ _)
  intro inside
  split
  · apply Built.bind (s.getContent_uses false)
    intro ds
    cases defaultMask with
    | none => exact segmentGet_uses ds _ _ _
    | some mask =>
        apply Built.bind (segmentGet_uses ds _ _ _)
        intro v
        exact Built.bind (Built.ofExcept _) fun m => Built.ofExcept _
  · cases defaultMask with
    | none => exact Built.pure _
    | some mask => exact Built.bind (Built.ofExcept _) fun m => Built.ofExcept _

theorem getUintOf_uses (width : Nat) (byteOffset : Int) :
    Uses (fun _ => True) (getUintOf width byteOffset s defaultMask) := by
  apply Built.bind (checkReadDataBounds_uses s _ _)
  intro inside
  split
  · apply Built.bind (s.getContent_uses false)
    intro ds
    apply Built.bind (segmentGet_uses ds _ _ _)
    intro v
    cases defaultMask with
    | none => exact Built.pure _
    | some mask => exact Built.bind (Built.ofExcept _) fun m => Built.pure _
  · cases defaultMask with
    | none => exact Built.pure _
    | some mask => exact Built.bind (Built.ofExcept _) fun m => Built.pure _

theorem getBigOf_uses (signed : Bool) (byteOffset : Int) :
    Uses (fun _ => True) (getBigOf native tmp signed byteOffset s defaultMask) := by
  apply Built.bind (checkReadDataBounds_uses s _ _)
  intro inside
  split
  · apply Built.bind (s.getContent_uses false)
    intro ds
    cases defaultMask with
    | none => exact segmentGet_uses ds _ _ _
    | some mask =>
        apply Built.bind (segmentGet_uses ds _ _ _)
        intro lo
        apply Built.bind (Built.ofExcept _)
        intro low
        apply Built.bind (segmentGet_uses ds _ _ _)
        intro hi
        exact Built.bind (Built.ofExcept _) fun high => Built.ofExcept _
  · cases defaultMask with
    | none => exact Built.pure _
    | some mask =>
        apply Built.bind (Built.ofExcept _)
        intro lo
        exact Built.bind (Built.ofExcept _) fun hi => Built.ofExcept _

theorem getBit_uses (bitOffset : Int) : Uses (fun _ => True) (getBit bitOffset s defaultMask) := by
  apply Built.bind (checkReadDataBounds_uses s _ _)
  intro inside
  split
  · apply Built.bind (s.getContent_uses false)
    intro ds
    apply Built.bind (segmentGet_uses ds _ _ _)
    intro v
    cases defaultMask with
    | none => exact Built.pure _
    | some mask => exact Built.bind (Built.ofExcept _) fun m => Built.pure _
  · cases defaultMask with
    | none => exact Built.pure _
    | some mask => exact Built.bind (Built.ofExcept _) fun m => Built.pure _

theorem setIntOf_uses (width : Nat) (byteOffset value : Int) :
    Uses (fun _ => True) (setIntOf native tmp width byteOffset value s defaultMask) := by
  apply Built.bind (checkDataBounds_uses s _ _)
  intro _
  apply Built.bind (s.getContent_uses false)
  intro ds
  cases defaultMask with
  | none => exact segmentSet_uses ds _ _ _
  | some mask =>
      apply Built.bind (Built.ofExcept _)
      intro bits
      exact Built.bind (Built.ofExcept _) fun m => segmentSet_uses ds _ _ _

theorem setUintOf_uses (width : Nat) (byteOffset value : Int) :
    Uses (fun _ => True) (setUintOf width byteOffset value s defaultMask) := by
  apply Built.bind (checkDataBounds_uses s _ _)
  intro _
  apply Built.bind (s.getContent_uses false)
  intro ds
  cases defaultMask with
  | none => exact segmentSet_uses ds _ _ _
  | some mask => exact Built.bind (Built.ofExcept _) fun m => segmentSet_uses ds _ _ _

theorem setBigOf_uses (byteOffset value : Int) :
    Uses (fun _ => True) (setBigOf native tmp byteOffset value s defaultMask) := by
  apply Built.bind (checkDataBounds_uses s _ _)
  intro _
  apply Built.bind (s.getContent_uses false)
  intro ds
  cases defaultMask with
  | none => exact segmentSet_uses ds _ _ _
  | some mask =>
      apply Built.bind (Built.ofExcept _)
      rintro ⟨lo, hi⟩
      apply Built.bind (Built.ofExcept _)
      intro low
      apply Built.bind (Built.ofExcept _)
      intro high
      exact Built.bind (segmentSet_uses ds _ _ _) fun _ => segmentSet_uses ds _ _ _

theorem setBit_uses (bitOffset : Int) (value : Bool) : Uses (fun _ => True) (setBit bitOffset value s defaultMask) := by
  apply Built.bind (checkDataBounds_uses s _ _)
  intro _
  apply Built.bind (s.getContent_uses false)
  intro ds
  apply Built.bind (segmentGet_uses ds _ _ _)
  intro b
  apply Built.bind
  · cases defaultMask with
    | none => exact Built.pure _
    | some mask => exact Built.bind (Built.ofExcept _) fun m => Built.pure _
  · intro stored
    exact segmentSet_uses ds _ _ _

theorem getFloat32_uses (byteOffset : Int) : Uses (fun _ => True) (getFloat32 byteOffset s defaultMask) :=
  Built.bind (getUintOf_uses s _ _ _) fun _ => Built.pure _

theorem getFloat64_uses (byteOffset : Int) : Uses (fun _ => True) (getFloat64 native tmp byteOffset s defaultMask) := by
  apply Built.bind (checkReadDataBounds_uses s _ _)
  intro inside
  split
  · apply Built.bind (s.getContent_uses false)
    intro ds
    cases defaultMask with
    | none => exact Built.basic (.getUint ..)
    | some mask =>
        apply Built.bind (segmentGet_uses ds _ _ _)
        intro lo
        apply Built.bind (Built.ofExcept _)
        intro low
        apply Built.bind (segmentGet_uses ds _ _ _)
        intro hi
        apply Built.bind (Built.ofExcept _)
        intro high
        exact Built.bind (Built.ofExcept _) fun bits => Built.pure _
  · cases defaultMask with
    | none => exact Built.pure _
    | some mask =>
        apply Built.bind (Built.ofExcept _)
        intro lo
        apply Built.bind (Built.ofExcept _)
        intro hi
        exact Built.bind (Built.ofExcept _) fun bits => Built.pure _

theorem FieldType.access_uses (type : FieldType) (offset : Int) (value : type.Value) :
    Uses (fun _ => True) ((type.access native s offset).get tmp defaultMask) ∧
      Uses (fun _ => True) ((type.access native s offset).set tmp value defaultMask) := by
  cases type with
  | int8 => exact ⟨getIntOf_uses s native tmp _ _ _ _, setIntOf_uses s native tmp _ _ _ _⟩
  | int16 => exact ⟨getIntOf_uses s native tmp _ _ _ _, setIntOf_uses s native tmp _ _ _ _⟩
  | int32 => exact ⟨getIntOf_uses s native tmp _ _ _ _, setIntOf_uses s native tmp _ _ _ _⟩
  | int64 => exact ⟨getBigOf_uses s native tmp _ _ _, setBigOf_uses s native tmp _ _ _⟩
  | uint8 => exact ⟨getUintOf_uses s _ _ _, setUintOf_uses s _ _ _ _⟩
  | uint16 => exact ⟨getUintOf_uses s _ _ _, setUintOf_uses s _ _ _ _⟩
  | uint32 => exact ⟨getUintOf_uses s _ _ _, setUintOf_uses s _ _ _ _⟩
  | uint64 => exact ⟨getBigOf_uses s native tmp _ _ _, setBigOf_uses s native tmp _ _ _⟩
  | bit => exact ⟨getBit_uses s _ _, setBit_uses s _ _ _⟩

end fields

section pointerFields

variable (s : Pointer) (index : Int)

theorem getPointerSection_uses : Uses (fun _ => True) (getPointerSection s) := by
  apply Built.bind (s.getContent_uses false)
  intro ps
  exact Built.bind (getSize_uses s) fun _ => Built.pure _

theorem checkReadPointerBounds_uses : Uses (fun _ => True) (checkReadPointerBounds index s) := by
  have thrown : Uses (fun _ => True) (throwPointerBounds index s) := by
    apply Built.bind (getSize_uses s)
    intro size
    split
    · exact Built.throw _
    · exact Built.pure _
  apply Built.bind (getSize_uses s)
  intro size
  split
  · exact Built.pure _
  · apply Built.bind (isReadOnly_uses s)
    intro readOnly
    split
    · exact Built.pure _
    · exact Built.bind thrown fun _ => Built.pure _

theorem newFieldPointer_uses : Uses (fun _ => True) (newFieldPointer index s) :=
  Built.bind (getPointerSection_uses s) fun _ => newPointer_uses _ _ _ _

theorem rewritePointer_uses (srcPtr srcPtrTarget srcPtrContent dstPtr : Pointer) :
    Uses (fun _ => True) (rewritePointer srcPtr srcPtrTarget srcPtrContent dstPtr) := by
  apply Built.bind srcPtr.isCompositeList_uses
  intro composite
  apply Built.bind (Pointer.initPointer_any _ _ _ dstPtr)
  intro r
  apply Built.bind (Built.bind (Built.basic (Accessor.getUint ..)) fun _ => Built.pure _)
  intro a
  apply Built.bind (srcPtrTarget.getUint32_uses _)
  intro b
  exact Built.bind (r.pointer.setUint32_uses _ _) fun _ => r.pointer.setUint32_uses _ _

theorem resize_uses (dstSize : ObjectSize) : Uses (fun _ => True) (resize dstSize s) := by
  apply Built.bind (getSize_uses s)
  intro srcSize
  apply Built.bind (s.getContent_uses false)
  intro srcContent
  apply Built.bind (s.allocate_uses trivial)
  intro dstContent
  apply Built.bind (dstContent.copyWords_uses _ _ _ _)
  intro _
  apply Built.bind (Pointer.initPointer_any _ _ _ s)
  intro res
  apply Built.bind (Pointer.setStructPointer_uses _ _ _)
  intro _
  refine Built.bind ?_ fun _ => srcContent.fillZeroWords_uses _ _
  apply Built.forM
  intro i _
  apply Built.bind (newPointer_uses _ _ _ _)
  intro srcPtr
  apply Built.bind srcPtr.isNull_uses
  intro isNull
  split
  · exact Built.pure _
  · apply Built.bind srcPtr.followFars_uses
    intro srcPtrTarget
    apply Built.bind (srcPtr.getContent_uses false)
    intro srcPtrContent
    apply Built.bind (newPointer_uses _ _ _ _)
    intro dstPtr
    exact rewritePointer_uses _ _ _ _

theorem growElement_uses (srcContent dstContent : Pointer) (srcSize dstSize : ObjectSize) (i : Nat) :
    Uses (fun _ => True) (growElement srcContent dstContent srcSize dstSize i) := by
  apply Built.bind (dstContent.copyWords_uses _ _ _ _)
  intro _
  apply Built.forM
  intro j _
  apply Built.bind (newPointer_uses _ _ _ _)
  intro srcPtr
  apply Built.bind (newPointer_uses _ _ _ _)
  intro dstPtr
  apply Built.bind srcPtr.followFars_uses
  intro srcPtrTarget
  apply Built.bind (srcPtr.getContent_uses false)
  intro srcPtrContent
  exact rewritePointer_uses _ _ _ _

theorem growList_uses (elementSize : ListElementSize) (dstSize : ObjectSize) (l : Pointer) :
    Uses (fun _ => True) (growList elementSize dstSize l) := by
  apply Built.bind l.getTargetCompositeListSize_uses
  intro srcSize
  split
  · apply Built.bind (l.getContent_uses false)
    intro srcContent
    apply Built.bind l.getTargetListLength_uses
    intro srcLength
    apply Built.bind (l.allocate_uses trivial)
    intro dstContent
    apply Built.bind (Pointer.initPointer_any _ _ _ l)
    intro res
    apply Built.bind (Pointer.setListPointer_uses _ _ _ _ _)
    intro _
    apply Built.bind (Pointer.setStructPointer_uses _ _ _)
    intro _
    refine Built.bind ?_ fun _ => srcContent.fillZeroWordsOf_uses _ _
    apply Built.forM
    intro i _
    exact growElement_uses _ _ _ _ i
  · exact Built.pure _

theorem copyFrom_uses (src p : Pointer) : Uses (fun _ => True) (Pointer.copyFrom src p) :=
  Pointer.copyWithin_uses (fun _ => trivial) _ src p

end pointerFields

section text

variable (encode : String → Bytes) (decode : Bytes → String) (t : Pointer)

theorem Text.length_uses : Uses (fun _ => True) (Text.length t) :=
  Built.bind t.getTargetListLength_uses fun _ => Built.pure _

theorem Text.fromPointer_uses : Uses (fun _ => True) (Text.fromPointer t) :=
  Built.bind (t.validateList_uses _) fun _ => newPointerAt_uses t

theorem Text.get_uses (index : Nat) : Uses (fun _ => True) (Text.get decode index t) := by
  apply Built.bind t.isNull_uses
  intro isNull
  split
  · exact Built.pure _
  · apply Built.bind (t.getContent_uses false)
    intro c
    apply Built.bind (Built.basic (.segment ..))
    intro s
    apply Built.bind (Text.length_uses t)
    intro length
    exact Built.bind (Built.ofExcept _) fun _ => Built.pure _

theorem Text.original_uses (index : Nat) : Uses (fun _ => True) (Text.original index t) := by
  apply Built.bind t.isNull_uses
  intro isNull
  split
  · exact Built.pure _
  · apply Built.bind (t.getContent_uses false)
    intro c
    apply Built.bind (Text.length_uses t)
    intro length
    apply Built.bind (Built.basic (.segment ..))
    intro s
    exact Built.bind t.erase_uses fun _ => Built.pure _

end text

section lists

variable (list : ListClass) (l : Pointer)

theorem ListClass.get_uses (index : Int) : Uses (fun _ => True) (list.get l index) := by
  cases list with
  | bool =>
      apply Built.bind (l.getContent_uses false)
      intro c
      exact Built.bind (segmentGet_uses c _ _ _) fun _ => Built.pure _
  | number format =>
      apply Built.bind (l.getContent_uses false)
      intro c
      exact Built.bind (Built.basic (.getUint ..)) fun _ => Built.pure _

theorem ListClass.set_uses (index : Int) (value : list.Value) : Uses (fun _ => True) (list.set l index value) := by
  cases list with
  | bool =>
      apply Built.bind (l.getContent_uses false)
      intro c
      apply Built.bind (segmentGet_uses c _ _ _)
      intro v
      exact segmentSet_uses c _ _ _
  | number format =>
      apply Built.bind (l.getContent_uses false)
      intro c
      exact segmentSet_uses c _ _ _

theorem ListClass.atIndex_uses (index : Int) : Uses (fun _ => True) (list.atIndex l index) := by
  unfold ListClass.atIndex
  split
  · exact Built.bind l.getTargetListLength_uses fun _ => list.get_uses l _
  · exact list.get_uses l _

theorem ListClass.toArray_uses : Uses (fun _ => True) (list.toArray l) := by
  have read : ∀ (count : Nat) (i : Int), Uses (fun _ => True) (list.readFrom l i count) := by
    intro count
    induction count with
    | zero => exact fun i => Built.pure _
    | succ count ih =>
        intro i
        apply Built.bind (list.atIndex_uses l i)
        intro value
        exact Built.bind (ih (i + 1)) fun _ => Built.pure _
  exact Built.bind l.getTargetListLength_uses fun _ => read _ _

theorem ListClass.fill_uses (value : list.Value) (start final : Option Int) :
    Uses (fun _ => True) (list.fill l value start final) := by
  have filled : ∀ (count : Nat) (i : Int), Uses (fun _ => True) (list.fillFrom l value i count) := by
    intro count
    induction count with
    | zero => exact fun i => Built.pure _
    | succ count ih => exact fun i => Built.bind (list.set_uses l i value) fun _ => ih (i + 1)
  exact Built.bind l.getTargetListLength_uses fun _ => filled _ _

theorem ListClass.copyWithin_uses (target start final : Option Int) :
    Uses (fun _ => True) (list.copyWithin l target start final) := by
  have copied : ∀ (count : Nat) (t s i : Int), Uses (fun _ => True) (list.copyFrom l t s i count) := by
    intro count
    induction count with
    | zero => exact fun t s i => Built.pure _
    | succ count ih =>
        intro t s i
        apply Built.bind (list.atIndex_uses l _)
        intro value
        exact Built.bind (list.set_uses l _ value) fun _ => ih t s (i + 1)
  apply Built.bind l.getTargetListLength_uses
  intro length
  cases target with
  | none => exact Built.pure _
  | some target =>
      cases start with
      | none => exact Built.pure _
      | some start => exact copied _ _ _ _

theorem CompositeList.get_uses (index : Nat) : Uses (fun _ => True) (CompositeList.get l index) :=
  Built.bind (newPointer_uses _ _ _ _) fun _ => Built.pure _

theorem CompositeList.set_uses (index : Nat) (value : Pointer) : Uses (fun _ => True) (CompositeList.set l index value) :=
  Built.bind (CompositeList.get_uses l index) fun _ => copyFrom_uses _ _

end lists

theorem checkPointerBounds_uses (index : Int) (s : Pointer) : Uses (fun _ => True) (checkPointerBounds index s) := by
  apply Built.bind
  · apply Built.bind (isReadOnly_uses s)
    intro readOnly
    split
    · exact Built.throw _
    · exact Built.pure _
  · intro _
    apply Built.bind (getSize_uses s)
    intro size
    split
    · exact Built.throw _
    · exact Built.pure _

theorem initFieldList_uses (index : Int) (elementSize : ListElementSize) (length : Int)
    (compositeSize : Option ObjectSize) (s : Pointer) :
    Uses (fun _ => True) (initFieldList index elementSize length compositeSize s) := by
  apply Built.bind (checkPointerBounds_uses index s)
  intro _
  apply Built.bind (newFieldPointer_uses s index)
  intro l
  apply Built.bind l.erase_uses
  intro _
  exact Built.bind (l.initList_uses _ _ _) fun _ => Built.pure _

theorem initRoot_uses (target : Nat) (size : ObjectSize) : Uses (fun _ => True) (initRoot target size) := by
  apply Built.bind (Built.basic (.getSegment ..))
  intro segment
  apply Built.bind (newPointer_uses _ _ _ _)
  intro root
  exact Built.bind (root.initStruct_uses size) fun _ => Built.pure _

theorem getRoot_uses (target : Nat) (size : ObjectSize) : Uses (fun _ => True) (getRoot target size) := by
  apply Built.bind (Built.basic (.getSegment ..))
  intro segment
  apply Built.bind (newPointer_uses _ _ _ _)
  intro root
  apply Built.bind (root.validate_uses _)
  intro _
  apply Built.bind root.getTargetStructSize_uses
  intro ts
  apply Built.bind (isReadOnly_uses root)
  intro readonly
  refine Built.bind ?_ fun _ => Built.pure _
  split
  · exact resize_uses root size
  · exact Built.pure _

theorem getInterfaceClientOrNull_uses (p : Pointer) : Uses (fun _ => True) (getInterfaceClientOrNull p) := by
  apply Built.bind (p.getUint32_uses _)
  intro capId
  exact Built.bind (Built.basic Accessor.get) fun w => Built.pure _

theorem setRoot_uses (src : Pointer) (target : Nat) : Uses (fun _ => True) (setRoot src target) := by
  apply Built.bind (Built.basic (.getSegment ..))
  intro segment
  exact Built.bind (newPointer_uses _ _ _ _) fun root => copyFrom_uses src root

theorem Orphan.moveContent_uses (o : Orphan) (type : OrphanType) (dst : Pointer) :
    Uses (fun _ => True) (o.moveContent type dst) := by
  apply Built.bind dst.erase_uses
  intro _
  apply Built.bind (Pointer.initPointer_any _ _ _ dst)
  intro res
  cases type with
  | STRUCT size => exact Pointer.setStructPointer_uses _ _ _
  | LIST elementSize length size => exact Pointer.setListPointer_uses _ _ _ _ _
  | OTHER capId => exact Pointer.setInterfacePointer_uses _ _

/-! The getters with a default make other messages: the null message, and the copy of a default. Writing a text or a
buffer goes through a view, which asks nothing about the message. -/

def copyInto (copied : Nat) (src : Pointer) : WorldM PUnit := do
  let w ← get
  let message ← ofExcept (w src.message).copy
  set (Function.update w copied { message with readonly := true })

/-- What calls are made of, as far as `message` is concerned. -/
inductive Primitive (nullMessage message : Nat) : (α : Type) → WorldM α → Prop
  | accessor {α : Type} {program : WorldM α} (accessor : Accessor (fun _ => True) α program) :
      Primitive nullMessage message α program
  | null : Primitive nullMessage message PUnit (modify fun w => Function.update w nullMessage readOnlyNullMessage)
  | copy {copied : Nat} (new : message ≠ copied) (src : Pointer) :
      Primitive nullMessage message PUnit (copyInto copied src)
  | text (encode : String → Bytes) (index : Nat) (value : String) (t : Pointer) :
      Primitive nullMessage message Unit (Text.set encode index value t)
  | buffer (src : BufferSource) (d : Pointer) : Primitive nullMessage message Unit (Data.copyBuffer src d)

abbrev Calls (nullMessage message : Nat) {α : Type} (program : WorldM α) : Prop :=
  Built (Primitive nullMessage message) program

theorem calls_of_uses {nullMessage : Nat} {program : WorldM α} (uses : Uses (fun _ => True) program) : Calls nullMessage message program :=
  uses.mono Primitive.accessor

section defaults

variable {nullMessage copied : Nat} (new : message ≠ copied) (s : Pointer) (index : Int)

theorem getNullPointer_calls : Calls nullMessage message (getNullPointer nullMessage s) :=
  Built.bind (Built.basic .null) fun _ => calls_of_uses (newPointer_uses _ _ _ _)

include new in
theorem getReadOnlyPointer_calls (src : Pointer) (depthLimit : Int) :
    Calls nullMessage message (getReadOnlyPointer copied src depthLimit) := by
  apply Built.bind (calls_of_uses (isReadOnly_uses src))
  intro readOnly
  split
  · exact calls_of_uses (newPointer_uses _ _ _ _)
  · have grouped : (do
        let w ← get
        let message ← ofExcept (w src.message).copy
        set (Function.update w copied { message with readonly := true })
        let segment ← onMessage copied (Message.getSegment src.segment)
        newPointer copied segment src.byteOffset depthLimit : WorldM Pointer) = (do
        copyInto copied src
        let segment ← onMessage copied (Message.getSegment src.segment)
        newPointer copied segment src.byteOffset depthLimit) := by
      simp only [copyInto, bind_assoc]
    rw [grouped]
    apply Built.bind (Built.basic (.copy new src))
    intro _
    exact calls_of_uses (Built.bind (Built.basic (.getSegment ..)) fun _ => newPointer_uses _ _ _ _)

include new in
theorem readDefault_calls (src : Pointer) (depthLimit : Int) :
    Calls nullMessage message (do newPointerAt (← getReadOnlyPointer copied src depthLimit)) :=
  Built.bind (getReadOnlyPointer_calls new src depthLimit) fun p => calls_of_uses (newPointerAt_uses p)

theorem getPointer_calls : Calls nullMessage message (getPointer nullMessage index s) := by
  apply Built.bind (calls_of_uses (checkReadPointerBounds_uses s index))
  intro inside
  split
  · exact calls_of_uses (newFieldPointer_uses s index)
  · exact getNullPointer_calls s

theorem getInterfaceClientOrNullAt_calls : Calls nullMessage message (getInterfaceClientOrNullAt nullMessage index s) :=
  Built.bind (getPointer_calls s index) fun p => calls_of_uses (getInterfaceClientOrNull_uses p)

theorem getPointerAs_calls : Calls nullMessage message (getPointerAs nullMessage index s) := by
  apply Built.bind (calls_of_uses (checkReadPointerBounds_uses s index))
  intro inside
  split
  · exact calls_of_uses (newFieldPointer_uses s index)
  · exact Built.bind (getNullPointer_calls s) fun p => calls_of_uses (newPointerAt_uses p)

include new in
theorem getStruct_calls (size : ObjectSize) (defaultValue : Option Pointer) :
    Calls nullMessage message (getStruct nullMessage copied index size s defaultValue) := by
  apply Built.bind (getPointerAs_calls s index)
  intro t
  apply Built.bind (calls_of_uses (isReadOnly_uses s))
  intro readOnly
  apply Built.bind (calls_of_uses t.isNull_uses)
  intro isNull
  split
  · cases defaultValue with
    | some defaultValue =>
        dsimp only
        split
        · exact readDefault_calls new _ _
        · exact Built.bind (calls_of_uses (copyFrom_uses _ _)) fun _ => Built.pure _
    | none =>
        refine Built.bind ?_ fun _ => Built.pure _
        split
        · exact Built.pure _
        · exact calls_of_uses (t.initStruct_uses size)
  · apply Built.bind (calls_of_uses (t.validate_uses _))
    intro _
    apply Built.bind (calls_of_uses t.getTargetStructSize_uses)
    intro ts
    refine Built.bind ?_ fun _ => Built.pure _
    split
    · exact calls_of_uses (resize_uses t size)
    · exact Built.pure _

include new in
theorem fillNullList_calls (elementSize : ListElementSize) (compositeSize : Option ObjectSize) (l : Pointer)
    (defaultValue : Option Pointer) :
    Calls nullMessage message (fillNullList copied elementSize compositeSize s l defaultValue) := by
  apply Built.bind (calls_of_uses (isReadOnly_uses s))
  intro readOnly
  cases defaultValue with
  | some defaultValue =>
      dsimp only
      split
      · exact readDefault_calls new _ _
      · exact Built.bind (calls_of_uses (copyFrom_uses _ _)) fun _ => Built.pure _
  | none =>
      refine Built.bind ?_ fun _ => Built.pure _
      split
      · exact Built.pure _
      · exact calls_of_uses (l.initList_uses _ _ _)

include new in
theorem getList_calls (elementSize : ListElementSize) (compositeSize : Option ObjectSize)
    (defaultValue : Option Pointer) :
    Calls nullMessage message (getList nullMessage copied index elementSize compositeSize s defaultValue) := by
  apply Built.bind (calls_of_uses (checkReadPointerBounds_uses s index))
  intro inside
  split
  · apply Built.bind (calls_of_uses (newFieldPointer_uses s index))
    intro l
    apply Built.bind (calls_of_uses l.isNull_uses)
    intro isNull
    split
    · exact fillNullList_calls new s _ _ l defaultValue
    · cases compositeSize with
      | some dstSize =>
          apply Built.bind (calls_of_uses (isReadOnly_uses s))
          intro readOnly
          split
          · exact Built.bind (Built.pure _) fun _ => Built.pure _
          · exact Built.bind (calls_of_uses (growList_uses _ _ l)) fun _ => Built.pure _
      | none => exact Built.pure _
  · apply Built.bind (getNullPointer_calls s)
    intro p
    cases defaultValue with
    | some defaultValue => exact readDefault_calls new _ _
    | none => exact calls_of_uses (newPointerAt_uses p)

include new in
theorem getData_calls (defaultValue : Option Pointer) :
    Calls nullMessage message (getData nullMessage copied index s defaultValue) := by
  apply Built.bind (calls_of_uses (checkReadPointerBounds_uses s index))
  intro inside
  split
  · apply Built.bind (calls_of_uses (newFieldPointer_uses s index))
    intro l
    apply Built.bind (calls_of_uses l.isNull_uses)
    intro isNull
    split
    · exact fillNullList_calls new s _ _ l defaultValue
    · exact Built.pure _
  · apply Built.bind (getNullPointer_calls s)
    intro p
    apply Built.bind (calls_of_uses (newPointerAt_uses p))
    intro l
    cases defaultValue with
    | some defaultValue => exact readDefault_calls new _ _
    | none => exact Built.pure _

end defaults

section texts

variable (encode : String → Bytes) (decode : Bytes → String) {nullMessage : Nat} (index : Int)

theorem getText_calls (s : Pointer) (defaultValue : Option String) :
    Calls nullMessage message (getText nullMessage encode decode index s defaultValue) := by
  apply Built.bind (getPointer_calls s index)
  intro p
  apply Built.bind (calls_of_uses (Text.fromPointer_uses p))
  intro t
  apply Built.bind (calls_of_uses t.isNull_uses)
  intro isNull
  split
  · apply Built.bind (calls_of_uses (isReadOnly_uses s))
    intro readOnly
    split
    · exact Built.pure _
    · exact Built.bind (Built.basic (.text encode 0 _ t)) fun _ => calls_of_uses (Text.get_uses decode t 0)
  · exact calls_of_uses (Text.get_uses decode t 0)

theorem setText_calls (value : String) (s : Pointer) :
    Calls nullMessage message (setText nullMessage encode index value s) := by
  apply Built.bind (getPointer_calls s index)
  intro p
  exact Built.bind (calls_of_uses (Text.fromPointer_uses p)) fun t => Built.basic (.text encode 0 value t)

end texts

section operations

variable (nullMessage : Nat) (native : Bool) (encode : String → Bytes) (decode : Bytes → String)

/-- A call on a message, a pointer, a list or an orphan. `copied` is the message that a getter may make for a default
that is not read-only. No two messages of a world have an `ArrayBuffer` in common. -/
inductive Operation
  | getSegment (target id : Nat)
  | allocate (target id : Nat) (byteLength : Int)
  | addCap (target : Nat) (client : CapabilitySlot)
  | getRoot (target : Nat) (size : ObjectSize)
  | initRoot (target : Nat) (size : ObjectSize)
  | setRoot (src : Pointer) (target : Nat)
  | validate (type : PointerType) (p : Pointer)
  | getField (type : FieldType) (offset : Int) (tmp : TmpWord) (defaultMask : Option Bytes) (s : Pointer)
  | setField (type : FieldType) (offset : Int) (tmp : TmpWord) (value : type.Value) (defaultMask : Option Bytes)
      (s : Pointer)
  | getFloat32 (byteOffset : Int) (defaultMask : Option Bytes) (s : Pointer)
  | setFloat32 (byteOffset : Int) (bits : Nat) (defaultMask : Option Bytes) (s : Pointer)
  | getFloat64 (byteOffset : Int) (tmp : TmpWord) (defaultMask : Option Bytes) (s : Pointer)
  | setFloat64 (byteOffset : Int) (tmp : TmpWord) (bits : Nat) (defaultMask : Option Bytes) (s : Pointer)
  | getInterfaceClientOrNull (p : Pointer)
  | getInterfaceClientOrNullAt (index : Int) (s : Pointer)
  | setInterfacePointer (capId : Nat) (p : Pointer)
  | getPointer (index : Int) (s : Pointer)
  | getStruct (copied : Nat) (index : Int) (size : ObjectSize) (s : Pointer) (defaultValue : Option Pointer)
  | getList (copied : Nat) (index : Int) (elementSize : ListElementSize) (compositeSize : Option ObjectSize)
      (s : Pointer) (defaultValue : Option Pointer)
  | getData (copied : Nat) (index : Int) (s : Pointer) (defaultValue : Option Pointer)
  | getText (index : Int) (s : Pointer) (defaultValue : Option String)
  | setText (index : Int) (value : String) (s : Pointer)
  | initStructAt (index : Int) (size : ObjectSize) (s : Pointer)
  | initData (index length : Int) (s : Pointer)
  | initList (index : Int) (elementSize : ListElementSize) (length : Int) (compositeSize : Option ObjectSize)
      (s : Pointer)
  | resize (size : ObjectSize) (s : Pointer)
  | copyFrom (src dst : Pointer)
  | erase (p : Pointer)
  | disown (p : Pointer)
  | adopt (o : Orphan) (dst : Pointer)
  | dispose (o : Orphan)
  | setTextAt (index : Nat) (value : String) (t : Pointer)
  | copyBuffer (src : BufferSource) (d : Pointer)
  | listToArray (list : ListClass) (l : Pointer)
  | listSet (list : ListClass) (l : Pointer) (index : Int) (value : list.Value)
  | listFill (list : ListClass) (l : Pointer) (value : list.Value) (start final : Option Int)
  | listCopyWithin (list : ListClass) (l : Pointer) (target start final : Option Int)
  | setElement (list : Pointer) (index : Nat) (value : Pointer)

def outcome {ε σ β : Type} (program : EStateM ε σ β) (state : σ) : Bool × σ :=
  match program state with
  | .ok _ after => (true, after)
  | .error _ after => (false, after)

namespace Operation

/-- Whether the call returns, and the world it leaves behind either way. -/
def call : Operation → World → Bool × World
  | getSegment target id => outcome (onMessage target (Message.getSegment id))
  | allocate target id byteLength => outcome (onMessage target (Message.allocate id byteLength))
  | addCap target client => outcome (Pointer.addCap target client)
  | getRoot target size => outcome (CapnpEs.getRoot target size)
  | initRoot target size => outcome (CapnpEs.initRoot target size)
  | setRoot src target => outcome (CapnpEs.setRoot src target)
  | validate type p => outcome (p.validate type)
  | getField type offset tmp defaultMask s => outcome ((type.access native s offset).get tmp defaultMask)
  | setField type offset tmp value defaultMask s => outcome ((type.access native s offset).set tmp value defaultMask)
  | getFloat32 byteOffset defaultMask s => outcome (CapnpEs.getFloat32 byteOffset s defaultMask)
  | setFloat32 byteOffset bits defaultMask s => outcome (CapnpEs.setFloat32 byteOffset bits s defaultMask)
  | getFloat64 byteOffset tmp defaultMask s => outcome (CapnpEs.getFloat64 native tmp byteOffset s defaultMask)
  | setFloat64 byteOffset tmp bits defaultMask s => outcome (CapnpEs.setFloat64 native tmp byteOffset bits s defaultMask)
  | getInterfaceClientOrNull p => outcome (CapnpEs.getInterfaceClientOrNull p)
  | getInterfaceClientOrNullAt index s => outcome (CapnpEs.getInterfaceClientOrNullAt nullMessage index s)
  | setInterfacePointer capId p => outcome (Pointer.setInterfacePointer capId p)
  | getPointer index s => outcome (CapnpEs.getPointer nullMessage index s)
  | getStruct copied index size s defaultValue =>
      outcome (CapnpEs.getStruct nullMessage copied index size s defaultValue)
  | getList copied index elementSize compositeSize s defaultValue =>
      outcome (CapnpEs.getList nullMessage copied index elementSize compositeSize s defaultValue)
  | getData copied index s defaultValue => outcome (CapnpEs.getData nullMessage copied index s defaultValue)
  | getText index s defaultValue => outcome (CapnpEs.getText nullMessage encode decode index s defaultValue)
  | setText index value s => outcome (CapnpEs.setText nullMessage encode index value s)
  | initStructAt index size s => outcome (CapnpEs.initStructAt nullMessage index size s)
  | initData index length s => outcome (CapnpEs.initData index length s)
  | initList index elementSize length compositeSize s =>
      outcome (CapnpEs.initList index elementSize length compositeSize s)
  | resize size s => outcome (CapnpEs.resize size s)
  | copyFrom src dst => outcome (Pointer.copyFrom src dst)
  | erase p => outcome p.erase
  | disown p => outcome p.disown
  | adopt o dst => outcome (o.moveTo dst)
  | dispose o => outcome o.dispose
  | setTextAt index value t => outcome (Text.set encode index value t)
  | copyBuffer src d => outcome (Data.copyBuffer src d)
  | listToArray list l => outcome (list.toArray l)
  | listSet list l index value => outcome (list.set l index value)
  | listFill list l value start final => outcome (list.fill l value start final)
  | listCopyWithin list l target start final => outcome (list.copyWithin l target start final)
  | setElement list index value => outcome (CompositeList.set list index value)

def returns (operation : Operation) (w : World) : Bool := (operation.call nullMessage native encode decode w).1

def after (operation : Operation) (w : World) : World := (operation.call nullMessage native encode decode w).2

def makes : Operation → List Nat
  | getStruct copied _ _ _ _ => [copied]
  | getList copied _ _ _ _ _ => [copied]
  | getData copied _ _ _ => [copied]
  | _ => []

end Operation

end operations

theorem outcome_moves {R : World → World → Prop} {program : WorldM α} (moves : Moves R program) (w : World) :
    R w (outcome program w).2 := by
  have moved := moves w
  unfold Meets at moved
  unfold outcome
  cases ran : program w with
  | ok value after =>
      rw [ran] at moved
      exact moved
  | error reason after =>
      rw [ran] at moved
      exact moved

theorem outcome_returns {program : WorldM α} {w : World} (returned : (outcome program w).1 = true) :
    ∃ value, program w = .ok value (outcome program w).2 := by
  unfold outcome at *
  cases ran : program w with
  | ok value after => exact ⟨value, rfl⟩
  | error reason after =>
      rw [ran] at returned
      cases returned

theorem Orphan.moveTo_outcome (o : Orphan) (dst : Pointer) (w : World) :
    outcome (o.moveTo dst) w = (false, w) ∨
      ∃ type, outcome (o.moveTo dst) w = outcome (o.moveContent type dst) w := by
  cases type : o.capnp with
  | none =>
      left
      rw [outcome, moveTo, type]
  | some type' =>
      by_cases here : o.message ≠ dst.message
      · left
        rw [outcome, moveTo, type]
        dsimp only
        rw [if_pos here]
      · right
        refine ⟨type', ?_⟩
        rw [outcome, outcome, moveTo, type]
        dsimp only
        rw [if_neg here]
        cases o.moveContent type' dst w with
        | ok value after => rfl
        | error reason after => rfl

section calls

variable {nullMessage : Nat} {native : Bool} {encode : String → Bytes} {decode : Bytes → String}

theorem Operation.call_built (operation : Operation) (new : message ∉ operation.makes)
    (w : World) :
    operation.call nullMessage native encode decode w = (false, w) ∨
      ∃ (α : Type) (program : WorldM α), Calls nullMessage message program ∧
        operation.call nullMessage native encode decode w = outcome program w := by
  cases operation with
  | getSegment target id => exact Or.inr ⟨_, _, calls_of_uses (Built.basic (.getSegment ..)), rfl⟩
  | allocate target id byteLength => exact Or.inr ⟨_, _, calls_of_uses (Built.basic (.allocate _ _ trivial)), rfl⟩
  | addCap target client => exact Or.inr ⟨_, _, calls_of_uses (Built.basic (.addCap ..)), rfl⟩
  | getRoot target size => exact Or.inr ⟨_, _, calls_of_uses (getRoot_uses target size), rfl⟩
  | initRoot target size => exact Or.inr ⟨_, _, calls_of_uses (initRoot_uses target size), rfl⟩
  | setRoot src target => exact Or.inr ⟨_, _, calls_of_uses (setRoot_uses src target), rfl⟩
  | validate type p => exact Or.inr ⟨_, _, calls_of_uses (p.validate_uses type), rfl⟩
  | getField type offset tmp defaultMask s =>
      have value : Inhabited type.Value := by cases type <;> infer_instance
      exact Or.inr ⟨_, _, calls_of_uses (FieldType.access_uses s native tmp defaultMask type offset default).1, rfl⟩
  | setField type offset tmp value defaultMask s =>
      exact Or.inr ⟨_, _, calls_of_uses (FieldType.access_uses s native tmp defaultMask type offset value).2, rfl⟩
  | getFloat32 byteOffset defaultMask s => exact Or.inr ⟨_, _, calls_of_uses (getFloat32_uses s _ byteOffset), rfl⟩
  | setFloat32 byteOffset bits defaultMask s =>
      exact Or.inr ⟨_, _, calls_of_uses (setUintOf_uses s defaultMask 4 byteOffset bits), rfl⟩
  | getFloat64 byteOffset tmp defaultMask s =>
      exact Or.inr ⟨_, _, calls_of_uses (getFloat64_uses s native tmp _ byteOffset), rfl⟩
  | setFloat64 byteOffset tmp bits defaultMask s =>
      exact Or.inr ⟨_, _, calls_of_uses (setBigOf_uses s native tmp defaultMask byteOffset bits), rfl⟩
  | getInterfaceClientOrNull p => exact Or.inr ⟨_, _, calls_of_uses (getInterfaceClientOrNull_uses p), rfl⟩
  | getInterfaceClientOrNullAt index s => exact Or.inr ⟨_, _, getInterfaceClientOrNullAt_calls s index, rfl⟩
  | setInterfacePointer capId p => exact Or.inr ⟨_, _, calls_of_uses (Pointer.setInterfacePointer_uses capId p), rfl⟩
  | getPointer index s => exact Or.inr ⟨_, _, getPointer_calls s index, rfl⟩
  | getStruct copied index size s defaultValue =>
      exact Or.inr ⟨_, _, getStruct_calls (List.ne_of_not_mem_cons new) s index size defaultValue, rfl⟩
  | getList copied index elementSize compositeSize s defaultValue =>
      exact Or.inr ⟨_, _, getList_calls (List.ne_of_not_mem_cons new) s index _ _ defaultValue, rfl⟩
  | getData copied index s defaultValue =>
      exact Or.inr ⟨_, _, getData_calls (List.ne_of_not_mem_cons new) s index defaultValue, rfl⟩
  | getText index s defaultValue => exact Or.inr ⟨_, _, getText_calls encode decode index s defaultValue, rfl⟩
  | setText index value s => exact Or.inr ⟨_, _, setText_calls encode index value s, rfl⟩
  | initStructAt index size s =>
      refine Or.inr ⟨_, _, Built.bind (getPointerAs_calls s index) fun t => ?_, rfl⟩
      exact calls_of_uses (Built.bind (t.initStruct_uses size) fun _ => Built.pure _)
  | initData index length s => exact Or.inr ⟨_, _, calls_of_uses (initFieldList_uses index _ length _ s), rfl⟩
  | initList index elementSize length compositeSize s =>
      exact Or.inr ⟨_, _, calls_of_uses (initFieldList_uses index elementSize length compositeSize s), rfl⟩
  | resize size s => exact Or.inr ⟨_, _, calls_of_uses (resize_uses s size), rfl⟩
  | copyFrom src dst => exact Or.inr ⟨_, _, calls_of_uses (copyFrom_uses src dst), rfl⟩
  | erase p => exact Or.inr ⟨_, _, calls_of_uses p.erase_uses, rfl⟩
  | disown p => exact Or.inr ⟨_, _, calls_of_uses p.disown_uses, rfl⟩
  | adopt o dst =>
      rcases o.moveTo_outcome dst w with refused | ⟨type, moved⟩
      · exact Or.inl refused
      · exact Or.inr ⟨_, _, calls_of_uses (o.moveContent_uses type dst), moved⟩
  | dispose o => exact Or.inr ⟨_, _, calls_of_uses o.dispose_uses, rfl⟩
  | setTextAt index value t => exact Or.inr ⟨_, _, Built.basic (.text encode index value t), rfl⟩
  | copyBuffer src d => exact Or.inr ⟨_, _, Built.basic (.buffer src d), rfl⟩
  | listToArray list l => exact Or.inr ⟨_, _, calls_of_uses (list.toArray_uses l), rfl⟩
  | listSet list l index value => exact Or.inr ⟨_, _, calls_of_uses (list.set_uses l index value), rfl⟩
  | listFill list l value start final => exact Or.inr ⟨_, _, calls_of_uses (list.fill_uses l value start final), rfl⟩
  | listCopyWithin list l target start final => exact Or.inr ⟨_, _, calls_of_uses (list.copyWithin_uses l target start final), rfl⟩
  | setElement list index value => exact Or.inr ⟨_, _, calls_of_uses (CompositeList.set_uses list index value), rfl⟩

end calls

end CapnpEs
