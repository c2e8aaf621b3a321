import CapnpEs.Library.Outcome
import CapnpEs.Serialization.Pointers.Copying

/-! Which accessors of the segments each function is made of. -/

namespace CapnpEs

open Outcome

/-- The accessors of segments and messages, with allocations of the sizes that are allowed. -/
inductive Accessor (allowed : Int → Prop) : (α : Type) → WorldM α → Prop
  | get : Accessor allowed World get
  | segment (message id : Nat) : Accessor allowed Segment (onMessage message (Message.segment id))
  | assertWritable (message : Nat) : Accessor allowed Unit (onMessage message Message.assertWritable)
  | getSegment (message id : Nat) : Accessor allowed Nat (onMessage message (Message.getSegment id))
  | trackPointer (message id : Nat) (byteOffset depthLimit : Int) :
      Accessor allowed Unit (onMessage message (Message.trackPointer id byteOffset depthLimit))
  | getUint (message width id : Nat) (byteOffset : Int) :
      Accessor allowed Nat (onMessage message (Message.getUint width id byteOffset))
  | setUint (message width id : Nat) (byteOffset value : Int) :
      Accessor allowed Unit (onMessage message (Message.setUint width id byteOffset value))
  | setWords (message id : Nat) (byteOffset : Int) {words : Bytes} (whole : words.length % 8 = 0) :
      Accessor allowed Unit (onMessage message (Message.setWords id byteOffset words))
  | addCap (message : Nat) (client : CapabilitySlot) : Accessor allowed Nat (Pointer.addCap message client)
  | allocate (message id : Nat) {byteLength : Int} (size : allowed byteLength) :
      Accessor allowed (Nat × Int) (onMessage message (Message.allocate id byteLength))

abbrev Uses (allowed : Int → Prop) {α : Type} (program : WorldM α) : Prop := Built (Accessor allowed) program

variable {allowed : Int → Prop}

theorem Message.wordsView_length {buffer words : Bytes} {byteOffset : Int} {wordLength : Nat}
    (found : Message.wordsView buffer byteOffset wordLength = .ok words) : words.length = wordLength * 8 := by
  rw [Message.wordsView] at found
  split at found
  · cases found
  · have length := uint8View_length found
    omega

theorem newPointer_uses (message id : Nat) (byteOffset depthLimit : Int) :
    Uses allowed (newPointer message id byteOffset depthLimit) :=
  Built.bind (Built.basic (.trackPointer ..)) fun _ => Built.pure _

namespace Pointer

/-! Reading a pointer. -/

theorem getUint16_uses (p : Pointer) (byteOffset : Int) :
    Uses allowed (p.getUint16 byteOffset) :=
  Built.basic (.getUint ..)

theorem getUint32_uses (p : Pointer) (byteOffset : Int) :
    Uses allowed (p.getUint32 byteOffset) :=
  Built.bind (Built.basic (.getUint ..)) fun _ => Built.pure _

theorem getPointerType_uses (p : Pointer) : Uses allowed p.getPointerType :=
  Built.bind (p.getUint32_uses _) fun _ => Built.pure _

theorem getFarSegmentId_uses (p : Pointer) : Uses allowed p.getFarSegmentId :=
  Built.bind (p.getUint32_uses _) fun _ => Built.pure _

theorem getOffsetWords_uses (p : Pointer) : Uses allowed p.getOffsetWords :=
  Built.bind (p.getUint32_uses _) fun _ => Built.pure _

theorem getListElementSize_uses (p : Pointer) : Uses allowed p.getListElementSize :=
  Built.bind (p.getUint32_uses _) fun _ => Built.pure _

theorem getListLength_uses (p : Pointer) : Uses allowed p.getListLength :=
  Built.bind (p.getUint32_uses _) fun _ => Built.pure _

theorem getStructSize_uses (p : Pointer) : Uses allowed p.getStructSize :=
  Built.bind (p.getUint16_uses _) fun _ => Built.bind (p.getUint16_uses _) fun _ => Built.pure _

theorem isDoubleFar_uses (p : Pointer) : Uses allowed p.isDoubleFar := by
  apply Built.bind p.getPointerType_uses
  intro type
  split
  · exact Built.bind (p.getUint32_uses _) fun _ => Built.pure _
  · exact Built.pure _

theorem isNull_uses (p : Pointer) : Uses allowed p.isNull := by
  have unfolded : p.isNull = (do
      let w ← get
      if p.byteOffset + 8 > ((w p.message).segments[p.segment]?.map (·.byteLength)).getD 0 then
        throw (.PTR_OFFSET_OUT_OF_BOUNDS p.byteOffset)
      else
        p.isWordZero p.byteOffset) := by
    funext w
    rw [bind_apply, get_apply, isNull]
    dsimp only
    split <;> rfl
  rw [unfolded]
  apply Built.bind (Built.basic .get)
  intro w
  split
  · exact Built.throw _
  · exact Built.bind (Built.basic (.getUint ..)) fun _ => Built.pure _

theorem followFar_uses (p : Pointer) : Uses allowed p.followFar := by
  apply Built.bind (p.getUint32_uses _)
  intro id
  apply Built.bind (Built.basic (.getSegment ..))
  intro targetSegment
  apply Built.bind (p.getUint32_uses _)
  intro offset
  exact newPointer_uses _ _ _ _

theorem followFars_uses (p : Pointer) : Uses allowed p.followFars := by
  apply Built.bind p.getPointerType_uses
  intro type
  split
  · apply Built.bind p.followFar_uses
    intro landingPad
    apply Built.bind p.isDoubleFar_uses
    intro double
    split
    · exact Built.pure _
    · exact Built.pure _
  · exact Built.pure _

theorem getTargetPointerType_uses (p : Pointer) :
    Uses allowed p.getTargetPointerType := by
  apply Built.bind p.followFars_uses
  intro target
  apply Built.bind target.getPointerType_uses
  intro type
  split
  · exact Built.bind (Built.throw _) fun _ => Built.pure _
  · exact Built.pure _

theorem getTargetStructSize_uses (p : Pointer) : Uses allowed p.getTargetStructSize :=
  Built.bind p.followFars_uses fun target => target.getStructSize_uses

theorem getTargetListElementSize_uses (p : Pointer) :
    Uses allowed p.getTargetListElementSize :=
  Built.bind p.followFars_uses fun target => target.getListElementSize_uses

theorem isCompositeList_uses (p : Pointer) : Uses allowed p.isCompositeList := by
  apply Built.bind p.getTargetPointerType_uses
  intro type
  split
  · exact Built.bind p.getTargetListElementSize_uses fun _ => Built.pure _
  · exact Built.pure _

theorem getObject_uses (p : Pointer) : Uses allowed p.getObject := by
  apply Built.bind p.isDoubleFar_uses
  intro double
  split
  · apply Built.bind p.followFar_uses
    intro landingPad
    apply Built.bind landingPad.getFarSegmentId_uses
    intro id
    apply Built.bind (Built.basic (.getSegment ..))
    intro found
    apply Built.bind landingPad.getOffsetWords_uses
    intro offset
    exact newPointer_uses _ _ _ _
  · apply Built.bind p.followFars_uses
    intro target
    apply Built.bind target.getOffsetWords_uses
    intro offset
    exact newPointer_uses _ _ _ _

theorem getContent_uses (p : Pointer) (ignoreCompositeIndex : Bool) :
    Uses allowed (p.getContent ignoreCompositeIndex) := by
  apply Built.bind p.getObject_uses
  intro start
  apply Built.bind p.isCompositeList_uses
  intro composite
  cases p.compositeIndex with
  | none => exact Built.pure _
  | some index =>
      cases ignoreCompositeIndex with
      | true => exact Built.pure _
      | false => exact Built.bind (getStructSize_uses _) fun _ => Built.pure _

theorem getTargetCompositeListTag_uses (p : Pointer) :
    Uses allowed p.getTargetCompositeListTag :=
  Built.bind (p.getContent_uses false) fun _ => Built.pure _

theorem getTargetListLength_uses (p : Pointer) : Uses allowed p.getTargetListLength := by
  apply Built.bind p.followFars_uses
  intro target
  apply Built.bind target.getListElementSize_uses
  intro size
  split
  · exact Built.bind p.getTargetCompositeListTag_uses fun tag => tag.getOffsetWords_uses
  · exact Built.bind target.getListLength_uses fun _ => Built.pure _

theorem copiedSize_uses (p : Pointer) : Uses allowed p.copiedSize :=
  Built.bind (Built.bind p.getTargetCompositeListTag_uses fun tag => tag.getStructSize_uses) fun _ => Built.pure _

/-! Writing. -/

theorem setUint32_uses (p : Pointer) (byteOffset : Int) (value : BitVec 32) :
    Uses allowed (p.setUint32 byteOffset value) :=
  Built.basic (.setUint ..)

theorem setWordZero_uses (p : Pointer) (byteOffset : Int) :
    Uses allowed (p.setWordZero byteOffset) :=
  Built.basic (.setUint ..)

theorem fillZeroWords_uses (p : Pointer) (byteOffset : Int) (wordLength : Nat) :
    Uses allowed (p.fillZeroWords byteOffset wordLength) := by
  apply Built.basic (Accessor.setWords ..)
  rw [List.length_replicate]
  omega

theorem fillZeroWordsOf_uses (p : Pointer) (byteOffset wordLength : Int) :
    Uses allowed (p.fillZeroWordsOf byteOffset wordLength) := by
  unfold fillZeroWordsOf
  split
  · exact Built.bind (Built.basic (.assertWritable ..)) fun _ => Built.throw _
  · exact p.fillZeroWords_uses _ _

theorem copyWords_uses (p : Pointer) (byteOffset : Int) (src : Pointer) (srcByteOffset : Int) (wordLength : Nat) :
    Uses allowed (p.copyWords byteOffset src srcByteOffset wordLength) := by
  apply Built.bind (Built.basic (.assertWritable ..))
  intro _
  apply Built.bind (Built.basic (.segment ..))
  intro s
  apply Built.ofExcept_bind
  intro words found
  have length := Message.wordsView_length found
  exact Built.basic (.setWords _ _ _ (by omega))

theorem copyWordsOf_uses (p : Pointer) (byteOffset : Int) (src : Pointer) (srcByteOffset wordLength : Int) :
    Uses allowed (p.copyWordsOf byteOffset src srcByteOffset wordLength) := by
  unfold copyWordsOf
  split
  · exact Built.bind (Built.basic (.assertWritable ..)) fun _ => Built.throw _
  · exact p.copyWords_uses _ _ _ _

theorem copyWord_uses (p : Pointer) (byteOffset : Int) (src : Pointer) (srcByteOffset : Int) :
    Uses allowed (p.copyWord byteOffset src srcByteOffset) := by
  apply Built.bind (Built.basic (.assertWritable ..))
  intro _
  apply Built.bind (Built.basic (.getUint ..))
  intro word
  exact Built.basic (.setUint ..)

/-! Erasing. -/

theorem eraseLandingPad_uses (p : Pointer) : Uses allowed p.eraseLandingPad := by
  apply Built.bind p.followFar_uses
  intro landingPad
  apply Built.bind p.isDoubleFar_uses
  intro double
  split
  · exact Built.bind (landingPad.setWordZero_uses _) fun _ => landingPad.setWordZero_uses _
  · exact landingPad.setWordZero_uses _

theorem erasePointer_uses (p : Pointer) : Uses allowed p.erasePointer := by
  apply Built.bind p.getPointerType_uses
  intro type
  split
  · exact Built.bind p.eraseLandingPad_uses fun _ => p.setWordZero_uses _
  · exact p.setWordZero_uses _

section erase

variable {eraseNext : Pointer → WorldM Unit} (spares : ∀ p, Uses allowed (eraseNext p))
include spares

theorem erasePointers_uses (p c : Pointer) (byteOffset : Int) (count : Nat) :
    Uses allowed (erasePointers eraseNext p c byteOffset count) := by
  apply Built.forM
  intro i _
  exact Built.bind (newPointer_uses _ _ _ _) fun next => spares next

theorem eraseStruct_uses (p : Pointer) : Uses allowed (eraseStruct eraseNext p) := by
  apply Built.bind p.getTargetStructSize_uses
  intro size
  apply Built.bind (p.getContent_uses false)
  intro c
  apply Built.bind (c.fillZeroWords_uses _ _)
  intro _
  exact erasePointers_uses spares _ _ _ _

theorem eraseComposite_uses (p c : Pointer) (length : Int) :
    Uses allowed (eraseComposite eraseNext p c length) := by
  apply Built.bind (newPointer_uses _ _ _ _)
  intro tag
  apply Built.bind (getStructSize_uses _)
  intro compositeSize
  apply Built.bind (c.setWordZero_uses _)
  intro _
  apply Built.bind
  · apply Built.forM
    intro i _
    exact erasePointers_uses spares _ _ _ _
  · intro _
    exact c.fillZeroWordsOf_uses _ _

theorem eraseList_uses (p : Pointer) : Uses allowed (eraseList eraseNext p) := by
  apply Built.bind p.getTargetListElementSize_uses
  intro elementSize
  apply Built.bind p.getTargetListLength_uses
  intro length
  apply Built.bind (p.getContent_uses false)
  intro c
  split
  · exact erasePointers_uses spares _ _ _ _
  · split
    · exact eraseComposite_uses spares _ _ _
    · exact c.fillZeroWordsOf_uses _ _

theorem eraseContent_uses (p : Pointer) : Uses allowed (eraseContent eraseNext p) := by
  apply Built.bind p.getTargetPointerType_uses
  intro type
  cases type with
  | STRUCT => exact eraseStruct_uses spares p
  | LIST => exact eraseList_uses spares p
  | OTHER => exact Built.pure _
  | FAR => exact Built.throw _

end erase

theorem eraseWithin_uses (depth : Nat) (p : Pointer) :
    Uses allowed (eraseWithin depth p) := by
  induction depth generalizing p with
  | zero => exact Built.throw _
  | succ depth ih =>
      apply Built.bind p.isNull_uses
      intro isNull
      split
      · exact Built.pure _
      · exact Built.bind (eraseContent_uses ih p) fun _ => p.erasePointer_uses

theorem erase_uses (p : Pointer) : Uses allowed p.erase :=
  eraseWithin_uses p.depthLimit.toNat p

end Pointer

/-! Writing a pointer. -/

namespace Pointer

theorem setFarPointer_uses (doubleFar : Bool) (offsetWords : Int) (segmentId : Nat) (p : Pointer) :
    Uses allowed (setFarPointer doubleFar offsetWords segmentId p) :=
  Built.bind (p.setUint32_uses _ _) fun _ => p.setUint32_uses _ _

theorem setInterfacePointer_uses (capId : Nat) (p : Pointer) :
    Uses allowed (setInterfacePointer capId p) :=
  Built.bind (p.setUint32_uses _ _) fun _ => p.setUint32_uses _ _

theorem setUint16_uses (p : Pointer) (byteOffset : Int) (value : Nat) :
    Uses allowed (p.setUint16 byteOffset value) :=
  Built.basic (.setUint ..)

theorem setStructPointer_uses (offsetWords : Int) (size : ObjectSize) (p : Pointer) :
    Uses allowed (setStructPointer offsetWords size p) := by
  apply Built.bind (p.setUint32_uses _ _)
  intro _
  exact Built.bind (p.setUint16_uses _ _) fun _ => p.setUint16_uses _ _

theorem setListPointer_uses (offsetWords : Int) (size : ListElementSize) (length : Int) (p : Pointer)
    (compositeSize : Option ObjectSize) :
    Uses allowed (setListPointer offsetWords size length p compositeSize) := by
  have written : ∀ D : Int, Uses allowed (do
      p.setUint32 p.byteOffset (PointerType.LIST.toBits ||| (BitVec.ofInt 32 offsetWords <<< 2))
      p.setUint32 (p.byteOffset + 4) (size.toBits ||| (BitVec.ofInt 32 D <<< 3))) := fun D =>
    Built.bind (p.setUint32_uses _ _) fun _ => p.setUint32_uses _ _
  unfold setListPointer
  split
  · cases compositeSize with
    | none => exact Built.throw _
    | some compositeSize => exact written _
  · exact written _

theorem copyFromInterface_uses (src dst : Pointer) : Uses allowed (copyFromInterface src dst) := by
  apply Built.bind (src.getUint32_uses _)
  intro id
  apply Built.bind (Built.basic .get)
  intro w
  split
  · exact Built.pure _
  · exact Built.bind (Built.basic (.addCap ..)) fun capId => setInterfacePointer_uses capId dst

theorem allocate_uses (p : Pointer) {byteLength : Int} (size : allowed byteLength) :
    Uses allowed (p.allocate byteLength) :=
  Built.bind (Built.basic (.allocate _ _ size)) fun _ => Built.pure _

theorem initPointer_uses (word : allowed 8) (words : allowed 16) (contentMessage contentSegment : Nat)
    (contentOffset : Int) (p : Pointer) :
    Uses allowed (initPointer contentMessage contentSegment contentOffset p) := by
  unfold initPointer
  split
  · apply Built.bind (Built.basic (.segment ..))
    intro s
    split
    · apply Built.bind (p.allocate_uses words)
      intro landingPad
      apply Built.bind (setFarPointer_uses _ _ _ p)
      intro _
      exact Built.bind (setFarPointer_uses _ _ _ landingPad) fun _ => Built.pure _
    · apply Built.bind (Built.basic (.allocate _ _ word))
      rintro ⟨segment, byteOffset⟩
      dsimp only
      split
      · exact Built.bind (Built.throw _) fun _ => Built.bind (setFarPointer_uses _ _ _ p) fun _ => Built.pure _
      · exact Built.bind (setFarPointer_uses _ _ _ p) fun _ => Built.pure _
  · exact Built.pure _

/-! Copying. -/

section copy

variable {copyNext : Pointer → Pointer → WorldM Unit} (all : ∀ byteLength, allowed byteLength)
  (uses : ∀ src dst, Uses allowed (copyNext src dst))
include uses

theorem copyPointerAt_uses (src dst srcContent dstContent : Pointer) (offset : Int) :
    Uses allowed (copyPointerAt copyNext src dst srcContent dstContent offset) := by
  apply Built.bind (newPointer_uses _ _ _ _)
  intro srcPtr
  exact Built.bind (newPointer_uses _ _ _ _) fun dstPtr => uses srcPtr dstPtr

theorem copyElementPointer_uses (src dst srcContent dstContent : Pointer) (offset : Int) :
    Uses allowed (copyElementPointer copyNext src dst srcContent dstContent offset) := by
  apply Built.bind (newPointer_uses _ _ _ _)
  intro srcPtr
  apply Built.bind (newPointer_uses _ _ _ _)
  intro dstPtr
  exact Built.bind (dstPtr.setWordZero_uses _) fun _ => uses srcPtr dstPtr

theorem fillCompositeList_uses (src dst srcContent : Pointer) (srcLength : Int) (srcCompositeSize : ObjectSize)
    (dstContent : Pointer) :
    Uses allowed (fillCompositeList copyNext src dst srcContent srcLength srcCompositeSize dstContent) := by
  apply Built.bind (dstContent.copyWord_uses _ _ _)
  intro _
  apply Built.bind
  · split
    · exact dstContent.copyWordsOf_uses _ _ _ _
    · exact Built.pure _
  · intro _
    apply Built.forM
    intro i _
    apply Built.forM
    intro j _
    exact copyElementPointer_uses uses src dst srcContent dstContent _

theorem fillStruct_uses (src dst : Pointer) (srcSize : ObjectSize) (srcContent dstContent : Pointer) :
    Uses allowed (fillStruct copyNext src dst srcSize srcContent dstContent) := by
  apply Built.bind (dstContent.copyWords_uses _ _ _ _)
  intro _
  apply Built.forM
  intro i _
  exact copyPointerAt_uses uses src dst srcContent dstContent _

include all

theorem copyListContent_uses (src dst : Pointer) (srcElementSize : ListElementSize) (srcLength : Int)
    (srcContent : Pointer) : Uses allowed (copyListContent copyNext src dst srcElementSize srcLength srcContent) := by
  unfold copyListContent
  split
  · refine Built.bind ?_ fun _ => Built.pure _
    apply Built.bind (dst.allocate_uses (all _))
    intro dstContent
    apply Built.bind
    · apply Built.forM
      intro i _
      exact copyPointerAt_uses uses src dst srcContent dstContent _
    · intro _
      exact Built.pure _
  · split
    · apply Built.bind src.copiedSize_uses
      intro srcCompositeSize
      refine Built.bind ?_ fun _ => Built.pure _
      apply Built.bind (dst.allocate_uses (all _))
      intro dstContent
      exact Built.bind (fillCompositeList_uses uses src dst srcContent srcLength srcCompositeSize dstContent) fun _ =>
        Built.pure _
    · refine Built.bind ?_ fun _ => Built.pure _
      apply Built.bind (dst.allocate_uses (all _))
      intro dstContent
      exact Built.bind (dstContent.copyWords_uses _ _ _ _) fun _ => Built.pure _

theorem copyFromList_uses (src dst : Pointer) : Uses allowed (copyFromList copyNext src dst) := by
  unfold copyFromList
  split
  · exact Built.throw _
  · apply Built.bind (src.getContent_uses false)
    intro srcContent
    apply Built.bind src.getTargetListElementSize_uses
    intro srcElementSize
    apply Built.bind src.getTargetListLength_uses
    intro srcLength
    apply Built.bind (copyListContent_uses all uses src dst srcElementSize srcLength srcContent)
    intro content
    apply Built.bind (initPointer_uses (all _) (all _) _ _ _ _)
    intro res
    exact setListPointer_uses _ _ _ _ _

theorem copyStructContent_uses (src dst : Pointer) (srcSize : ObjectSize) (srcContent : Pointer) :
    Uses allowed (copyStructContent copyNext src dst srcSize srcContent) := by
  apply Built.bind (dst.allocate_uses (all _))
  intro dstContent
  exact Built.bind (fillStruct_uses uses src dst srcSize srcContent dstContent) fun _ => Built.pure _

theorem copyFromStruct_uses (src dst : Pointer) : Uses allowed (copyFromStruct copyNext src dst) := by
  unfold copyFromStruct
  split
  · exact Built.throw _
  · apply Built.bind (src.getContent_uses false)
    intro srcContent
    apply Built.bind src.getTargetStructSize_uses
    intro srcSize
    apply Built.bind (copyStructContent_uses all uses src dst srcSize srcContent)
    intro dstContent
    split
    · exact Built.pure _
    · apply Built.bind (initPointer_uses (all _) (all _) _ _ _ _)
      intro res
      exact setStructPointer_uses _ _ _

theorem copyTarget_uses (src dst : Pointer) : Uses allowed (copyTarget copyNext src dst) := by
  apply Built.bind src.isNull_uses
  intro isNull
  split
  · exact Built.pure _
  · apply Built.bind src.getTargetPointerType_uses
    intro type
    cases type with
    | STRUCT => exact copyFromStruct_uses all uses src dst
    | LIST => exact copyFromList_uses all uses src dst
    | OTHER => exact copyFromInterface_uses src dst
    | FAR => exact Built.throw _

end copy

theorem copyWithin_uses (all : ∀ byteLength, allowed byteLength) (depth : Nat) (src dst : Pointer) :
    Uses allowed (copyWithin depth src dst) := by
  induction depth generalizing src dst with
  | zero => exact Built.throw _
  | succ depth ih =>
      unfold copyWithin
      split
      · exact Built.pure _
      · exact Built.bind dst.erase_uses fun _ => copyTarget_uses all ih src dst

end Pointer

end CapnpEs
