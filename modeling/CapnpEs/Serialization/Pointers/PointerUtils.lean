import CapnpEs.Serialization.Pointers.Pointer

/-! Reading, following and writing single pointers: `pointer.utils.ts`. -/

namespace CapnpEs

namespace Pointer

/-! Reading a pointer word. -/

def getFarSegmentId (p : Pointer) : WorldM Nat := do
  return (← p.getUint32 (p.byteOffset + 4)).toNat

def getListElementSize (p : Pointer) : WorldM ListElementSize := do
  return .ofBits (← p.getUint32 (p.byteOffset + 4))

def getListLength (p : Pointer) : WorldM Nat := do
  return ((← p.getUint32 (p.byteOffset + 4)) >>> 3).toNat

def getOffsetWords (p : Pointer) : WorldM Int := do
  let o ← p.getUint32 p.byteOffset
  -- Far pointers only have 29 offset bits.
  return if o &&& 2 ≠ 0 then (o.sshiftRight 3).toInt else (o.sshiftRight 2).toInt

def getPointerType (p : Pointer) : WorldM PointerType := do
  return .ofBits (← p.getUint32 p.byteOffset)

def getStructDataWords (p : Pointer) : WorldM Nat := p.getUint16 (p.byteOffset + 4)

def getStructPointerLength (p : Pointer) : WorldM Nat := p.getUint16 (p.byteOffset + 6)

def getStructSize (p : Pointer) : WorldM ObjectSize := do
  let dataWords ← p.getStructDataWords
  return { dataByteLength := dataWords * 8, pointerLength := ← p.getStructPointerLength }

def isDoubleFar (p : Pointer) : WorldM Bool := do
  if (← p.getPointerType) = .FAR then
    return (← p.getUint32 p.byteOffset) &&& 4 ≠ 0
  else
    return false

def isNull (p : Pointer) : WorldM Bool := fun w =>
  let byteLength := ((w p.message).segments[p.segment]?.map (·.byteLength)).getD 0
  if p.byteOffset + 8 > byteLength then .error (.PTR_OFFSET_OUT_OF_BOUNDS p.byteOffset) w
  else p.isWordZero p.byteOffset w

/-! Following it. -/

def followFar (p : Pointer) : WorldM Pointer := do
  let targetSegment ← onMessage p.message
    (Message.getSegment (← p.getUint32 (p.byteOffset + 4)).toNat)
  let targetWordOffset := (← p.getUint32 p.byteOffset) >>> 3
  newPointer p.message targetSegment (targetWordOffset.toNat * 8) (p.depthLimit - 1)

def followFars (p : Pointer) : WorldM Pointer := do
  if (← p.getPointerType) = .FAR then
    let landingPad ← p.followFar
    if ← p.isDoubleFar then
      return { landingPad with byteOffset := landingPad.byteOffset + 8 }
    else
      return landingPad
  else
    return p

def getTargetPointerType (p : Pointer) : WorldM PointerType := do
  let t ← (← p.followFars).getPointerType
  if t = .FAR then
    throw .PTR_INVALID_FAR_TARGET
  return t

def getTargetStructSize (p : Pointer) : WorldM ObjectSize := do
  (← p.followFars).getStructSize

def getTargetListElementSize (p : Pointer) : WorldM ListElementSize := do
  (← p.followFars).getListElementSize

def isCompositeList (p : Pointer) : WorldM Bool := do
  if (← p.getTargetPointerType) = .LIST then
    return (← p.getTargetListElementSize) = .COMPOSITE
  else
    return false

/-- The first half of `getContent`: for a composite list this is still its tag. -/
def getObject (p : Pointer) : WorldM Pointer := do
  if ← p.isDoubleFar then
    let landingPad ← p.followFar
    let segment ← onMessage p.message (Message.getSegment (← landingPad.getFarSegmentId))
    newPointer p.message segment ((← landingPad.getOffsetWords) * 8)
  else
    let target ← p.followFars
    newPointer target.message target.segment
      (target.byteOffset + 8 + (← target.getOffsetWords) * 8)

def getContent (p : Pointer) (ignoreCompositeIndex : Bool := false) : WorldM Pointer := do
  let c ← p.getObject
  let c := if ← p.isCompositeList then { c with byteOffset := c.byteOffset + 8 } else c
  match p.compositeIndex with
  | some compositeIndex =>
      if ignoreCompositeIndex then
        return c
      else
        -- One word back stands the tag, which holds the size of the elements.
        let c : Pointer := { c with byteOffset := c.byteOffset - 8 }
        let size ← c.getStructSize
        return { c with
          byteOffset := c.byteOffset + (8 + compositeIndex * size.padToWord.getByteLength) }
  | none => return c

def getTargetCompositeListTag (p : Pointer) : WorldM Pointer := do
  let c ← p.getContent
  return { c with byteOffset := c.byteOffset - 8 }

def getTargetCompositeListSize (p : Pointer) : WorldM ObjectSize := do
  (← p.getTargetCompositeListTag).getStructSize

def getTargetListLength (p : Pointer) : WorldM Int := do
  let t ← p.followFars
  if (← t.getListElementSize) = .COMPOSITE then
    (← p.getTargetCompositeListTag).getOffsetWords
  else
    return (← t.getListLength)

/-- `validate`, without an element size. -/
def validate (pointerType : PointerType) (p : Pointer) : WorldM Unit := do
  if ← p.isNull then
    return ()
  else if (← (← p.followFars).getPointerType) ≠ pointerType then
    throw .PTR_WRONG_POINTER_TYPE

/-! Writing it. A shifted number is first reduced to 32 bits. -/

def setFarPointer (doubleFar : Bool) (offsetWords : Int) (segmentId : Nat) (p : Pointer) :
    WorldM Unit := do
  let B : BitVec 32 := if doubleFar then 1 else 0
  p.setUint32 p.byteOffset
    (PointerType.FAR.toBits ||| (B <<< 2) ||| (BitVec.ofInt 32 offsetWords <<< 3))
  p.setUint32 (p.byteOffset + 4) (BitVec.ofNat 32 segmentId)

def setInterfacePointer (capId : Nat) (p : Pointer) : WorldM Unit := do
  p.setUint32 p.byteOffset PointerType.OTHER.toBits
  p.setUint32 (p.byteOffset + 4) (BitVec.ofNat 32 capId)

def setListPointer (offsetWords : Int) (size : ListElementSize) (length : Int) (p : Pointer)
    (compositeSize : Option ObjectSize) : WorldM Unit := do
  let D ←
    if size = .COMPOSITE then
      match compositeSize with
      | none => throw .TYPE_COMPOSITE_SIZE_UNDEFINED
      | some compositeSize => pure (length * compositeSize.getWordLength)
    else pure length
  p.setUint32 p.byteOffset (PointerType.LIST.toBits ||| (BitVec.ofInt 32 offsetWords <<< 2))
  p.setUint32 (p.byteOffset + 4) (size.toBits ||| (BitVec.ofInt 32 D <<< 3))

def setStructPointer (offsetWords : Int) (size : ObjectSize) (p : Pointer) : WorldM Unit := do
  p.setUint32 p.byteOffset (PointerType.STRUCT.toBits ||| (BitVec.ofInt 32 offsetWords <<< 2))
  p.setUint16 (p.byteOffset + 4) size.getDataWordLength
  p.setUint16 (p.byteOffset + 6) size.pointerLength

/-- Where to write a pointer's data, and with which offset. -/
structure PointerAllocationResult where
  pointer : Pointer
  offsetWords : Int

/-- Halves of a word only arise from offsets that are not word aligned; the shift drops them. -/
def initPointer (contentMessage contentSegment : Nat) (contentOffset : Int) (p : Pointer) :
    WorldM PointerAllocationResult := do
  if p.message ≠ contentMessage ∨ p.segment ≠ contentSegment then
    -- Need a far pointer.
    let s ← onMessage contentMessage (Message.segment contentSegment)
    if !s.hasCapacity 8 then
      -- No room for a landing pad next to the content, so the pad has a word of its own for the tag.
      let landingPad ← p.allocate 16
      setFarPointer true (landingPad.byteOffset.tdiv 8) landingPad.segment p
      setFarPointer false (contentOffset.tdiv 8) contentSegment landingPad
      return ⟨{ landingPad with byteOffset := landingPad.byteOffset + 8 }, 0⟩
    else
      let (segment, byteOffset) ← onMessage contentMessage (Message.allocate contentSegment 8)
      let landingPad : Pointer :=
        { message := contentMessage, segment, byteOffset, depthLimit := DEFAULT_DEPTH_LIMIT }
      if landingPad.segment ≠ contentSegment then
        throw .INVARIANT_UNREACHABLE_CODE
      setFarPointer false (landingPad.byteOffset.tdiv 8) landingPad.segment p
      return ⟨landingPad, (contentOffset - landingPad.byteOffset - 8).tdiv 8⟩
  else
    return ⟨p, (contentOffset - p.byteOffset - 8).tdiv 8⟩

end Pointer

end CapnpEs
