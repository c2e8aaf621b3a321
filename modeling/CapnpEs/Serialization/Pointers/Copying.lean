import CapnpEs.Serialization.Pointers.PointerUtils

/-! Erasing and copying whole trees of pointers, and the elements of composite lists: `pointer.utils.ts` and
`list/composite-list.ts`. -/

namespace CapnpEs

/-- `value << 3`, on 32-bit integers -/
def shiftLeftThree (value : Int) : Int := (BitVec.ofInt 32 value <<< 3).toInt

/-- `value >>> 3`, on 32-bit integers -/
def shiftRightThree (value : Int) : Nat := (BitVec.ofInt 32 value >>> 3).toNat

/-- The bytes of one element; bits and structs have no such number, `NaN`. -/
def getListElementByteLength : ListElementSize → Option Nat
  | .VOID => some 0
  | .BIT => none
  | .BYTE => some 1
  | .BYTE_2 => some 2
  | .BYTE_4 => some 4
  | .BYTE_8 => some 8
  | .POINTER => some 8
  | .COMPOSITE => none

/-- `padToWord(length * getListElementByteLength(elementSize)) / 8`, where padding turns `NaN` into zero -/
def contentWords (elementSize : ListElementSize) (length : Int) : Int :=
  match getListElementByteLength elementSize with
  | none => 0
  | some bytes => padToWord (length * bytes) / 8

namespace Pointer

def fillZeroWordsOf (p : Pointer) (byteOffset wordLength : Int) : WorldM Unit := do
  if wordLength < 0 then
    onMessage p.message Message.assertWritable
    throw .RangeError
  else
    p.fillZeroWords byteOffset wordLength.toNat

def copyWordsOf (p : Pointer) (byteOffset : Int) (src : Pointer) (srcByteOffset wordLength : Int) :
    WorldM Unit := do
  if wordLength < 0 then
    onMessage p.message Message.assertWritable
    throw .RangeError
  else
    p.copyWords byteOffset src srcByteOffset wordLength.toNat

def eraseLandingPad (p : Pointer) : WorldM Unit := do
  let landingPad ← p.followFar
  if ← p.isDoubleFar then
    landingPad.setWordZero (landingPad.byteOffset + 8)
    landingPad.setWordZero landingPad.byteOffset
  else
    landingPad.setWordZero landingPad.byteOffset

def erasePointer (p : Pointer) : WorldM Unit := do
  if (← p.getPointerType) = .FAR then
    p.eraseLandingPad
    p.setWordZero p.byteOffset
  else
    p.setWordZero p.byteOffset

def add (offset : Int) (p : Pointer) : WorldM Pointer :=
  newPointer p.message p.segment (p.byteOffset + offset) p.depthLimit

section erase

variable (eraseNext : Pointer → WorldM Unit)

/-- Erases the pointer in each word of a section that starts at `byteOffset`. -/
def erasePointers (p c : Pointer) (byteOffset : Int) (count : Nat) : WorldM Unit :=
  (List.range count).forM fun i => do
    let next ← newPointer c.message c.segment (byteOffset + i * 8) (p.depthLimit - 1)
    eraseNext next

def eraseStruct (p : Pointer) : WorldM Unit := do
  let size ← p.getTargetStructSize
  let c ← p.getContent
  c.fillZeroWords c.byteOffset (size.dataByteLength / 8)
  erasePointers eraseNext p c (c.byteOffset + size.dataByteLength) size.pointerLength

def eraseComposite (p c : Pointer) (length : Int) : WorldM Unit := do
  let tag ← c.add (-8)
  let compositeSize ← tag.getStructSize
  c.setWordZero (c.byteOffset - 8)
  (List.range length.toNat).forM fun i =>
    erasePointers eraseNext p c
      (c.byteOffset + i * compositeSize.getByteLength + compositeSize.dataByteLength)
      compositeSize.pointerLength
  c.fillZeroWordsOf c.byteOffset (length * padToWord compositeSize.getByteLength / 8)

def eraseList (p : Pointer) : WorldM Unit := do
  let elementSize ← p.getTargetListElementSize
  let length ← p.getTargetListLength
  let c ← p.getContent
  if elementSize = .POINTER then
    erasePointers eraseNext p c c.byteOffset length.toNat
  else if elementSize = .COMPOSITE then
    eraseComposite eraseNext p c length
  else
    c.fillZeroWordsOf c.byteOffset (contentWords elementSize length)

def eraseContent (p : Pointer) : WorldM Unit := do
  match ← p.getTargetPointerType with
  | .STRUCT => eraseStruct eraseNext p
  | .LIST => eraseList eraseNext p
  | .OTHER => return ()
  | .FAR => throw .PTR_INVALID_POINTER_TYPE

end erase

/-- The recursion is as deep as the depth limit of the pointer lets it be. -/
def eraseWithin : Nat → Pointer → WorldM Unit
  | 0, _ => throw .PTR_DEPTH_LIMIT_EXCEEDED
  | depth + 1, p => do
    if ← p.isNull then
      return ()
    else
      eraseContent (eraseWithin depth) p
      p.erasePointer

def erase (p : Pointer) : WorldM Unit := eraseWithin p.depthLimit.toNat p

/-- `addCap` -/
def addCap (message : Nat) (client : CapabilitySlot) : WorldM Nat :=
  modifyGet fun w =>
    let table := ((w message).capTable).getD []
    (table.length, Function.update w message { w message with capTable := some (table ++ [some client]) })

def copyFromInterface (src dst : Pointer) : WorldM Unit := do
  let srcCapId ← src.getUint32 (src.byteOffset + 4)
  let w ← get
  match (((w src.message).capTable).bind fun table => table[srcCapId.toNat]?).join with
  | none => return ()
  | some client => do
    let dstCapId ← addCap dst.message client
    setInterfacePointer dstCapId dst

section copy

variable (copyNext : Pointer → Pointer → WorldM Unit)

def copiedSize (src : Pointer) : WorldM ObjectSize := do
  return (← src.getTargetCompositeListSize).padToWord

def copyPointerAt (src dst srcContent dstContent : Pointer) (offset : Int) : WorldM Unit := do
  let srcPtr ← newPointer srcContent.message srcContent.segment (srcContent.byteOffset + offset)
    (src.depthLimit - 1)
  let dstPtr ← newPointer dstContent.message dstContent.segment (dstContent.byteOffset + offset)
    (dst.depthLimit - 1)
  copyNext srcPtr dstPtr

def copyPointerList (src dst srcContent : Pointer) (srcLength : Int) : WorldM Pointer := do
  let dstContent ← dst.allocate (shiftLeftThree srcLength)
  (List.range srcLength.toNat).forM fun i =>
    copyPointerAt copyNext src dst srcContent dstContent (shiftLeftThree i)
  return dstContent

def copyElementPointer (src dst srcContent dstContent : Pointer) (offset : Int) : WorldM Unit := do
  let srcPtr ← newPointer srcContent.message srcContent.segment (srcContent.byteOffset + offset)
    (src.depthLimit - 1)
  let dstPtr ← newPointer dstContent.message dstContent.segment (dstContent.byteOffset + offset + 8)
    (dst.depthLimit - 1)
  dstPtr.setWordZero dstPtr.byteOffset
  copyNext srcPtr dstPtr

def fillCompositeList (src dst srcContent : Pointer) (srcLength : Int) (srcCompositeSize : ObjectSize)
    (dstContent : Pointer) : WorldM Unit := do
  dstContent.copyWord dstContent.byteOffset srcContent (srcContent.byteOffset - 8)
  (if srcCompositeSize.dataByteLength > 0 then
    dstContent.copyWordsOf (dstContent.byteOffset + 8) srcContent srcContent.byteOffset
      (srcCompositeSize.getWordLength * srcLength)
  else
    pure ())
  (List.range srcLength.toNat).forM fun i =>
    (List.range srcCompositeSize.pointerLength).forM fun j =>
      copyElementPointer copyNext src dst srcContent dstContent
        (i * srcCompositeSize.getByteLength + srcCompositeSize.dataByteLength + shiftLeftThree j)

def copyCompositeList (src dst srcContent : Pointer) (srcLength : Int) (srcCompositeSize : ObjectSize) :
    WorldM Pointer := do
  let dstContent ← dst.allocate (srcCompositeSize.getByteLength * srcLength + 8)
  fillCompositeList copyNext src dst srcContent srcLength srcCompositeSize dstContent
  return dstContent

def copyDataList (dst srcContent : Pointer) (srcElementSize : ListElementSize) (srcLength : Int) :
    WorldM Pointer := do
  let byteLength :=
    match getListElementByteLength srcElementSize with
    | none => padToWord (shiftRightThree (srcLength + 7))
    | some bytes => padToWord (bytes * srcLength)
  let dstContent ← dst.allocate byteLength
  dstContent.copyWords dstContent.byteOffset srcContent srcContent.byteOffset (shiftRightThree byteLength)
  return dstContent

/-- The content of a list is copied; a composite list has a size for its elements too. -/
def copyListContent (src dst : Pointer) (srcElementSize : ListElementSize) (srcLength : Int)
    (srcContent : Pointer) : WorldM (Pointer × Option ObjectSize) := do
  if srcElementSize = .POINTER then
    return (← copyPointerList copyNext src dst srcContent srcLength, none)
  else if srcElementSize = .COMPOSITE then
    let srcCompositeSize ← src.copiedSize
    return (← copyCompositeList copyNext src dst srcContent srcLength srcCompositeSize, some srcCompositeSize)
  else
    return (← copyDataList dst srcContent srcElementSize srcLength, none)

def copyFromList (src dst : Pointer) : WorldM Unit := do
  if dst.depthLimit ≤ 0 then
    throw .PTR_DEPTH_LIMIT_EXCEEDED
  else
    let srcContent ← src.getContent
    let srcElementSize ← src.getTargetListElementSize
    let srcLength ← src.getTargetListLength
    let (dstContent, srcCompositeSize) ←
      copyListContent copyNext src dst srcElementSize srcLength srcContent
    let res ← initPointer dst.message dstContent.segment dstContent.byteOffset dst
    setListPointer res.offsetWords srcElementSize srcLength res.pointer srcCompositeSize

def fillStruct (src dst : Pointer) (srcSize : ObjectSize) (srcContent dstContent : Pointer) : WorldM Unit := do
  dstContent.copyWords dstContent.byteOffset srcContent srcContent.byteOffset srcSize.getDataWordLength
  (List.range srcSize.pointerLength).forM fun i =>
    copyPointerAt copyNext src dst srcContent dstContent (srcSize.dataByteLength + i * 8)

def copyStructContent (src dst : Pointer) (srcSize : ObjectSize) (srcContent : Pointer) :
    WorldM Pointer := do
  let dstContent ← dst.allocate srcSize.getByteLength
  fillStruct copyNext src dst srcSize srcContent dstContent
  return dstContent

def copyFromStruct (src dst : Pointer) : WorldM Unit := do
  if dst.depthLimit ≤ 0 then
    throw .PTR_DEPTH_LIMIT_EXCEEDED
  else
    let srcContent ← src.getContent
    let srcSize ← src.getTargetStructSize
    let dstContent ← copyStructContent copyNext src dst srcSize srcContent
    -- For an element of a composite list there is no pointer to write.
    if dst.compositeList then
      return ()
    else
      let res ← initPointer dst.message dstContent.segment dstContent.byteOffset dst
      setStructPointer res.offsetWords srcSize res.pointer

/-- What `copyFrom` does once the old content of `p` is erased. -/
def copyTarget (src p : Pointer) : WorldM Unit := do
  if ← src.isNull then
    return ()
  else
    match ← src.getTargetPointerType with
    | .STRUCT => copyFromStruct copyNext src p
    | .LIST => copyFromList copyNext src p
    | .OTHER => copyFromInterface src p
    | .FAR => throw .PTR_INVALID_POINTER_TYPE

end copy

def copyWithin : Nat → Pointer → Pointer → WorldM Unit
  | 0, _, _ => throw .PTR_DEPTH_LIMIT_EXCEEDED
  | depth + 1, src, p => do
    if p.message = src.message ∧ p.segment = src.segment ∧ p.byteOffset = src.byteOffset then
      return ()
    else
      p.erase
      copyTarget (copyWithin depth) src p

/-- `erase` fails before the recursion can be deeper than this. -/
def copyFrom (src p : Pointer) : WorldM Unit := copyWithin (p.depthLimit.toNat + 1) src p

def relocateTo (dst src : Pointer) : WorldM Unit := do
  let t ← src.followFars
  -- The offset in the low half is dropped.
  let lo := (← t.getUint8 t.byteOffset) &&& 3
  let hi ← t.getUint32 (t.byteOffset + 4)
  dst.erase
  let offsetWords ← t.getOffsetWords
  let res ← initPointer t.message t.segment (t.byteOffset + 8 + offsetWords * 8) dst
  res.pointer.setUint32 res.pointer.byteOffset (lo ||| (BitVec.ofInt 32 res.offsetWords <<< 2))
  res.pointer.setUint32 (res.pointer.byteOffset + 4) hi
  src.erasePointer

/-- The constructor of `Struct`, for an element of a composite list. -/
def newElement (message segment : Nat) (byteOffset depthLimit : Int) (compositeIndex : Nat) :
    WorldM Pointer := do
  let p ← newPointer message segment byteOffset depthLimit
  return { p with compositeIndex := some compositeIndex, compositeList := true }

end Pointer

namespace CompositeList

def get (list : Pointer) (index : Nat) : WorldM Pointer :=
  Pointer.newElement list.message list.segment list.byteOffset (list.depthLimit - 1) index

def set (list : Pointer) (index : Nat) (value : Pointer) : WorldM Unit := do
  let element ← get list index
  Pointer.copyFrom value element

end CompositeList

end CapnpEs
