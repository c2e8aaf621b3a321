import CapnpEs.Serialization.Pointers.Initializing
import CapnpEs.Serialization.Pointers.StructUtils

/-! The struct, list and data fields of a struct, with their default values: `struct.utils.ts`. -/

namespace CapnpEs

/-- `Number.MAX_SAFE_INTEGER` -/
def MAX_SAFE_INTEGER : Int := 2 ^ 53 - 1

/-- The message of `getReadOnlyNullSegment`. -/
def readOnlyNullMessage : Message :=
  { arena := { kind := .SINGLE_SEGMENT, buffers := [] }
    segments := [{ buffer := List.replicate 8 0, byteLength := 8 }]
    traversalLimit := MAX_SAFE_INTEGER
    readonly := true
    capTable := none }

/-- `Message.copy`: the copies of the arena's buffers are allocated to their ends. -/
def Message.copy (m : Message) : Except CapnpError Message :=
  let buffers := m.segments.map (·.buffer) ++ m.arena.buffers
  match buffers with
  | first :: _ =>
      if first.length < 8 then .error .MSG_SEGMENT_TOO_SMALL
      else .ok (copied buffers)
  | [] => .ok (copied buffers)
where
  copied (buffers : List Bytes) : Message :=
    { arena := { m.arena with buffers := [] }
      segments := buffers.map fun buffer => { buffer, byteLength := buffer.length }
      traversalLimit := DEFAULT_TRAVERSE_LIMIT
      readonly := false
      capTable := none }

def throwPointerBounds (index : Int) (s : Pointer) : WorldM Unit := do
  let size ← getSize s
  if index < 0 ∨ index ≥ size.pointerLength then
    throw (.PTR_STRUCT_POINTER_OUT_OF_BOUNDS index size.pointerLength)

def checkReadPointerBounds (index : Int) (s : Pointer) : WorldM Bool := do
  let size ← getSize s
  if index ≥ 0 ∧ index < size.pointerLength then
    return true
  else if (← isReadOnly s) ∧ index ≥ 0 then
    return false
  else
    throwPointerBounds index s
    return false

def getPointerSection (s : Pointer) : WorldM Pointer := do
  let ps ← s.getContent
  return { ps with byteOffset := ps.byteOffset + padToWord (← getSize s).dataByteLength }

section fields

-- The identities of the shared null message, and of the copy that is made of a default in a writable message.
variable (nullMessage copied : Nat)

/-- The null message is made once; its traversal limit is put back each time. -/
def getReadOnlyNullPointer (depthLimit : Int) : WorldM Pointer := do
  modify fun w => Function.update w nullMessage readOnlyNullMessage
  newPointer nullMessage 0 0 depthLimit

def getReadOnlyPointer (src : Pointer) (depthLimit : Int) : WorldM Pointer := do
  if ← isReadOnly src then
    newPointer src.message src.segment src.byteOffset depthLimit
  else
    let w ← get
    let message ← ofExcept (w src.message).copy
    set (Function.update w copied { message with readonly := true })
    let segment ← onMessage copied (Message.getSegment src.segment)
    newPointer copied segment src.byteOffset depthLimit

def getNullPointer (s : Pointer) : WorldM Pointer := getReadOnlyNullPointer nullMessage (s.depthLimit - 1)

def newPointerAt (p : Pointer) : WorldM Pointer := newPointer p.message p.segment p.byteOffset p.depthLimit

def newFieldPointer (index : Int) (s : Pointer) : WorldM Pointer := do
  let ps ← getPointerSection s
  newPointer ps.message ps.segment (ps.byteOffset + index * 8) (s.depthLimit - 1)

def getPointer (index : Int) (s : Pointer) : WorldM Pointer := do
  if ← checkReadPointerBounds index s then
    newFieldPointer index s
  else
    getNullPointer nullMessage s

def getPointerAs (index : Int) (s : Pointer) : WorldM Pointer := do
  if ← checkReadPointerBounds index s then
    newFieldPointer index s
  else
    newPointerAt (← getNullPointer nullMessage s)

/-- The words of a pointer are written again for a new place of it; the type and the upper half stay. -/
def rewritePointer (srcPtr srcPtrTarget srcPtrContent dstPtr : Pointer) : WorldM Unit := do
  -- For composite lists the offset needs to point to the tag word.
  let composite ← srcPtr.isCompositeList
  let srcPtrContent : Pointer :=
    if composite then { srcPtrContent with byteOffset := srcPtrContent.byteOffset - 8 } else srcPtrContent
  let r ← Pointer.initPointer srcPtrContent.message srcPtrContent.segment srcPtrContent.byteOffset dstPtr
  let a ← srcPtrTarget.getUint8 srcPtrTarget.byteOffset
  let b ← srcPtrTarget.getUint32 (srcPtrTarget.byteOffset + 4)
  r.pointer.setUint32 r.pointer.byteOffset ((a &&& 3) ||| (BitVec.ofInt 32 r.offsetWords <<< 2))
  r.pointer.setUint32 (r.pointer.byteOffset + 4) b

/-- Make a shallow copy of a struct's contents in a larger place. -/
def resize (dstSize : ObjectSize) (s : Pointer) : WorldM Unit := do
  let srcSize ← getSize s
  let srcContent ← s.getContent
  let dstContent ← s.allocate dstSize.getByteLength
  dstContent.copyWords dstContent.byteOffset srcContent srcContent.byteOffset
    (min srcSize.getDataWordLength dstSize.getDataWordLength)
  let res ← Pointer.initPointer dstContent.message dstContent.segment dstContent.byteOffset s
  Pointer.setStructPointer res.offsetWords dstSize res.pointer
  (List.range (min srcSize.pointerLength dstSize.pointerLength)).forM fun i => do
    let srcPtr ← newPointer srcContent.message srcContent.segment
      (srcContent.byteOffset + srcSize.dataByteLength + i * 8)
    if ← srcPtr.isNull then
      return ()
    else
      let srcPtrTarget ← srcPtr.followFars
      let srcPtrContent ← srcPtr.getContent
      let dstPtr ← newPointer dstContent.message dstContent.segment
        (dstContent.byteOffset + dstSize.dataByteLength + i * 8)
      rewritePointer srcPtr srcPtrTarget srcPtrContent dstPtr
  srcContent.fillZeroWords srcContent.byteOffset srcSize.getWordLength

def getStruct (index : Int) (size : ObjectSize) (s : Pointer) (defaultValue : Option Pointer) : WorldM Pointer := do
  let t ← getPointerAs nullMessage index s
  let readOnly ← isReadOnly s
  if ← t.isNull then
    match defaultValue with
    | some defaultValue =>
        if readOnly then
          newPointerAt (← getReadOnlyPointer copied defaultValue t.depthLimit)
        else
          Pointer.copyFrom defaultValue t
          return t
    | none =>
        (if readOnly then pure () else Pointer.initStruct size t)
        return t
  else
    t.validate .STRUCT
    let ts ← t.getTargetStructSize
    -- A struct of an older version of the schema is resized.
    (if !readOnly ∧ (ts.dataByteLength < size.dataByteLength ∨ ts.pointerLength < size.pointerLength) then
      resize size t
    else
      pure ())
    return t

def growElement (srcContent dstContent : Pointer) (srcSize dstSize : ObjectSize) (i : Nat) : WorldM Unit := do
  let srcElementOffset := srcContent.byteOffset + i * srcSize.getByteLength
  let dstElementOffset := dstContent.byteOffset + i * dstSize.getByteLength
  dstContent.copyWords dstElementOffset srcContent srcElementOffset srcSize.getWordLength
  (List.range srcSize.pointerLength).forM fun j => do
    let srcPtr ← newPointer srcContent.message srcContent.segment (srcElementOffset + srcSize.dataByteLength + j * 8)
    let dstPtr ← newPointer dstContent.message dstContent.segment (dstElementOffset + dstSize.dataByteLength + j * 8)
    let srcPtrTarget ← srcPtr.followFars
    let srcPtrContent ← srcPtr.getContent
    rewritePointer srcPtr srcPtrTarget srcPtrContent dstPtr

/-- A composite list of an older version of the schema is copied to elements that are large enough. -/
def growList (elementSize : ListElementSize) (dstSize : ObjectSize) (l : Pointer) : WorldM Unit := do
  let srcSize ← l.getTargetCompositeListSize
  if dstSize.dataByteLength > srcSize.dataByteLength ∨ dstSize.pointerLength > srcSize.pointerLength then
    let srcContent ← l.getContent
    let srcLength ← l.getTargetListLength
    let dstContent ← l.allocate (dstSize.getByteLength * srcLength + 8)
    let res ← Pointer.initPointer dstContent.message dstContent.segment dstContent.byteOffset l
    Pointer.setListPointer res.offsetWords elementSize srcLength res.pointer (some dstSize)
    Pointer.setStructPointer srcLength dstSize dstContent
    let dstContent : Pointer := { dstContent with byteOffset := dstContent.byteOffset + 8 }
    (List.range srcLength.toNat).forM (growElement srcContent dstContent srcSize dstSize)
    srcContent.fillZeroWordsOf srcContent.byteOffset (srcSize.getWordLength * srcLength)

/-- What a list or data field holds while it is null: the default, and in a writable message its copy. -/
def fillNullList (elementSize : ListElementSize) (compositeSize : Option ObjectSize) (s l : Pointer)
    (defaultValue : Option Pointer) : WorldM Pointer := do
  let readOnly ← isReadOnly s
  match defaultValue with
  | some defaultValue =>
      if readOnly then
        newPointerAt (← getReadOnlyPointer copied defaultValue l.depthLimit)
      else
        Pointer.copyFrom defaultValue l
        return l
  | none =>
      (if readOnly then pure () else Pointer.initList elementSize 0 l compositeSize)
      return l

def getList (index : Int) (elementSize : ListElementSize) (compositeSize : Option ObjectSize) (s : Pointer)
    (defaultValue : Option Pointer) : WorldM Pointer := do
  if ← checkReadPointerBounds index s then
    let l ← newFieldPointer index s
    if ← l.isNull then
      fillNullList copied elementSize compositeSize s l defaultValue
    else
      match compositeSize with
      | some dstSize =>
          (if ← isReadOnly s then pure () else growList elementSize dstSize l)
          return l
      | none => return l
  else
    let p ← getNullPointer nullMessage s
    match defaultValue with
    | some defaultValue => newPointerAt (← getReadOnlyPointer copied defaultValue p.depthLimit)
    | none => newPointerAt p

def getData (index : Int) (s : Pointer) (defaultValue : Option Pointer) : WorldM Pointer := do
  if ← checkReadPointerBounds index s then
    let l ← newFieldPointer index s
    if ← l.isNull then
      fillNullList copied .BYTE none s l defaultValue
    else
      return l
  else
    let l ← newPointerAt (← getNullPointer nullMessage s)
    match defaultValue with
    | some defaultValue => newPointerAt (← getReadOnlyPointer copied defaultValue l.depthLimit)
    | none => return l

end fields

end CapnpEs
