import CapnpEs.Serialization.Pointers.Copying

/-! Taking an object out of a message and disposing of it: `orphan.ts`. -/

namespace CapnpEs

def getListByteLength (elementSize : ListElementSize) (length : Int) (compositeSize : Option ObjectSize) :
    Except CapnpError Int :=
  match elementSize with
  | .BIT => .ok (padToWord (shiftRightThree (length + 7)))
  | .COMPOSITE =>
      match compositeSize with
      | none => .error .PTR_INVALID_LIST_SIZE
      | some size => .ok (length * padToWord size.getByteLength)
  | _ => .ok (padToWord (((getListElementByteLength elementSize).getD 0 : Nat) * length))

/-- What an orphan knows of the pointer it was made from. -/
inductive OrphanType
  | STRUCT (size : ObjectSize)
  | LIST (elementSize : ListElementSize) (length : Int) (size : Option ObjectSize)
  | OTHER (capId : Nat)
  deriving DecidableEq, Repr

structure Orphan where
  -- `_capnp`, gone once the orphan is adopted or disposed of
  capnp : Option OrphanType
  message : Nat
  segment : Nat
  byteOffset : Int
  deriving DecidableEq, Repr

namespace Pointer

def getCapabilityId (p : Pointer) : WorldM Nat := do
  return (← p.getUint32 (p.byteOffset + 4)).toNat

def orphanList (src : Pointer) : WorldM OrphanType := do
  let length ← src.getTargetListLength
  let elementSize ← src.getTargetListElementSize
  if elementSize = .COMPOSITE then
    return .LIST elementSize length (some (← src.getTargetCompositeListSize))
  else
    return .LIST elementSize length none

def orphanType (src : Pointer) : WorldM OrphanType := do
  match ← src.getTargetPointerType with
  | .STRUCT => return .STRUCT (← src.getTargetStructSize)
  | .LIST => src.orphanList
  | .OTHER => return .OTHER (← src.getCapabilityId)
  | .FAR => throw .PTR_INVALID_POINTER_TYPE

/-- The constructor of `Orphan`. -/
def disown (src : Pointer) : WorldM Orphan := do
  let c ← src.getContent
  let type ← src.orphanType
  src.erasePointer
  return { capnp := some type, message := c.message, segment := c.segment, byteOffset := c.byteOffset }

end Pointer

namespace Orphan

def pointer (o : Orphan) : Pointer :=
  { message := o.message, segment := o.segment, byteOffset := o.byteOffset, depthLimit := DEFAULT_DEPTH_LIMIT }

def disposeStruct (o : Orphan) (size : ObjectSize) : WorldM Unit := do
  Pointer.erasePointers Pointer.erase o.pointer o.pointer (o.byteOffset + size.dataByteLength) size.pointerLength
  o.pointer.fillZeroWords o.byteOffset size.getWordLength

def disposeList (o : Orphan) (elementSize : ListElementSize) (length : Int) (size : Option ObjectSize) :
    WorldM Unit := do
  let byteLength ← ofExcept (getListByteLength elementSize length size)
  o.pointer.fillZeroWordsOf o.byteOffset byteLength

def disposeContent (o : Orphan) : OrphanType → WorldM Unit
  | .STRUCT size => o.disposeStruct size
  | .LIST elementSize length size => o.disposeList elementSize length size
  | .OTHER _ => return ()

def dispose (o : Orphan) : WorldM Orphan :=
  match o.capnp with
  | none => return o
  | some type => do
    o.disposeContent type
    return { o with capnp := none }

end Orphan

end CapnpEs
