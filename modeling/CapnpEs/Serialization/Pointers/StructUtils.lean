import CapnpEs.Serialization.Mask
import CapnpEs.Serialization.Pointers.PointerUtils

/-! The integer and boolean fields of a struct: `struct.utils.ts`. -/

namespace CapnpEs

namespace Pointer

/-! The getters and setters of the segment, by the width of the number. -/

def segmentGet (signed : Bool) (width : Nat) (p : Pointer) (byteOffset : Int) : WorldM Int := do
  return DataView.number signed width (← onMessage p.message (Message.getUint width p.segment byteOffset))

def segmentSet (width : Nat) (p : Pointer) (byteOffset value : Int) : WorldM Unit :=
  onMessage p.message (Message.setUint width p.segment byteOffset value)

end Pointer

def isReadOnly (s : Pointer) : WorldM Bool := fun w => .ok (w s.message).readonly w

def checkWrite (s : Pointer) : WorldM Unit := do
  if ← isReadOnly s then
    throw .PTR_WRITE_CONST_STRUCT

def getSize (s : Pointer) : WorldM ObjectSize := do
  if ← s.isNull then
    return ⟨0, 0⟩
  else
    match s.compositeIndex with
    | some _ =>
        -- For composite lists the object size is stored in a tag word right before the content.
        let c ← s.getContent true
        let c : Pointer := { c with byteOffset := c.byteOffset - 8 }
        c.getStructSize
    | none => s.getTargetStructSize

def getDataSection (s : Pointer) : WorldM Pointer := s.getContent

def throwDataBounds (byteOffset byteLength : Int) (s : Pointer) : WorldM Unit := do
  let size ← getSize s
  if byteOffset < 0 ∨ byteLength < 0 ∨ byteOffset + byteLength > size.dataByteLength then
    throw (.PTR_STRUCT_DATA_OUT_OF_BOUNDS byteLength byteOffset size.dataByteLength)

def checkDataBounds (byteOffset byteLength : Int) (s : Pointer) : WorldM Unit := do
  checkWrite s
  throwDataBounds byteOffset byteLength s

def checkReadDataBounds (byteOffset byteLength : Int) (s : Pointer) : WorldM Bool := do
  let size ← getSize s
  if byteOffset ≥ 0 ∧ byteLength ≥ 0 ∧ byteOffset + byteLength ≤ size.dataByteLength then
    return true
  else if (← isReadOnly s) ∧ byteOffset ≥ 0 ∧ byteLength ≥ 0 then
    return false
  else
    throwDataBounds byteOffset byteLength s
    return false

section accessors

variable (nativeLittleEndian : Bool) (tmp : TmpWord)

/-- The signed getters of up to four bytes, by the width of the field and of the mask's getter. -/
def getIntOf (width maskWidth : Nat) (byteOffset : Int) (s : Pointer) (defaultMask : Option Bytes) :
    WorldM Int := do
  if ← checkReadDataBounds byteOffset width s then
    let ds ← getDataSection s
    match defaultMask with
    | none => ds.segmentGet true width (ds.byteOffset + byteOffset)
    | some mask =>
        let v ← ds.segmentGet false width (ds.byteOffset + byteOffset)
        let m ← ofExcept (DataView.getOrdered true maskWidth mask 0)
        ofExcept (tmp.readInt nativeLittleEndian width (xor32 v m))
  else
    match defaultMask with
    | none => return 0
    | some mask =>
        let m ← ofExcept (DataView.getOrdered true width mask 0)
        ofExcept (tmp.readInt nativeLittleEndian width m)

def getInt8 := getIntOf nativeLittleEndian tmp 1 1
def getInt16 := getIntOf nativeLittleEndian tmp 2 2
/-- In bounds, the mask is read as a `Uint16`. -/
def getInt32 := getIntOf nativeLittleEndian tmp 4 2

def getUintOf (width : Nat) (byteOffset : Int) (s : Pointer) (defaultMask : Option Bytes) : WorldM Int := do
  if ← checkReadDataBounds byteOffset width s then
    let ds ← getDataSection s
    let v ← ds.segmentGet false width (ds.byteOffset + byteOffset)
    match defaultMask with
    | none => return v
    | some mask => return xor32 v (← ofExcept (DataView.getOrdered true width mask 0))
  else
    match defaultMask with
    | none => return 0
    | some mask => return (← ofExcept (DataView.getOrdered true width mask 0))

def getUint8 := getUintOf 1
def getUint16 := getUintOf 2
def getUint32 := getUintOf 4

def getBigOf (signed : Bool) (byteOffset : Int) (s : Pointer) (defaultMask : Option Bytes) : WorldM Int := do
  if ← checkReadDataBounds byteOffset 8 s then
    let ds ← getDataSection s
    match defaultMask with
    | none => ds.segmentGet signed 8 (ds.byteOffset + byteOffset)
    | some mask =>
        let lo ← ds.segmentGet false 4 (ds.byteOffset + byteOffset)
        let lo := xor32 lo (← ofExcept (DataView.getOrdered true 4 mask 0))
        let hi ← ds.segmentGet false 4 (ds.byteOffset + byteOffset + 4)
        let hi := xor32 hi (← ofExcept (DataView.getOrdered true 4 mask 4))
        ofExcept (tmp.readHalves nativeLittleEndian signed lo hi)
  else
    match defaultMask with
    | none => return 0
    | some mask =>
        let lo ← ofExcept (DataView.getOrdered true 4 mask 0)
        let hi ← ofExcept (DataView.getOrdered true 4 mask 4)
        ofExcept (tmp.readHalves true signed lo hi)

def getInt64 := getBigOf nativeLittleEndian tmp true
def getUint64 := getBigOf nativeLittleEndian tmp false

/-! A floating point number is given by its bits. -/

def getFloat32 (byteOffset : Int) (s : Pointer) (defaultMask : Option Bytes) : WorldM Nat := do
  return ((← getUintOf 4 byteOffset s defaultMask) % 2 ^ 32).toNat

def getFloat64 (byteOffset : Int) (s : Pointer) (defaultMask : Option Bytes) : WorldM Nat := do
  if ← checkReadDataBounds byteOffset 8 s then
    let ds ← getDataSection s
    match defaultMask with
    | none => onMessage ds.message (Message.getUint 8 ds.segment (ds.byteOffset + byteOffset))
    | some mask =>
        let lo ← ds.segmentGet false 4 (ds.byteOffset + byteOffset)
        let lo := xor32 lo (← ofExcept (DataView.getOrdered true 4 mask 0))
        let hi ← ds.segmentGet false 4 (ds.byteOffset + byteOffset + 4)
        let hi := xor32 hi (← ofExcept (DataView.getOrdered true 4 mask 4))
        return (← ofExcept (tmp.readHalves nativeLittleEndian false lo hi)).toNat
  else
    match defaultMask with
    | none => return 0
    | some mask =>
        let lo ← ofExcept (DataView.getOrdered true 4 mask 0)
        let hi ← ofExcept (DataView.getOrdered true 4 mask 4)
        return (← ofExcept (tmp.readHalves nativeLittleEndian false lo hi)).toNat

def getBit (bitOffset : Int) (s : Pointer) (defaultMask : Option Bytes) : WorldM Bool := do
  let byteOffset := bitOffset / 8
  let bitMask := bitMaskOf bitOffset
  if ← checkReadDataBounds byteOffset 1 s then
    let ds ← getDataSection s
    let v ← ds.segmentGet false 1 (ds.byteOffset + byteOffset)
    match defaultMask with
    | none => return BitVec.ofInt 32 v &&& bitMask ≠ 0
    | some mask =>
        let defaultValue ← ofExcept (DataView.getOrdered true 1 mask 0)
        return BitVec.ofInt 32 (xor32 v defaultValue) &&& bitMask ≠ 0
  else
    match defaultMask with
    | none => return false
    | some mask =>
        return BitVec.ofNat 32 (← ofExcept (DataView.getOrdered true 1 mask 0)) &&& bitMask ≠ 0

def setIntOf (width : Nat) (byteOffset value : Int) (s : Pointer) (defaultMask : Option Bytes) :
    WorldM Unit := do
  checkDataBounds byteOffset width s
  let ds ← getDataSection s
  match defaultMask with
  | none => ds.segmentSet width (ds.byteOffset + byteOffset) value
  | some mask =>
      let bits ← ofExcept (tmp.readBits nativeLittleEndian width value)
      let m ← ofExcept (DataView.getOrdered true width mask 0)
      ds.segmentSet width (ds.byteOffset + byteOffset) (xor32 bits m)

def setInt8 := setIntOf nativeLittleEndian tmp 1
def setInt16 := setIntOf nativeLittleEndian tmp 2
def setInt32 := setIntOf nativeLittleEndian tmp 4

def setUintOf (width : Nat) (byteOffset value : Int) (s : Pointer) (defaultMask : Option Bytes) :
    WorldM Unit := do
  checkDataBounds byteOffset width s
  let ds ← getDataSection s
  match defaultMask with
  | none => ds.segmentSet width (ds.byteOffset + byteOffset) value
  | some mask =>
      let m ← ofExcept (DataView.getOrdered true width mask 0)
      ds.segmentSet width (ds.byteOffset + byteOffset) (xor32 value m)

def setUint8 := setUintOf 1
def setUint16 := setUintOf 2
def setUint32 := setUintOf 4

def setBigOf (byteOffset value : Int) (s : Pointer) (defaultMask : Option Bytes) : WorldM Unit := do
  checkDataBounds byteOffset 8 s
  let ds ← getDataSection s
  match defaultMask with
  | none => ds.segmentSet 8 (ds.byteOffset + byteOffset) value
  | some mask =>
      let (lo, hi) ← ofExcept (tmp.splitHalves nativeLittleEndian value)
      let lo := xor32 lo (← ofExcept (DataView.getOrdered true 4 mask 0))
      let hi := xor32 hi (← ofExcept (DataView.getOrdered true 4 mask 4))
      ds.segmentSet 4 (ds.byteOffset + byteOffset) lo
      ds.segmentSet 4 (ds.byteOffset + byteOffset + 4) hi

def setInt64 := setBigOf nativeLittleEndian tmp
def setUint64 := setBigOf nativeLittleEndian tmp

def setFloat32 (byteOffset : Int) (bits : Nat) := setUintOf 4 byteOffset bits
def setFloat64 (byteOffset : Int) (bits : Nat) := setBigOf nativeLittleEndian tmp byteOffset bits

def setBit (bitOffset : Int) (value : Bool) (s : Pointer) (defaultMask : Option Bytes) : WorldM Unit := do
  let byteOffset := bitOffset / 8
  let bitMask := bitMaskOf bitOffset
  checkDataBounds byteOffset 1 s
  let ds ← getDataSection s
  let b ← ds.segmentGet false 1 (ds.byteOffset + byteOffset)
  let b := BitVec.ofInt 32 b
  -- If the default mask bit is set, that means `true` values are actually written as `0`.
  let value ← (match defaultMask with
    | none => pure value
    | some mask => do
        let m ← ofExcept (DataView.getOrdered true 1 mask 0)
        pure (if BitVec.ofNat 32 m &&& bitMask = 0 then value else !value) : WorldM Bool)
  ds.segmentSet 1 (ds.byteOffset + byteOffset) (if value then b ||| bitMask else b &&& ~~~bitMask).toInt

end accessors

end CapnpEs
