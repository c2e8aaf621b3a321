import CapnpEs.Serialization.Pointers.Orphans
import CapnpEs.Serialization.Pointers.TextFields

/-! Filling the pointer fields of a struct, adopting an orphan, and the root: `struct.utils.ts`, `orphan.ts` and
`message.ts`. -/

namespace CapnpEs

def checkPointerBounds (index : Int) (s : Pointer) : WorldM Unit := do
  checkWrite s
  throwPointerBounds index s

def initStructAt (nullMessage : Nat) (index : Int) (size : ObjectSize) (p : Pointer) : WorldM Pointer := do
  let s ← getPointerAs nullMessage index p
  Pointer.initStruct size s
  return s

/-- `initData` and `initList` of a field. -/
def initFieldList (index : Int) (elementSize : ListElementSize) (length : Int) (compositeSize : Option ObjectSize)
    (s : Pointer) : WorldM Pointer := do
  checkPointerBounds index s
  let l ← newFieldPointer index s
  l.erase
  Pointer.initList elementSize length l compositeSize
  return l

def initData (index length : Int) (s : Pointer) : WorldM Pointer := initFieldList index .BYTE length none s

def initList (index : Int) (elementSize : ListElementSize) (length : Int) (compositeSize : Option ObjectSize)
    (s : Pointer) : WorldM Pointer :=
  initFieldList index elementSize length compositeSize s

def setText (nullMessage : Nat) (encode : String → Bytes) (index : Int) (value : String) (s : Pointer) : WorldM Unit := do
  let t ← Text.fromPointer (← getPointer nullMessage index s)
  Text.set encode 0 value t

def initRoot (message : Nat) (size : ObjectSize) : WorldM Pointer := do
  let segment ← onMessage message (Message.getSegment 0)
  let root ← newPointer message segment 0
  Pointer.initStruct size root
  return root

def getRoot (message : Nat) (size : ObjectSize) : WorldM Pointer := do
  let segment ← onMessage message (Message.getSegment 0)
  let root ← newPointer message segment 0
  root.validate .STRUCT
  let ts ← root.getTargetStructSize
  let readonly ← isReadOnly root
  (if !readonly ∧ (ts.dataByteLength < size.dataByteLength ∨ ts.pointerLength < size.pointerLength) then
    resize size root
  else
    pure ())
  return root

def setRoot (src : Pointer) (message : Nat) : WorldM Unit := do
  let segment ← onMessage message (Message.getSegment 0)
  Pointer.copyFrom src (← newPointer message segment 0)

/-- The slot of the capability table; what stands in for an empty one is made outside of the message. -/
def getInterfaceClientOrNull (p : Pointer) : WorldM (Option CapabilitySlot) := do
  let capId ← p.getUint32 (p.byteOffset + 4)
  let w ← get
  return ((w p.message).capTable.bind fun table => table[capId.toNat]?).join

def getInterfaceClientOrNullAt (nullMessage : Nat) (index : Int) (s : Pointer) : WorldM (Option CapabilitySlot) := do
  getInterfaceClientOrNull (← getPointer nullMessage index s)

namespace PointerList

def get (l : Pointer) (index : Int) : WorldM Pointer := do
  let c ← l.getContent
  newPointer c.message c.segment (c.byteOffset + index * 8) (l.depthLimit - 1)

def set (l : Pointer) (index : Int) (value : Pointer) : WorldM Unit := do
  Pointer.copyFrom value (← get l index)

end PointerList

namespace TextList

def get (decode : Bytes → String) (l : Pointer) (index : Int) : WorldM String := do
  let c ← l.getContent
  Text.get decode 0 (← Text.fromPointer { c with byteOffset := c.byteOffset + index * 8 })

def set (encode : String → Bytes) (l : Pointer) (index : Int) (value : String) : WorldM Unit := do
  let c ← l.getContent
  Text.set encode 0 value (← Text.fromPointer { c with byteOffset := c.byteOffset + index * 8 })

end TextList

inductive AdoptError
  | PTR_ALREADY_ADOPTED
  | PTR_ADOPT_WRONG_MESSAGE
  | thrown (error : CapnpError)
  deriving DecidableEq, Repr

namespace Orphan

/-- The destination is erased, and written again as the pointer that the orphan was. -/
def moveContent (o : Orphan) (type : OrphanType) (dst : Pointer) : WorldM Unit := do
  dst.erase
  let res ← Pointer.initPointer o.message o.segment o.byteOffset dst
  match type with
  | .STRUCT size => Pointer.setStructPointer res.offsetWords size res.pointer
  | .LIST elementSize length size =>
      -- The tag word gets skipped.
      let offsetWords := if elementSize = .COMPOSITE then res.offsetWords - 1 else res.offsetWords
      Pointer.setListPointer offsetWords elementSize length res.pointer size
  | .OTHER capId => Pointer.setInterfacePointer capId res.pointer

/-- `_moveTo`, which is `adopt`. -/
def moveTo (dst : Pointer) (o : Orphan) : EStateM AdoptError World Orphan := fun w =>
  match o.capnp with
  | none => .error .PTR_ALREADY_ADOPTED w
  | some type =>
      if o.message ≠ dst.message then
        .error .PTR_ADOPT_WRONG_MESSAGE w
      else
        match o.moveContent type dst w with
        | .error error after => .error (.thrown error) after
        | .ok _ after => .ok { o with capnp := none } after

end Orphan

end CapnpEs
