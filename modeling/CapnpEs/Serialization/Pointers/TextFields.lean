import CapnpEs.Serialization.Pointers.PointerFields

/-! Text and its fields: `text.ts`, and the getter of `struct.utils.ts`. -/

namespace CapnpEs

namespace Pointer

/-- `validate` for a list, with an element size. -/
def validateList (elementSize : ListElementSize) (p : Pointer) : WorldM Unit := do
  if ← p.isNull then
    return ()
  else
    let t ← p.followFars
    if (← t.getPointerType) ≠ .LIST then
      throw .PTR_WRONG_POINTER_TYPE
    else if (← t.getListElementSize) ≠ elementSize then
      throw .PTR_WRONG_LIST_TYPE

/-- `new Uint8Array(c.segment.buffer, c.byteOffset, byteLength).set(bytes, offset)`. -/
def setView (byteLength : Int) (bytes : Bytes) (offset : Nat) (c : Pointer) : WorldM Unit := do
  let s ← onMessage c.message (Message.segment c.segment)
  let view ← ofExcept (uint8View s.buffer c.byteOffset byteLength)
  let view ← ofExcept (setBytes view bytes offset)
  onMessage c.message (modify fun m =>
    m.setSegment c.segment { s with buffer := LittleEndian.overwrite s.buffer c.byteOffset.toNat view })

end Pointer

/-- `ArrayBuffer.prototype.slice`: a negative index counts from the end. -/
def arrayBufferSlice (buffer : Bytes) (first last : Int) : Bytes :=
  let relative (index : Int) : Nat := if index < 0 then (buffer.length + index).toNat else index.toNat
  (buffer.take (relative last)).drop (relative first)

section text

-- The identity of the shared null message, and `TextEncoder` and `TextDecoder`.
variable (nullMessage : Nat) (encode : String → Bytes) (decode : Bytes → String)

namespace Text

def fromPointer (pointer : Pointer) : WorldM Pointer := do
  pointer.validateList .BYTE
  newPointerAt pointer

def length (t : Pointer) : WorldM Int := do
  return (← t.getTargetListLength) - 1

def get (index : Nat) (t : Pointer) : WorldM String := do
  if ← t.isNull then
    return ""
  else
    let c ← t.getContent
    let s ← onMessage c.message (Message.segment c.segment)
    -- The NUL byte is left out.
    let bytes ← ofExcept (uint8View s.buffer (c.byteOffset + index) ((← length t) - index))
    return decode bytes

/-- What is kept in front of `index`; the rest ends up truncated. -/
def original (index : Nat) (t : Pointer) : WorldM (Option Bytes) := do
  if ← t.isNull then
    return none
  else
    let c ← t.getContent
    let originalLength := min (← length t) index
    let s ← onMessage c.message (Message.segment c.segment)
    let original := arrayBufferSlice s.buffer c.byteOffset (c.byteOffset + originalLength)
    t.erase
    return some original

def set (index : Nat) (value : String) (t : Pointer) : WorldM Unit := do
  let src := encode value
  let dstLength : Int := src.length + index
  let original ← original index t
  -- There is an extra byte for the NUL byte.
  Pointer.initList .BYTE (dstLength + 1) t none
  let c ← t.getContent
  (match original with
  | some original => c.setView dstLength original 0
  | none => pure ())
  c.setView dstLength src index

end Text

def getText (index : Int) (s : Pointer) (defaultValue : Option String) : WorldM String := do
  let t ← Text.fromPointer (← getPointer nullMessage index s)
  let text := defaultValue.getD ""
  -- An empty default is no default.
  if (← t.isNull) ∧ text ≠ "" then
    if ← isReadOnly s then
      return text
    else
      Text.set encode 0 text t
      Text.get decode 0 t
  else
    Text.get decode 0 t

end text

end CapnpEs
