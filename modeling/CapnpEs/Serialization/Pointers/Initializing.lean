import CapnpEs.Serialization.Pointers.Copying

/-! Initializing structs and lists: `struct.utils.ts` and `list/list.ts`. -/

namespace CapnpEs

namespace Pointer

def initStruct (size : ObjectSize) (s : Pointer) : WorldM Unit := do
  if s.compositeIndex ≠ none then
    throw .PTR_INIT_COMPOSITE_STRUCT
  else
    -- Existing contents are cleared before the pointer is overwritten.
    s.erase
    let c ← s.allocate size.getByteLength
    let res ← initPointer c.message c.segment c.byteOffset s
    setStructPointer res.offsetWords size res.pointer

/-- The content of a list, and the size of its elements where they are structs. `(length + 7) / 8` is
`Math.ceil(length / 8)`. -/
def initListContent (elementSize : ListElementSize) (length : Int) (list : Pointer) (compositeSize : Option ObjectSize) :
    WorldM (Pointer × Option ObjectSize) := do
  match elementSize with
  | .BIT => return (← list.allocate ((length + 7) / 8), compositeSize)
  | .COMPOSITE =>
      match compositeSize with
      | none => throw .PTR_COMPOSITE_SIZE_UNDEFINED
      | some compositeSize =>
          let compositeSize := compositeSize.padToWord
          -- The length stands in a tag word in front of the elements.
          let c ← list.allocate (compositeSize.getByteLength * length + 8)
          setStructPointer length compositeSize c
          return (c, some compositeSize)
  | elementSize =>
      return (← list.allocate (length * (getListElementByteLength elementSize).getD 0), compositeSize)

def initList (elementSize : ListElementSize) (length : Int) (list : Pointer) (compositeSize : Option ObjectSize) :
    WorldM Unit := do
  if elementSize = .VOID then
    setListPointer 0 elementSize length list none
  else
    let (c, compositeSize) ← initListContent elementSize length list compositeSize
    let res ← initPointer c.message c.segment c.byteOffset list
    setListPointer res.offsetWords elementSize length res.pointer compositeSize

end Pointer

end CapnpEs
