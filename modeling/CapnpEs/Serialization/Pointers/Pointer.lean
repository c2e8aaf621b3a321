import CapnpEs.Serialization.Message
import Mathlib.Logic.Function.Basic

/-! Pointers and the segment accessors they use: `pointer.ts` and `segment.ts`. -/

namespace CapnpEs

abbrev World := Nat → Message

abbrev WorldM := EStateM CapnpError World

def onMessage {α : Type} (message : Nat) (run : MessageM α) : WorldM α := fun w =>
  match run (w message) with
  | .ok a m => .ok a (Function.update w message m)
  | .error e m => .error e (Function.update w message m)

inductive PointerType
  | STRUCT
  | LIST
  | FAR
  | OTHER
  deriving DecidableEq, Repr

namespace PointerType

def toBits : PointerType → BitVec 32
  | STRUCT => 0
  | LIST => 1
  | FAR => 2
  | OTHER => 3

def ofBits (bits : BitVec 32) : PointerType :=
  match bits.toNat % 4 with
  | 0 => STRUCT
  | 1 => LIST
  | 2 => FAR
  | _ => OTHER

end PointerType

inductive ListElementSize
  | VOID
  | BIT
  | BYTE
  | BYTE_2
  | BYTE_4
  | BYTE_8
  | POINTER
  | COMPOSITE
  deriving DecidableEq, Repr

namespace ListElementSize

def toBits : ListElementSize → BitVec 32
  | VOID => 0
  | BIT => 1
  | BYTE => 2
  | BYTE_2 => 3
  | BYTE_4 => 4
  | BYTE_8 => 5
  | POINTER => 6
  | COMPOSITE => 7

def ofBits (bits : BitVec 32) : ListElementSize :=
  match bits.toNat % 8 with
  | 0 => VOID
  | 1 => BIT
  | 2 => BYTE
  | 3 => BYTE_2
  | 4 => BYTE_4
  | 5 => BYTE_8
  | 6 => POINTER
  | _ => COMPOSITE

end ListElementSize

structure ObjectSize where
  dataByteLength : Nat
  pointerLength : Nat
  deriving DecidableEq, Repr

namespace ObjectSize

def getByteLength (o : ObjectSize) : Nat := o.dataByteLength + o.pointerLength * 8

def getDataWordLength (o : ObjectSize) : Nat := o.dataByteLength / 8

def getWordLength (o : ObjectSize) : Nat := o.dataByteLength / 8 + o.pointerLength

def padToWord (o : ObjectSize) : ObjectSize :=
  { o with dataByteLength := (CapnpEs.padToWord o.dataByteLength).toNat }

end ObjectSize

namespace Message

def getUint (width segment : Nat) (byteOffset : Int) : MessageM Nat := do
  let s ← Message.segment segment
  ofExcept (DataView.getUint width s.buffer byteOffset)

def setUint (width segment : Nat) (byteOffset value : Int) : MessageM Unit := do
  assertWritable
  let s ← Message.segment segment
  let buffer ← ofExcept (DataView.setUint width s.buffer byteOffset value)
  modify fun m => m.setSegment segment { s with buffer }

/-- The view `new Float64Array(buffer, byteOffset, wordLength)`, as bytes. -/
def wordsView (buffer : Bytes) (byteOffset : Int) (wordLength : Nat) : Except CapnpError Bytes :=
  if byteOffset % 8 ≠ 0 then .error .RangeError
  else uint8View buffer byteOffset (wordLength * 8)

/-- Overwrite the words from `byteOffset`. -/
def setWords (segment : Nat) (byteOffset : Int) (words : Bytes) : MessageM Unit := do
  assertWritable
  let s ← Message.segment segment
  let _ ← ofExcept (wordsView s.buffer byteOffset (words.length / 8))
  modify fun m =>
    m.setSegment segment
      { s with buffer := LittleEndian.overwrite s.buffer byteOffset.toNat words }

end Message

structure Pointer where
  message : Nat
  segment : Nat
  byteOffset : Int
  depthLimit : Int
  compositeIndex : Option Nat := none
  compositeList : Bool := false
  deriving DecidableEq, Repr

/-- The `Pointer` constructor. -/
def newPointer (message segment : Nat) (byteOffset : Int)
    (depthLimit : Int := DEFAULT_DEPTH_LIMIT) : WorldM Pointer := do
  onMessage message (Message.trackPointer segment byteOffset depthLimit)
  return { message, segment, byteOffset, depthLimit }

namespace Pointer

/-! The accessors of the pointer's segment. -/

def getUint8 (p : Pointer) (byteOffset : Int) : WorldM (BitVec 32) := do
  return BitVec.ofNat 32 (← onMessage p.message (Message.getUint 1 p.segment byteOffset))

def getUint16 (p : Pointer) (byteOffset : Int) : WorldM Nat :=
  onMessage p.message (Message.getUint 2 p.segment byteOffset)

def getUint32 (p : Pointer) (byteOffset : Int) : WorldM (BitVec 32) := do
  return BitVec.ofNat 32 (← onMessage p.message (Message.getUint 4 p.segment byteOffset))

def setUint16 (p : Pointer) (byteOffset : Int) (value : Nat) : WorldM Unit :=
  onMessage p.message (Message.setUint 2 p.segment byteOffset value)

def setUint32 (p : Pointer) (byteOffset : Int) (value : BitVec 32) : WorldM Unit :=
  onMessage p.message (Message.setUint 4 p.segment byteOffset value.toNat)

/-- The word is read as a double, and the double that has only its sign bit set equals zero too. -/
def isWordZero (p : Pointer) (byteOffset : Int) : WorldM Bool := do
  let word ← onMessage p.message (Message.getUint 8 p.segment byteOffset)
  return word == 0 || word == 2 ^ 63

def setWordZero (p : Pointer) (byteOffset : Int) : WorldM Unit :=
  onMessage p.message (Message.setUint 8 p.segment byteOffset 0)

def fillZeroWords (p : Pointer) (byteOffset : Int) (wordLength : Nat) : WorldM Unit :=
  onMessage p.message (Message.setWords p.segment byteOffset (List.replicate (wordLength * 8) 0))

/-- Copy words from the segment of `src` into the segment of `p`. -/
def copyWords (p : Pointer) (byteOffset : Int) (src : Pointer) (srcByteOffset : Int)
    (wordLength : Nat) : WorldM Unit := do
  onMessage p.message Message.assertWritable
  let s ← onMessage src.message (Message.segment src.segment)
  let words ← ofExcept (Message.wordsView s.buffer srcByteOffset wordLength)
  onMessage p.message (Message.setWords p.segment byteOffset words)

/-- Copy one word; the doubles that carry it keep its bits. -/
def copyWord (p : Pointer) (byteOffset : Int) (src : Pointer) (srcByteOffset : Int) :
    WorldM Unit := do
  onMessage p.message Message.assertWritable
  let word ← onMessage src.message (Message.getUint 8 src.segment srcByteOffset)
  onMessage p.message (Message.setUint 8 p.segment byteOffset word)

/-- `p.segment.allocate`. -/
def allocate (p : Pointer) (byteLength : Int) : WorldM Pointer := do
  let (segment, byteOffset) ← onMessage p.message (Message.allocate p.segment byteLength)
  return { message := p.message, segment, byteOffset, depthLimit := DEFAULT_DEPTH_LIMIT }

end Pointer

end CapnpEs
