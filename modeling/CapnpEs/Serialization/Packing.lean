import CapnpEs.Util

/-! The packing codec of `serialization/packing.ts`. -/

namespace CapnpEs

namespace PackedTag

def ZERO : UInt8 := 0x00
def SPAN : UInt8 := 0xff
/-- Any other tag; the state in which the next byte is an ordinary tag. -/
def NONZERO_NONSPAN : UInt8 := 0x77

end PackedTag

def getHammingWeight (x : Nat) : Nat :=
  let w := x - ((x >>> 1) &&& 0x55555555)
  let w := (w &&& 0x33333333) + ((w >>> 2) &&& 0x33333333)
  (((w + (w >>> 4)) &&& 0x0f0f0f0f) * 0x01010101) >>> 24

def getTagByte (a b c d e f g h : UInt8) : UInt8 :=
  (if a = 0 then 0 else 0b00000001) |||
  (if b = 0 then 0 else 0b00000010) |||
  (if c = 0 then 0 else 0b00000100) |||
  (if d = 0 then 0 else 0b00001000) |||
  (if e = 0 then 0 else 0b00010000) |||
  (if f = 0 then 0 else 0b00100000) |||
  (if g = 0 then 0 else 0b01000000) |||
  (if h = 0 then 0 else 0b10000000)

def getZeroByteCount (a b c d e f g h : UInt8) : Nat :=
  (if a = 0 then 1 else 0) + (if b = 0 then 1 else 0) + (if c = 0 then 1 else 0) +
  (if d = 0 then 1 else 0) + (if e = 0 then 1 else 0) + (if f = 0 then 1 else 0) +
  (if g = 0 then 1 else 0) + (if h = 0 then 1 else 0)

/-- The locals of `pack`'s loop. -/
structure PackState where
  dst : Bytes
  lastTag : UInt8
  spanWordCountOffset : Nat
  rangeWordCount : Nat
  deriving DecidableEq, Repr

def PackState.initial : PackState :=
  { dst := [], lastTag := PackedTag.NONZERO_NONSPAN, spanWordCountOffset := 0, rangeWordCount := 0 }

/-- The part of the loop body after the `switch`: the word is written behind its tag. -/
def writeWord (state : PackState) (a b c d e f g h : UInt8) : PackState :=
  let tag := getTagByte a b c d e f g h
  let dst := state.dst ++ [tag] ++ [a, b, c, d, e, f, g, h].filter (· != 0)
  if tag = PackedTag.SPAN then
    { state with dst := dst ++ [0], lastTag := tag, spanWordCountOffset := dst.length }
  else
    { state with dst, lastTag := tag }

/-- One iteration of `pack`'s loop. -/
def packWord (state : PackState) (a b c d e f g h : UInt8) : PackState :=
  let tag := getTagByte a b c d e f g h
  if state.lastTag = PackedTag.ZERO then
    if tag ≠ PackedTag.ZERO ∨ state.rangeWordCount ≥ 0xff then
      writeWord
        { state with
          dst := state.dst ++ [UInt8.ofNat state.rangeWordCount]
          rangeWordCount := 0 }
        a b c d e f g h
    else
      { state with rangeWordCount := state.rangeWordCount + 1 }
  else if state.lastTag = PackedTag.SPAN then
    if getZeroByteCount a b c d e f g h ≥ PACK_SPAN_THRESHOLD ∨ state.rangeWordCount ≥ 0xff then
      writeWord
        { state with
          dst := state.dst.set state.spanWordCountOffset (UInt8.ofNat state.rangeWordCount)
          rangeWordCount := 0 }
        a b c d e f g h
    else
      { state with
        dst := state.dst ++ [a, b, c, d, e, f, g, h]
        rangeWordCount := state.rangeWordCount + 1 }
  else
    writeWord state a b c d e f g h

/-- The loop over the source view. Every caller passes whole words, so no word is cut short. -/
def packWords (state : PackState) : Bytes → PackState
  | a :: b :: c :: d :: e :: f :: g :: h :: rest =>
      packWords (packWord state a b c d e f g h) rest
  | _ => state

def PackState.finish (state : PackState) : Bytes :=
  if state.lastTag = PackedTag.ZERO then
    state.dst ++ [UInt8.ofNat state.rangeWordCount]
  else if state.lastTag = PackedTag.SPAN then
    state.dst.set state.spanWordCountOffset (UInt8.ofNat state.rangeWordCount)
  else
    state.dst

/-- `pack(unpacked, byteOffset, byteLength)`. -/
def packView (unpacked : Bytes) (byteOffset byteLength : Int) : Except CapnpError Bytes := do
  if unpacked.length % 8 ≠ 0 then
    .error .MSG_PACK_NOT_WORD_ALIGNED
  else
    let src ← uint8View unpacked byteOffset byteLength
    .ok (packWords .initial src).finish

/-- `pack` with its default offset and length. -/
def pack (unpacked : Bytes) : Except CapnpError Bytes :=
  packView unpacked 0 unpacked.length

/-- The loop of `getUnpackedByteLength`, from the bytes not yet visited. -/
def countWords (lastTag : UInt8) : Bytes → Nat
  | [] => 0
  | tag :: rest =>
      if lastTag = PackedTag.ZERO then
        tag.toNat + countWords PackedTag.NONZERO_NONSPAN rest
      else if lastTag = PackedTag.SPAN then
        tag.toNat + countWords PackedTag.NONZERO_NONSPAN (rest.drop (tag.toNat * 8))
      else
        1 + countWords tag (rest.drop (getHammingWeight tag.toNat))
  termination_by packed => packed.length
  decreasing_by all_goals simp; try omega

def getUnpackedByteLength (packed : Bytes) : Nat :=
  countWords PackedTag.NONZERO_NONSPAN packed * 8

/-- The values of `i` in `for (let i = 1; i <= 0b1000_0000; i <<= 1)`. -/
def tagMasks : List UInt8 := [1, 2, 4, 8, 16, 32, 64, 128]

/-- The loop that copies the bytes a normal tag announces. A read past the source is `undefined`,
which a typed array stores as zero, and a store past `dst` is ignored. -/
def copyTagged (tag : UInt8) : List UInt8 → Bytes → Nat → Bytes → Bytes × Nat × Bytes
  | [], dst, dstByteOffset, src => (dst, dstByteOffset, src)
  | i :: masks, dst, dstByteOffset, src =>
      if tag &&& i ≠ 0 then
        copyTagged tag masks (dst.set dstByteOffset (src.headD 0)) (dstByteOffset + 1) src.tail
      else
        copyTagged tag masks dst (dstByteOffset + 1) src

theorem copyTagged_length (tag : UInt8) (masks : List UInt8) (dst : Bytes) (offset : Nat)
    (src : Bytes) : (copyTagged tag masks dst offset src).2.2.length ≤ src.length := by
  induction masks generalizing dst offset src with
  | nil => simp [copyTagged]
  | cons mask masks ih =>
      rw [copyTagged]
      split
      · exact (ih _ _ _).trans (by simp)
      · exact ih _ _ _

/-- The loop of `unpack`, from the source bytes not yet read. -/
def unpackFrom (lastTag : UInt8) (dst : Bytes) (dstByteOffset : Nat) :
    Bytes → Except CapnpError Bytes
  | [] => .ok dst
  | tag :: rest =>
      if lastTag = PackedTag.ZERO then
        unpackFrom PackedTag.NONZERO_NONSPAN dst (dstByteOffset + tag.toNat * 8) rest
      else if lastTag = PackedTag.SPAN then
        match setBytes dst (rest.take (tag.toNat * 8)) dstByteOffset with
        | .error reason => .error reason
        | .ok dst =>
            unpackFrom PackedTag.NONZERO_NONSPAN dst (dstByteOffset + tag.toNat * 8)
              (rest.drop (tag.toNat * 8))
      else
        let copied := copyTagged tag tagMasks dst dstByteOffset rest
        unpackFrom tag copied.1 copied.2.1 copied.2.2
  termination_by packed => packed.length
  decreasing_by
    · simp
    · rw [List.length_drop, List.length_cons]
      omega
    · exact Nat.lt_succ_of_le (copyTagged_length tag tagMasks dst dstByteOffset rest)

def unpack (packed : Bytes) : Except CapnpError Bytes :=
  unpackFrom PackedTag.NONZERO_NONSPAN (List.replicate (getUnpackedByteLength packed) 0) 0 packed

end CapnpEs
