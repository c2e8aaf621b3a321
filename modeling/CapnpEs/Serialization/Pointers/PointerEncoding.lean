import CapnpEs.Serialization.Pointers.Resolution

/-! What the setters write, and what the getters make of it. -/

namespace CapnpEs

open LittleEndian (memoryOf read store encode)

/-! The bits of a written pointer. -/

namespace PointerWord

/-- The low half of a struct or list pointer: `A | (B << 2)`. -/
def nearLo (type : PointerType) (offsetWords : Int) : BitVec 32 :=
  type.toBits ||| (BitVec.ofInt 32 offsetWords <<< 2)

/-- The low half of a far pointer: `A | (B << 2) | (C << 3)`. -/
def farLo (doubleFar : Bool) (offsetWords : Int) : BitVec 32 :=
  PointerType.FAR.toBits ||| ((if doubleFar then 1 else 0 : BitVec 32) <<< 2) |||
    (BitVec.ofInt 32 offsetWords <<< 3)

def structHi (size : ObjectSize) : BitVec 32 :=
  BitVec.ofNat 32
    (size.getDataWordLength % 2 ^ 16 + 2 ^ 16 * (size.pointerLength % 2 ^ 16))

def listHi (size : ListElementSize) (D : Int) : BitVec 32 :=
  size.toBits ||| (BitVec.ofInt 32 D <<< 3)

theorem or_shiftLeft_toNat {low value : BitVec 32} {shift : Nat} (small : low.toNat < 2 ^ shift)
    (bound : shift ≤ 32) :
    (low ||| value <<< shift).toNat = low.toNat + 2 ^ shift * (value.toNat % 2 ^ (32 - shift)) := by
  have shifted : (value <<< shift).toNat = 2 ^ shift * (value.toNat % 2 ^ (32 - shift)) := by
    rw [BitVec.toNat_shiftLeft, Nat.shiftLeft_eq, Nat.mul_comm value.toNat,
      ← Nat.mul_mod_mul_left, ← Nat.pow_add, Nat.add_sub_cancel' bound]
  rw [BitVec.toNat_or, shifted, Nat.or_comm, Nat.add_comm low.toNat,
    Nat.two_pow_add_eq_or_of_lt small]

theorem nearLo_toNat (type : PointerType) (offsetWords : Int) :
    (nearLo type offsetWords).toNat =
      type.toBits.toNat + 4 * (offsetWords % 2 ^ 30).toNat := by
  have low : type.toBits.toNat < 2 ^ 2 := by cases type <;> decide
  rw [nearLo, or_shiftLeft_toNat low (by omega), BitVec.toNat_ofInt]
  congr 2
  omega

theorem farLo_toNat (doubleFar : Bool) (offsetWords : Int) :
    (farLo doubleFar offsetWords).toNat =
      2 + (if doubleFar then 4 else 0) + 8 * (offsetWords % 2 ^ 29).toNat := by
  have low : (PointerType.FAR.toBits ||| ((if doubleFar then 1 else 0 : BitVec 32) <<< 2)).toNat =
      2 + (if doubleFar then 4 else 0) := by
    cases doubleFar <;> decide
  rw [farLo, or_shiftLeft_toNat (by rw [low]; split <;> omega) (by omega), low, BitVec.toNat_ofInt]
  congr 2
  omega

theorem listHi_toNat (size : ListElementSize) (D : Int) :
    (listHi size D).toNat = size.toBits.toNat + 8 * (D % 2 ^ 29).toNat := by
  have low : size.toBits.toNat < 2 ^ 3 := by cases size <;> decide
  rw [listHi, or_shiftLeft_toNat low (by omega), BitVec.toNat_ofInt]
  congr 2
  omega

theorem ofBits_nearLo (type : PointerType) (offsetWords : Int) :
    PointerType.ofBits (nearLo type offsetWords) = type := by
  rw [PointerType.ofBits, nearLo_toNat]
  cases type <;> simp [PointerType.toBits, Nat.add_mod]

theorem ofBits_farLo (doubleFar : Bool) (offsetWords : Int) :
    PointerType.ofBits (farLo doubleFar offsetWords) = .FAR := by
  have low : (farLo doubleFar offsetWords).toNat % 4 = 2 := by
    rw [farLo_toNat]
    cases doubleFar <;> simp <;> omega
  simp only [PointerType.ofBits, low]

theorem and_twoPow_ne_zero (value : BitVec 32) {k : Nat} (nonzero : BitVec.twoPow 32 k ≠ 0) :
    value &&& BitVec.twoPow 32 k ≠ 0 ↔ value.toNat / 2 ^ k % 2 = 1 := by
  rw [BitVec.and_twoPow, ← BitVec.testBit_toNat, Nat.testBit_eq_decide_div_mod_eq]
  by_cases set : value.toNat / 2 ^ k % 2 = 1
  · simpa [set] using nonzero
  · simp [set]

theorem and_two_ne_zero (value : BitVec 32) : value &&& 2 ≠ 0 ↔ value.toNat / 2 % 2 = 1 :=
  and_twoPow_ne_zero value (k := 1) (by decide)

theorem and_four_ne_zero (value : BitVec 32) : value &&& 4 ≠ 0 ↔ value.toNat / 4 % 2 = 1 :=
  and_twoPow_ne_zero value (k := 2) (by decide)

theorem offsetWords_nearLo {type : PointerType} (near : type = .STRUCT ∨ type = .LIST)
    (offsetWords : Int) :
    PointerWord.offsetWords (nearLo type offsetWords) = offsetWords.bmod (2 ^ 30) := by
  have value := nearLo_toNat type offsetWords
  have low : type.toBits.toNat < 2 := by
    rcases near with rfl | rfl <;> decide
  have clear : ¬ nearLo type offsetWords &&& 2 ≠ 0 := by
    rw [and_two_ne_zero]
    omega
  rw [PointerWord.offsetWords, if_neg clear, BitVec.toInt_sshiftRight, BitVec.toInt_eq_toNat_cond,
    Int.shiftRight_eq_div_pow, Int.bmod]
  split <;> split <;> omega

/-- Far offsets have 29 bits, and `getOffsetWords` takes the highest one for a sign. -/
theorem offsetWords_farLo (doubleFar : Bool) (offsetWords : Int) :
    PointerWord.offsetWords (farLo doubleFar offsetWords) = offsetWords.bmod (2 ^ 29) := by
  have value := farLo_toNat doubleFar offsetWords
  have set : farLo doubleFar offsetWords &&& 2 ≠ 0 := by
    rw [and_two_ne_zero]
    split at value <;> omega
  rw [PointerWord.offsetWords, if_pos set, BitVec.toInt_sshiftRight, BitVec.toInt_eq_toNat_cond,
    Int.shiftRight_eq_div_pow, Int.bmod]
  split at value <;> split <;> split <;> omega

theorem isDoubleFar_nearLo {type : PointerType} (near : type ≠ .FAR) (offsetWords : Int) :
    PointerWord.isDoubleFar (nearLo type offsetWords) = false := by
  simp [PointerWord.isDoubleFar, ofBits_nearLo, near]

theorem isDoubleFar_farLo (doubleFar : Bool) (offsetWords : Int) :
    PointerWord.isDoubleFar (farLo doubleFar offsetWords) = doubleFar := by
  have value := farLo_toNat doubleFar offsetWords
  have bit : farLo doubleFar offsetWords &&& 4 ≠ 0 ↔ doubleFar = true := by
    rw [and_four_ne_zero]
    cases doubleFar <;> simp at value ⊢ <;> omega
  rw [PointerWord.isDoubleFar, ofBits_farLo]
  simp only [decide_true, Bool.true_and, bit, Bool.decide_eq_true]

theorem farLo_shiftRight (doubleFar : Bool) (offsetWords : Int) :
    ((farLo doubleFar offsetWords >>> 3).toNat : Int) = offsetWords % 2 ^ 29 := by
  have value := farLo_toNat doubleFar offsetWords
  rw [BitVec.toNat_ushiftRight, Nat.shiftRight_eq_div_pow]
  split at value <;> omega

theorem structSize_structHi {size : ObjectSize} (aligned : size.dataByteLength % 8 = 0)
    (data : size.dataByteLength < 2 ^ 16 * 8) (pointers : size.pointerLength < 2 ^ 16) :
    structSize (structHi size) = size := by
  obtain ⟨dataByteLength, pointerLength⟩ := size
  simp only [structSize, structHi, BitVec.toNat_ofNat, ObjectSize.getDataWordLength]
    at aligned data pointers ⊢
  congr 1 <;> omega

theorem ofBits_listHi (size : ListElementSize) (D : Int) :
    ListElementSize.ofBits (listHi size D) = size := by
  rw [ListElementSize.ofBits, listHi_toNat]
  cases size <;> simp [ListElementSize.toBits, Nat.add_mod]

theorem listHi_shiftRight (size : ListElementSize) (D : Int) :
    ((listHi size D >>> 3).toNat : Int) = D % 2 ^ 29 := by
  have value := listHi_toNat size D
  have low : size.toBits.toNat < 8 := by cases size <;> decide
  rw [BitVec.toNat_ushiftRight, Nat.shiftRight_eq_div_pow]
  omega

end PointerWord

/-! The effect of a write. -/

namespace World

/-- `w` with `bytes` written over a segment of one message. -/
def patch (w : World) (message segment offset : Nat) (bytes : Bytes) : World :=
  Function.update w message ((w message).patch segment offset bytes)

/-- `w` with a pointer's word set to two halves. -/
def putPointer (w : World) (p : Pointer) (lo hi : BitVec 32) : World :=
  w.patch p.message p.segment p.byteOffset.toNat (encode 4 lo.toNat ++ encode 4 hi.toNat)

variable (w : World) (message segment offset : Nat) (bytes : Bytes) (other segment' : Nat)

@[simp] theorem patch_readonly :
    (w.patch message segment offset bytes other).readonly = (w other).readonly := by
  by_cases same : other = message
  · subst same
    simp [patch]
  · simp [patch, same]

@[simp] theorem patch_capTable :
    (w.patch message segment offset bytes other).capTable = (w other).capTable := by
  by_cases same : other = message
  · subst same
    simp [patch]
  · simp [patch, same]

@[simp] theorem patch_traversalLimit :
    (w.patch message segment offset bytes other).traversalLimit = (w other).traversalLimit := by
  by_cases same : other = message
  · subst same
    simp [patch]
  · simp [patch, same]

@[simp] theorem patch_length :
    (w.patch message segment offset bytes other).segments.length = (w other).segments.length := by
  by_cases same : other = message
  · subst same
    simp [patch]
  · simp [patch, same]

@[simp] theorem patch_allocated :
    (w.patch message segment offset bytes other).allocated segment' =
      (w other).allocated segment' := by
  by_cases same : other = message
  · subst same
    simp [patch]
  · simp [patch, same]

@[simp] theorem patch_capacity :
    (w.patch message segment offset bytes other).capacity segment' =
      (w other).capacity segment' := by
  by_cases same : other = message
  · subst same
    simp [patch]
  · simp [patch, same]

theorem patch_memory (inside : offset + bytes.length ≤ (w message).capacity segment) :
    (w.patch message segment offset bytes other).memory segment' =
      if other = message ∧ segment' = segment then
        store ((w message).memory segment) offset bytes
      else (w other).memory segment' := by
  by_cases same : other = message
  · subst same
    simp only [patch, Function.update_self, true_and]
    exact Message.patch_memory _ _ _ inside segment'
  · simp [patch, same]

theorem patch_append (first second : Bytes)
    (inside : offset + first.length + second.length ≤ (w message).capacity segment) :
    (w.patch message segment offset first).patch message segment (offset + first.length) second =
      w.patch message segment offset (first ++ second) := by
  simp only [patch, Function.update_self, Function.update_idem,
    Message.patch_append _ _ first second inside]

end World

theorem Message.WellFormed.patchWorld {w : World} {other : Nat} (wf : (w other).WellFormed)
    (message segment offset : Nat) (bytes : Bytes) :
    (w.patch message segment offset bytes other).WellFormed := by
  by_cases same : other = message
  · subst same
    simp only [World.patch, Function.update_self]
    exact wf.patch _ _ _
  · simpa [World.patch, same] using wf

theorem Message.WellFormed.putPointer {w : World} {other : Nat} (wf : (w other).WellFormed)
    (p : Pointer) (lo hi : BitVec 32) : (w.putPointer p lo hi other).WellFormed :=
  wf.patchWorld _ _ _ _

namespace World

variable (w : World) (p : Pointer) (lo hi : BitVec 32) (other segment : Nat)

@[simp] theorem putPointer_readonly :
    (w.putPointer p lo hi other).readonly = (w other).readonly :=
  patch_readonly _ _ _ _ _ _

@[simp] theorem putPointer_capTable :
    (w.putPointer p lo hi other).capTable = (w other).capTable :=
  patch_capTable _ _ _ _ _ _

@[simp] theorem putPointer_traversalLimit :
    (w.putPointer p lo hi other).traversalLimit = (w other).traversalLimit :=
  patch_traversalLimit _ _ _ _ _ _

@[simp] theorem putPointer_length :
    (w.putPointer p lo hi other).segments.length = (w other).segments.length :=
  patch_length _ _ _ _ _ _

@[simp] theorem putPointer_allocated :
    (w.putPointer p lo hi other).allocated segment = (w other).allocated segment :=
  patch_allocated _ _ _ _ _ _ _

end World

namespace Pointer

variable {w : World} {p : Pointer}

theorem setUint_patch {width : Nat} {byteOffset : Int} (value : Nat)
    (writable : (w p.message).readonly = false) (lower : 0 ≤ byteOffset) (positive : 0 < width)
    (inside : byteOffset + width ≤ (w p.message).capacity p.segment) :
    onMessage p.message (Message.setUint width p.segment byteOffset value) w =
      .ok () (w.patch p.message p.segment byteOffset.toNat (encode width value)) := by
  have run := onMessage_ok (Message.setUint_run (v := value) writable lower positive inside)
  have cut : ((value : Int) % 256 ^ width).toNat = value % 256 ^ width := by
    rw [← Int.toNat_natCast (value % 256 ^ width)]
    push_cast
    rfl
  rwa [cut, LittleEndian.encode_mod] at run

section set

variable (wf : (w p.message).WellFormed) (writable : (w p.message).readonly = false)
  (inBounds : p.InBounds w)
include wf writable inBounds

theorem setUint32_twice (lo hi : BitVec 32) :
    (do
      p.setUint32 p.byteOffset lo
      p.setUint32 (p.byteOffset + 4) hi) w = .ok () (w.putPointer p lo hi) := by
  have room := wf.allocated_le p.segment
  obtain ⟨lower, upper⟩ := inBounds
  have low := lo.isLt
  have high := hi.isLt
  rw [Outcome.bind_apply, setUint32, setUint_patch _ writable lower (by omega) (by omega)]
  simp only
  rw [setUint32, setUint_patch _ (by simpa using writable) (by omega) (by omega)
    (by simp only [World.patch_capacity]; omega)]
  rw [show (p.byteOffset + 4).toNat = p.byteOffset.toNat + (encode 4 lo.toNat).length by
    rw [LittleEndian.encode_length]; omega, World.patch_append _ _ _ _ _ _
      (by simp only [LittleEndian.encode_length]; omega)]
  rfl

theorem setFarPointer_run (doubleFar : Bool) (offsetWords : Int) (segmentId : Nat) :
    setFarPointer doubleFar offsetWords segmentId p w =
      .ok () (w.putPointer p (PointerWord.farLo doubleFar offsetWords)
        (BitVec.ofNat 32 segmentId)) :=
  setUint32_twice wf writable inBounds _ _

/-- The number that `setListPointer` writes for a list: its length, or its words. -/
def listD (size : ListElementSize) (length : Int) (compositeSize : Option ObjectSize) : Int :=
  if size = .COMPOSITE then length * ((compositeSize.map ObjectSize.getWordLength).getD 0)
  else length

theorem setListPointer_run (offsetWords : Int) (size : ListElementSize) (length : Int)
    (compositeSize : Option ObjectSize) (sized : size = .COMPOSITE → compositeSize ≠ none) :
    setListPointer offsetWords size length p compositeSize w =
      .ok () (w.putPointer p (PointerWord.nearLo .LIST offsetWords)
        (PointerWord.listHi size (listD size length compositeSize))) := by
  have run := setUint32_twice wf writable inBounds (PointerWord.nearLo .LIST offsetWords)
    (PointerWord.listHi size (listD size length compositeSize))
  rw [← run]
  by_cases composite : size = .COMPOSITE
  · obtain ⟨compositeSize, rfl⟩ := Option.ne_none_iff_exists'.mp (sized composite)
    simp only [setListPointer, if_pos composite, listD]
    rfl
  · simp only [setListPointer, if_neg composite, listD]
    rfl

theorem setStructPointer_run (offsetWords : Int) (size : ObjectSize) :
    setStructPointer offsetWords size p w =
      .ok () (w.putPointer p (PointerWord.nearLo .STRUCT offsetWords)
        (PointerWord.structHi size)) := by
  have room := wf.allocated_le p.segment
  obtain ⟨lower, upper⟩ := inBounds
  have halves : encode 4 (PointerWord.structHi size).toNat =
      encode 2 size.getDataWordLength ++ encode 2 size.pointerLength := by
    have low : (PointerWord.structHi size).toNat % 256 ^ 2 =
        size.getDataWordLength % 256 ^ 2 := by
      simp only [PointerWord.structHi, BitVec.toNat_ofNat]
      omega
    have high : (PointerWord.structHi size).toNat / 256 ^ 2 = size.pointerLength % 256 ^ 2 := by
      simp only [PointerWord.structHi, BitVec.toNat_ofNat]
      omega
    rw [show 4 = 2 + 2 from rfl, LittleEndian.encode_add, high, LittleEndian.encode_mod,
      ← LittleEndian.encode_mod 2 (PointerWord.structHi size).toNat, low, LittleEndian.encode_mod]
  have second : (p.byteOffset + 4).toNat = p.byteOffset.toNat +
      (encode 4 (PointerWord.nearLo .STRUCT offsetWords).toNat).length := by
    rw [LittleEndian.encode_length]
    omega
  have third : (p.byteOffset + 6).toNat = p.byteOffset.toNat +
      (encode 4 (PointerWord.nearLo .STRUCT offsetWords).toNat ++
        encode 2 size.getDataWordLength).length := by
    rw [List.length_append, LittleEndian.encode_length, LittleEndian.encode_length]
    omega
  have low : PointerType.STRUCT.toBits ||| BitVec.ofInt 32 offsetWords <<< 2 =
      PointerWord.nearLo .STRUCT offsetWords := rfl
  rw [setStructPointer, low, Outcome.bind_apply, setUint32,
    setUint_patch _ writable lower (by omega) (by omega)]
  simp only
  rw [Outcome.bind_apply, setUint16, setUint_patch _ (by simpa using writable) (by omega)
    (by omega) (by simp only [World.patch_capacity]; omega)]
  simp only
  rw [setUint16, setUint_patch _ (by simpa using writable) (by omega) (by omega)
    (by simp only [World.patch_capacity]; omega), World.putPointer, halves, ← List.append_assoc,
    second, World.patch_append _ _ _ _ _ _ (by simp only [LittleEndian.encode_length]; omega),
    third, World.patch_append _ _ _ _ _ _
      (by simp only [List.length_append, LittleEndian.encode_length]; omega)]

end set

def Apart (p q : Pointer) : Prop :=
  p.message ≠ q.message ∨ p.segment ≠ q.segment ∨
    p.byteOffset + 8 ≤ q.byteOffset ∨ q.byteOffset + 8 ≤ p.byteOffset

structure SameSlot (p q : Pointer) : Prop where
  message : p.message = q.message
  segment : p.segment = q.segment
  byteOffset : p.byteOffset = q.byteOffset

section putPointer

variable {q : Pointer} {lo hi : BitVec 32}

theorem putPointer_memory (wf : (w p.message).WellFormed) (inBounds : p.InBounds w)
    (message segment : Nat) :
    (w.putPointer p lo hi message).memory segment =
      if message = p.message ∧ segment = p.segment then
        store (store ((w p.message).memory p.segment) p.byteOffset.toNat (encode 4 lo.toNat))
          (p.byteOffset.toNat + 4) (encode 4 hi.toNat)
      else (w message).memory segment := by
  have room := wf.allocated_le p.segment
  have upper := inBounds.upper
  have lower := inBounds.lower
  rw [World.putPointer, World.patch_memory _ _ _ _ _ _ _
    (by simp only [List.length_append, LittleEndian.encode_length]; omega),
    ← LittleEndian.store_append, LittleEndian.encode_length]

theorem lo_putPointer (wf : (w p.message).WellFormed) (inBounds : p.InBounds w)
    (same : q.SameSlot p) : q.lo (w.putPointer p lo hi) = lo := by
  rw [Pointer.lo, putPointer_memory wf inBounds, if_pos ⟨same.message, same.segment⟩,
    same.byteOffset, LittleEndian.read_store_disjoint _ _ _ _ _ (Or.inl (Nat.le_refl _)),
    LittleEndian.read_store_same,
    Nat.mod_eq_of_lt (show lo.toNat < 256 ^ 4 from lo.isLt)]
  exact BitVec.ofNat_toNat 32 lo |>.trans (BitVec.setWidth_eq lo)

theorem hi_putPointer (wf : (w p.message).WellFormed) (inBounds : p.InBounds w)
    (same : q.SameSlot p) : q.hi (w.putPointer p lo hi) = hi := by
  rw [Pointer.hi, putPointer_memory wf inBounds, if_pos ⟨same.message, same.segment⟩,
    same.byteOffset, LittleEndian.read_store_same,
    Nat.mod_eq_of_lt (show hi.toNat < 256 ^ 4 from hi.isLt)]
  exact BitVec.ofNat_toNat 32 hi |>.trans (BitVec.setWidth_eq hi)

theorem read_putPointer (wf : (w p.message).WellFormed) (inBounds : p.InBounds w)
    {message segment offset width : Nat}
    (apart : message ≠ p.message ∨ segment ≠ p.segment ∨
      offset + width ≤ p.byteOffset.toNat ∨ p.byteOffset.toNat + 8 ≤ offset) :
    read ((w.putPointer p lo hi message).memory segment) offset width =
      read ((w message).memory segment) offset width := by
  rw [putPointer_memory wf inBounds]
  by_cases here : message = p.message ∧ segment = p.segment
  · obtain ⟨rfl, rfl⟩ := here
    rw [if_pos ⟨rfl, rfl⟩]
    have offsets : offset + width ≤ p.byteOffset.toNat ∨ p.byteOffset.toNat + 8 ≤ offset := by
      simpa using apart
    rw [LittleEndian.read_store_disjoint _ _ _ _ _
        (by rw [LittleEndian.encode_length]; omega),
      LittleEndian.read_store_disjoint _ _ _ _ _ (by rw [LittleEndian.encode_length]; omega)]
  · rw [if_neg here]

theorem lo_putPointer_apart (wf : (w p.message).WellFormed) (inBounds : p.InBounds w)
    (lower : 0 ≤ q.byteOffset) (apart : q.Apart p) : q.lo (w.putPointer p lo hi) = q.lo w := by
  have nonneg := inBounds.lower
  rw [Pointer.lo, Pointer.lo, read_putPointer wf inBounds]
  rcases apart with message | segment | offsets
  · exact Or.inl message
  · exact Or.inr (Or.inl segment)
  · exact Or.inr (Or.inr (by omega))

theorem hi_putPointer_apart (wf : (w p.message).WellFormed) (inBounds : p.InBounds w)
    (lower : 0 ≤ q.byteOffset) (apart : q.Apart p) : q.hi (w.putPointer p lo hi) = q.hi w := by
  have nonneg := inBounds.lower
  rw [Pointer.hi, Pointer.hi, read_putPointer wf inBounds]
  rcases apart with message | segment | offsets
  · exact Or.inl message
  · exact Or.inr (Or.inl segment)
  · exact Or.inr (Or.inr (by omega))

theorem InBounds.putPointer (inBounds : q.InBounds w) : q.InBounds (w.putPointer p lo hi) :=
  ⟨inBounds.lower, by simpa using inBounds.upper⟩

end putPointer

end Pointer

/-! Allocation, and `initPointer` in its three encodings. -/

/-- `w` after an allocation in one message. -/
structure World.Allocated (w w' : World) (message id : Nat) (byteLength : Int) : Prop where
  here : (w message).Allocated (w' message) id byteLength
  others : ∀ other, other ≠ message → w' other = w other

theorem allocate_world {w : World} {message segment : Nat} {n : Int}
    (wf : (w message).WellFormed) (writable : (w message).readonly = false)
    (budget : 8 < (w message).traversalLimit) (positive : 0 ≤ n)
    (aligned : n % 8 = 0) (small : n < 2 ^ 31)
    (bound : segment < (w message).segments.length) :
    ∃ w', onMessage message (Message.allocate segment n) w =
        .ok ((w message).place segment n,
          (w message).allocated ((w message).place segment n)) w' ∧
      w.Allocated w' message ((w message).place segment n) n := by
  obtain ⟨after, run, allocated⟩ :=
    Message.allocate_run wf writable budget positive aligned small bound
  refine ⟨Function.update w message after, onMessage_ok run, ?_, ?_⟩
  · rw [Function.update_self]
    exact allocated
  · intro other different
    exact Function.update_of_ne different _ _

namespace Pointer

variable {w w' : World} {p q : Pointer} {message id : Nat} {byteLength : Int}

theorem memory_allocated (allocated : w.Allocated w' message id byteLength)
    (other segment : Nat) : (w' other).memory segment = (w other).memory segment := by
  by_cases same : other = message
  · subst same
    exact allocated.here.memory segment
  · rw [allocated.others other same]

theorem lo_allocated (allocated : w.Allocated w' message id byteLength) : q.lo w' = q.lo w := by
  rw [Pointer.lo, memory_allocated allocated]
  rfl

theorem hi_allocated (allocated : w.Allocated w' message id byteLength) : q.hi w' = q.hi w := by
  rw [Pointer.hi, memory_allocated allocated]
  rfl

theorem InBounds.allocated (inBounds : q.InBounds w) (positive : 0 ≤ byteLength)
    (allocated : w.Allocated w' message id byteLength) : q.InBounds w' := by
  obtain ⟨lower, upper⟩ := inBounds
  refine ⟨lower, ?_⟩
  by_cases same : q.message = message
  · rw [same, allocated.here.allocated]
    rw [same] at upper
    split <;> omega
  · rw [allocated.others _ same]
    exact upper

/-- A pointer that `allocate` returns. -/
def fresh (message segment : Nat) (byteOffset : Int) : Pointer :=
  { message, segment, byteOffset, depthLimit := DEFAULT_DEPTH_LIMIT }

theorem fresh_inBounds (wf : (w message).WellFormed)
    (allocated : w.Allocated w' message id byteLength) {byteOffset : Int}
    (lower : (w message).allocated id ≤ byteOffset)
    (upper : byteOffset + 8 ≤ (w message).allocated id + byteLength) :
    (fresh message id byteOffset).InBounds w' := by
  have nonneg := wf.allocated_nonneg id
  have grown := allocated.here.allocated id
  rw [if_pos rfl] at grown
  constructor
  · simp only [fresh]
    omega
  · simp only [fresh]
    omega

theorem InBounds.apart_fresh (inBounds : q.InBounds w) {segment : Nat} {byteOffset : Int}
    (behind : (w message).allocated segment ≤ byteOffset) :
    q.Apart (fresh message segment byteOffset) := by
  by_cases same : q.message = message ∧ q.segment = segment
  · obtain ⟨rfl, rfl⟩ := same
    have upper := inBounds.upper
    exact Or.inr (Or.inr (Or.inl (by simp only [fresh]; omega)))
  · rw [not_and_or] at same
    rcases same with message | segment
    · exact Or.inl message
    · exact Or.inr (Or.inl segment)

variable (byteLength) in
theorem allocate_run (wf : (w p.message).WellFormed) (writable : (w p.message).readonly = false)
    (budget : 8 < (w p.message).traversalLimit) (positive : 0 ≤ byteLength)
    (aligned : byteLength % 8 = 0) (small : byteLength < 2 ^ 31)
    (bound : p.segment < (w p.message).segments.length) :
    ∃ w', p.allocate byteLength w =
        .ok (fresh p.message ((w p.message).place p.segment byteLength)
          ((w p.message).allocated ((w p.message).place p.segment byteLength))) w' ∧
      w.Allocated w' p.message ((w p.message).place p.segment byteLength) byteLength := by
  obtain ⟨w', run, allocated⟩ := allocate_world wf writable budget positive aligned small bound
  refine ⟨w', ?_, allocated⟩
  rw [Pointer.allocate, Outcome.bind_apply, run]
  rfl

section initPointer

variable {contentSegment : Nat} {contentOffset : Int}

theorem initPointer_near (same : p.segment = contentSegment) :
    initPointer p.message contentSegment contentOffset p w =
      .ok ⟨p, (contentOffset - p.byteOffset - 8).tdiv 8⟩ w := by
  rw [initPointer, if_neg (by simp [same])]
  rfl

variable (wf : (w p.message).WellFormed) (writable : (w p.message).readonly = false)
  (budget : 8 < (w p.message).traversalLimit) (inBounds : p.InBounds w)
  (content : contentSegment < (w p.message).segments.length) (apart : p.segment ≠ contentSegment)
include wf writable budget inBounds content apart

variable (contentOffset) in
theorem initPointer_far
    (room : (w p.message).allocated contentSegment + 8 ≤ (w p.message).capacity contentSegment) :
    let offset := (w p.message).allocated contentSegment
    let pad := fresh p.message contentSegment offset
    ∃ w', w.Allocated w' p.message contentSegment 8 ∧
      initPointer p.message contentSegment contentOffset p w =
        .ok ⟨pad, (contentOffset - offset - 8).tdiv 8⟩
          (w'.putPointer p (PointerWord.farLo false (offset.tdiv 8))
            (BitVec.ofNat 32 contentSegment)) := by
  intro offset pad
  obtain ⟨s, found⟩ := Message.segment_of_lt content
  have capacity : s.hasCapacity 8 = true := by
    simp only [Message.allocated, Message.capacity, found] at room
    simp only [Segment.hasCapacity, decide_eq_true_eq]
    omega
  have place : (w p.message).place contentSegment 8 = contentSegment := by
    rw [Message.place, if_pos room]
  obtain ⟨w', run, allocated⟩ := allocate_world (n := 8) wf writable budget (by decide)
    (by decide) (by decide) content
  rw [place] at run allocated
  refine ⟨w', allocated, ?_⟩
  rw [initPointer, if_pos (Or.inr apart), Outcome.bind_apply,
    onMessage_reads (Message.segment_run found)]
  simp only [capacity, Bool.not_true, Bool.false_eq_true, if_false]
  rw [Outcome.bind_apply, run]
  simp only
  rw [if_neg (by simp), Outcome.bind_apply, setFarPointer_run allocated.here.wellFormed
    (by rw [allocated.here.readonly]; exact writable) (inBounds.allocated (by decide) allocated)]
  rfl

variable (contentOffset) in
theorem initPointer_doubleFar
    (full : ¬ (w p.message).allocated contentSegment + 8 ≤ (w p.message).capacity contentSegment) :
    let id := (w p.message).place p.segment 16
    let offset := (w p.message).allocated id
    let pad := fresh p.message id offset
    ∃ w', w.Allocated w' p.message id 16 ∧
      initPointer p.message contentSegment contentOffset p w =
        .ok ⟨fresh p.message id (offset + 8), 0⟩
          ((w'.putPointer p (PointerWord.farLo true (offset.tdiv 8)) (BitVec.ofNat 32 id)).putPointer
            pad (PointerWord.farLo false (contentOffset.tdiv 8))
              (BitVec.ofNat 32 contentSegment)) := by
  intro id offset pad
  obtain ⟨s, found⟩ := Message.segment_of_lt content
  have capacity : s.hasCapacity 8 = false := by
    simp only [Message.allocated, Message.capacity, found] at full
    simp only [Segment.hasCapacity, decide_eq_false_iff_not]
    omega
  have upper := inBounds.upper
  have lower := inBounds.lower
  obtain ⟨w', run, allocated⟩ := allocate_run 16 wf writable budget (by decide)
    (by decide) (by decide) (Message.lt_of_allocated (by omega))
  refine ⟨w', allocated, ?_⟩
  have wf' := allocated.here.wellFormed
  have writable' : (w' p.message).readonly = false := by
    rw [allocated.here.readonly]
    exact writable
  have padIn : pad.InBounds w' := by
    refine ⟨wf.allocated_nonneg id, ?_⟩
    have after := allocated.here.allocated id
    rw [if_pos rfl] at after
    change offset + 8 ≤ (w' p.message).allocated id
    rw [after]
    omega
  rw [initPointer, if_pos (Or.inr apart), Outcome.bind_apply,
    onMessage_reads (Message.segment_run found)]
  simp only [capacity, Bool.not_false, if_true]
  rw [Outcome.bind_apply, run]
  simp only
  rw [Outcome.bind_apply, setFarPointer_run wf' writable' (inBounds.allocated (by decide) allocated)]
  simp only
  rw [Outcome.bind_apply, setFarPointer_run]
  · rfl
  · exact wf'.putPointer _ _ _
  · change (w'.putPointer p _ _ p.message).readonly = false
    simpa using writable'
  · exact padIn.putPointer

end initPointer

end Pointer

end CapnpEs
