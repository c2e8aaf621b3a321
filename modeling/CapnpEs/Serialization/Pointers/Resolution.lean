import CapnpEs.Serialization.Pointers.Memory

/-!
Where a pointer leads. `target` and `content` say which words `followFars` and `getContent` find;
they only look at memory, while the programs also charge the message for each pointer they make.
-/

namespace CapnpEs

open LittleEndian (memoryOf read store encode)

/-! Programs that change nothing but the traversal limit of one message. -/

namespace World

variable (w : World) (message : Nat)

/-- `w` after `count` pointers into `message` were made. -/
def spend (count : Nat) : World :=
  Function.update w message
    { w message with traversalLimit := (w message).traversalLimit - 8 * count }

theorem spend_zero : w.spend message 0 = w := by
  rw [spend, show (8 : Int) * (0 : Nat) = 0 from rfl, Int.sub_zero]
  exact Function.update_eq_self message w

theorem spend_spend (first second : Nat) :
    (w.spend message first).spend message second = w.spend message (first + second) := by
  simp only [spend, Function.update_self, Function.update_idem]
  congr 2
  omega

variable (count other segment : Nat)

@[simp] theorem spend_segments :
    (w.spend message count other).segments = (w other).segments := by
  by_cases same : other = message
  · subst same
    simp [spend]
  · simp [spend, same]

@[simp] theorem spend_readonly :
    (w.spend message count other).readonly = (w other).readonly := by
  by_cases same : other = message
  · subst same
    simp [spend]
  · simp [spend, same]

@[simp] theorem spend_capTable :
    (w.spend message count other).capTable = (w other).capTable := by
  by_cases same : other = message
  · subst same
    simp [spend]
  · simp [spend, same]

@[simp] theorem spend_memory :
    (w.spend message count other).memory segment = (w other).memory segment := by
  simp only [Message.memory, spend_segments]

@[simp] theorem spend_allocated :
    (w.spend message count other).allocated segment = (w other).allocated segment := by
  simp only [Message.allocated, spend_segments]

@[simp] theorem spend_capacity :
    (w.spend message count other).capacity segment = (w other).capacity segment := by
  simp only [Message.capacity, spend_segments]

@[simp] theorem spend_traversalLimit :
    (w.spend message count message).traversalLimit = (w message).traversalLimit - 8 * count := by
  simp [spend]

end World

/-- `program` returns `value` and charges `message` for at most `cost` pointers. -/
def Reads {α : Type} (program : WorldM α) (message cost : Nat) (w : World) (value : α) : Prop :=
  ∃ count ≤ cost, program w = .ok value (w.spend message count)

namespace Reads

variable {α β : Type} {message : Nat} {w : World}

theorem pure (value : α) : Reads (Pure.pure value) message 0 w value :=
  ⟨0, Nat.le_refl 0, by rw [World.spend_zero]; rfl⟩

theorem of_run {program : WorldM α} {value : α} (run : program w = .ok value w) :
    Reads program message 0 w value :=
  ⟨0, Nat.le_refl 0, by rw [World.spend_zero, run]⟩

theorem mono {program : WorldM α} {value : α} {cost more : Nat}
    (reads : Reads program message cost w value) (le : cost ≤ more) :
    Reads program message more w value := by
  obtain ⟨count, bound, run⟩ := reads
  exact ⟨count, by omega, run⟩

theorem bind {program : WorldM α} {next : α → WorldM β} {v : α} {result : β}
    {k r : Nat} (reads : Reads program message k w v)
    (continues : ∀ count ≤ k, Reads (next v) message r (w.spend message count) result) :
    Reads (program >>= next) message (k + r) w result := by
  obtain ⟨count, bound, run⟩ := reads
  obtain ⟨more, moreBound, after⟩ := continues count bound
  refine ⟨count + more, by omega, ?_⟩
  rw [Outcome.bind_apply, run]
  simp only
  rw [after, World.spend_spend]

end Reads

theorem onMessage_ok {α : Type} {message : Nat} {run : MessageM α} {w : World} {value : α}
    {after : Message} (found : run (w message) = .ok value after) :
    onMessage message run w = .ok value (Function.update w message after) := by
  rw [onMessage, found]

theorem onMessage_reads {α : Type} {message : Nat} {run : MessageM α} {w : World} {value : α}
    (found : run (w message) = .ok value (w message)) :
    onMessage message run w = .ok value w := by
  rw [onMessage_ok found, Function.update_eq_self]

/-! The meaning of a pointer's two halves. -/

namespace PointerWord

def offsetWords (lo : BitVec 32) : Int :=
  if lo &&& 2 ≠ 0 then (lo.sshiftRight 3).toInt else (lo.sshiftRight 2).toInt

def isDoubleFar (lo : BitVec 32) : Bool :=
  PointerType.ofBits lo = .FAR && lo &&& 4 ≠ 0

def structSize (hi : BitVec 32) : ObjectSize :=
  { dataByteLength := hi.toNat % 2 ^ 16 * 8, pointerLength := hi.toNat / 2 ^ 16 }

end PointerWord

namespace Pointer

variable {w : World} {p : Pointer}

def lo (p : Pointer) (w : World) : BitVec 32 :=
  BitVec.ofNat 32 (read ((w p.message).memory p.segment) p.byteOffset.toNat 4)

def hi (p : Pointer) (w : World) : BitVec 32 :=
  BitVec.ofNat 32 (read ((w p.message).memory p.segment) (p.byteOffset.toNat + 4) 4)

@[simp] theorem lo_spend (message count : Nat) : p.lo (w.spend message count) = p.lo w := by
  simp [lo]

@[simp] theorem hi_spend (message count : Nat) : p.hi (w.spend message count) = p.hi w := by
  simp [hi]

structure InBounds (p : Pointer) (w : World) : Prop where
  lower : 0 ≤ p.byteOffset
  upper : p.byteOffset + 8 ≤ (w p.message).allocated p.segment

theorem InBounds.spend (inBounds : p.InBounds w) (message count : Nat) :
    p.InBounds (w.spend message count) := by
  obtain ⟨lower, upper⟩ := inBounds
  exact ⟨lower, by simpa using upper⟩

theorem InBounds.bound (inBounds : p.InBounds w) :
    p.segment < (w p.message).segments.length := by
  obtain ⟨lower, upper⟩ := inBounds
  exact Message.lt_of_allocated (by omega)

theorem InBounds.segments (inBounds : p.InBounds w) : (w p.message).segments.length ≠ 0 := by
  have bound := inBounds.bound
  omega

section run

variable (wf : (w p.message).WellFormed) (inBounds : p.InBounds w)
include wf inBounds

theorem getUint32_lo : p.getUint32 p.byteOffset w = .ok (p.lo w) w := by
  have room := wf.allocated_le p.segment
  have upper := inBounds.upper
  rw [getUint32, Outcome.bind_apply, onMessage_reads (Message.getUint_run inBounds.lower (by omega)
    (by omega))]
  rfl

theorem getUint32_hi : p.getUint32 (p.byteOffset + 4) w = .ok (p.hi w) w := by
  have room := wf.allocated_le p.segment
  have upper := inBounds.upper
  have lower := inBounds.lower
  rw [getUint32, Outcome.bind_apply, onMessage_reads (Message.getUint_run (by omega) (by omega)
    (by omega))]
  simp only [hi, Outcome.pure_apply]
  rw [show (p.byteOffset + 4).toNat = p.byteOffset.toNat + 4 by omega]

theorem getPointerType_run : p.getPointerType w = .ok (.ofBits (p.lo w)) w := by
  rw [getPointerType, Outcome.bind_apply, getUint32_lo wf inBounds]
  rfl

theorem getOffsetWords_run : p.getOffsetWords w = .ok (PointerWord.offsetWords (p.lo w)) w := by
  rw [getOffsetWords, Outcome.bind_apply, getUint32_lo wf inBounds]
  rfl

theorem getFarSegmentId_run : p.getFarSegmentId w = .ok (p.hi w).toNat w := by
  rw [getFarSegmentId, Outcome.bind_apply, getUint32_hi wf inBounds]
  rfl

theorem getListElementSize_run : p.getListElementSize w = .ok (.ofBits (p.hi w)) w := by
  rw [getListElementSize, Outcome.bind_apply, getUint32_hi wf inBounds]
  rfl

theorem getListLength_run : p.getListLength w = .ok (p.hi w >>> 3).toNat w := by
  rw [getListLength, Outcome.bind_apply, getUint32_hi wf inBounds]
  rfl

theorem isDoubleFar_run : p.isDoubleFar w = .ok (PointerWord.isDoubleFar (p.lo w)) w := by
  rw [isDoubleFar, Outcome.bind_apply, getPointerType_run wf inBounds]
  simp only [PointerWord.isDoubleFar]
  by_cases far : PointerType.ofBits (p.lo w) = .FAR
  · rw [if_pos far, Outcome.bind_apply, getUint32_lo wf inBounds]
    simp [far, Outcome.pure_apply]
  · rw [if_neg far]
    simp [far, Outcome.pure_apply]

theorem getStructSize_run : p.getStructSize w = .ok (PointerWord.structSize (p.hi w)) w := by
  have room := wf.allocated_le p.segment
  have upper := inBounds.upper
  have lower := inBounds.lower
  rw [getStructSize, Outcome.bind_apply, getStructDataWords, getUint16, onMessage_reads
    (Message.getUint_run (by omega) (by omega) (by omega))]
  simp only
  rw [Outcome.bind_apply, getStructPointerLength, getUint16, onMessage_reads
    (Message.getUint_run (by omega) (by omega) (by omega))]
  simp only [Outcome.pure_apply, PointerWord.structSize, hi]
  have halves := LittleEndian.read_add ((w p.message).memory p.segment) (p.byteOffset.toNat + 4) 2 2
  have first := LittleEndian.read_lt ((w p.message).memory p.segment) (p.byteOffset.toNat + 4) 2
  have second := LittleEndian.read_lt ((w p.message).memory p.segment) (p.byteOffset.toNat + 6) 2
  rw [show (p.byteOffset + 4).toNat = p.byteOffset.toNat + 4 by omega,
    show (p.byteOffset + 6).toNat = p.byteOffset.toNat + 6 by omega, BitVec.toNat_ofNat,
    show 4 = 2 + 2 from rfl, halves]
  simp only [Nat.add_assoc, Nat.reduceAdd] at first second ⊢
  congr 2 <;> omega

end run

/-! Following it. -/

def landingPad (p : Pointer) (w : World) : Pointer :=
  { message := p.message
    segment := (p.hi w).toNat
    byteOffset := (p.lo w >>> 3).toNat * 8
    depthLimit := p.depthLimit - 1 }

/-- The word that says what the pointer is: its own, or the one a far pointer leads to. -/
def target (p : Pointer) (w : World) : Pointer :=
  if PointerType.ofBits (p.lo w) = .FAR then
    if PointerWord.isDoubleFar (p.lo w) then
      { p.landingPad w with byteOffset := (p.landingPad w).byteOffset + 8 }
    else p.landingPad w
  else p

def targetType (p : Pointer) (w : World) : PointerType := .ofBits ((p.target w).lo w)

def isComposite (p : Pointer) (w : World) : Bool :=
  p.targetType w = .LIST && ListElementSize.ofBits ((p.target w).hi w) = .COMPOSITE

/-- Where the object starts; for a composite list that is its tag. -/
def objectStart (p : Pointer) (w : World) : Pointer :=
  if PointerWord.isDoubleFar (p.lo w) then
    { message := p.message
      segment := ((p.landingPad w).hi w).toNat
      byteOffset := PointerWord.offsetWords ((p.landingPad w).lo w) * 8
      depthLimit := DEFAULT_DEPTH_LIMIT }
  else
    { message := p.message
      segment := (p.target w).segment
      byteOffset := (p.target w).byteOffset + 8 + PointerWord.offsetWords ((p.target w).lo w) * 8
      depthLimit := DEFAULT_DEPTH_LIMIT }

def content (p : Pointer) (w : World) : Pointer :=
  if p.isComposite w then
    { p.objectStart w with byteOffset := (p.objectStart w).byteOffset + 8 }
  else p.objectStart w

/-- The pointer and its landing pad lie in allocated space, and its depth limit admits the pad. -/
structure Follows (p : Pointer) (w : World) : Prop where
  inBounds : p.InBounds w
  depth : PointerType.ofBits (p.lo w) = .FAR → 2 ≤ p.depthLimit
  pad : PointerType.ofBits (p.lo w) = .FAR → (p.landingPad w).InBounds w
  target : (p.target w).InBounds w

/-- The pointer can be followed to an object that starts in allocated space. -/
structure Resolves (p : Pointer) (w : World) : Prop extends p.Follows w where
  notFar : p.targetType w ≠ .FAR
  segment : (p.objectStart w).segment < (w p.message).segments.length
  lower : 0 ≤ (p.objectStart w).byteOffset
  upper : (p.objectStart w).byteOffset ≤ (w p.message).allocated (p.objectStart w).segment

section spend

variable (message count : Nat)

@[simp] theorem landingPad_spend : p.landingPad (w.spend message count) = p.landingPad w := by
  simp [landingPad]

@[simp] theorem target_spend : p.target (w.spend message count) = p.target w := by
  simp [target]

@[simp] theorem targetType_spend : p.targetType (w.spend message count) = p.targetType w := by
  simp [targetType]

@[simp] theorem isComposite_spend : p.isComposite (w.spend message count) = p.isComposite w := by
  simp [isComposite]

@[simp] theorem objectStart_spend : p.objectStart (w.spend message count) = p.objectStart w := by
  simp [objectStart]

@[simp] theorem content_spend : p.content (w.spend message count) = p.content w := by
  simp [content]

theorem Follows.spend (follows : p.Follows w) : p.Follows (w.spend message count) := by
  constructor
  · exact follows.inBounds.spend message count
  · simpa using follows.depth
  · intro far
    rw [landingPad_spend]
    exact (follows.pad (by simpa using far)).spend message count
  · rw [target_spend]
    exact follows.target.spend message count

theorem Resolves.spend (resolves : p.Resolves w) : p.Resolves (w.spend message count) := by
  refine ⟨resolves.toFollows.spend message count, ?_, ?_, ?_, ?_⟩
  · simpa using resolves.notFar
  · simpa using resolves.segment
  · simpa using resolves.lower
  · simpa using resolves.upper

end spend

end Pointer

theorem Message.WellFormed.spend {w : World} {other : Nat} (wf : (w other).WellFormed)
    (message count : Nat) : (w.spend message count other).WellFormed := by
  by_cases same : other = message
  · subst same
    simp only [World.spend, Function.update_self]
    exact ⟨wf.nonneg, wf.aligned, wf.inside, wf.wrapped, wf.single⟩
  · simpa [World.spend, same] using wf

theorem newPointer_reads {w : World} {message segment : Nat} {byteOffset depthLimit : Int}
    (depth : 1 ≤ depthLimit) (budget : 8 < (w message).traversalLimit)
    (bound : segment < (w message).segments.length) (lower : 0 ≤ byteOffset)
    (upper : byteOffset ≤ (w message).allocated segment) :
    Reads (newPointer message segment byteOffset depthLimit) message 1 w
      { message, segment, byteOffset, depthLimit } := by
  refine ⟨1, Nat.le_refl 1, ?_⟩
  rw [newPointer, Outcome.bind_apply,
    onMessage_ok (Message.trackPointer_run depth budget bound lower upper)]
  simp only [Outcome.pure_apply]
  rfl

namespace Pointer

variable {w : World} {p : Pointer}

theorem followFar_reads (wf : (w p.message).WellFormed) (follows : p.Follows w)
    (far : PointerType.ofBits (p.lo w) = .FAR) (budget : 8 < (w p.message).traversalLimit) :
    Reads p.followFar p.message 1 w (p.landingPad w) := by
  have depth := follows.depth far
  obtain ⟨lower, upper⟩ := follows.pad far
  have bound : (p.hi w).toNat < (w p.message).segments.length :=
    Message.lt_of_allocated (by simp only [landingPad] at lower upper; omega)
  have made : Reads (newPointer p.message (p.hi w).toNat ((p.lo w >>> 3).toNat * 8)
      (p.depthLimit - 1)) p.message 1 w (p.landingPad w) := by
    simp only [landingPad] at lower upper
    exact newPointer_reads (by omega) budget bound lower (by omega)
  obtain ⟨count, le, run⟩ := made
  refine ⟨count, le, ?_⟩
  rw [followFar, Outcome.bind_apply, getUint32_hi wf follows.inBounds]
  simp only
  rw [Outcome.bind_apply, onMessage_reads (Message.getSegment_run bound)]
  simp only
  rw [Outcome.bind_apply, getUint32_lo wf follows.inBounds]
  exact run

theorem followFars_reads (wf : (w p.message).WellFormed) (follows : p.Follows w)
    (budget : 8 < (w p.message).traversalLimit) :
    Reads p.followFars p.message 1 w (p.target w) := by
  have type := getPointerType_run wf follows.inBounds
  by_cases far : PointerType.ofBits (p.lo w) = .FAR
  · obtain ⟨count, le, run⟩ := followFar_reads wf follows far budget
    refine ⟨count, le, ?_⟩
    have double := isDoubleFar_run (wf.spend p.message count)
      (follows.inBounds.spend p.message count)
    rw [followFars, Outcome.bind_apply, type]
    simp only
    rw [if_pos far, Outcome.bind_apply, run]
    simp only
    rw [Outcome.bind_apply, double]
    simp only [lo_spend, target]
    rw [if_pos far]
    split <;> rfl
  · refine Reads.mono (Reads.of_run ?_) (Nat.zero_le 1)
    rw [followFars, Outcome.bind_apply, type]
    simp only [target]
    rw [if_neg far, if_neg far]
    rfl

theorem target_message : (p.target w).message = p.message := by
  simp only [target, landingPad]
  split
  · split <;> rfl
  · rfl

theorem objectStart_message : (p.objectStart w).message = p.message := by
  simp only [objectStart]
  split <;> rfl

section target

variable (wf : (w p.message).WellFormed) (follows : p.Follows w)
  (budget : 8 < (w p.message).traversalLimit)
include wf follows budget

theorem target_reads {α : Type} {read : Pointer → WorldM α} {value : α}
    (run : ∀ count ≤ 1, read (p.target w) (w.spend p.message count) =
      .ok value (w.spend p.message count)) :
    Reads (p.followFars >>= read) p.message 1 w value := by
  refine Reads.mono (Reads.bind (followFars_reads wf follows budget) ?_) (Nat.le_refl (1 + 0))
  intro count le
  exact Reads.of_run (run count le)

omit follows budget in
theorem target_wellFormed (count : Nat) :
    (w.spend p.message count (p.target w).message).WellFormed := by
  rw [target_message]
  exact wf.spend p.message count

theorem getTargetStructSize_reads : Reads p.getTargetStructSize p.message 1 w
    (PointerWord.structSize ((p.target w).hi w)) := by
  apply target_reads wf follows budget
  intro count _
  rw [getStructSize_run (target_wellFormed wf count)
    (follows.target.spend p.message count), hi_spend]

theorem getTargetListElementSize_reads : Reads p.getTargetListElementSize p.message 1 w
    (.ofBits ((p.target w).hi w)) := by
  apply target_reads wf follows budget
  intro count _
  rw [getListElementSize_run (target_wellFormed wf count)
    (follows.target.spend p.message count), hi_spend]

theorem getTargetPointerType_reads (notFar : p.targetType w ≠ .FAR) :
    Reads p.getTargetPointerType p.message 1 w (p.targetType w) := by
  have found : Reads (p.followFars >>= getPointerType) p.message 1 w (p.targetType w) := by
    apply target_reads wf follows budget
    intro count _
    rw [getPointerType_run (target_wellFormed wf count)
      (follows.target.spend p.message count), lo_spend]
    rfl
  obtain ⟨count, le, run⟩ := found
  refine ⟨count, le, ?_⟩
  rw [getTargetPointerType, ← bind_assoc, Outcome.bind_apply, run]
  simp only
  rw [if_neg notFar]
  rfl

end target

theorem isCompositeList_reads (wf : (w p.message).WellFormed) (follows : p.Follows w)
    (notFar : p.targetType w ≠ .FAR) (budget : 16 < (w p.message).traversalLimit) :
    Reads p.isCompositeList p.message 2 w (p.isComposite w) := by
  refine Reads.bind (k := 1) (r := 1)
    (getTargetPointerType_reads wf follows (by omega) notFar) ?_
  intro count le
  have left : 8 < (w.spend p.message count p.message).traversalLimit := by
    rw [World.spend_traversalLimit]
    omega
  by_cases list : p.targetType w = .LIST
  · rw [if_pos list]
    refine Reads.bind (k := 1) (r := 0) (getTargetListElementSize_reads
      (wf.spend p.message count) (follows.spend p.message count) left) ?_
    intro more _
    simp only [target_spend, hi_spend, isComposite, list, decide_true, Bool.true_and]
    exact Reads.pure _
  · rw [if_neg list]
    simp only [isComposite, list, decide_false, Bool.false_and]
    exact (Reads.pure _).mono (Nat.zero_le 1)

theorem getObject_reads (wf : (w p.message).WellFormed) (resolves : p.Resolves w)
    (budget : 16 < (w p.message).traversalLimit) :
    Reads p.getObject p.message 2 w (p.objectStart w) := by
  obtain ⟨follows, notFar, bound, lower, upper⟩ := resolves
  refine Reads.bind (k := 0) (r := 2)
    (Reads.of_run (isDoubleFar_run wf follows.inBounds)) ?_
  intro count le
  rw [Nat.le_zero.mp le, World.spend_zero]
  by_cases double : PointerWord.isDoubleFar (p.lo w) = true
  · have far : PointerType.ofBits (p.lo w) = .FAR := by
      simp only [PointerWord.isDoubleFar, Bool.and_eq_true, decide_eq_true_eq] at double
      exact double.1
    have pad := follows.pad far
    simp only [objectStart, if_pos double] at bound lower upper ⊢
    refine Reads.bind (k := 1) (r := 1) (followFar_reads wf follows far (by omega)) ?_
    intro count le
    have padWf : (w.spend p.message count (p.landingPad w).message).WellFormed :=
      wf.spend p.message count
    have padIn := pad.spend p.message count
    refine Reads.bind (k := 0) (r := 1) (Reads.of_run (getFarSegmentId_run padWf padIn)) ?_
    intro none le
    rw [Nat.le_zero.mp le, World.spend_zero, hi_spend]
    refine Reads.bind (k := 0) (r := 1) (Reads.of_run (onMessage_reads
      (Message.getSegment_run (by simpa using bound)))) ?_
    intro none le
    rw [Nat.le_zero.mp le, World.spend_zero]
    refine Reads.bind (k := 0) (r := 1) (Reads.of_run (getOffsetWords_run padWf padIn)) ?_
    intro none le
    rw [Nat.le_zero.mp le, World.spend_zero, lo_spend]
    apply newPointer_reads (by decide)
    · rw [World.spend_traversalLimit]
      omega
    · simpa using bound
    · exact lower
    · simpa using upper
  · simp only [objectStart, if_neg double] at bound lower upper ⊢
    refine Reads.bind (k := 1) (r := 1) (followFars_reads wf follows (by omega)) ?_
    intro count le
    refine Reads.bind (k := 0) (r := 1) (Reads.of_run (getOffsetWords_run
      (target_wellFormed wf count) (follows.target.spend p.message count))) ?_
    intro none le
    rw [Nat.le_zero.mp le, World.spend_zero, lo_spend, target_message]
    apply newPointer_reads (by decide)
    · rw [World.spend_traversalLimit]
      omega
    · simpa using bound
    · exact lower
    · simpa using upper

theorem getContent_reads {ignoreCompositeIndex : Bool} (wf : (w p.message).WellFormed)
    (resolves : p.Resolves w) (budget : 32 < (w p.message).traversalLimit)
    (plain : p.compositeIndex = none) :
    Reads (p.getContent ignoreCompositeIndex) p.message 4 w (p.content w) := by
  refine Reads.bind (k := 2) (r := 2) (getObject_reads wf resolves (by omega)) ?_
  intro count le
  refine Reads.bind (k := 2) (r := 0) (isCompositeList_reads (wf.spend p.message count)
    (resolves.toFollows.spend p.message count) (by simpa using resolves.notFar) ?_) ?_
  · rw [World.spend_traversalLimit]
    omega
  · intro more _
    rw [isComposite_spend, plain]
    exact Reads.pure _

theorem getTargetCompositeListTag_reads (wf : (w p.message).WellFormed)
    (resolves : p.Resolves w) (budget : 32 < (w p.message).traversalLimit)
    (plain : p.compositeIndex = none) (composite : p.isComposite w = true) :
    Reads p.getTargetCompositeListTag p.message 4 w (p.objectStart w) := by
  refine Reads.bind (k := 4) (r := 0) (getContent_reads wf resolves budget plain) ?_
  intro count _
  have back : ({ p.content w with byteOffset := (p.content w).byteOffset - 8 } : Pointer) =
      p.objectStart w := by
    simp only [content, if_pos composite, Int.add_sub_cancel]
  rw [back]
  exact Reads.pure _

theorem getTargetCompositeListSize_reads (wf : (w p.message).WellFormed)
    (resolves : p.Resolves w) (budget : 32 < (w p.message).traversalLimit)
    (plain : p.compositeIndex = none) (composite : p.isComposite w = true)
    (tag : (p.objectStart w).InBounds w) :
    Reads p.getTargetCompositeListSize p.message 4 w
      (PointerWord.structSize ((p.objectStart w).hi w)) := by
  refine Reads.bind (k := 4) (r := 0)
    (getTargetCompositeListTag_reads wf resolves budget plain composite) ?_
  intro count _
  have tagWf : (w.spend p.message count (p.objectStart w).message).WellFormed := by
    rw [objectStart_message]
    exact wf.spend p.message count
  rw [← hi_spend (w := w) (p := p.objectStart w) p.message count]
  exact Reads.of_run (getStructSize_run tagWf (tag.spend p.message count))

/-- The number of elements: for a composite list it stands in the tag. -/
def listLength (p : Pointer) (w : World) : Int :=
  if p.isComposite w then PointerWord.offsetWords ((p.objectStart w).lo w)
  else ((p.target w).hi w >>> 3).toNat

theorem getTargetListLength_reads (wf : (w p.message).WellFormed)
    (resolves : p.Resolves w) (budget : 40 < (w p.message).traversalLimit)
    (plain : p.compositeIndex = none) (list : p.targetType w = .LIST)
    (tag : p.isComposite w = true → (p.objectStart w).InBounds w) :
    Reads p.getTargetListLength p.message 5 w (p.listLength w) := by
  have follows := resolves.toFollows
  refine Reads.bind (k := 1) (r := 4) (followFars_reads wf follows (by omega)) ?_
  intro count le
  refine Reads.bind (k := 0) (r := 4) (Reads.of_run (getListElementSize_run
    (target_wellFormed wf count) (follows.target.spend p.message count))) ?_
  intro none le
  rw [Nat.le_zero.mp le, World.spend_zero, hi_spend]
  by_cases composite : p.isComposite w = true
  · have size : ListElementSize.ofBits ((p.target w).hi w) = .COMPOSITE := by
      simp only [isComposite, Bool.and_eq_true, decide_eq_true_eq] at composite
      exact composite.2
    rw [if_pos size, listLength, if_pos composite]
    refine Reads.bind (k := 4) (r := 0) (v := p.objectStart w) ?_ ?_
    · have found := getTargetCompositeListTag_reads (wf.spend p.message count)
        (resolves.spend p.message count) (by rw [World.spend_traversalLimit]; omega) plain
        (by simpa using composite)
      simpa using found
    · intro more _
      have tagWf : ((w.spend p.message count).spend p.message more
          (p.objectStart w).message).WellFormed := by
        rw [objectStart_message]
        exact (wf.spend p.message count).spend p.message more
      have run := getOffsetWords_run tagWf
        (((tag composite).spend p.message count).spend p.message more)
      rw [lo_spend, lo_spend] at run
      exact Reads.of_run run
  · have size : ListElementSize.ofBits ((p.target w).hi w) ≠ .COMPOSITE := by
      intro equal
      simp [isComposite, list, equal] at composite
    rw [if_neg size, listLength, if_neg composite]
    refine Reads.mono (Reads.bind (k := 0) (r := 0) (Reads.of_run (getListLength_run
      (target_wellFormed wf count) (follows.target.spend p.message count))) ?_) (Nat.zero_le 4)
    intro none le
    rw [Nat.le_zero.mp le, World.spend_zero, hi_spend]
    exact Reads.pure _

end Pointer

/-! What a normal end means, when the object may lie anywhere. -/

theorem Message.trackPointer_ok {m after : Message} {segment : Nat} {byteOffset depthLimit : Int}
    (run : Message.trackPointer segment byteOffset depthLimit m = .ok () after) :
    after = m.charge := by
  rw [Message.trackPointer] at run
  split at run
  · cases run
  · rw [Outcome.bind_apply, Outcome.modify_apply] at run
    change (get >>= _ : MessageM Unit) m.charge = _ at run
    rw [Outcome.bind_apply, Outcome.get_apply] at run
    simp only at run
    split at run
    · cases run
    · rw [Outcome.bind_apply, Message.segment] at run
      split at run
      · rename_i found
        split at found
        · cases found
          split at run
          · cases run
          · cases run
            rfl
        · cases found
      · cases run

theorem onMessage_getSegment_ok {w after : World} {message id segment : Nat}
    (run : onMessage message (Message.getSegment id) w = .ok segment after)
    (some : (w message).segments.length ≠ 0) : segment = id ∧ after = w := by
  rw [onMessage, Message.getSegment, Outcome.bind_apply, Outcome.get_apply] at run
  simp only at run
  rw [if_neg (by omega)] at run
  split at run
  · rename_i found
    split at found
    · cases found
    · cases found
      cases run
      exact ⟨rfl, Function.update_eq_self message w⟩
  · cases run

theorem newPointer_ok {w after : World} {message segment : Nat} {byteOffset depthLimit : Int}
    {c : Pointer} (run : newPointer message segment byteOffset depthLimit w = .ok c after) :
    c = { message, segment, byteOffset, depthLimit } ∧ after = w.spend message 1 := by
  rw [newPointer, Outcome.bind_apply, onMessage] at run
  cases tracked : Message.trackPointer segment byteOffset depthLimit (w message) with
  | error e m =>
      rw [tracked] at run
      cases run
  | ok value m =>
      rw [tracked] at run
      cases run
      rw [Message.trackPointer_ok tracked]
      exact ⟨rfl, rfl⟩

namespace Pointer

variable {w : World} {p : Pointer}

theorem getObject_ok {after : World} {c : Pointer} (wf : (w p.message).WellFormed)
    (follows : p.Follows w) (budget : 8 < (w p.message).traversalLimit)
    (run : p.getObject w = .ok c after) :
    c = p.objectStart w ∧ ∃ count ≤ 2, after = w.spend p.message count := by
  rw [getObject, Outcome.bind_apply, isDoubleFar_run wf follows.inBounds] at run
  simp only at run
  by_cases double : PointerWord.isDoubleFar (p.lo w) = true
  · have far : PointerType.ofBits (p.lo w) = .FAR := by
      simp only [PointerWord.isDoubleFar, Bool.and_eq_true, decide_eq_true_eq] at double
      exact double.1
    obtain ⟨count, le, followed⟩ := followFar_reads wf follows far budget
    have padWf : (w.spend p.message count (p.landingPad w).message).WellFormed :=
      wf.spend p.message count
    have padIn := (follows.pad far).spend p.message count
    rw [if_pos double, Outcome.bind_apply, followed] at run
    simp only at run
    rw [Outcome.bind_apply, getFarSegmentId_run padWf padIn, hi_spend] at run
    simp only at run
    rw [Outcome.bind_eq_ok] at run
    obtain ⟨segment, middle, found, run⟩ := run
    obtain ⟨rfl, rfl⟩ := onMessage_getSegment_ok found (by simpa using follows.inBounds.segments)
    rw [Outcome.bind_apply, getOffsetWords_run padWf padIn, lo_spend] at run
    obtain ⟨rfl, rfl⟩ := newPointer_ok run
    simp only [objectStart, if_pos double, World.spend_spend]
    exact ⟨trivial, count + 1, by omega, rfl⟩
  · obtain ⟨count, le, followed⟩ := followFars_reads wf follows budget
    have targetWf := target_wellFormed wf (p := p) count
    rw [if_neg double, Outcome.bind_apply, followed] at run
    simp only at run
    rw [Outcome.bind_apply, getOffsetWords_run targetWf (follows.target.spend p.message count),
      lo_spend, target_message] at run
    obtain ⟨rfl, rfl⟩ := newPointer_ok run
    simp only [objectStart, if_neg double, World.spend_spend]
    exact ⟨trivial, count + 1, by omega, rfl⟩

theorem getContent_ok {after : World} {c : Pointer} {ignoreCompositeIndex : Bool}
    (wf : (w p.message).WellFormed) (follows : p.Follows w) (notFar : p.targetType w ≠ .FAR)
    (budget : 32 < (w p.message).traversalLimit) (plain : p.compositeIndex = none)
    (run : p.getContent ignoreCompositeIndex w = .ok c after) : c = p.content w := by
  rw [getContent, Outcome.bind_eq_ok] at run
  obtain ⟨start, middle, found, run⟩ := run
  obtain ⟨rfl, count, le, rfl⟩ := getObject_ok wf follows (by omega) found
  obtain ⟨more, _, composite⟩ := isCompositeList_reads (wf.spend p.message count)
    (follows.spend p.message count) (by simpa using notFar)
    (by rw [World.spend_traversalLimit]; omega)
  rw [Outcome.bind_apply, composite, isComposite_spend, plain] at run
  cases run
  rfl

theorem followFars_far_ok {after : World} {t : Pointer} (wf : (w p.message).WellFormed)
    (inBounds : p.InBounds w) (far : PointerType.ofBits (p.lo w) = .FAR)
    (run : p.followFars w = .ok t after) :
    t.byteOffset = (p.lo w >>> 3).toNat * 8 +
      if PointerWord.isDoubleFar (p.lo w) then 8 else 0 := by
  have some := inBounds.segments
  rw [followFars, Outcome.bind_apply, getPointerType_run wf inBounds] at run
  simp only at run
  rw [if_pos far, Outcome.bind_eq_ok] at run
  obtain ⟨landingPad, middle, followed, run⟩ := run
  rw [followFar, Outcome.bind_apply, getUint32_hi wf inBounds] at followed
  simp only at followed
  rw [Outcome.bind_eq_ok] at followed
  obtain ⟨segment, same, found, followed⟩ := followed
  obtain ⟨rfl, rfl⟩ := onMessage_getSegment_ok found some
  rw [Outcome.bind_apply, getUint32_lo wf inBounds] at followed
  obtain ⟨rfl, rfl⟩ := newPointer_ok followed
  rw [Outcome.bind_apply, isDoubleFar_run (wf.spend p.message 1) (inBounds.spend p.message 1),
    lo_spend] at run
  simp only at run
  split at run
  · rename_i double
    cases run
    rw [if_pos double]
  · rename_i single
    cases run
    rw [if_neg single, Int.add_zero]

end Pointer

end CapnpEs
