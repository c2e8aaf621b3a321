import CapnpEs.Library.Outcome
import CapnpEs.Serialization.Pointers.PointerUtils

/-!
What the segment accessors do to a message, seen as one byte-addressed memory for each segment. A
segment that does not exist is an empty one.
-/

namespace CapnpEs

open LittleEndian (memoryOf read store encode)

namespace Message

variable {m : Message} {segment : Nat}

def memory (m : Message) (segment : Nat) : Nat → UInt8 :=
  match m.segments[segment]? with
  | some s => memoryOf s.buffer
  | none => fun _ => 0

def allocated (m : Message) (segment : Nat) : Int :=
  match m.segments[segment]? with
  | some s => s.byteLength
  | none => 0

def capacity (m : Message) (segment : Nat) : Nat :=
  match m.segments[segment]? with
  | some s => s.buffer.length
  | none => 0

/-- What the arenas and `Segment.allocate` keep true of a message. -/
structure WellFormed (m : Message) : Prop where
  nonneg : ∀ s ∈ m.segments, 0 ≤ s.byteLength
  aligned : ∀ s ∈ m.segments, s.byteLength % 8 = 0
  inside : ∀ s ∈ m.segments, s.byteLength ≤ s.buffer.length
  wrapped : m.arena.buffers = []
  single : m.arena.kind = .SINGLE_SEGMENT → m.segments.length = 1

theorem WellFormed.allocated_nonneg (wf : m.WellFormed) (segment : Nat) :
    0 ≤ m.allocated segment := by
  rw [allocated]
  split
  · rename_i s found
    exact wf.nonneg s (List.mem_of_getElem? found)
  · exact Int.le_refl 0

theorem WellFormed.allocated_aligned (wf : m.WellFormed) (segment : Nat) :
    m.allocated segment % 8 = 0 := by
  rw [allocated]
  split
  · rename_i s found
    exact wf.aligned s (List.mem_of_getElem? found)
  · rfl

theorem WellFormed.allocated_le (wf : m.WellFormed) (segment : Nat) :
    m.allocated segment ≤ m.capacity segment := by
  rw [allocated, capacity]
  split
  · rename_i s found
    exact wf.inside s (List.mem_of_getElem? found)
  · exact Int.le_refl 0

theorem segment_of_lt (bound : segment < m.segments.length) :
    ∃ s, m.segments[segment]? = some s := by
  exact ⟨_, List.getElem?_eq_getElem bound⟩

theorem lt_of_capacity {byteOffset : Int} (lower : 0 ≤ byteOffset)
    (inside : byteOffset < m.capacity segment) : segment < m.segments.length := by
  rw [capacity] at inside
  split at inside
  · rename_i s found
    exact (List.getElem?_eq_some_iff.mp found).1
  · omega

theorem lt_of_allocated (some : 0 < m.allocated segment) : segment < m.segments.length := by
  rw [allocated] at some
  split at some
  · rename_i s found
    exact (List.getElem?_eq_some_iff.mp found).1
  · omega

theorem segment_run {s : Segment} (found : m.segments[segment]? = some s) :
    Message.segment segment m = .ok s m := by
  rw [Message.segment, found]

theorem assertWritable_run (writable : m.readonly = false) :
    Message.assertWritable m = .ok () m := by
  simp [Message.assertWritable, writable]

/-- `m` with `bytes` written over one of its segments; nothing is written outside the buffer. -/
def patch (m : Message) (segment offset : Nat) (bytes : Bytes) : Message :=
  match m.segments[segment]? with
  | some s =>
      if offset + bytes.length ≤ s.buffer.length then
        m.setSegment segment { s with buffer := LittleEndian.overwrite s.buffer offset bytes }
      else m
  | none => m

/-- `m` after one pointer was made. -/
def charge (m : Message) : Message := { m with traversalLimit := m.traversalLimit - 8 }

section patch

variable (m) (offset : Nat) (bytes : Bytes)

@[simp] theorem patch_readonly : (m.patch segment offset bytes).readonly = m.readonly := by
  simp only [patch]
  split
  · split <;> rfl
  · rfl

@[simp] theorem patch_traversalLimit :
    (m.patch segment offset bytes).traversalLimit = m.traversalLimit := by
  simp only [patch]
  split
  · split <;> rfl
  · rfl

@[simp] theorem patch_arena : (m.patch segment offset bytes).arena = m.arena := by
  simp only [patch]
  split
  · split <;> rfl
  · rfl

@[simp] theorem patch_capTable : (m.patch segment offset bytes).capTable = m.capTable := by
  simp only [patch]
  split
  · split <;> rfl
  · rfl

@[simp] theorem patch_length : (m.patch segment offset bytes).segments.length =
    m.segments.length := by
  simp only [patch, setSegment]
  split
  · split
    · exact List.length_set
    · rfl
  · rfl

theorem patch_getElem? {i : Nat} (other : Nat) :
    (m.patch i offset bytes).segments[other]? =
      m.segments[other]?.map fun s =>
        if other = i ∧ offset + bytes.length ≤ s.buffer.length then
          { s with buffer := LittleEndian.overwrite s.buffer offset bytes }
        else s := by
  simp only [patch]
  split
  · rename_i s found
    split
    · rename_i fits
      simp only [setSegment, List.getElem?_set]
      by_cases same : i = other
      · subst same
        rw [found]
        simp [fits, (List.getElem?_eq_some_iff.mp found).1]
      · rw [if_neg same]
        simp [Ne.symm same]
    · rename_i outside
      by_cases same : other = i
      · subst same
        simp [found, outside]
      · simp [same]
  · rename_i missing
    by_cases same : other = i
    · subst same
      simp [missing]
    · simp [same]

@[simp] theorem patch_allocated (other : Nat) :
    (m.patch segment offset bytes).allocated other = m.allocated other := by
  simp only [allocated, patch_getElem?]
  cases m.segments[other]? with
  | none => rfl
  | some s => simp only [Option.map_some]; split <;> rfl

@[simp] theorem patch_capacity (other : Nat) :
    (m.patch segment offset bytes).capacity other = m.capacity other := by
  simp only [capacity, patch_getElem?]
  cases m.segments[other]? with
  | none => rfl
  | some s =>
      simp only [Option.map_some]
      split
      · rename_i fits
        exact LittleEndian.overwrite_length fits.2
      · rfl

theorem patch_memory (inside : offset + bytes.length ≤ m.capacity segment) (other : Nat) :
    (m.patch segment offset bytes).memory other =
      if other = segment then store (m.memory segment) offset bytes else m.memory other := by
  simp only [memory, patch_getElem?]
  by_cases same : other = segment
  · subst same
    rw [capacity] at inside
    cases found : m.segments[other]? with
    | none =>
        simp only [found] at inside
        have empty : bytes = [] := List.eq_nil_of_length_eq_zero (by omega)
        funext address
        simp [store, empty]
    | some s =>
        simp only [found] at inside
        simp only [Option.map_some, true_and, if_pos inside, if_true]
        exact LittleEndian.memoryOf_overwrite inside
  · cases m.segments[other]? with
    | none => simp [same]
    | some s => simp [same]

theorem patch_append (first second : Bytes)
    (inside : offset + first.length + second.length ≤ m.capacity segment) :
    (m.patch segment offset first).patch segment (offset + first.length) second =
      m.patch segment offset (first ++ second) := by
  have firstFits : offset + first.length ≤ m.capacity segment := by omega
  rw [capacity] at inside firstFits
  cases found : m.segments[segment]? with
  | none => simp only [patch, found]
  | some s =>
      rw [found] at inside firstFits
      simp only at inside firstFits
      have bound : segment < m.segments.length := (List.getElem?_eq_some_iff.mp found).1
      simp only [patch, found, if_pos firstFits, setSegment, List.getElem?_set_self bound,
        List.length_append]
      rw [if_pos (by rw [LittleEndian.overwrite_length firstFits]; omega), if_pos (by omega),
        LittleEndian.overwrite_append inside, List.set_set]

theorem WellFormed.patch (wf : m.WellFormed) : (m.patch segment offset bytes).WellFormed := by
  have kept : ∀ s ∈ (m.patch segment offset bytes).segments,
      ∃ t ∈ m.segments, s.byteLength = t.byteLength ∧ s.buffer.length = t.buffer.length := by
    intro s member
    obtain ⟨index, bound, rfl⟩ := List.getElem_of_mem member
    have found := patch_getElem? m (i := segment) offset bytes index
    rw [List.getElem?_eq_getElem bound] at found
    have source : index < m.segments.length := by simpa using bound
    rw [List.getElem?_eq_getElem source] at found
    refine ⟨m.segments[index], List.getElem_mem source, ?_⟩
    rw [Option.map_some] at found
    rw [Option.some.inj found]
    split
    · rename_i fits
      exact ⟨rfl, LittleEndian.overwrite_length fits.2⟩
    · exact ⟨rfl, rfl⟩
  constructor
  · intro s member
    obtain ⟨t, source, length, _⟩ := kept s member
    rw [length]
    exact wf.nonneg t source
  · intro s member
    obtain ⟨t, source, length, _⟩ := kept s member
    rw [length]
    exact wf.aligned t source
  · intro s member
    obtain ⟨t, source, length, buffer⟩ := kept s member
    rw [length, buffer]
    exact wf.inside t source
  · rw [patch_arena]
    exact wf.wrapped
  · rw [patch_arena, patch_length]
    exact wf.single

end patch

theorem getUint_run {width : Nat} {byteOffset : Int} (lower : 0 ≤ byteOffset) (positive : 0 < width)
    (inside : byteOffset + width ≤ m.capacity segment) :
    Message.getUint width segment byteOffset m =
      .ok (read (m.memory segment) byteOffset.toNat width) m := by
  obtain ⟨s, found⟩ := segment_of_lt (lt_of_capacity lower (by omega : byteOffset < m.capacity segment))
  simp only [capacity, found] at inside
  rw [Message.getUint, Outcome.bind_apply, segment_run found]
  simp only [DataView.getUint, memory, found]
  rw [if_neg (by omega)]
  rfl

theorem setUint_run {width : Nat} {byteOffset v : Int} (writable : m.readonly = false)
    (lower : 0 ≤ byteOffset) (positive : 0 < width)
    (inside : byteOffset + width ≤ m.capacity segment) :
    Message.setUint width segment byteOffset v m =
      .ok () (m.patch segment byteOffset.toNat
        (encode width (v % 256 ^ width).toNat)) := by
  obtain ⟨s, found⟩ := segment_of_lt (lt_of_capacity lower (by omega : byteOffset < m.capacity segment))
  simp only [capacity, found] at inside
  simp only [Message.setUint, Outcome.bind_apply, assertWritable_run writable, segment_run found,
    DataView.setUint]
  rw [if_neg (by omega)]
  simp only [patch, found, LittleEndian.encode_length]
  rw [if_pos (by omega)]
  rfl

theorem trackPointer_run {byteOffset depthLimit : Int} (depth : 1 ≤ depthLimit)
    (budget : 8 < m.traversalLimit) (exists_ : segment < m.segments.length)
    (lower : 0 ≤ byteOffset) (upper : byteOffset ≤ m.allocated segment) :
    Message.trackPointer segment byteOffset depthLimit m = .ok () m.charge := by
  obtain ⟨s, found⟩ := segment_of_lt exists_
  simp only [allocated, found] at upper
  have same : m.charge.segments[segment]? = some s := found
  have left : ¬ m.charge.traversalLimit ≤ 0 := by
    change ¬ m.traversalLimit - 8 ≤ 0
    omega
  rw [Message.trackPointer, if_neg (by omega), Outcome.bind_apply, Outcome.modify_apply]
  change (get >>= _ : MessageM Unit) m.charge = _
  rw [Outcome.bind_apply, Outcome.get_apply]
  simp only
  rw [if_neg left, Outcome.bind_apply, segment_run same]
  simp only
  rw [if_neg (by omega)]
  rfl

@[simp] theorem charge_readonly : m.charge.readonly = m.readonly := rfl
@[simp] theorem charge_arena : m.charge.arena = m.arena := rfl
@[simp] theorem charge_capTable : m.charge.capTable = m.capTable := rfl
@[simp] theorem charge_segments : m.charge.segments = m.segments := rfl
@[simp] theorem charge_traversalLimit : m.charge.traversalLimit = m.traversalLimit - 8 := rfl
@[simp] theorem charge_memory : m.charge.memory segment = m.memory segment := rfl
@[simp] theorem charge_allocated : m.charge.allocated segment = m.allocated segment := rfl
@[simp] theorem charge_capacity : m.charge.capacity segment = m.capacity segment := rfl

theorem WellFormed.charge (wf : m.WellFormed) : m.charge.WellFormed :=
  ⟨wf.nonneg, wf.aligned, wf.inside, wf.wrapped, wf.single⟩

theorem getSegment_run (bound : segment < m.segments.length) :
    Message.getSegment segment m = .ok segment m := by
  rw [Message.getSegment, Outcome.bind_apply, Outcome.get_apply]
  simp only
  rw [if_neg (by omega), if_neg (by omega)]
  rfl

/-! Allocation. -/

/-- `m'` is `m` with more room: nothing that is allocated changes. -/
structure Grown (m m' : Message) : Prop where
  wellFormed : m'.WellFormed
  readonly : m'.readonly = m.readonly
  capTable : m'.capTable = m.capTable
  kind : m'.arena.kind = m.arena.kind
  traversalLimit : m'.traversalLimit = m.traversalLimit
  memory : ∀ s, m'.memory s = m.memory s
  allocated : ∀ s, m'.allocated s = m.allocated s
  capacity : ∀ s, m.capacity s ≤ m'.capacity s
  length : m.segments.length ≤ m'.segments.length

theorem Grown.refl (wf : m.WellFormed) : Grown m m :=
  ⟨wf, rfl, rfl, rfl, rfl, fun _ => rfl, fun _ => rfl, fun _ => Nat.le_refl _, Nat.le_refl _⟩

theorem memory_replicate (count address : Nat) :
    memoryOf (List.replicate count 0) address = 0 := by
  simp only [memoryOf, List.getD_eq_getElem?_getD, List.getElem?_replicate]
  split <;> rfl

def append (m : Message) (count : Nat) : Message :=
  { m with
    segments := m.segments ++ [{ buffer := List.replicate count 0, byteLength := 0 }]
    arena := { m.arena with buffers := [] } }

theorem append_getElem? (m : Message) (count other : Nat) :
    (m.append count).segments[other]? =
      if other = m.segments.length then some { buffer := List.replicate count 0, byteLength := 0 }
      else m.segments[other]? := by
  simp only [append]
  by_cases before : other < m.segments.length
  · rw [List.getElem?_append_left before, if_neg (by omega)]
  · rw [List.getElem?_append_right (by omega)]
    by_cases last : other = m.segments.length
    · simp [last]
    · rw [if_neg last, List.getElem?_eq_none (by simp; omega), List.getElem?_eq_none (by omega)]

theorem Grown.append (wf : m.WellFormed) (kind : m.arena.kind = .MULTI_SEGMENT) (count : Nat) :
    Grown m (m.append count) := by
  constructor
  · constructor
    all_goals try
      intro s member
      rcases List.mem_append.mp member with old | new
      · first
          | exact wf.nonneg s old
          | exact wf.aligned s old
          | exact wf.inside s old
      · cases List.mem_singleton.mp new
        simp
    · rfl
    · intro single
      simp [Message.append, kind] at single
  · rfl
  · rfl
  · rfl
  · rfl
  · intro s
    simp only [Message.memory, append_getElem?]
    split
    · rename_i t found
      split at found
      · rename_i last
        rw [List.getElem?_eq_none (by omega)]
        cases found
        funext address
        exact memory_replicate count address
      · rw [found]
    · rename_i found
      split at found
      · simp at found
      · rw [found]
  · intro s
    simp only [Message.allocated, append_getElem?]
    by_cases last : s = m.segments.length
    · rw [if_pos last, List.getElem?_eq_none (by omega)]
    · rw [if_neg last]
  · intro s
    simp only [Message.capacity, append_getElem?]
    by_cases last : s = m.segments.length
    · rw [if_pos last, List.getElem?_eq_none (by omega)]
      exact Nat.zero_le _
    · rw [if_neg last]
  · simp [Message.append]

theorem memoryOf_append_zeros (bytes : Bytes) (count : Nat) :
    memoryOf (bytes ++ List.replicate count 0) = memoryOf bytes := by
  funext address
  simp only [memoryOf, List.getD_eq_getElem?_getD, List.getElem?_append, List.getElem?_replicate]
  split
  · rfl
  · rw [List.getElem?_eq_none (l := bytes) (by omega)]
    split <;> rfl

theorem WellFormed.setSegment {t : Segment} (wf : m.WellFormed) (lower : 0 ≤ t.byteLength)
    (aligned : t.byteLength % 8 = 0) (inside : t.byteLength ≤ t.buffer.length) :
    (m.setSegment segment t).WellFormed := by
  constructor
  · intro u member
    rcases List.mem_or_eq_of_mem_set member with old | rfl
    · exact wf.nonneg u old
    · exact lower
  · intro u member
    rcases List.mem_or_eq_of_mem_set member with old | rfl
    · exact wf.aligned u old
    · exact aligned
  · intro u member
    rcases List.mem_or_eq_of_mem_set member with old | rfl
    · exact wf.inside u old
    · exact inside
  · exact wf.wrapped
  · simpa [Message.setSegment] using wf.single

theorem setSegment_getElem? {t : Segment} (bound : segment < m.segments.length) (other : Nat) :
    (m.setSegment segment t).segments[other]? =
      if other = segment then some t else m.segments[other]? := by
  simp only [setSegment, List.getElem?_set]
  by_cases same : segment = other
  · subst same
    simp [bound]
  · simp [same, Ne.symm same]

theorem Grown.setSegment {s t : Segment} (wf : m.WellFormed) (found : m.segments[segment]? = some s)
    (byteLength : t.byteLength = s.byteLength) (memory : memoryOf t.buffer = memoryOf s.buffer)
    (room : s.buffer.length ≤ t.buffer.length) : Grown m (m.setSegment segment t) := by
  have changed := setSegment_getElem? (t := t) (List.getElem?_eq_some_iff.mp found).1
  have member : s ∈ m.segments := List.mem_of_getElem? found
  constructor
  · have lower := wf.nonneg s member
    have words := wf.aligned s member
    have upper := wf.inside s member
    exact wf.setSegment (by omega) (by omega) (by omega)
  · rfl
  · rfl
  · rfl
  · rfl
  · intro other
    simp only [Message.memory, changed]
    by_cases same : other = segment
    · rw [if_pos same, same, found]
      exact memory
    · rw [if_neg same]
  · intro other
    simp only [Message.allocated, changed]
    by_cases same : other = segment
    · rw [if_pos same, same, found]
      exact byteLength
    · rw [if_neg same]
  · intro other
    simp only [Message.capacity, changed]
    by_cases same : other = segment
    · rw [if_pos same, same, found]
      exact room
    · rw [if_neg same]
  · simp [Message.setSegment]

/-- Where `allocateSegment` finds its room. -/
def freshSegment (m : Message) : Nat :=
  match m.arena.kind with
  | .MULTI_SEGMENT => m.segments.length
  | .SINGLE_SEGMENT => 0

theorem allocateSegment_run {byteLength : Int} (wf : m.WellFormed) (writable : m.readonly = false)
    (positive : 0 ≤ byteLength) (aligned : byteLength % 8 = 0) (small : byteLength < 2 ^ 31) :
    ∃ m', Message.allocateSegment byteLength m = .ok m.freshSegment m' ∧ Grown m m' ∧
      m.freshSegment < m'.segments.length ∧
        m.allocated m.freshSegment + byteLength ≤ m'.capacity m.freshSegment := by
  cases kind : m.arena.kind with
  | MULTI_SEGMENT =>
      have size : padToWord (max byteLength DEFAULT_BUFFER_SIZE) =
          max byteLength DEFAULT_BUFFER_SIZE := by
        apply padToWord_aligned <;> simp only [DEFAULT_BUFFER_SIZE] <;> omega
      have next : Arena.allocate byteLength m = .ok (m.segments.length,
          List.replicate (max byteLength DEFAULT_BUFFER_SIZE).toNat 0) := by
        simp only [Arena.allocate, kind, Arena.getNumSegments, wf.wrapped, size, newArrayBuffer]
        rw [if_neg (by omega)]
        rfl
      have fresh : m.freshSegment = m.segments.length := by
        simp only [freshSegment, kind]
      refine ⟨m.append (max byteLength DEFAULT_BUFFER_SIZE).toNat, ?_, Grown.append wf kind _, ?_, ?_⟩
      · rw [Message.allocateSegment, Outcome.bind_apply, Outcome.get_apply]
        simp only
        rw [Outcome.bind_apply, next, Outcome.ofExcept_ok]
        simp only
        rw [if_pos trivial, fresh]
        rfl
      · rw [fresh]
        simp [Message.append]
      · have missing : m.allocated m.freshSegment = 0 := by
          rw [allocated, fresh, List.getElem?_eq_none (Nat.le_refl _)]
        rw [missing, capacity, append_getElem?, if_pos fresh]
        simp only [List.length_replicate]
        omega
  | SINGLE_SEGMENT =>
      have one := wf.single kind
      have fresh : m.freshSegment = 0 := by
        simp only [freshSegment, kind]
      obtain ⟨s, found⟩ := segment_of_lt (m := m) (show 0 < m.segments.length by omega)
      let growth : Nat :=
        (if byteLength < MIN_SINGLE_SEGMENT_GROWTH then MIN_SINGLE_SEGMENT_GROWTH
          else padToWord byteLength).toNat
      have enough : byteLength ≤ growth := by
        simp only [growth, padToWord_aligned positive small aligned, MIN_SINGLE_SEGMENT_GROWTH]
        split <;> omega
      let t : Segment := { s with buffer := s.buffer ++ List.replicate growth 0 }
      have next : Arena.allocate byteLength m = .ok (0, t.buffer) := by
        have first : Arena.getBuffer 0 m = .ok s.buffer := by
          simp only [Arena.getBuffer]
          rw [List.getElem?_append_left (by simp [one]), List.getElem?_map, found]
          rfl
        have length : (s.buffer.length : Int) + (if byteLength < MIN_SINGLE_SEGMENT_GROWTH then
            MIN_SINGLE_SEGMENT_GROWTH else padToWord byteLength) = (s.buffer.length + growth : Nat) := by
          simp only [growth, padToWord_aligned positive small aligned, MIN_SINGLE_SEGMENT_GROWTH]
          split <;> omega
        simp only [Arena.allocate, kind, first]
        change (newArrayBuffer _ >>= _) = _
        rw [length, newArrayBuffer, if_neg (by omega)]
        change (setBytes _ _ _ >>= _) = _
        rw [Int.toNat_natCast, setBytes_eq (by simp)]
        simp [t, List.drop_replicate]
        rfl
      have lower := wf.nonneg s (List.mem_of_getElem? found)
      have upper := wf.inside s (List.mem_of_getElem? found)
      refine ⟨m.setSegment 0 t, ?_, ?_, ?_, ?_⟩
      · rw [Message.allocateSegment, Outcome.bind_apply, Outcome.get_apply]
        simp only
        rw [Outcome.bind_apply, next, Outcome.ofExcept_ok]
        simp only
        rw [if_neg (by omega), if_neg (by omega), Outcome.bind_apply, Message.replaceBuffer,
          Outcome.bind_apply, segment_run found]
        simp only
        rw [Outcome.bind_apply, assertWritable_run writable]
        simp only
        rw [if_neg (by simp [t]; omega), fresh]
        rfl
      · exact Grown.setSegment wf found rfl (memoryOf_append_zeros _ _) (by simp [t])
      · simp [fresh, Message.setSegment, one]
      · rw [fresh]
        simp only [allocated, capacity, found, Message.setSegment, List.getElem?_set]
        simp [one, t]
        omega

/-- The segment in which an allocation that is asked of `segment` lands. -/
def place (m : Message) (segment : Nat) (byteLength : Int) : Nat :=
  if m.allocated segment + byteLength ≤ m.capacity segment then segment else m.freshSegment

/-- `m'` is `m` with `byteLength` more bytes allocated in one segment. -/
structure Allocated (m m' : Message) (id : Nat) (byteLength : Int) : Prop where
  wellFormed : m'.WellFormed
  readonly : m'.readonly = m.readonly
  capTable : m'.capTable = m.capTable
  kind : m'.arena.kind = m.arena.kind
  traversalLimit : m'.traversalLimit = m.traversalLimit - 8
  memory : ∀ s, m'.memory s = m.memory s
  allocated : ∀ s, m'.allocated s = m.allocated s + if s = id then byteLength else 0
  capacity : ∀ s, m.capacity s ≤ m'.capacity s
  length : m.segments.length ≤ m'.segments.length
  bound : id < m'.segments.length

theorem Grown.extend {grown : Message} {id : Nat} {s : Segment} {byteLength : Int}
    (growth : Grown m grown) (found : grown.segments[id]? = some s) (positive : 0 ≤ byteLength)
    (aligned : byteLength % 8 = 0) (room : grown.allocated id + byteLength ≤ grown.capacity id) :
    Allocated m (grown.setSegment id { s with byteLength := s.byteLength + byteLength }).charge id
      byteLength := by
  let t : Segment := { s with byteLength := s.byteLength + byteLength }
  have wf := growth.wellFormed
  have member := List.mem_of_getElem? found
  have bound : id < grown.segments.length := (List.getElem?_eq_some_iff.mp found).1
  have changed := setSegment_getElem? (t := t) bound
  simp only [Message.allocated, Message.capacity, found] at room
  change Allocated m (grown.setSegment id t).charge id byteLength
  constructor
  · have lower := wf.nonneg s member
    have words := wf.aligned s member
    exact (wf.setSegment (t := t) (by simp only [t]; omega) (by simp only [t]; omega) room).charge
  · exact growth.readonly
  · exact growth.capTable
  · exact growth.kind
  · simp [Message.setSegment, growth.traversalLimit]
  · intro other
    rw [← growth.memory other]
    simp only [Message.memory, charge_segments, changed]
    by_cases same : other = id
    · rw [if_pos same, same, found]
    · rw [if_neg same]
  · intro other
    rw [← growth.allocated other]
    simp only [Message.allocated, charge_segments, changed]
    by_cases same : other = id
    · rw [if_pos same, if_pos same, same, found]
    · rw [if_neg same, if_neg same, Int.add_zero]
  · intro other
    have before := growth.capacity other
    simp only [Message.capacity, charge_segments, changed] at before ⊢
    by_cases same : other = id
    · rw [if_pos same]
      rw [same, found] at before
      rwa [same]
    · rwa [if_neg same]
  · simpa [Message.setSegment] using growth.length
  · simpa [Message.setSegment] using bound

theorem allocate_place {n : Int} (wf : m.WellFormed) (writable : m.readonly = false) (positive : 0 ≤ n)
    (aligned : n % 8 = 0) (small : n < 2 ^ 31) (bound : segment < m.segments.length) :
    ∃ filled, Allocated m filled.charge (m.place segment n) n ∧ filled.traversalLimit = m.traversalLimit ∧
      Message.allocate segment n m =
        (do
          trackPointer (m.place segment n) (m.allocated (m.place segment n)) DEFAULT_DEPTH_LIMIT
          return (m.place segment n, m.allocated (m.place segment n)) : MessageM (Nat × Int)) filled := by
  obtain ⟨s, found⟩ := segment_of_lt bound
  have padded := padToWord_aligned positive small aligned
  have chosen : ∃ grown, (if s.hasCapacity n then (pure segment : MessageM Nat)
        else allocateSegment n) m = .ok (m.place segment n) grown ∧
      Grown m grown ∧ m.place segment n < grown.segments.length ∧
        m.allocated (m.place segment n) + n ≤
          grown.capacity (m.place segment n) := by
    by_cases room : s.buffer.length - s.byteLength ≥ n
    · have here : m.place segment n = segment := by
        simp only [place, allocated, capacity, found]
        rw [if_pos (by omega)]
      rw [if_pos (by simpa [Segment.hasCapacity] using room), here]
      refine ⟨m, rfl, Grown.refl wf, bound, ?_⟩
      simp only [allocated, capacity, found]
      omega
    · have there : m.place segment n = m.freshSegment := by
        simp only [place, allocated, capacity, found]
        rw [if_neg (by omega)]
      rw [if_neg (by simpa [Segment.hasCapacity] using room), there]
      exact allocateSegment_run wf writable positive aligned small
  obtain ⟨grown, run, growth, inside, room⟩ := chosen
  obtain ⟨t, target⟩ := segment_of_lt inside
  have offset : t.byteLength = m.allocated (m.place segment n) := by
    rw [← growth.allocated, allocated, target]
  have fits := room
  rw [← growth.allocated] at fits
  refine ⟨grown.setSegment (m.place segment n) { t with byteLength := t.byteLength + n },
    growth.extend target positive aligned fits, growth.traversalLimit, ?_⟩
  rw [Message.allocate, Outcome.bind_apply, assertWritable_run writable]
  simp only [padded]
  rw [if_neg (by simp only [MAX_SEGMENT_LENGTH]; omega), Outcome.bind_apply, segment_run found]
  simp only
  rw [Outcome.bind_apply, run]
  simp only
  rw [Outcome.bind_apply, segment_run target]
  simp only
  rw [Outcome.bind_apply, Outcome.modify_apply]
  simp only [offset]

theorem allocate_run {n : Int} (wf : m.WellFormed) (writable : m.readonly = false)
    (budget : 8 < m.traversalLimit) (positive : 0 ≤ n) (aligned : n % 8 = 0)
    (small : n < 2 ^ 31) (bound : segment < m.segments.length) :
    ∃ m', Message.allocate segment n m =
        .ok (m.place segment n, m.allocated (m.place segment n)) m' ∧
      Allocated m m' (m.place segment n) n := by
  obtain ⟨filled, result, limit, run⟩ := allocate_place wf writable positive aligned small bound
  have lower := wf.allocated_nonneg (m.place segment n)
  have after := result.allocated (m.place segment n)
  have inside : m.place segment n < filled.segments.length := result.bound
  rw [if_pos rfl, charge_allocated] at after
  refine ⟨_, ?_, result⟩
  rw [run, Outcome.bind_apply, trackPointer_run (by decide) (by omega) inside lower (by omega)]
  rfl

end Message

end CapnpEs
