import CapnpEs.Serialization.Pointers.Memory

/-! What `Segment.allocate` guards against, and the sizes for which its 32-bit rounding lets a request through. -/

namespace CapnpEs

namespace Message

/-- A region of a segment that nothing used before, with what the segments held before still there. -/
structure FreshRegion (m after : Message) (place : Nat) (byteOffset byteLength : Int) : Prop where
  bound : place < after.segments.length
  fresh : m.allocated place ≤ byteOffset
  inside : byteOffset + byteLength ≤ after.allocated place
  backed : after.allocated place ≤ after.capacity place
  grown : ∀ s, m.allocated s ≤ after.allocated s
  memory : ∀ s, after.memory s = m.memory s

/-- A request is refused with the segments as they were, or answered with a fresh region. -/
def AllocationGuarded (m : Message) (segment : Nat) (byteLength : Int) : Prop :=
  match Message.allocate segment byteLength m with
  | .ok (place, byteOffset) after => FreshRegion m after place byteOffset byteLength
  | .error _ after => after.segments = m.segments

variable {m : Message} {segment : Nat}

theorem allocate_padToWord (segment : Nat) (byteLength : Int) :
    Message.allocate segment byteLength = Message.allocate segment (padToWord byteLength) := by
  simp only [Message.allocate, padToWord_padded]

theorem allocate_room {s : Segment} {byteLength : Int} (writable : m.readonly = false)
    (found : m.segments[segment]? = some s) (room : s.byteLength + padToWord byteLength ≤ s.buffer.length) :
    Message.allocate segment byteLength m =
      (do
        trackPointer segment s.byteLength DEFAULT_DEPTH_LIMIT
        return (segment, s.byteLength) : MessageM (Nat × Int))
      (m.setSegment segment { s with byteLength := s.byteLength + padToWord byteLength }) := by
  have small := padToWord_lt byteLength
  have enough : s.hasCapacity (padToWord byteLength) = true := by
    simp only [Segment.hasCapacity, decide_eq_true_eq]
    omega
  rw [Message.allocate, Outcome.bind_apply, assertWritable_run writable]
  simp only
  rw [if_neg (by simp only [MAX_SEGMENT_LENGTH]; omega), Outcome.bind_apply, segment_run found]
  simp only
  rw [if_pos enough, Outcome.bind_apply]
  change (Message.segment segment >>= _ : MessageM (Nat × Int)) m = _
  rw [Outcome.bind_apply, segment_run found]
  rfl

theorem trackPointer_exhausted {depthLimit : Int} (depth : 1 ≤ depthLimit) (spent : m.traversalLimit ≤ 8)
    (segment : Nat) (byteOffset : Int) :
    Message.trackPointer segment byteOffset depthLimit m = .error .PTR_TRAVERSAL_LIMIT_EXCEEDED m.charge := by
  have nothing : m.charge.traversalLimit ≤ 0 := by
    rw [charge_traversalLimit]
    omega
  rw [Message.trackPointer, if_neg (by omega), Outcome.bind_apply, Outcome.modify_apply]
  change (get >>= _ : MessageM Unit) m.charge = _
  rw [Outcome.bind_apply, Outcome.get_apply]
  simp only
  rw [if_pos nothing]
  rfl

theorem trackPointer_outside {s : Segment} {byteOffset depthLimit : Int} (depth : 1 ≤ depthLimit)
    (budget : 8 < m.traversalLimit) (found : m.segments[segment]? = some s) (outside : s.byteLength < byteOffset) :
    Message.trackPointer segment byteOffset depthLimit m =
      .error (.PTR_OFFSET_OUT_OF_BOUNDS byteOffset) m.charge := by
  have left : ¬ m.charge.traversalLimit ≤ 0 := by
    rw [charge_traversalLimit]
    omega
  have same : m.charge.segments[segment]? = some s := found
  rw [Message.trackPointer, if_neg (by omega), Outcome.bind_apply, Outcome.modify_apply]
  change (get >>= _ : MessageM Unit) m.charge = _
  rw [Outcome.bind_apply, Outcome.get_apply]
  simp only
  rw [if_neg left, Outcome.bind_apply, segment_run same]
  simp only
  rw [if_pos (Or.inr outside)]
  rfl

theorem allocate_negative {byteLength : Int} (wf : m.WellFormed) (writable : m.readonly = false)
    (bound : segment < m.segments.length) (negative : padToWord byteLength < 0) :
    ∃ reason after, Message.allocate segment byteLength m = .error reason after ∧
      after.allocated segment < m.allocated segment := by
  obtain ⟨s, found⟩ := segment_of_lt bound
  have inside := wf.inside s (List.mem_of_getElem? found)
  let t : Segment := { s with byteLength := s.byteLength + padToWord byteLength }
  have run := allocate_room writable found (show s.byteLength + padToWord byteLength ≤ s.buffer.length by omega)
  have changed : (m.setSegment segment t).segments[segment]? = some t := by
    rw [setSegment_getElem? bound, if_pos rfl]
  have shrunk : (m.setSegment segment t).charge.allocated segment < m.allocated segment := by
    rw [charge_allocated, allocated, changed, allocated, found]
    dsimp only [t]
    omega
  change _ = (trackPointer segment s.byteLength DEFAULT_DEPTH_LIMIT >>= _ : MessageM (Nat × Int))
    (m.setSegment segment t) at run
  rw [Outcome.bind_apply] at run
  by_cases budget : 8 < m.traversalLimit
  · have left : 8 < (m.setSegment segment t).traversalLimit := budget
    have outside : t.byteLength < s.byteLength := by
      dsimp only [t]
      omega
    rw [trackPointer_outside (by decide) left changed outside] at run
    exact ⟨_, _, run, shrunk⟩
  · have spent : (m.setSegment segment t).traversalLimit ≤ 8 := show m.traversalLimit ≤ 8 by omega
    rw [trackPointer_exhausted (by decide) spent] at run
    exact ⟨_, _, run, shrunk⟩

theorem allocate_ends {byteLength : Int} {found : Nat × Int} {after : Message} (wf : m.WellFormed)
    (run : Message.allocate segment byteLength m = .ok found after) :
    0 ≤ padToWord byteLength ∧ m.readonly = false ∧ segment < m.segments.length ∧ 8 < m.traversalLimit ∧
      found = (m.place segment (padToWord byteLength), m.allocated (m.place segment (padToWord byteLength))) ∧
        Allocated m after (m.place segment (padToWord byteLength)) (padToWord byteLength) := by
  have writable : m.readonly = false := by
    cases readonly : m.readonly with
    | false => rfl
    | true =>
        rw [Message.allocate, Outcome.bind_apply, Message.assertWritable, readonly] at run
        cases run
  have bound : segment < m.segments.length := by
    by_cases beyond : segment < m.segments.length
    · exact beyond
    · rw [Message.allocate, Outcome.bind_apply, assertWritable_run writable] at run
      simp only at run
      split at run
      · cases run
      · rw [Outcome.bind_apply, Message.segment, List.getElem?_eq_none (by omega)] at run
        cases run
  have rounded : 0 ≤ padToWord byteLength := by
    by_cases negative : padToWord byteLength < 0
    · obtain ⟨reason, left, refused, _⟩ := allocate_negative wf writable bound negative
      rw [refused] at run
      cases run
    · omega
  have aligned := padToWord_emod byteLength
  have small := padToWord_lt byteLength
  have budget : 8 < m.traversalLimit := by
    by_cases spent : m.traversalLimit ≤ 8
    · obtain ⟨filled, _, limit, placed⟩ := allocate_place wf writable rounded aligned small bound
      rw [allocate_padToWord, placed, Outcome.bind_apply, trackPointer_exhausted (by decide) (by omega)] at run
      cases run
    · omega
  obtain ⟨m', placed, result⟩ := allocate_run wf writable budget rounded aligned small bound
  rw [allocate_padToWord, placed] at run
  cases run
  exact ⟨rounded, writable, bound, budget, rfl, result⟩

theorem allocated_congr {after : Message} (same : after.segments = m.segments) (s : Nat) :
    after.allocated s = m.allocated s := by
  rw [allocated, same, allocated]

theorem not_guarded_of_negative {byteLength : Int} (wf : m.WellFormed) (writable : m.readonly = false)
    (bound : segment < m.segments.length) (negative : padToWord byteLength < 0) :
    ¬ m.AllocationGuarded segment byteLength := by
  obtain ⟨reason, after, run, shrunk⟩ := allocate_negative wf writable bound negative
  rw [AllocationGuarded, run]
  intro same
  rw [allocated_congr same] at shrunk
  omega

theorem guarded_iff_of_budget {byteLength : Int} (wf : m.WellFormed) (writable : m.readonly = false)
    (bound : segment < m.segments.length) (budget : 8 < m.traversalLimit) (rounded : 0 ≤ padToWord byteLength) :
    m.AllocationGuarded segment byteLength ↔ byteLength ≤ padToWord byteLength := by
  obtain ⟨after, run, result⟩ :=
    allocate_run wf writable budget rounded (padToWord_emod byteLength) (padToWord_lt byteLength) bound
  have taken := result.allocated (m.place segment (padToWord byteLength))
  rw [if_pos rfl] at taken
  rw [AllocationGuarded, allocate_padToWord, run]
  constructor
  · intro region
    have inside := region.inside
    omega
  · intro enough
    refine ⟨result.bound, Int.le_refl _, by omega, result.wellFormed.allocated_le _, ?_, result.memory⟩
    intro s
    have grown := result.allocated s
    split at grown <;> omega

theorem guarded_iff_of_spent {byteLength : Int} (wf : m.WellFormed) (writable : m.readonly = false)
    (bound : segment < m.segments.length) (spent : m.traversalLimit ≤ 8) (rounded : 0 ≤ padToWord byteLength) :
    m.AllocationGuarded segment byteLength ↔ padToWord byteLength = 0 := by
  constructor
  · intro guarded
    obtain ⟨filled, result, limit, run⟩ :=
      allocate_place wf writable rounded (padToWord_emod byteLength) (padToWord_lt byteLength) bound
    have taken := result.allocated (m.place segment (padToWord byteLength))
    rw [if_pos rfl] at taken
    rw [Outcome.bind_apply, trackPointer_exhausted (by decide) (by omega)] at run
    rw [AllocationGuarded, allocate_padToWord, run] at guarded
    have same := allocated_congr guarded (m.place segment (padToWord byteLength))
    omega
  · intro nothing
    obtain ⟨s, found⟩ := segment_of_lt bound
    have inside := wf.inside s (List.mem_of_getElem? found)
    have run := allocate_room writable found (show s.byteLength + padToWord byteLength ≤ s.buffer.length by omega)
    rw [nothing, Int.add_zero] at run
    have same : m.setSegment segment s = m := by
      obtain ⟨_, rfl⟩ := List.getElem?_eq_some_iff.mp found
      rw [setSegment, List.set_getElem_self]
    rw [show ({ s with byteLength := s.byteLength } : Segment) = s from rfl, same, Outcome.bind_apply,
      trackPointer_exhausted (by decide) spent] at run
    rw [AllocationGuarded, run]
    rfl

/-- The rounding wraps from `2 ^ 31 - 7` bytes on: a request is then answered with too little, or shrinks the
segment. A message that has used up its traversal limit keeps what it was about to allocate. -/
theorem allocate_guarded_iff (wf : m.WellFormed) (writable : m.readonly = false)
    (bound : segment < m.segments.length) (byteLength : Nat) :
    m.AllocationGuarded segment byteLength ↔
      if 8 < m.traversalLimit then byteLength + 7 < 2 ^ 31 else padToWord byteLength = 0 := by
  have upper := padToWord_lt byteLength
  have aligned := padToWord_emod byteLength
  have exact_ : byteLength + 7 < 2 ^ 31 → padToWord byteLength = ((byteLength : Int) + 7) / 8 * 8 :=
    fun small => padToWord_of_lt (by omega) (by omega)
  by_cases rounded : 0 ≤ padToWord byteLength
  · split
    · rename_i budget
      rw [guarded_iff_of_budget wf writable bound budget rounded]
      constructor
      · intro enough
        omega
      · intro small
        rw [exact_ small]
        omega
    · rename_i spent
      exact guarded_iff_of_spent wf writable bound (by omega) rounded
  · have broken := not_guarded_of_negative wf writable bound (by omega : padToWord byteLength < 0)
    constructor
    · intro guarded
      exact absurd guarded broken
    · intro holds
      split at holds
      · have value := exact_ holds
        omega
      · omega

def rootMessage : Message :=
  { fresh with
    arena := { kind := .SINGLE_SEGMENT, buffers := [] }
    segments := [{ buffer := List.replicate 256 0, byteLength := 8 }] }

theorem rootMessage_wellFormed : rootMessage.WellFormed where
  nonneg := by decide
  aligned := by decide
  inside s member := by
    rw [List.mem_singleton.mp member, List.length_replicate]
    decide
  wrapped := rfl
  single := fun _ => rfl

theorem allocate_guarded_iff_root :
    rootMessage.AllocationGuarded 0 100 ↔
      if 8 < rootMessage.traversalLimit then 100 + 7 < 2 ^ 31 else padToWord 100 = 0 :=
  allocate_guarded_iff rootMessage_wellFormed rfl (by decide) 100

/-- Two gigabytes are rounded to as many bytes less than nothing. -/
theorem allocate_twoGigabytes_not_guarded :
    ¬ ∀ (m : Message) (segment byteLength : Nat), m.WellFormed → m.readonly = false →
      segment < m.segments.length → m.AllocationGuarded segment byteLength := by
  intro guarded
  have broken : ∀ n : Nat, 2 ^ 31 ≤ n → n + 7 < 2 ^ 32 → ¬ rootMessage.AllocationGuarded 0 n := by
    intro n lower upper
    exact not_guarded_of_negative rootMessage_wellFormed rfl Nat.one_pos (padToWord_negative (by omega) (by omega))
  exact broken (2 ^ 31) (by omega) (by omega)
    (guarded rootMessage 0 (2 ^ 31) rootMessage_wellFormed rfl Nat.one_pos)

end Message

end CapnpEs
