import CapnpEs.Serialization.SharedBuffers
import Mathlib.Data.List.Forall2

/-! Allocating regions in the segments of a message, and what the arenas keep true of their buffers. -/

namespace CapnpEs.SharedBuffers

open LittleEndian (memoryOf overwrite)
open Outcome

namespace Store

def allocated (s : Store) (id : Nat) : Int := ((s.segments[id]?).map SegmentObject.byteLength).getD 0

/-- A segment as bytes from its start, zero past its buffer. -/
def memory (s : Store) (id : Nat) : Nat → UInt8 :=
  match s.segments[id]? with
  | some segment => memoryOf (s.bytes segment.buffer)
  | none => fun _ => 0

/-- A segment that its arena knows, with the free part of its buffer still zero. -/
structure Holds (s : Store) (i : Nat) (segment : SegmentObject) : Prop where
  id : segment.id = i
  shared : s.arena.getBuffer i = .ok segment.buffer
  made : segment.buffer < s.heap.length
  lower : 0 ≤ segment.byteLength
  inside : segment.byteLength ≤ (s.bytes segment.buffer).length
  aligned : segment.byteLength % 8 = 0
  free : ∀ k, segment.byteLength ≤ (k : Nat) → memoryOf (s.bytes segment.buffer) k = 0

/-- A message that has no segment yet, and its arena a buffer for it. -/
structure Unopened (s : Store) : Prop where
  segments : s.segments = []
  arena : ∃ buffer, s.arena = .single buffer ∧ buffer < s.heap.length ∧
    s.bytes buffer = List.replicate DEFAULT_BUFFER_SIZE.toNat 0

structure Consistent (s : Store) : Prop where
  writable : s.readonly = false
  holds : ∀ i segment, s.segments[i]? = some segment → s.Holds i segment
  unshared : ∀ (i j : Nat) (first second : SegmentObject), s.segments[i]? = some first → s.segments[j]? = some second →
    first.buffer = second.buffer → i = j
  counted : s.segments.length = s.arena.getNumSegments ∨ s.Unopened

structure Grows (s after : Store) : Prop where
  allocated : ∀ i, after.allocated i = s.allocated i
  memory : ∀ i, after.memory i = s.memory i
  segments : s.segments.length ≤ after.segments.length

variable {s : Store} {limit : Nat}

theorem Grows.refl (s : Store) : s.Grows s := ⟨fun _ => rfl, fun _ => rfl, Nat.le_refl _⟩

theorem Grows.trans {middle after : Store} (first : s.Grows middle) (second : middle.Grows after) : s.Grows after where
  allocated i := (second.allocated i).trans (first.allocated i)
  memory i := (second.memory i).trans (first.memory i)
  segments := Nat.le_trans first.segments second.segments

theorem bytes_of_append {after : Store} {bytes : Bytes} (heap : after.heap = s.heap ++ [bytes]) :
    (∀ buffer < s.heap.length, after.bytes buffer = s.bytes buffer) ∧ after.bytes s.heap.length = bytes := by
  constructor
  · intro buffer made
    rw [Store.bytes, heap, List.getElem?_append_left made]
    rfl
  · rw [Store.bytes, heap, List.getElem?_append_right (Nat.le_refl _), Nat.sub_self]
    rfl

theorem allocated_of {i : Nat} {segment : SegmentObject} (found : s.segments[i]? = some segment) :
    s.allocated i = segment.byteLength := by
  rw [allocated, found]
  rfl

theorem memory_of {i : Nat} {segment : SegmentObject} (found : s.segments[i]? = some segment) :
    s.memory i = memoryOf (s.bytes segment.buffer) := by
  rw [memory, found]

theorem memoryOf_zeros (count k : Nat) : memoryOf (List.replicate count 0) k = 0 := by
  simp only [memoryOf, List.getD_eq_getElem?_getD, List.getElem?_replicate]
  split <;> rfl

theorem memoryOf_append_zeros (bytes : Bytes) (count : Nat) :
    memoryOf (bytes ++ List.replicate count 0) = memoryOf bytes := by
  funext k
  by_cases inside : k < bytes.length
  · simp only [memoryOf, List.getD_eq_getElem?_getD, List.getElem?_append_left inside]
  · have beyond : memoryOf bytes k = 0 := by
      simp [memoryOf, List.getD_eq_getElem?_getD, List.getElem?_eq_none (Nat.le_of_not_lt inside)]
    rw [beyond]
    simp only [memoryOf, List.getD_eq_getElem?_getD]
    rw [List.getElem?_append_right (Nat.le_of_not_lt inside), List.getElem?_replicate]
    split <;> rfl

/-- A multi segment arena adds a buffer, and the message a segment for it. -/
def pushed (s : Store) (buffers : List Nat) (size : Nat) : Store :=
  { s with
    heap := s.heap ++ [List.replicate size 0]
    arena := .multi (buffers ++ [s.heap.length])
    segments := s.segments ++ [{ id := s.segments.length, buffer := s.heap.length, byteLength := 0 }] }

def replaced (s : Store) (segment : SegmentObject) (growth : Nat) : Store :=
  { s with
    heap := s.heap ++ [s.bytes segment.buffer ++ List.replicate growth 0]
    arena := .single s.heap.length
    segments := [{ segment with buffer := s.heap.length }] }

theorem getElem?_pushed {buffers : List Nat} {size i : Nat} {segment : SegmentObject}
    (found : (s.pushed buffers size).segments[i]? = some segment) :
    s.segments[i]? = some segment ∨
      i = s.segments.length ∧ segment = { id := s.segments.length, buffer := s.heap.length, byteLength := 0 } := by
  by_cases old : i < s.segments.length
  · rw [pushed, List.getElem?_append_left old] at found
    exact Or.inl found
  · rw [pushed, List.getElem?_append_right (Nat.le_of_not_lt old), List.getElem?_singleton] at found
    split at found
    · cases found
      exact Or.inr ⟨by omega, rfl⟩
    · cases found

theorem Consistent.pushed (consistent : s.Consistent) {buffers : List Nat} (arena : s.arena = .multi buffers)
    (counted : s.segments.length = buffers.length) (size : Nat) : (s.pushed buffers size).Consistent := by
  obtain ⟨kept, added⟩ := @bytes_of_append s (s.pushed buffers size) _ rfl
  constructor
  · exact consistent.writable
  · intro i segment found
    rcases getElem?_pushed found with old | ⟨rfl, rfl⟩
    · have held := consistent.holds i segment old
      have same := kept segment.buffer held.made
      have bound : i < buffers.length := counted ▸ (List.getElem?_eq_some_iff.mp old).1
      refine ⟨held.id, ?_, ?_, held.lower, same ▸ held.inside, held.aligned, same ▸ held.free⟩
      · have shared := held.shared
        rw [arena] at shared
        simp only [Store.pushed]
        rw [AnyArena.getBuffer, List.getElem?_append_left bound]
        exact shared
      · simp only [Store.pushed, List.length_append, List.length_singleton]
        exact Nat.lt_succ_of_lt held.made
    · refine ⟨rfl, ?_, ?_, Int.le_refl 0, Int.natCast_nonneg _, rfl, ?_⟩
      · simp only [Store.pushed]
        rw [AnyArena.getBuffer, counted, List.getElem?_append_right (Nat.le_refl _), Nat.sub_self]
        rfl
      · simp [Store.pushed]
      · intro k _
        rw [added]
        exact memoryOf_zeros size k
  · intro i j first second here there same
    rcases getElem?_pushed here with old | ⟨rfl, rfl⟩
    · have made := (consistent.holds i first old).made
      rcases getElem?_pushed there with old' | ⟨rfl, rfl⟩
      · exact consistent.unshared i j first second old old' same
      · exact absurd same (Nat.ne_of_lt made)
    · rcases getElem?_pushed there with old' | ⟨rfl, rfl⟩
      · exact absurd same.symm (Nat.ne_of_lt (consistent.holds j second old').made)
      · rfl
  · left
    simp [Store.pushed, AnyArena.getNumSegments, counted]

theorem Consistent.grows_pushed (consistent : s.Consistent) (buffers : List Nat) (size : Nat) :
    s.Grows (s.pushed buffers size) := by
  obtain ⟨kept, added⟩ := @bytes_of_append s (s.pushed buffers size) _ rfl
  have old : ∀ i < s.segments.length, (s.pushed buffers size).segments[i]? = s.segments[i]? :=
    fun i below => List.getElem?_append_left below
  have new : (s.pushed buffers size).segments[s.segments.length]? =
      some { id := s.segments.length, buffer := s.heap.length, byteLength := 0 } := by
    rw [Store.pushed, List.getElem?_append_right (Nat.le_refl _), Nat.sub_self]
    rfl
  have none_ : ∀ i, s.segments.length < i → (s.pushed buffers size).segments[i]? = none := by
    intro i beyond
    apply List.getElem?_eq_none
    simp only [Store.pushed, List.length_append, List.length_singleton]
    omega
  refine ⟨?_, ?_, ?_⟩
  · intro i
    rcases Nat.lt_trichotomy i s.segments.length with below | rfl | beyond
    · rw [allocated, allocated, old i below]
    · rw [allocated, allocated, new, List.getElem?_eq_none (Nat.le_refl _)]
      rfl
    · rw [allocated, allocated, none_ i beyond, List.getElem?_eq_none (Nat.le_of_lt beyond)]
  · intro i
    rcases Nat.lt_trichotomy i s.segments.length with below | rfl | beyond
    · have found := List.getElem?_eq_getElem below
      rw [memory_of found, memory_of ((old i below).trans found), kept _ (consistent.holds i _ found).made]
    · rw [memory_of new, memory, List.getElem?_eq_none (Nat.le_refl _), added]
      funext k
      exact memoryOf_zeros size k
    · rw [memory, memory, none_ i beyond, List.getElem?_eq_none (Nat.le_of_lt beyond)]
  · simp [Store.pushed]

theorem getElem?_singleton_segment {segments : List SegmentObject} {segment first : SegmentObject} {i : Nat}
    (one : segments = [first]) (found : segments[i]? = some segment) : i = 0 ∧ segment = first := by
  subst one
  rw [List.getElem?_singleton] at found
  split at found
  · cases found
    exact ⟨by omega, rfl⟩
  · cases found

theorem Consistent.replaced (consistent : s.Consistent) {segment : SegmentObject} (one : s.segments = [segment])
    (growth : Nat) : (s.replaced segment growth).Consistent := by
  obtain ⟨_, added⟩ := @bytes_of_append s (s.replaced segment growth) _ rfl
  have held := consistent.holds 0 segment (by rw [one]; rfl)
  constructor
  · exact consistent.writable
  · intro i other found
    obtain ⟨rfl, rfl⟩ := getElem?_singleton_segment rfl found
    refine ⟨held.id, rfl, ?_, held.lower, ?_, held.aligned, ?_⟩
    · simp [Store.replaced]
    · rw [added]
      have inside := held.inside
      simp only [List.length_append]
      omega
    · rw [added, memoryOf_append_zeros]
      exact held.free
  · intro i j first second here there _
    rw [(getElem?_singleton_segment rfl here).1, (getElem?_singleton_segment rfl there).1]
  · exact Or.inl rfl

theorem Consistent.grows_replaced {segment : SegmentObject} (one : s.segments = [segment])
    (growth : Nat) : s.Grows (s.replaced segment growth) := by
  obtain ⟨_, added⟩ := @bytes_of_append s (s.replaced segment growth) _ rfl
  refine ⟨?_, ?_, ?_⟩
  · intro i
    rw [allocated, allocated, one]
    cases i with
    | zero => rfl
    | succ i => rfl
  · intro i
    cases i with
    | zero =>
        have here : s.segments[0]? = some segment := by
          rw [one]
          rfl
        have there : (s.replaced segment growth).segments[0]? = some { segment with buffer := s.heap.length } := rfl
        rw [memory_of here, memory_of there, added, memoryOf_append_zeros]
    | succ i =>
        rw [memory, memory, one]
        rfl
  · rw [one]
    rfl

end Store

variable {s : Store} {limit : Nat}

theorem newBuffer_meets (s : Store) (limit : Nat) (byteLength : Int) :
    Meets (newBuffer limit byteLength) s
      (fun buffer after => 0 ≤ byteLength ∧ buffer = s.heap.length ∧
        after = { s with heap := s.heap ++ [List.replicate byteLength.toNat 0] })
      fun _ after => after = s := by
  unfold Meets newBuffer
  by_cases refused : byteLength < 0 ∨ byteLength > limit
  · rw [if_pos refused]
  · rw [if_neg refused]
    exact ⟨by omega, rfl, rfl⟩

theorem overwrite_zeros (bytes : Bytes) {count growth : Nat} (enough : count = bytes.length + growth) :
    overwrite (List.replicate count 0) 0 bytes = bytes ++ List.replicate growth 0 := by
  subst enough
  simp [overwrite]

def Store.Offers (s : Store) (byteLength : Int) (id : Nat) (after : Store) : Prop :=
  after.Consistent ∧ s.Grows after ∧ after.segments.length = after.arena.getNumSegments ∧
    ∃ segment, after.segments[id]? = some segment ∧ hasCapacity after segment byteLength = true

theorem allocateSegment_multi (consistent : s.Consistent) {buffers : List Nat} (arena : s.arena = .multi buffers)
    (counted : s.segments.length = buffers.length) {byteLength : Int} (lower : 0 ≤ byteLength)
    (aligned : byteLength % 8 = 0) (small : byteLength < 2 ^ 31) :
    Meets (allocateSegment limit byteLength) s (s.Offers byteLength) fun _ after => after = s := by
  have size : padToWord (max byteLength DEFAULT_BUFFER_SIZE) = max byteLength DEFAULT_BUFFER_SIZE := by
    apply padToWord_aligned <;> simp only [DEFAULT_BUFFER_SIZE] <;> omega
  apply Meets.bind
  apply Meets.get
  rw [arena]
  dsimp only
  apply Meets.bind
  apply (newBuffer_meets s limit _).mono
  · rintro buffer after ⟨_, rfl, rfl⟩
    change Meets (if buffers.length = s.segments.length then _ else _) _ _ _
    rw [if_pos counted.symm, size, ← counted]
    have pushed := consistent.pushed arena counted (max byteLength DEFAULT_BUFFER_SIZE).toNat
    refine ⟨?_, ?_, ?_, ?_⟩
    · exact pushed
    · exact consistent.grows_pushed buffers _
    · simp [AnyArena.getNumSegments, counted]
    · refine ⟨{ id := s.segments.length, buffer := s.heap.length, byteLength := 0 }, ?_, ?_⟩
      · rw [List.getElem?_append_right (Nat.le_refl _), Nat.sub_self]
        rfl
      · have added := (@Store.bytes_of_append s (s.pushed buffers (max byteLength DEFAULT_BUFFER_SIZE).toNat) _ rfl).2
        apply decide_eq_true
        change ((Store.bytes (s.pushed buffers _) s.heap.length).length : Int) - 0 ≥ byteLength
        rw [added, List.length_replicate]
        omega
  · intro _ _ same
    exact same

theorem allocateSegment_single (consistent : s.Consistent) {buffer : Nat} (arena : s.arena = .single buffer)
    (counted : s.segments.length = 1) {byteLength : Int} (lower : 0 ≤ byteLength) (aligned : byteLength % 8 = 0)
    (small : byteLength < 2 ^ 31) :
    Meets (allocateSegment limit byteLength) s (s.Offers byteLength) fun _ after => after = s := by
  obtain ⟨segment, one⟩ := List.length_eq_one_iff.mp counted
  have here : s.segments[0]? = some segment := by
    rw [one]
    rfl
  have held := consistent.holds 0 segment here
  have inside := held.inside
  let growth : Nat := (if byteLength < MIN_SINGLE_SEGMENT_GROWTH then MIN_SINGLE_SEGMENT_GROWTH else
    padToWord byteLength).toNat
  have sized : (if byteLength < MIN_SINGLE_SEGMENT_GROWTH then MIN_SINGLE_SEGMENT_GROWTH else
      padToWord byteLength) = growth := by
    simp only [growth, padToWord_aligned lower small aligned, MIN_SINGLE_SEGMENT_GROWTH]
    split <;> omega
  have enough : byteLength ≤ growth := by
    rw [← sized, padToWord_aligned lower small aligned, MIN_SINGLE_SEGMENT_GROWTH]
    split <;> omega
  apply Meets.bind
  apply Meets.get
  rw [arena]
  dsimp only
  rw [sized]
  have source : (s.segments.head?.map SegmentObject.buffer).getD buffer = segment.buffer := by
    rw [one]
    rfl
  rw [source]
  apply Meets.bind
  apply (newBuffer_meets s limit _).mono
  · rintro grown after ⟨_, rfl, rfl⟩
    let made : Store := { s with heap := s.heap ++ [List.replicate ((s.bytes segment.buffer).length + growth) 0] }
    let copied : Store :=
      { s with
        heap := s.heap ++ [s.bytes segment.buffer ++ List.replicate growth 0]
        arena := .single s.heap.length }
    obtain ⟨kept, added⟩ := @Store.bytes_of_append s made _ rfl
    have copies : { made.setBuffer s.heap.length (overwrite (made.bytes s.heap.length) 0 (made.bytes segment.buffer)) with
        arena := .single s.heap.length } = copied := by
      rw [kept _ held.made, added, overwrite_zeros _ rfl]
      simp [made, copied, Store.setBuffer]
    have length : ((s.bytes segment.buffer).length + (growth : Int)).toNat =
        (s.bytes segment.buffer).length + growth := by omega
    rw [length]
    change Meets (do
      let now ← get
      if 0 = now.segments.length then do
        modify fun now => { now with segments := now.segments ++ [{ id := 0, buffer := s.heap.length, byteLength := 0 }] }
        return 0
      else if 0 > now.segments.length then
        throw (.MSG_SEGMENT_OUT_OF_BOUNDS 0)
      else do
        replaceBuffer 0 s.heap.length
        return 0) { made.setBuffer s.heap.length (overwrite (made.bytes s.heap.length) 0
          (made.bytes segment.buffer)) with arena := .single s.heap.length } _ _
    rw [copies]
    apply Meets.get
    have length_ : copied.segments.length = 1 := counted
    rw [if_neg (by omega), if_neg (by omega)]
    have longer : (copied.bytes s.heap.length).length = (s.bytes segment.buffer).length + growth := by
      rw [(@Store.bytes_of_append s copied _ rfl).2, List.length_append, List.length_replicate]
    have replaces : replaceBuffer 0 s.heap.length copied = .ok () (s.replaced segment growth) := by
      unfold replaceBuffer
      rw [bind_apply]
      have found : segmentAt 0 copied = .ok segment copied := by
        unfold segmentAt
        rw [show copied.segments[0]? = some segment from here]
      rw [found]
      dsimp only
      rw [if_neg (Nat.ne_of_lt held.made), bind_apply]
      have may : assertWritable copied = .ok () copied := by
        unfold assertWritable
        rw [if_neg (by rw [show copied.readonly = false from consistent.writable]; exact Bool.false_ne_true)]
      rw [may]
      dsimp only
      rw [bind_apply, get_apply]
      dsimp only
      rw [longer, if_neg (by omega)]
      change EStateM.Result.ok _ _ = _
      congr 1
      simp [Store.setSegment, Store.replaced, copied, one]
    apply Meets.bind
    unfold Meets
    rw [replaces]
    refine ⟨consistent.replaced one growth, Store.Consistent.grows_replaced one growth, rfl, ?_⟩
    refine ⟨{ segment with buffer := s.heap.length }, rfl, decide_eq_true ?_⟩
    rw [(@Store.bytes_of_append s (s.replaced segment growth) _ rfl).2, List.length_append, List.length_replicate]
    dsimp only
    omega
  · intro _ _ same
    exact same

theorem allocateSegment_meets (consistent : s.Consistent) (counted : s.segments.length = s.arena.getNumSegments)
    {byteLength : Int} (lower : 0 ≤ byteLength) (aligned : byteLength % 8 = 0) (small : byteLength < 2 ^ 31) :
    Meets (allocateSegment limit byteLength) s (s.Offers byteLength) fun _ after => after = s := by
  cases arena : s.arena with
  | single buffer =>
      rw [arena] at counted
      exact allocateSegment_single consistent arena counted lower aligned small
  | multi buffers =>
      rw [arena] at counted
      exact allocateSegment_multi consistent arena counted lower aligned small

namespace Store

structure Ready (s : Store) : Prop extends s.Consistent where
  opened : s.segments.length = s.arena.getNumSegments

/-- Bytes stay as they are, and what is allocated stays allocated. -/
structure Keeps (s after : Store) : Prop where
  memory : ∀ i, after.memory i = s.memory i
  allocated : ∀ i, s.allocated i ≤ after.allocated i
  segments : s.segments.length ≤ after.segments.length

structure Allocates (s : Store) (byteLength : Int) (place : Nat × Int) (after : Store) : Prop where
  ready : after.Ready
  memory : ∀ i, after.memory i = s.memory i
  allocated : ∀ i, after.allocated i = s.allocated i + if i = place.1 then byteLength else 0
  start : place.2 = s.allocated place.1
  bound : place.1 < after.segments.length
  segments : s.segments.length ≤ after.segments.length

theorem Keeps.refl (s : Store) : s.Keeps s := ⟨fun _ => rfl, fun _ => Int.le_refl _, Nat.le_refl _⟩

theorem Grows.keeps {after : Store} (grows : s.Grows after) : s.Keeps after :=
  ⟨grows.memory, fun i => Int.le_of_eq (grows.allocated i).symm, grows.segments⟩

theorem Allocates.keeps {after : Store} {byteLength : Int} {place : Nat × Int} (lower : 0 ≤ byteLength)
    (allocates : s.Allocates byteLength place after) : s.Keeps after := by
  refine ⟨allocates.memory, ?_, allocates.segments⟩
  intro i
  rw [allocates.allocated]
  split
  · omega
  · omega

theorem getElem?_setSegment {id : Nat} {segment : SegmentObject} (bound : id < s.segments.length) (i : Nat) :
    (s.setSegment id segment).segments[i]? = if i = id then some segment else s.segments[i]? := by
  unfold setSegment
  rw [List.getElem?_set]
  by_cases here : id = i
  · rw [if_pos here, if_pos here.symm, if_pos bound]
  · rw [if_neg here, if_neg (Ne.symm here)]

theorem Ready.extend (ready : s.Ready) {id : Nat} {segment : SegmentObject} (found : s.segments[id]? = some segment)
    {byteLength : Int} (lower : 0 ≤ byteLength) (aligned : byteLength % 8 = 0)
    (room : hasCapacity s segment byteLength = true) :
    s.Allocates byteLength (id, segment.byteLength)
      (s.setSegment id { segment with byteLength := segment.byteLength + byteLength }) := by
  have bound := (List.getElem?_eq_some_iff.mp found).1
  have changed := @getElem?_setSegment s id { segment with byteLength := segment.byteLength + byteLength } bound
  have fits := of_decide_eq_true room
  have held := ready.holds id segment found
  have heldLower := held.lower
  have heldAligned := held.aligned
  constructor
  · refine ⟨⟨ready.writable, ?_, ?_, ?_⟩, ?_⟩
    · intro i other there
      rw [changed] at there
      split at there
      · rename_i here
        cases there
        subst here
        refine ⟨held.id, held.shared, held.made, ?_, ?_, ?_, ?_⟩
        · dsimp only
          omega
        · change segment.byteLength + byteLength ≤ (s.bytes segment.buffer).length
          omega
        · dsimp only
          omega
        · intro k beyond
          apply held.free k
          dsimp only at beyond
          omega
      · have old := ready.holds i other there
        exact ⟨old.id, old.shared, old.made, old.lower, old.inside, old.aligned, old.free⟩
    · intro i j first second here there same
      have at_ : ∀ (i : Nat) (other : SegmentObject), (s.setSegment id
          { segment with byteLength := segment.byteLength + byteLength }).segments[i]? = some other →
          ∃ old, s.segments[i]? = some old ∧ old.buffer = other.buffer := by
        intro i other there
        rw [changed] at there
        split at there
        · rename_i here
          cases there
          exact ⟨segment, here ▸ found, rfl⟩
        · exact ⟨other, there, rfl⟩
      obtain ⟨first', here', buffer⟩ := at_ i first here
      obtain ⟨second', there', buffer'⟩ := at_ j second there
      exact ready.unshared i j first' second' here' there' ((buffer.trans same).trans buffer'.symm)
    · left
      simp only [setSegment, List.length_set]
      exact ready.opened
    · simp only [setSegment, List.length_set]
      exact ready.opened
  · intro i
    unfold memory
    rw [changed]
    by_cases here : i = id
    · rw [if_pos here, here, found]
      rfl
    · rw [if_neg here]
      rfl
  · intro i
    unfold allocated
    rw [changed]
    by_cases here : i = id
    · rw [if_pos here, if_pos here, here, found]
      rfl
    · rw [if_neg here, if_neg here, Int.add_zero]
  · exact (allocated_of found).symm
  · simpa [setSegment] using bound
  · simp [setSegment]

theorem Ready.charge (ready : s.Ready) (limit : Int) : Ready { s with traversalLimit := limit } :=
  ⟨⟨ready.writable, fun i segment found => ⟨(ready.holds i segment found).id, (ready.holds i segment found).shared,
    (ready.holds i segment found).made, (ready.holds i segment found).lower, (ready.holds i segment found).inside,
    (ready.holds i segment found).aligned, (ready.holds i segment found).free⟩, ready.unshared, Or.inl ready.opened⟩,
    ready.opened⟩

end Store

theorem segmentAt_meets (s : Store) (id : Nat) :
    Meets (segmentAt id) s (fun segment after => s.segments[id]? = some segment ∧ after = s)
      fun _ after => after = s := by
  unfold Meets segmentAt
  cases s.segments[id]? with
  | none => rfl
  | some segment => exact ⟨rfl, rfl⟩

theorem newPointer_meets (s : Store) (id : Nat) (byteOffset : Int) :
    Meets (newPointer id byteOffset) s (fun _ after => after = { s with traversalLimit := s.traversalLimit - 8 })
      fun _ after => after = { s with traversalLimit := s.traversalLimit - 8 } := by
  apply Meets.bind
  change Meets (get >>= _) { s with traversalLimit := s.traversalLimit - 8 } _ _
  apply Meets.get
  split
  · rfl
  · apply Meets.bind
    apply (segmentAt_meets _ id).mono
    · rintro segment after ⟨_, rfl⟩
      split
      · rfl
      · rfl
    · rintro _ after rfl
      rfl

theorem assertWritable_meets (writable : s.readonly = false) :
    Meets assertWritable s (fun _ after => after = s) fun _ _ => False := by
  unfold Meets assertWritable
  rw [if_neg (by rw [writable]; exact Bool.false_ne_true)]

def Store.Fits (s : Store) (id : Nat) (byteLength : Int) : Prop :=
  ∃ segment, s.segments[id]? = some segment ∧ hasCapacity s segment byteLength = true

theorem room_meets (ready : s.Ready) {id : Nat} {segment : SegmentObject} (found : s.segments[id]? = some segment)
    {byteLength : Int} (lower : 0 ≤ byteLength) (aligned : byteLength % 8 = 0) (small : byteLength < 2 ^ 31) :
    Meets (if hasCapacity s segment byteLength then pure id else allocateSegment limit byteLength) s
      (fun there after => s.Offers byteLength there after ∧ (s.Fits id byteLength → there = id))
      fun _ after => after = s := by
  split
  · rename_i room
    exact ⟨⟨ready.toConsistent, .refl s, ready.opened, segment, found, room⟩, fun _ => rfl⟩
  · rename_i full
    apply (allocateSegment_meets ready.toConsistent ready.opened lower aligned small).mono
    · intro there after offers
      refine ⟨offers, ?_⟩
      rintro ⟨other, same, room⟩
      obtain rfl : segment = other := Option.some.inj (found.symm.trans same)
      exact absurd room full
    · exact fun _ _ same => same

theorem allocate_meets (ready : s.Ready) (id : Nat) {byteLength : Int} (lower : 0 ≤ byteLength)
    (small : byteLength < 2 ^ 31 - 8) :
    Meets (allocate limit id byteLength) s
      (fun place after => s.Allocates (padToWord byteLength) place after ∧
        (s.Fits id (padToWord byteLength) → place.1 = id))
      fun _ after => after.Ready ∧ s.Keeps after := by
  have padded := padToWord_of_lt lower (by omega)
  have aligned := padToWord_emod byteLength
  have bounded := padToWord_lt byteLength
  have positive : 0 ≤ padToWord byteLength := by omega
  apply Meets.bind
  apply (assertWritable_meets ready.writable).mono
  · rintro _ _ rfl
    dsimp only
    split
    · exact ⟨ready, .refl _⟩
    · apply Meets.bind
      apply (segmentAt_meets _ id).mono
      · rintro segment _ ⟨found, rfl⟩
        apply Meets.get
        apply Meets.bind
        apply (room_meets ready found positive aligned bounded).mono
        · rintro there grown ⟨⟨consistent, grows, opened, offered, target, room⟩, chosen⟩
          apply Meets.bind
          apply (segmentAt_meets grown there).mono
          · rintro other _ ⟨target', rfl⟩
            obtain rfl : offered = other := Option.some.inj (target.symm.trans target')
            have extends_ := Store.Ready.extend ⟨consistent, opened⟩ target positive aligned room
            have starts := extends_.start.trans (grows.allocated there)
            have allocates : ∀ limit, Store.Allocates _ (padToWord byteLength) (there, offered.byteLength) _ :=
              fun limit => ⟨extends_.ready.charge limit, fun i => (extends_.memory i).trans (grows.memory i),
                fun i => (extends_.allocated i).trans (by rw [grows.allocated]), starts, extends_.bound,
                Nat.le_trans grows.segments extends_.segments⟩
            apply Meets.bind
            change Meets (newPointer there offered.byteLength >>= _) _ _ _
            apply Meets.bind
            apply (newPointer_meets _ there offered.byteLength).mono
            · rintro _ _ rfl
              exact ⟨allocates _, chosen⟩
            · rintro _ _ rfl
              exact ⟨(allocates _).ready, (allocates _).keeps positive⟩
          · rintro _ _ rfl
            exact ⟨⟨consistent, opened⟩, grows.keeps⟩
        · rintro _ _ rfl
          exact ⟨ready, .refl _⟩
      · rintro _ _ rfl
        exact ⟨ready, .refl _⟩
  · exact fun _ _ failed => failed.elim

theorem Store.Unopened.open (unopened : s.Unopened) (writable : s.readonly = false) :
    ∃ buffer, s.arena = .single buffer ∧
      Store.Ready { s with segments := [{ id := 0, buffer := buffer, byteLength := 0 }] } ∧
      s.Grows { s with segments := [{ id := 0, buffer := buffer, byteLength := 0 }] } := by
  obtain ⟨none_, buffer, arena, made, zeros⟩ := unopened
  refine ⟨buffer, arena, ⟨⟨writable, ?_, ?_, ?_⟩, ?_⟩, ?_, ?_, ?_⟩
  · intro i segment found
    obtain ⟨rfl, rfl⟩ := Store.getElem?_singleton_segment rfl found
    refine ⟨rfl, ?_, made, Int.le_refl 0, Int.natCast_nonneg _, rfl, ?_⟩
    · dsimp only
      rw [arena]
      rfl
    · intro k _
      change memoryOf (s.bytes buffer) k = 0
      rw [zeros]
      exact Store.memoryOf_zeros _ k
  · intro i j first second here there _
    rw [(Store.getElem?_singleton_segment rfl here).1, (Store.getElem?_singleton_segment rfl there).1]
  · left
    dsimp only
    rw [arena]
    rfl
  · dsimp only
    rw [arena]
    rfl
  · intro i
    rw [Store.allocated, Store.allocated, none_]
    cases i with
    | zero => rfl
    | succ i => rfl
  · intro i
    rw [Store.memory, Store.memory, none_]
    cases i with
    | zero =>
        change memoryOf (s.bytes buffer) = fun _ => 0
        rw [zeros]
        funext k
        exact Store.memoryOf_zeros _ k
    | succ i => rfl
  · rw [none_]
    exact Nat.zero_le _

theorem openRoot_meets {opened : Store} (ready : opened.Ready) (grows : s.Grows opened) (none_ : s.segments = []) :
    Meets (do
      let now ← get
      let segment ← segmentAt 0
      if hasCapacity now segment 8 then do
        let _ ← allocate limit 0 8
        return 0
      else
        throw .MSG_SEGMENT_TOO_SMALL : StoreM Nat) opened
      (fun _ after => s.Allocates 8 (0, 0) after) fun _ after => after.Ready ∧ s.Keeps after := by
  have word : padToWord 8 = 8 := by decide
  have before : ∀ i, s.allocated i = 0 := by
    intro i
    rw [Store.allocated, none_]
    rfl
  apply Meets.get
  apply Meets.bind
  apply (segmentAt_meets opened 0).mono
  · rintro segment _ ⟨found, rfl⟩
    split
    · rename_i room
      apply Meets.bind
      apply (allocate_meets ready 0 (by decide) (by decide)).mono
      · rintro ⟨there, start⟩ after ⟨allocates, chosen⟩
        rw [word] at allocates chosen
        obtain rfl : there = 0 := chosen ⟨segment, found, room⟩
        have begins := allocates.start
        dsimp only at begins
        rw [grows.allocated, before] at begins
        exact ⟨allocates.ready, fun i => (allocates.memory i).trans (grows.memory i),
          fun i => (allocates.allocated i).trans (by rw [grows.allocated]), (before 0).symm, allocates.bound,
          Nat.le_trans grows.segments allocates.segments⟩
      · rintro _ after ⟨formed, keeps⟩
        exact ⟨formed, fun i => (keeps.memory i).trans (grows.memory i),
          fun i => grows.allocated i ▸ keeps.allocated i, Nat.le_trans grows.segments keeps.segments⟩
    · exact ⟨ready, grows.keeps⟩
  · rintro _ _ rfl
    exact ⟨ready, grows.keeps⟩

theorem openFirstSegment_meets (consistent : s.Consistent) (none_ : s.segments = []) :
    Meets (openFirstSegment limit) s (fun _ opened => opened.Ready ∧ s.Grows opened) fun _ after => after = s := by
  apply Meets.get
  rcases consistent.counted with counted | unopened
  · have empty : s.arena.getNumSegments = 0 := by
      rw [← counted, none_]
      rfl
    rw [if_pos empty]
    apply Meets.bind
    apply (allocateSegment_meets consistent counted (by decide) (by decide) (by decide)).mono
    · rintro _ opened ⟨formed, grows, length, _⟩
      exact ⟨⟨formed, length⟩, grows⟩
    · exact fun _ _ same => same
  · obtain ⟨buffer, arena, opened⟩ := unopened.open consistent.writable
    have some_ : (AnyArena.single buffer).getNumSegments ≠ 0 := Nat.one_ne_zero
    rw [arena, if_neg some_]
    exact opened

theorem getSegment_meets (consistent : s.Consistent) (id : Nat) :
    Meets (getSegment limit id) s
      (fun _ after => (s.segments ≠ [] ∧ after = s) ∨ (s.segments = [] ∧ s.Allocates 8 (0, 0) after))
      fun _ after => after.Consistent ∧ s.Keeps after := by
  apply Meets.get
  split
  · rename_i lazily
    have none_ : s.segments = [] := List.eq_nil_of_length_eq_zero lazily.2
    apply Meets.bind
    apply (openFirstSegment_meets consistent none_).mono
    · rintro _ opened ⟨ready, grows⟩
      apply (openRoot_meets ready grows none_).mono
      · exact fun _ _ allocates => Or.inr ⟨none_, allocates⟩
      · exact fun _ _ failed => ⟨failed.1.toConsistent, failed.2⟩
    · rintro _ _ rfl
      exact ⟨consistent, .refl _⟩
  · rename_i there
    split
    · exact ⟨consistent, .refl s⟩
    · rename_i bound
      left
      refine ⟨?_, rfl⟩
      rintro none_
      rw [none_] at bound there
      simp only [List.length_nil] at bound there
      omega

/-- A write inside what is allocated changes those bytes and no others. -/
structure Store.Writes (s : Store) (id offset : Nat) (bytes : Bytes) (after : Store) : Prop where
  consistent : after.Consistent
  allocated : ∀ i, after.allocated i = s.allocated i
  memory : ∀ i, after.memory i = if i = id then LittleEndian.store (s.memory id) offset bytes else s.memory i
  segments : after.segments.length = s.segments.length

theorem Store.Consistent.writes (consistent : s.Consistent) {id offset : Nat} {segment : SegmentObject}
    (found : s.segments[id]? = some segment) {bytes : Bytes} (inside : (offset : Int) + bytes.length ≤ s.allocated id) :
    s.Writes id offset bytes (s.setBuffer segment.buffer (overwrite (s.bytes segment.buffer) offset bytes)) := by
  rw [Store.allocated_of found] at inside
  have held := consistent.holds id segment found
  have fits := held.inside
  have within : offset + bytes.length ≤ (s.bytes segment.buffer).length := by omega
  have changed : ∀ buffer, Store.bytes (s.setBuffer segment.buffer
      (overwrite (s.bytes segment.buffer) offset bytes)) buffer =
      if buffer = segment.buffer then overwrite (s.bytes segment.buffer) offset bytes else s.bytes buffer := by
    intro buffer
    unfold Store.bytes Store.setBuffer
    rw [List.getElem?_set]
    by_cases here : segment.buffer = buffer
    · rw [if_pos here, if_pos here.symm, if_pos held.made]
      rfl
    · rw [if_neg here, if_neg (Ne.symm here)]
  have elsewhere : ∀ i other, s.segments[i]? = some other → i ≠ id → other.buffer ≠ segment.buffer := by
    intro i other there different same
    exact different (consistent.unshared i id other segment there found same)
  have lengths : ∀ buffer, (Store.bytes (s.setBuffer segment.buffer
      (overwrite (s.bytes segment.buffer) offset bytes)) buffer).length = (s.bytes buffer).length := by
    intro buffer
    rw [changed]
    split
    · rename_i here
      rw [here, LittleEndian.overwrite_length within]
    · rfl
  refine ⟨⟨consistent.writable, ?_, consistent.unshared, ?_⟩, fun _ => rfl, ?_, rfl⟩
  · intro i other there
    have old := consistent.holds i other there
    refine ⟨old.id, old.shared, ?_, old.lower, ?_, old.aligned, ?_⟩
    · simpa [Store.setBuffer] using old.made
    · rw [lengths]
      exact old.inside
    · intro k beyond
      rw [changed]
      split
      · rename_i same
        have here : i = id := consistent.unshared i id other segment there found same
        subst here
        obtain rfl : segment = other := Option.some.inj (found.symm.trans there)
        rw [LittleEndian.memoryOf_overwrite within, LittleEndian.store, if_neg (by omega)]
        exact old.free k beyond
      · exact old.free k beyond
  · rcases consistent.counted with counted | unopened
    · exact Or.inl counted
    · rw [unopened.segments] at found
      cases found
  · intro i
    cases there : s.segments[i]? with
    | none =>
        have different : i ≠ id := by
          rintro rfl
          rw [found] at there
          cases there
        rw [if_neg different, Store.memory, Store.memory, there]
        rw [show (s.setBuffer segment.buffer (overwrite (s.bytes segment.buffer) offset bytes)).segments[i]? = none from
          there]
    | some other =>
        have there' : (s.setBuffer segment.buffer
            (overwrite (s.bytes segment.buffer) offset bytes)).segments[i]? = some other := there
        rw [Store.memory_of there', changed]
        by_cases here : i = id
        · subst here
          obtain rfl : segment = other := Option.some.inj (found.symm.trans there)
          rw [if_pos rfl, if_pos rfl, LittleEndian.memoryOf_overwrite within, Store.memory_of found]
        · rw [if_neg (elsewhere i other there here), if_neg here, Store.memory_of there]

theorem write_meets (consistent : s.Consistent) {id offset : Nat} {bytes : Bytes}
    (inside : (offset : Int) + bytes.length ≤ s.allocated id) :
    Meets (write id offset bytes) s (fun _ after => s.Writes id offset bytes after) fun _ after => after = s := by
  apply Meets.bind
  apply (assertWritable_meets consistent.writable).mono
  · rintro _ _ rfl
    apply Meets.bind
    apply (segmentAt_meets _ id).mono
    · rintro segment _ ⟨found, rfl⟩
      apply Meets.get
      split
      · rfl
      · exact consistent.writes found inside
    · exact fun _ _ same => same
  · exact fun _ _ failed => failed.elim

/-! The messages there are to start with. -/

theorem mapM_ok {α β ε : Type} {f : α → Except ε β} {items : List α} {results : List β}
    (done : items.mapM f = .ok results) : List.Forall₂ (fun item result => f item = .ok result) items results := by
  induction items generalizing results with
  | nil =>
      cases done
      exact .nil
  | cons item items ih =>
      rw [List.mapM_cons] at done
      obtain ⟨result, first, rest⟩ := except_bind_eq_ok.mp done
      obtain ⟨others, later, same⟩ := except_bind_eq_ok.mp rest
      cases same
      exact .cons first (ih later)

/-- A message with its arena only, and buffers of whole words, each of which is one of the arena's. -/
structure Store.Stocked (s : Store) : Prop where
  segments : s.segments = []
  aligned : ∀ buffer, (s.bytes buffer).length % 8 = 0
  buffers : ∀ i buffer, s.arena.getBuffer i = .ok buffer → buffer = i ∧ buffer < s.heap.length

theorem singleSegmentArena_stocked {buffer : Bytes} (made : singleSegmentArena buffer = .ok s) : s.Stocked := by
  unfold singleSegmentArena at made
  split at made
  · cases made
  · rename_i aligned
    cases made
    refine ⟨rfl, ?_, ?_⟩
    · intro i
      cases i with
      | zero => exact Decidable.not_not.mp aligned
      | succ i => rfl
    · intro i buffer found
      unfold AnyArena.getBuffer at found
      dsimp only at found
      split at found
      · cases found
      · rename_i zero
        cases found
        exact ⟨(Decidable.not_not.mp zero).symm, Nat.zero_lt_one⟩

theorem multiSegmentArena_stocked {buffers : List Bytes} (made : multiSegmentArena buffers = .ok s) : s.Stocked := by
  unfold multiSegmentArena at made
  split at made
  · cases made
  · rename_i aligned
    cases made
    refine ⟨rfl, ?_, ?_⟩
    · intro i
      unfold Store.bytes
      cases found : buffers[i]? with
      | none => rfl
      | some buffer =>
          have member := List.mem_reverse.mpr (List.mem_of_getElem? found)
          simpa using List.find?_eq_none.mp aligned buffer member
    · intro i buffer found
      unfold AnyArena.getBuffer at found
      dsimp only at found
      split at found
      · cases found
      · rename_i found'
        cases found
        have bound : i < (List.range buffers.length).length := (List.getElem?_eq_some_iff.mp found').1
        rw [List.length_range] at bound
        rw [List.getElem?_range bound] at found'
        cases found'
        exact ⟨rfl, bound⟩

theorem Store.Stocked.preallocated {after : Store} (stocked : s.Stocked) (writable : s.readonly = false)
    (done : preallocateSegments s = .ok after) : after.Consistent := by
  obtain ⟨segments, made, same⟩ := except_bind_eq_ok.mp done
  cases same
  obtain ⟨length, each⟩ := List.forall₂_iff_get.mp (mapM_ok made)
  rw [List.length_range] at length
  have full : ∀ (i : Nat) (segment : SegmentObject), segments[i]? = some segment →
      s.arena.getBuffer i = .ok segment.buffer ∧ segment.id = i ∧
        segment.byteLength = (s.bytes segment.buffer).length := by
    intro i segment found
    obtain ⟨bound, rfl⟩ := List.getElem?_eq_some_iff.mp found
    have made := each i (by rw [List.length_range, length]; exact bound) bound
    simp only [List.get_eq_getElem, List.getElem_range] at made
    obtain ⟨buffer, shared, made⟩ := except_bind_eq_ok.mp made
    split at made
    · cases made
    · have shape := Except.ok.inj made
      rw [← shape]
      exact ⟨shared, rfl, rfl⟩
  refine ⟨writable, ?_, ?_, Or.inl length.symm⟩
  · intro i segment found
    obtain ⟨shared, id, byteLength⟩ := full i segment found
    refine ⟨id, shared, (stocked.buffers i _ shared).2, ?_, Int.le_of_eq byteLength, ?_, ?_⟩
    · rw [byteLength]
      exact Int.natCast_nonneg _
    · have aligned := stocked.aligned segment.buffer
      omega
    · intro k beyond
      rw [byteLength] at beyond
      simp only [memoryOf, List.getD_eq_getElem?_getD]
      rw [List.getElem?_eq_none]
      · rfl
      · change (s.bytes segment.buffer).length ≤ k
        omega
  · intro i j first second here there same
    have first' := stocked.buffers i _ (full i first here).1
    have second' := stocked.buffers j _ (full j second there).1
    rw [← first'.1, ← second'.1, same]

theorem newMessage_consistent {src : Source} (built : newMessage src = .ok s) (writable : s.readonly = false) :
    s.Consistent := by
  obtain ⟨stock, init, rest⟩ := except_bind_eq_ok.mp built
  have preallocates : ∀ {store : Store}, preallocateSegments store = .ok s → store.readonly = false := by
    intro store done
    obtain ⟨segments, _, same⟩ := except_bind_eq_ok.mp done
    cases same
    exact writable
  cases src with
  | undefined =>
      have made : stock = { heap := [List.replicate DEFAULT_BUFFER_SIZE.toNat 0], arena := .single 0 } := by
        unfold initMessage singleSegmentArena at init
        rw [if_neg (by rw [List.length_replicate]; decide)] at init
        exact (Except.ok.inj init).symm
      obtain rfl : stock = s := Except.ok.inj rest
      rw [made]
      exact ⟨rfl, nofun, nofun, Or.inr ⟨rfl, 0, rfl, Nat.zero_lt_one, rfl⟩⟩
  | single buffer => exact (singleSegmentArena_stocked init).preallocated (preallocates rest) rest
  | multi buffers => exact (multiSegmentArena_stocked init).preallocated (preallocates rest) rest
  | bytes buf packed singleSegment readonly =>
      obtain ⟨plain, _, init⟩ := except_bind_eq_ok.mp init
      obtain ⟨store, arena, same⟩ := except_bind_eq_ok.mp init
      have stocked : store.Stocked := by
        cases singleSegment with
        | true => exact singleSegmentArena_stocked arena
        | false =>
            obtain ⟨buffers, _, arena⟩ := except_bind_eq_ok.mp arena
            exact multiSegmentArena_stocked arena
      cases same
      have opened : Store.Stocked { store with readonly := readonly.getD true } :=
        ⟨stocked.segments, stocked.aligned, stocked.buffers⟩
      exact opened.preallocated (preallocates rest) rest

/-! Runs of allocations and writes. -/

/-- What `Segment.allocate` has returned. -/
structure Region where
  segment : Nat
  byteOffset : Int
  byteLength : Int

def Region.Apart (first second : Region) : Prop :=
  first.segment ≠ second.segment ∨ first.byteOffset + first.byteLength ≤ second.byteOffset ∨
    second.byteOffset + second.byteLength ≤ first.byteOffset

structure Allocation where
  store : Store
  regions : List Region

inductive Input
  | getSegment (id : Nat)
  | allocate (id : Nat) (byteLength : Int)
  -- bytes written from `offset` on in a region
  | write (region offset : Nat) (bytes : Bytes)

def left {α : Type} (program : StoreM α) (s : Store) : Store :=
  match program s with
  | .ok _ after => after
  | .error _ after => after

def Allocation.getSegment (limit : Nat) (a : Allocation) (id : Nat) : Allocation :=
  match SharedBuffers.getSegment limit id a.store with
  | .ok _ after => { store := after, regions := if a.store.segments.isEmpty then a.regions ++ [⟨0, 0, 8⟩] else a.regions }
  | .error _ after => { a with store := after }

def Allocation.allocate (limit : Nat) (a : Allocation) (id : Nat) (byteLength : Int) : Allocation :=
  match SharedBuffers.allocate limit id byteLength a.store with
  | .ok place after => { store := after, regions := a.regions ++ [⟨place.1, place.2, padToWord byteLength⟩] }
  | .error _ after => { a with store := after }

/-- Segments are asked for once they exist, sizes lie below 2^31 - 8, and writes inside a region. -/
def Allocation.step (limit : Nat) (a : Allocation) : Input → Option Allocation
  | .getSegment id => some (a.getSegment limit id)
  | .allocate id byteLength =>
      if id < a.store.segments.length ∧ 0 ≤ byteLength ∧ byteLength < 2 ^ 31 - 8 then
        some (a.allocate limit id byteLength)
      else none
  | .write k offset bytes =>
      match a.regions[k]? with
      | none => none
      | some region =>
          if offset + bytes.length ≤ region.byteLength then
            some { a with store := left (write region.segment (region.byteOffset + offset) bytes) a.store }
          else none

/-- What the regions of a message made as `start` are to each other, to its segments and to what it held before. -/
structure Allocation.Sound (start : Store) (a : Allocation) : Prop where
  aligned : ∀ region ∈ a.regions, region.byteOffset % 8 = 0 ∧ region.byteLength % 8 = 0
  inside : ∀ region ∈ a.regions, ∃ segment, a.store.segments[region.segment]? = some segment ∧
    0 ≤ region.byteOffset ∧ 0 ≤ region.byteLength ∧ region.byteOffset + region.byteLength ≤ segment.byteLength
  disjoint : a.regions.Pairwise Region.Apart
  before : ∀ region ∈ a.regions, start.allocated region.segment ≤ region.byteOffset
  buffers : ∀ (i : Nat) (segment : SegmentObject), a.store.segments[i]? = some segment → segment.id = i ∧
    a.store.arena.getBuffer i = .ok segment.buffer ∧ segment.byteLength ≤ (a.store.bytes segment.buffer).length
  unshared : ∀ (i j : Nat) (first second : SegmentObject), a.store.segments[i]? = some first →
    a.store.segments[j]? = some second → first.buffer = second.buffer → i = j

/-- Every byte that was allocated stays, and a region that is returned reads as zero. -/
def Allocation.AllocatesSafely (limit : Nat) (a : Allocation) (id : Nat) (byteLength : Int) : Prop :=
  Meets (SharedBuffers.allocate limit id byteLength) a.store
    (fun place after => (∀ i (k : Nat), k < a.store.allocated i → after.memory i k = a.store.memory i k) ∧
      ∀ k : Nat, place.2 ≤ k → k < place.2 + padToWord byteLength → after.memory place.1 k = 0)
    fun _ after => ∀ i (k : Nat), k < a.store.allocated i → after.memory i k = a.store.memory i k

structure Allocation.Invariant (start : Store) (a : Allocation) : Prop where
  consistent : a.store.Consistent
  aligned : ∀ region ∈ a.regions, region.byteOffset % 8 = 0 ∧ region.byteLength % 8 = 0
  inside : ∀ region ∈ a.regions, region.segment < a.store.segments.length ∧ 0 ≤ region.byteOffset ∧
    0 ≤ region.byteLength ∧ region.byteOffset + region.byteLength ≤ a.store.allocated region.segment
  disjoint : a.regions.Pairwise Region.Apart
  before : ∀ region ∈ a.regions, start.allocated region.segment ≤ region.byteOffset
  grown : ∀ i, start.allocated i ≤ a.store.allocated i

namespace Allocation

variable {a : Allocation} {start : Store}

theorem Invariant.sound (invariant : a.Invariant start) : a.Sound start where
  aligned := invariant.aligned
  inside region member := by
    obtain ⟨bound, lower, positive, upper⟩ := invariant.inside region member
    have found := List.getElem?_eq_getElem bound
    rw [Store.allocated_of found] at upper
    exact ⟨_, found, lower, positive, upper⟩
  disjoint := invariant.disjoint
  before := invariant.before
  buffers i segment found :=
    have held := invariant.consistent.holds i segment found
    ⟨held.id, held.shared, held.inside⟩
  unshared := invariant.consistent.unshared

theorem Invariant.keeps (invariant : a.Invariant start) {after : Store} (consistent : after.Consistent)
    (keeps : a.store.Keeps after) : Invariant start { a with store := after } where
  consistent := consistent
  aligned := invariant.aligned
  inside region member := by
    obtain ⟨bound, lower, positive, upper⟩ := invariant.inside region member
    exact ⟨Nat.lt_of_lt_of_le bound keeps.segments, lower, positive, Int.le_trans upper (keeps.allocated _)⟩
  disjoint := invariant.disjoint
  before := invariant.before
  grown i := Int.le_trans (invariant.grown i) (keeps.allocated i)

theorem Invariant.add (invariant : a.Invariant start) {after : Store} {place : Nat × Int} {byteLength : Int}
    (lower : 0 ≤ byteLength) (aligned : byteLength % 8 = 0) (starts : place.2 % 8 = 0 ∧ 0 ≤ place.2)
    (allocates : a.store.Allocates byteLength place after) :
    Invariant start { store := after, regions := a.regions ++ [⟨place.1, place.2, byteLength⟩] } := by
  have kept := invariant.keeps allocates.ready.toConsistent (allocates.keeps lower)
  refine ⟨kept.consistent, ?_, ?_, ?_, ?_, kept.grown⟩
  · intro region member
    rcases List.mem_append.mp member with old | new
    · exact kept.aligned region old
    · cases List.mem_singleton.mp new
      exact ⟨starts.1, aligned⟩
  · intro region member
    rcases List.mem_append.mp member with old | new
    · exact kept.inside region old
    · cases List.mem_singleton.mp new
      refine ⟨allocates.bound, starts.2, lower, ?_⟩
      apply Int.le_of_eq
      dsimp only
      rw [allocates.allocated, if_pos rfl, allocates.start]
  · rw [List.pairwise_append]
    refine ⟨kept.disjoint, List.pairwise_singleton _ _, ?_⟩
    intro region old other new
    cases List.mem_singleton.mp new
    by_cases same : region.segment = place.1
    · right
      left
      dsimp only
      rw [allocates.start, ← same]
      exact (invariant.inside region old).2.2.2
    · exact Or.inl same
  · intro region member
    rcases List.mem_append.mp member with old | new
    · exact kept.before region old
    · cases List.mem_singleton.mp new
      dsimp only
      rw [allocates.start]
      exact invariant.grown place.1

theorem start_aligned (consistent : a.store.Consistent) (i : Nat) :
    a.store.allocated i % 8 = 0 ∧ 0 ≤ a.store.allocated i := by
  cases found : a.store.segments[i]? with
  | none =>
      rw [Store.allocated, found]
      exact ⟨rfl, Int.le_refl 0⟩
  | some segment =>
      rw [Store.allocated_of found]
      exact ⟨(consistent.holds i segment found).aligned, (consistent.holds i segment found).lower⟩

theorem Invariant.getSegment (invariant : a.Invariant start) (id : Nat) : (a.getSegment limit id).Invariant start := by
  have meets := @getSegment_meets a.store limit invariant.consistent id
  unfold Meets at meets
  unfold Allocation.getSegment
  cases run : SharedBuffers.getSegment limit id a.store with
  | ok _ after =>
      rw [run] at meets
      dsimp only
      rcases meets with ⟨some_, rfl⟩ | ⟨none_, allocates⟩
      · rw [if_neg (by simpa using some_)]
        exact invariant
      · rw [none_]
        exact invariant.add (by decide) (by decide) ⟨rfl, Int.le_refl 0⟩ allocates
  | error _ after =>
      rw [run] at meets
      exact invariant.keeps meets.1 meets.2

theorem Invariant.ready (invariant : a.Invariant start) {id : Nat} (bound : id < a.store.segments.length) :
    a.store.Ready := by
  refine ⟨invariant.consistent, ?_⟩
  rcases invariant.consistent.counted with counted | unopened
  · exact counted
  · rw [unopened.segments] at bound
    cases bound

theorem Invariant.allocate (invariant : a.Invariant start) {id : Nat} (bound : id < a.store.segments.length)
    {byteLength : Int} (lower : 0 ≤ byteLength) (small : byteLength < 2 ^ 31 - 8) :
    (a.allocate limit id byteLength).Invariant start := by
  have ready := invariant.ready bound
  have meets := @allocate_meets a.store limit ready id byteLength lower small
  have padded := padToWord_of_lt lower (by omega)
  unfold Meets at meets
  unfold Allocation.allocate
  cases run : SharedBuffers.allocate limit id byteLength a.store with
  | ok place after =>
      rw [run] at meets
      have starts := start_aligned ready.toConsistent place.1
      rw [← meets.1.start] at starts
      exact invariant.add (by omega) (padToWord_emod byteLength) starts meets.1
  | error _ after =>
      rw [run] at meets
      exact invariant.keeps meets.1.toConsistent meets.2

theorem Invariant.write (invariant : a.Invariant start) {region : Region} (member : region ∈ a.regions) {offset : Nat}
    {bytes : Bytes} (fits : offset + bytes.length ≤ region.byteLength) :
    Invariant start { a with store := left (write region.segment (region.byteOffset + offset) bytes) a.store } := by
  obtain ⟨_, lower, _, upper⟩ := invariant.inside region member
  obtain ⟨first, same⟩ := Int.eq_ofNat_of_zero_le lower
  have inside : ((first + offset : Nat) : Int) + bytes.length ≤ a.store.allocated region.segment := by omega
  have meets := write_meets invariant.consistent inside
  have position : region.byteOffset + offset = ((first + offset : Nat) : Int) := by omega
  rw [position]
  unfold Meets at meets
  unfold left
  cases run : SharedBuffers.write region.segment ((first + offset : Nat) : Int) bytes a.store with
  | ok _ after =>
      rw [run] at meets
      refine ⟨meets.consistent, invariant.aligned, ?_, invariant.disjoint, invariant.before, ?_⟩
      · intro other member
        obtain ⟨bound, rest⟩ := invariant.inside other member
        dsimp only
        rw [meets.segments, meets.allocated]
        exact ⟨bound, rest⟩
      · intro i
        dsimp only
        rw [meets.allocated]
        exact invariant.grown i
  | error _ after =>
      rw [run] at meets
      subst meets
      exact invariant

theorem Invariant.step (invariant : a.Invariant start) {input : Input} {after : Allocation}
    (taken : a.step limit input = some after) : after.Invariant start := by
  cases input with
  | getSegment id =>
      cases taken
      exact invariant.getSegment id
  | allocate id byteLength =>
      unfold Allocation.step at taken
      dsimp only at taken
      split at taken
      · rename_i fine
        cases taken
        exact invariant.allocate fine.1 fine.2.1 fine.2.2
      · cases taken
  | write k offset bytes =>
      unfold Allocation.step at taken
      dsimp only at taken
      split at taken
      · cases taken
      · rename_i region found
        split at taken
        · rename_i fits
          cases taken
          exact invariant.write (List.mem_of_getElem? found) fits
        · cases taken

theorem invariant_start (consistent : start.Consistent) : Invariant start ⟨start, []⟩ where
  consistent := consistent
  aligned := nofun
  inside := nofun
  disjoint := .nil
  before := nofun
  grown _ := Int.le_refl _

theorem Invariant.allocatesSafely (invariant : a.Invariant start) {id : Nat} (bound : id < a.store.segments.length)
    {byteLength : Int} (lower : 0 ≤ byteLength) (small : byteLength < 2 ^ 31 - 8) :
    a.AllocatesSafely limit id byteLength := by
  have ready := invariant.ready bound
  apply (allocate_meets ready id lower small).mono
  · rintro place after ⟨allocates, _⟩
    refine ⟨fun i k _ => congrFun (allocates.memory i) k, ?_⟩
    intro k first _
    rw [allocates.memory]
    rw [allocates.start] at first
    cases found : a.store.segments[place.1]? with
    | none =>
        rw [Store.memory, found]
    | some segment =>
        rw [Store.allocated_of found] at first
        rw [Store.memory_of found]
        exact (ready.holds place.1 segment found).free k first
  · rintro _ after ⟨_, keeps⟩ i k _
    exact congrFun (keeps.memory i) k

end Allocation

/-- Segment allocation is sound in every run of a message that can be written. -/
theorem allocation_sound {src : Source} {start : Store} (built : newMessage src = .ok start)
    (writable : start.readonly = false) (limit : Nat) {a : Allocation}
    (run : Transition.Run (Allocation.step limit) (fun _ _ _ => True) ⟨start, []⟩ a) :
    a.Sound start ∧ ∀ id byteLength, id < a.store.segments.length → 0 ≤ byteLength → byteLength < 2 ^ 31 - 8 →
      a.AllocatesSafely limit id byteLength := by
  have invariant : a.Invariant start := by
    apply run.invariant (Allocation.invariant_start (newMessage_consistent built writable))
    intro before input after invariant taken _
    exact invariant.step taken
  exact ⟨invariant.sound, fun id byteLength bound lower small => invariant.allocatesSafely bound lower small⟩

def wordStore : Store :=
  { heap := [[1, 0, 0, 0, 0, 0, 0, 0]], arena := .single 0, segments := [{ id := 0, buffer := 0, byteLength := 8 }] }

theorem allocation_sound_word : (Allocation.allocate 4096 ⟨wordStore, []⟩ 0 16).Sound wordStore := by
  have built : newMessage (.single [1, 0, 0, 0, 0, 0, 0, 0]) = .ok wordStore := rfl
  have taken : Allocation.step 4096 ⟨wordStore, []⟩ (.allocate 0 16) =
      some (Allocation.allocate 4096 ⟨wordStore, []⟩ 0 16) := by
    unfold Allocation.step
    exact if_pos (by decide)
  exact (allocation_sound built rfl 4096 (.step .start taken trivial)).1

end CapnpEs.SharedBuffers
