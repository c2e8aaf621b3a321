import CapnpEs.Serialization.Pointers.ShownObjects
import CapnpEs.Serialization.SegmentAllocation

/-! Copies of messages: `copy` of `message.ts` and `arena.ts`, for a message and its copy on one heap. -/

namespace CapnpEs.SharedBuffers

open Outcome Transition

namespace AnyArena

def buffers : AnyArena → List Nat
  | .single buffer => [buffer]
  | .multi buffers => buffers

def kind : AnyArena → ArenaKind
  | .single _ => .SINGLE_SEGMENT
  | .multi _ => .MULTI_SEGMENT

theorem getBuffer_eq_ok {arena : AnyArena} {id buffer : Nat} :
    arena.getBuffer id = .ok buffer ↔ arena.buffers[id]? = some buffer := by
  cases arena with
  | single only => cases id <;> simp [getBuffer, buffers]
  | multi all =>
      simp only [getBuffer, buffers]
      cases all[id]? <;> simp

theorem getNumSegments_eq (arena : AnyArena) : arena.getNumSegments = arena.buffers.length := by
  cases arena <;> rfl

end AnyArena

/-- `buffer.slice(0)` -/
def slice (buffer : Nat) : StoreM Nat := fun s =>
  .ok s.heap.length { s with heap := s.heap ++ [s.bytes buffer] }

/-- The loop of `Arena.copy`, which starts with the last buffer. -/
def slices : List Nat → StoreM (List Nat)
  | [] => return []
  | buffer :: buffers => do
      let copied ← slices buffers
      let first ← slice buffer
      return first :: copied

def singleArena (buffer : Nat) : StoreM AnyArena := do
  let s ← get
  if (s.bytes buffer).length % 8 ≠ 0 then
    throw (.SEG_NOT_WORD_ALIGNED (s.bytes buffer).length)
  else
    return .single buffer

def multiArena (buffers : List Nat) : StoreM AnyArena := do
  let s ← get
  match buffers.reverse.find? fun buffer => (s.bytes buffer).length % 8 ≠ 0 with
  | some buffer => throw (.SEG_NOT_WORD_ALIGNED (s.bytes buffer).length)
  | none => return .multi buffers

/-- `Arena.copy`. -/
def arenaCopy : StoreM AnyArena := do
  match (← get).arena with
  | .multi buffers => slices buffers >>= multiArena
  | .single buffer => slice buffer >>= singleArena

/-- `Message.copy`: the copy, on the heap of the message. -/
def copy : StoreM Store := do
  let arena ← arenaCopy
  ofExcept (preallocateSegments { heap := (← get).heap, arena := arena })

def Store.message (s : Store) : Message where
  arena := { kind := s.arena.kind, buffers := (s.arena.buffers.drop s.segments.length).map s.bytes }
  segments := s.segments.map fun segment => { buffer := s.bytes segment.buffer, byteLength := segment.byteLength }
  traversalLimit := s.traversalLimit
  readonly := s.readonly
  capTable := none

/-! A message and its copy, and what is done with one of them later. -/

inductive Op
  | getSegment (id : Nat)
  | allocate (id : Nat) (byteLength : Int)
  | write (id : Nat) (byteOffset : Int) (bytes : Bytes)

def Op.run (limit : Nat) (s : Store) : Op → Store
  | .getSegment id => left (SharedBuffers.getSegment limit id) s
  | .allocate id byteLength => left (SharedBuffers.allocate limit id byteLength) s
  | .write id byteOffset bytes => left (SharedBuffers.write id byteOffset bytes) s

structure Pair where
  original : Store
  copy : Store

inductive Side
  | original
  | copy

def Pair.step (limit : Nat) (pair : Pair) : Side × Op → Option Pair
  | (.original, op) =>
      let after := op.run limit pair.original
      some { original := after, copy := { pair.copy with heap := after.heap } }
  | (.copy, op) =>
      let after := op.run limit pair.copy
      some { original := { pair.original with heap := after.heap }, copy := after }

def Store.refs (s : Store) : List Nat := s.arena.buffers ++ s.segments.map SegmentObject.buffer

/-- Buffers of whole words, the first of which has room for a pointer. -/
structure Store.Stored (s : Store) : Prop where
  made : ∀ buffer ∈ s.refs, buffer < s.heap.length
  aligned : ∀ bytes ∈ s.heap, bytes.length % 8 = 0
  first : ∀ buffer, s.arena.buffers[0]? = some buffer → 8 ≤ (s.bytes buffer).length

/-- What an operation on one message does to the heap: the buffers that the message does not hold stay as they are,
and it takes new ones only. -/
structure Store.Touches (s after : Store) : Prop where
  longer : s.heap.length ≤ after.heap.length
  others : ∀ buffer < s.heap.length, buffer ∉ s.refs → after.bytes buffer = s.bytes buffer
  refs : ∀ buffer ∈ after.refs, buffer ∈ s.refs ∨ s.heap.length ≤ buffer ∧ buffer < after.heap.length
  stored : s.Stored → after.Stored

namespace Store.Touches

variable {s middle after : Store}

theorem refl (s : Store) : s.Touches s := ⟨Nat.le_refl _, fun _ _ _ => rfl, fun _ member => Or.inl member, id⟩

theorem trans (first : s.Touches middle) (second : middle.Touches after) : s.Touches after where
  longer := Nat.le_trans first.longer second.longer
  others buffer made apart := by
    have away : buffer ∉ middle.refs := by
      intro member
      rcases first.refs buffer member with old | ⟨new, -⟩
      · exact apart old
      · exact Nat.not_lt_of_le new made
    exact (second.others buffer (Nat.lt_of_lt_of_le made first.longer) away).trans (first.others buffer made apart)
  refs buffer member := by
    rcases second.refs buffer member with old | ⟨new, made⟩
    · rcases first.refs buffer old with older | ⟨newer, made⟩
      · exact Or.inl older
      · exact Or.inr ⟨newer, Nat.lt_of_lt_of_le made second.longer⟩
    · exact Or.inr ⟨Nat.le_trans first.longer new, made⟩
  stored before := second.stored (first.stored before)

theorem of_same (heap : after.heap = s.heap) (arena : after.arena = s.arena)
    (refs : ∀ buffer ∈ after.refs, buffer ∈ s.refs) : s.Touches after where
  longer := Nat.le_of_eq (congrArg List.length heap.symm)
  others buffer _ _ := by rw [Store.bytes, heap, Store.bytes]
  refs buffer member := Or.inl (refs buffer member)
  stored before := by
    refine ⟨fun buffer member => heap ▸ before.made buffer (refs buffer member), heap ▸ before.aligned, ?_⟩
    rw [arena]
    intro buffer found
    rw [Store.bytes, heap]
    exact before.first buffer found

end Store.Touches

def Confined {α : Type} (program : StoreM α) : Prop :=
  ∀ s, Meets program s (fun _ after => s.Touches after) fun _ after => s.Touches after

namespace Confined

variable {α β : Type} {program : StoreM α} {next : α → StoreM β}

theorem bind (first : Confined program) (second : ∀ value, Confined (next value)) : Confined (program >>= next) := by
  intro s
  apply Meets.bind
  apply (first s).mono
  · intro value middle touched
    exact (second value middle).mono (fun _ _ more => touched.trans more) fun _ _ more => touched.trans more
  · exact fun _ _ touched => touched

theorem pure (value : α) : Confined (Pure.pure value : StoreM α) := fun s => .refl s

theorem throw (error : CapnpError) : Confined (MonadExcept.throw error : StoreM α) := fun s => .refl s

theorem get : Confined (MonadState.get : StoreM Store) := fun s => .refl s

theorem of_ite {condition : Prop} [Decidable condition] {other : StoreM α} (yes : Confined program) (no : Confined other) :
    Confined (if condition then program else other) := by
  split
  · exact yes
  · exact no

end Confined

theorem segmentAt_confined (id : Nat) : Confined (segmentAt id) := by
  intro s
  apply (segmentAt_meets s id).mono
  · rintro _ _ ⟨_, rfl⟩
    exact .refl _
  · rintro _ _ rfl
    exact .refl _

theorem assertWritable_confined : Confined assertWritable := by
  intro s
  unfold Meets assertWritable
  cases s.readonly <;> exact .refl s

variable {s : Store} {limit : Nat}

theorem touches_append {bytes : Bytes} {arena : AnyArena} (refs : ∀ buffer ∈ arena.buffers,
    buffer ∈ s.arena.buffers ∨ buffer = s.heap.length)
    (stored : s.Stored → bytes.length % 8 = 0 ∧ 8 ≤ bytes.length)
    (first : ∀ buffer, arena.buffers[0]? = some buffer → s.arena.buffers[0]? = some buffer ∨ buffer = s.heap.length) :
    s.Touches { s with heap := s.heap ++ [bytes], arena := arena } := by
  obtain ⟨kept, added⟩ := @Store.bytes_of_append s { s with heap := s.heap ++ [bytes], arena := arena } bytes rfl
  have longer : s.heap.length < (s.heap ++ [bytes]).length := by simp
  have held : ∀ buffer ∈ ({ s with heap := s.heap ++ [bytes], arena := arena } : Store).refs,
      buffer ∈ s.refs ∨ s.heap.length ≤ buffer ∧ buffer < (s.heap ++ [bytes]).length := by
    intro buffer member
    rcases List.mem_append.mp member with old | segment
    · rcases refs buffer old with known | rfl
      · exact Or.inl (List.mem_append_left _ known)
      · exact Or.inr ⟨Nat.le_refl _, longer⟩
    · exact Or.inl (List.mem_append_right _ segment)
  refine ⟨Nat.le_of_lt longer, fun buffer made _ => kept buffer made, held, fun before => ⟨?_, ?_, ?_⟩⟩
  · intro buffer member
    rcases held buffer member with old | new
    · exact Nat.lt_trans (before.made buffer old) longer
    · exact new.2
  · intro other member
    rcases List.mem_append.mp member with old | new
    · exact before.aligned other old
    · rw [List.mem_singleton.mp new]
      exact (stored before).1
  · intro buffer found
    rcases first buffer found with old | rfl
    · rw [kept buffer (before.made buffer (List.mem_append_left _ (List.mem_of_getElem? old)))]
      exact before.first buffer old
    · rw [added]
      exact (stored before).2

theorem bytes_aligned (stored : s.Stored) (buffer : Nat) : (s.bytes buffer).length % 8 = 0 := by
  unfold Store.bytes
  cases found : s.heap[buffer]? with
  | none => rfl
  | some bytes => exact stored.aligned bytes (List.mem_of_getElem? found)

theorem length_overwrite_zeros (bytes : Bytes) (growth : Nat) :
    (LittleEndian.overwrite (List.replicate (bytes.length + growth) 0) 0 bytes).length = bytes.length + growth := by
  rw [LittleEndian.overwrite_length (by rw [List.length_replicate]; omega), List.length_replicate]

theorem arenaAllocate_meets (s : Store) (limit : Nat) {minSize : Int} (aligned : minSize % 8 = 0)
    (small : minSize < 2 ^ 31) :
    Meets (arenaAllocate limit minSize) s (fun res after => s.Touches after ∧ res.2 ∈ after.refs)
      fun _ after => s.Touches after := by
  apply Meets.get
  cases arena : s.arena with
  | single buffer =>
      dsimp only
      generalize sized : (if minSize < MIN_SINGLE_SEGMENT_GROWTH then MIN_SINGLE_SEGMENT_GROWTH else padToWord minSize) =
        growth
      have grows : 8 ≤ growth ∧ growth % 8 = 0 := by
        rw [← sized]
        by_cases short : minSize < MIN_SINGLE_SEGMENT_GROWTH
        · rw [if_pos short]
          decide
        · rw [if_neg short]
          rw [MIN_SINGLE_SEGMENT_GROWTH] at short
          rw [padToWord_aligned (by omega) small aligned]
          omega
      have source : (s.segments.head?.map SegmentObject.buffer).getD buffer ∈ s.refs := by
        unfold Store.refs
        rw [arena]
        cases s.segments with
        | nil => exact List.mem_append_left _ List.mem_cons_self
        | cons segment segments => exact List.mem_append_right _ List.mem_cons_self
      revert source
      generalize (s.segments.head?.map SegmentObject.buffer).getD buffer = srcBuffer
      intro source
      apply Meets.bind
      apply (newBuffer_meets s limit _).mono
      · rintro grown after ⟨_, rfl, rfl⟩
        have set (zeros bytes : Bytes) : (s.heap ++ [zeros]).set s.heap.length bytes = s.heap ++ [bytes] := by simp
        have count : ((s.bytes srcBuffer).length + growth : Int).toNat = (s.bytes srcBuffer).length + growth.toNat := by
          omega
        refine ⟨?_, List.mem_append_left _ (List.mem_singleton.mpr rfl)⟩
        obtain ⟨kept, added⟩ := @Store.bytes_of_append s { s with heap := s.heap ++ [List.replicate
          ((s.bytes srcBuffer).length + growth : Int).toNat 0] } _ rfl
        change s.Touches { s with heap := (s.heap ++ [_]).set s.heap.length _, arena := .single s.heap.length }
        rw [set]
        refine touches_append (fun buffer member => Or.inr (List.mem_singleton.mp member)) (fun stored => ?_)
          fun buffer found => Or.inr (Option.some.inj found).symm
        have whole := bytes_aligned stored srcBuffer
        change (LittleEndian.overwrite (Store.bytes _ s.heap.length) 0 (Store.bytes _ srcBuffer)).length % 8 = 0 ∧
          8 ≤ (LittleEndian.overwrite (Store.bytes _ s.heap.length) 0 (Store.bytes _ srcBuffer)).length
        rw [added, kept srcBuffer (stored.made srcBuffer source), count, length_overwrite_zeros]
        omega
      · rintro _ _ rfl
        exact .refl _
  | multi buffers =>
      dsimp only
      apply Meets.bind
      apply (newBuffer_meets s limit _).mono
      · rintro b after ⟨_, rfl, rfl⟩
        refine ⟨touches_append (fun buffer member => ?_) (fun _ => ?_) (fun buffer found => ?_), ?_⟩
        · rw [arena]
          rcases List.mem_append.mp member with old | new
          · exact Or.inl old
          · exact Or.inr (List.mem_singleton.mp new)
        · rw [List.length_replicate, DEFAULT_BUFFER_SIZE, padToWord_aligned (by omega) (by omega) (by omega)]
          omega
        · rw [arena]
          cases buffers with
          | nil => exact Or.inr (Option.some.inj found).symm
          | cons first others => exact Or.inl found
        · exact List.mem_append_left _ (List.mem_append_right _ (List.mem_singleton.mpr rfl))
      · rintro _ _ rfl
        exact .refl _

theorem refs_setSegment {id buffer : Nat} (segment : SegmentObject) (held : segment.buffer ∈ s.refs)
    (member : buffer ∈ (s.setSegment id segment).refs) : buffer ∈ s.refs := by
  rcases List.mem_append.mp member with arena | other
  · exact List.mem_append_left _ arena
  · obtain ⟨changed, inside, rfl⟩ := List.mem_map.mp other
    rcases List.mem_or_eq_of_mem_set inside with old | rfl
    · exact List.mem_append_right _ (List.mem_map.mpr ⟨changed, old, rfl⟩)
    · exact held

theorem buffer_mem_refs {id : Nat} {segment : SegmentObject} (found : s.segments[id]? = some segment) :
    segment.buffer ∈ s.refs :=
  List.mem_append_right _ (List.mem_map.mpr ⟨segment, List.mem_of_getElem? found, rfl⟩)

theorem assertWritable_keeps (s : Store) : Meets assertWritable s (fun _ after => after = s) fun _ after => after = s := by
  unfold Meets assertWritable
  cases s.readonly <;> rfl

theorem replaceBuffer_meets {id buffer : Nat} (held : buffer ∈ s.refs) :
    Meets (replaceBuffer id buffer) s (fun _ after => s.Touches after) fun _ after => s.Touches after := by
  apply Meets.bind
  apply (segmentAt_meets s id).mono
  · rintro segment _ ⟨found, rfl⟩
    split
    · exact .refl _
    · apply Meets.bind
      apply (assertWritable_keeps _).mono
      · rintro _ _ rfl
        apply Meets.get
        split
        · exact .refl _
        · exact .of_same rfl rfl fun other member => refs_setSegment { segment with buffer := buffer } held member
      · rintro _ _ rfl
        exact .refl _
  · rintro _ _ rfl
    exact .refl _

theorem allocateSegment_confined (limit : Nat) {byteLength : Int} (aligned : byteLength % 8 = 0)
    (small : byteLength < 2 ^ 31) : Confined (allocateSegment limit byteLength) := by
  intro s
  apply Meets.bind
  apply (arenaAllocate_meets s limit aligned small).mono
  · rintro res middle ⟨touched, held⟩
    apply Meets.get
    split
    · refine touched.trans (.of_same rfl rfl fun buffer member => ?_)
      rcases List.mem_append.mp member with arena | segment
      · exact List.mem_append_left _ arena
      · rw [List.map_append] at segment
        rcases List.mem_append.mp segment with old | new
        · exact List.mem_append_right _ old
        · rw [List.mem_singleton.mp new]
          exact held
    · split
      · exact touched
      · apply Meets.bind
        apply (replaceBuffer_meets held).mono
        · exact fun _ _ more => touched.trans more
        · exact fun _ _ more => touched.trans more
  · exact fun _ _ touched => touched

theorem newPointer_confined (id : Nat) (byteOffset : Int) : Confined (newPointer id byteOffset) := by
  intro s
  apply (newPointer_meets s id byteOffset).mono
  · rintro _ _ rfl
    exact .of_same rfl rfl fun _ member => member
  · rintro _ _ rfl
    exact .of_same rfl rfl fun _ member => member

theorem allocate_confined (limit id : Nat) (byteLength : Int) : Confined (SharedBuffers.allocate limit id byteLength) := by
  refine assertWritable_confined.bind fun _ => ?_
  refine .of_ite (.throw _) ?_
  refine (segmentAt_confined id).bind fun segment => ?_
  refine Confined.get.bind fun s => ?_
  refine .bind (.of_ite (.pure id) (allocateSegment_confined limit (padToWord_emod _) (padToWord_lt _))) fun there => ?_
  intro grown
  apply Meets.bind
  apply (segmentAt_meets grown there).mono
  · rintro segment now ⟨found, rfl⟩
    have held : segment.buffer ∈ now.refs := buffer_mem_refs found
    have extended : now.Touches (now.setSegment there
        { segment with byteLength := segment.byteLength + padToWord byteLength }) :=
      .of_same rfl rfl fun buffer member =>
        refs_setSegment { segment with byteLength := segment.byteLength + padToWord byteLength } held member
    have tracked := ((newPointer_confined there segment.byteLength).bind fun _ => .pure (there, segment.byteLength))
      (now.setSegment there { segment with byteLength := segment.byteLength + padToWord byteLength })
    apply Meets.bind
    exact tracked.mono (fun _ _ touched => extended.trans touched) fun _ _ touched => extended.trans touched
  · rintro _ _ rfl
    exact .refl _

theorem openFirstSegment_confined (limit : Nat) : Confined (openFirstSegment limit) := by
  intro s
  apply Meets.get
  split
  · apply Meets.bind
    exact (allocateSegment_confined limit (by decide) (by decide) s).mono (fun _ _ touched => touched) fun _ _ touched => touched
  · apply Meets.bind
    cases found : s.arena.getBuffer 0 with
    | error error => exact .refl s
    | ok buffer =>
        refine .of_same rfl rfl fun other member => ?_
        rcases List.mem_append.mp member with arena | segment
        · exact List.mem_append_left _ arena
        · rw [List.mem_singleton.mp segment]
          exact List.mem_append_left _ (List.mem_of_getElem? (AnyArena.getBuffer_eq_ok.mp found))

theorem getSegment_confined (limit id : Nat) : Confined (SharedBuffers.getSegment limit id) := by
  refine Confined.get.bind fun s => .of_ite ?_ (.of_ite (.throw _) (.pure id))
  refine (openFirstSegment_confined limit).bind fun _ => Confined.get.bind fun s => ?_
  refine (segmentAt_confined 0).bind fun segment => .of_ite ?_ (.throw _)
  exact (allocate_confined limit 0 8).bind fun _ => .pure 0

theorem bytes_setBuffer {buffer : Nat} {bytes : Bytes} (made : buffer < s.heap.length) (other : Nat) :
    (s.setBuffer buffer bytes).bytes other = if other = buffer then bytes else s.bytes other := by
  unfold Store.bytes Store.setBuffer
  rw [List.getElem?_set]
  by_cases here : buffer = other
  · rw [if_pos here, if_pos here.symm, if_pos made]
    rfl
  · rw [if_neg here, if_neg (Ne.symm here)]

theorem touches_setBuffer {buffer : Nat} {bytes : Bytes} (held : buffer ∈ s.refs)
    (length : bytes.length = (s.bytes buffer).length) : s.Touches (s.setBuffer buffer bytes) := by
  refine ⟨by simp [Store.setBuffer], fun other _ apart => ?_, fun _ member => Or.inl member, fun stored => ?_⟩
  · have different : buffer ≠ other := fun same => apart (same ▸ held)
    simp only [Store.bytes, Store.setBuffer]
    rw [List.getElem?_set_ne different]
  · refine ⟨fun other member => ?_, fun other member => ?_, fun other first => ?_⟩
    · simp only [Store.setBuffer, List.length_set]
      exact stored.made other member
    · rcases List.mem_or_eq_of_mem_set member with old | rfl
      · exact stored.aligned other old
      · rw [length]
        exact bytes_aligned stored buffer
    · have long := stored.first other first
      rw [bytes_setBuffer (stored.made buffer held)]
      split
      · rename_i here
        rw [length, ← here]
        exact long
      · exact long

theorem write_confined (id : Nat) (byteOffset : Int) (bytes : Bytes) :
    Confined (SharedBuffers.write id byteOffset bytes) := by
  refine assertWritable_confined.bind fun _ => ?_
  intro now
  apply Meets.bind
  apply (segmentAt_meets now id).mono
  · rintro segment s ⟨found, rfl⟩
    apply Meets.get
    split
    · exact .refl _
    · rename_i fits
      exact touches_setBuffer (buffer_mem_refs found) (LittleEndian.overwrite_length (by omega))
  · rintro _ _ rfl
    exact .refl _

theorem run_touches (limit : Nat) (s : Store) (op : Op) : s.Touches (op.run limit s) := by
  have leaves {α : Type} {program : StoreM α} (confined : Confined program) : s.Touches (left program s) := by
    have meets := confined s
    unfold Meets at meets
    unfold left
    cases run : program s with
    | ok value after => rwa [run] at meets
    | error error after => rwa [run] at meets
  cases op with
  | getSegment id => exact leaves (getSegment_confined limit id)
  | allocate id byteLength => exact leaves (allocate_confined limit id byteLength)
  | write id byteOffset bytes => exact leaves (write_confined id byteOffset bytes)

end CapnpEs.SharedBuffers
