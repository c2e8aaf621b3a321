import CapnpEs.Serialization.MessageCopies
import CapnpEs.Serialization.StreamRoundTrip

/-! When a copy of a message is identical to it, and that the two are independent. -/

namespace CapnpEs.SharedBuffers

open Outcome Transition

/-! What `copy` makes. -/

/-- The buffers of the copy: the last one is the first that is made. -/
def Store.copies (s : Store) : List Nat := (List.range s.arena.buffers.length).reverse.map (s.heap.length + ·)

def Store.sliced (s : Store) : Store := { s with heap := s.heap ++ s.arena.buffers.reverse.map s.bytes }

def AnyArena.withBuffers (arena : AnyArena) (buffers : List Nat) : AnyArena :=
  match arena with
  | .single _ => .single (buffers.headD 0)
  | .multi _ => .multi buffers

variable {s : Store} {limit : Nat}

theorem slices_run (s : Store) {buffers : List Nat} (made : ∀ buffer ∈ buffers, buffer < s.heap.length) :
    slices buffers s = .ok ((List.range buffers.length).reverse.map (s.heap.length + ·))
      { s with heap := s.heap ++ buffers.reverse.map s.bytes } := by
  induction buffers with
  | nil =>
      rw [List.reverse_nil, List.map_nil, List.append_nil]
      rfl
  | cons buffer buffers ih =>
      have rest := ih fun other member => made other (List.mem_cons_of_mem _ member)
      have kept : ({ s with heap := s.heap ++ buffers.reverse.map s.bytes } : Store).bytes buffer = s.bytes buffer := by
        rw [Store.bytes, List.getElem?_append_left (made buffer List.mem_cons_self), Store.bytes]
      have heap : s.heap ++ (buffer :: buffers).reverse.map s.bytes =
          s.heap ++ buffers.reverse.map s.bytes ++ [s.bytes buffer] := by
        rw [List.reverse_cons, List.map_append, ← List.append_assoc]
        rfl
      rw [slices, bind_apply, rest, heap, List.length_cons, List.range_succ, List.reverse_append]
      simp only [bind_apply, slice, kept, pure_apply]
      rw [List.length_append, List.length_map, List.length_reverse]
      rfl

theorem length_copies (s : Store) : s.copies.length = s.arena.buffers.length := by
  rw [Store.copies, List.length_map, List.length_reverse, List.length_range]

theorem getElem?_copies {index : Nat} (inside : index < s.arena.buffers.length) :
    s.copies[index]? = some (s.heap.length + (s.arena.buffers.length - 1 - index)) := by
  rw [Store.copies, List.getElem?_map, List.getElem?_reverse (by rw [List.length_range]; exact inside), List.length_range,
    List.getElem?_range (by omega)]
  rfl

theorem bytes_copied {index buffer : Nat} (found : s.arena.buffers[index]? = some buffer) :
    s.sliced.bytes (s.heap.length + (s.arena.buffers.length - 1 - index)) = s.bytes buffer := by
  obtain ⟨inside, -⟩ := List.getElem?_eq_some_iff.mp found
  have position : s.arena.buffers.length - 1 - (s.arena.buffers.length - 1 - index) = index := by omega
  rw [Store.bytes, Store.sliced, List.getElem?_append_right (Nat.le_add_right _ _), Nat.add_sub_cancel_left, List.getElem?_map,
    List.getElem?_reverse (by omega), position, found]
  rfl

theorem bytes_copies (s : Store) : s.copies.map s.sliced.bytes = s.arena.buffers.map s.bytes := by
  refine List.ext_getElem? fun index => ?_
  by_cases inside : index < s.arena.buffers.length
  · have found := List.getElem?_eq_getElem inside
    rw [List.getElem?_map, getElem?_copies inside, List.getElem?_map, found]
    exact congrArg some (bytes_copied found)
  · rw [List.getElem?_eq_none, List.getElem?_eq_none]
    · rw [List.length_map]
      omega
    · rw [List.length_map, length_copies]
      omega

theorem copies_bounds {buffer : Nat} (member : buffer ∈ s.copies) :
    s.heap.length ≤ buffer ∧ buffer < s.sliced.heap.length := by
  obtain ⟨index, inside, rfl⟩ := List.mem_map.mp member
  have bound := List.mem_range.mp (List.mem_reverse.mp inside)
  rw [Store.sliced, List.length_append, List.length_map, List.length_reverse]
  omega

theorem sliced_bytes {buffer : Nat} (made : buffer < s.heap.length) : s.sliced.bytes buffer = s.bytes buffer := by
  rw [Store.bytes, Store.sliced, List.getElem?_append_left made, Store.bytes]

theorem sliced_aligned (stored : s.Stored) (buffer : Nat) : (s.sliced.bytes buffer).length % 8 = 0 := by
  unfold Store.bytes
  cases found : s.sliced.heap[buffer]? with
  | none => rfl
  | some bytes =>
      rcases List.mem_append.mp (List.mem_of_getElem? found) with old | new
      · exact stored.aligned bytes old
      · obtain ⟨source, -, rfl⟩ := List.mem_map.mp new
        exact bytes_aligned stored source

theorem singleArena_run {buffer : Nat} (aligned : (s.bytes buffer).length % 8 = 0) :
    singleArena buffer s = .ok (.single buffer) s := by
  rw [singleArena, bind_apply, get_apply]
  exact congrFun (if_neg (not_not.mpr aligned)) s

theorem multiArena_run {buffers : List Nat} (aligned : ∀ buffer, (s.bytes buffer).length % 8 = 0) :
    multiArena buffers s = .ok (.multi buffers) s := by
  have none : buffers.reverse.find? (fun buffer => (s.bytes buffer).length % 8 ≠ 0) = none :=
    List.find?_eq_none.mpr fun buffer _ => by simpa using aligned buffer
  rw [multiArena, bind_apply, get_apply]
  dsimp only
  rw [none]
  rfl

theorem arenaCopy_run (stored : s.Stored) : arenaCopy s = .ok (s.arena.withBuffers s.copies) s.sliced := by
  have run : slices s.arena.buffers s = .ok s.copies s.sliced :=
    slices_run s fun buffer member => stored.made buffer (List.mem_append_left _ member)
  have aligned := sliced_aligned stored
  obtain ⟨heap, arena, segments, traversalLimit, readonly⟩ := s
  cases arena with
  | single buffer => exact singleArena_run (aligned heap.length)
  | multi buffers =>
      change (slices buffers >>= multiArena) _ = _
      exact bind_eq_ok.mpr ⟨_, _, run, multiArena_run aligned⟩

theorem buffers_withBuffers (s : Store) : (s.arena.withBuffers s.copies).buffers = s.copies := by
  have length := length_copies s
  cases arena : s.arena with
  | single buffer =>
      rw [arena] at length
      obtain ⟨copied, one⟩ := List.length_eq_one_iff.mp length
      rw [one]
      rfl
  | multi buffers => rfl

theorem first_copied (stored : s.Stored) {buffer : Nat} (found : s.copies[0]? = some buffer) :
    8 ≤ (s.sliced.bytes buffer).length := by
  have bound : 0 < s.arena.buffers.length := by
    rw [← length_copies]
    exact (List.getElem?_eq_some_iff.mp found).1
  rw [getElem?_copies bound] at found
  have source := List.getElem?_eq_getElem bound
  rw [← Option.some.inj found, bytes_copied source]
  exact stored.first _ source

def Store.fullSegments (s : Store) : List SegmentObject :=
  s.arena.buffers.mapIdx fun i buffer => { id := i, buffer := buffer, byteLength := (s.bytes buffer).length }

theorem mapM_of_forall₂ {α β ε : Type} {f : α → Except ε β} {items : List α} {results : List β}
    (each : List.Forall₂ (fun item result => f item = .ok result) items results) : items.mapM f = .ok results := by
  induction each with
  | nil => rfl
  | cons first _ ih =>
      rw [List.mapM_cons, first, ih]
      rfl

theorem preallocateSegments_run (first : ∀ buffer, s.arena.buffers[0]? = some buffer → 8 ≤ (s.bytes buffer).length) :
    preallocateSegments s = .ok { s with segments := s.fullSegments } := by
  have made : (List.range s.arena.getNumSegments).mapM (preallocateSegment s) = .ok s.fullSegments := by
    apply mapM_of_forall₂
    rw [AnyArena.getNumSegments_eq, List.forall₂_iff_get, Store.fullSegments]
    refine ⟨by rw [List.length_range, List.length_mapIdx], fun i inside _ => ?_⟩
    rw [List.length_range] at inside
    have found := List.getElem?_eq_getElem inside
    have long : ¬(i = 0 ∧ (s.bytes s.arena.buffers[i]).length < 8) := by
      rintro ⟨rfl, short⟩
      exact Nat.not_lt_of_le (first _ found) short
    rw [List.get_eq_getElem, List.get_eq_getElem, List.getElem_range, List.getElem_mapIdx, preallocateSegment,
      AnyArena.getBuffer_eq_ok.mpr found, except_ok_bind, if_neg long]
  rw [preallocateSegments, made]
  rfl

def Store.copied (s : Store) : Store :=
  { { heap := s.sliced.heap, arena := s.arena.withBuffers s.copies : Store } with
    segments := ({ heap := s.sliced.heap, arena := s.arena.withBuffers s.copies } : Store).fullSegments }

theorem copy_run (stored : s.Stored) : copy s = .ok s.copied s.sliced := by
  have first : ∀ buffer, (s.arena.withBuffers s.copies).buffers[0]? = some buffer → 8 ≤ (s.sliced.bytes buffer).length := by
    intro buffer found
    rw [buffers_withBuffers] at found
    exact first_copied stored found
  have filled := preallocateSegments_run (s := { heap := s.sliced.heap, arena := s.arena.withBuffers s.copies }) first
  rw [copy, bind_apply, arenaCopy_run stored]
  simp only [bind_apply, get_apply]
  exact ofExcept_eq_ok.mpr ⟨filled, rfl⟩

/-! The messages that programs make. -/

def Op.Allowed (s : Store) : Op → Prop
  | .getSegment _ => True
  | .allocate _ byteLength => 0 ≤ byteLength ∧ byteLength < 2 ^ 31 - 8
  | .write id byteOffset bytes => 0 ≤ byteOffset ∧ byteOffset + bytes.length ≤ s.allocated id

/-- A message from its constructor, after any number of allocations and writes. -/
def Built (limit : Nat) (s : Store) : Prop :=
  ∃ src start, newMessage src = .ok start ∧
    Run (fun before op => some (Op.run limit before op)) (fun before op _ => op.Allowed before) start s

structure Store.Sound (s : Store) : Prop where
  stored : s.Stored
  consistent : Store.Consistent { s with readonly := false }
  blank : s.segments = [] → s.traversalLimit = DEFAULT_TRAVERSE_LIMIT ∧ s.readonly = false

/-- A change of a message that leaves it without segments does not change it. -/
def Store.Changes (s after : Store) : Prop := after.Consistent ∧ (after.segments = [] → after = s)

theorem openFirstSegment_opens (consistent : s.Consistent) (none_ : s.segments = []) :
    Meets (openFirstSegment limit) s (fun _ opened => opened.segments ≠ []) fun _ _ => True := by
  apply Meets.get
  rcases consistent.counted with counted | unopened
  · have empty : s.arena.getNumSegments = 0 := by
      rw [← counted, none_]
      rfl
    rw [if_pos empty]
    apply Meets.bind
    apply (allocateSegment_meets consistent counted (by decide) (by decide) (by decide)).mono
    · rintro _ opened ⟨-, -, -, segment, found, -⟩ none
      rw [none] at found
      cases found
    · exact fun _ _ _ => trivial
  · obtain ⟨buffer, arena, -⟩ := unopened.arena
    have some_ : (AnyArena.single buffer).getNumSegments ≠ 0 := Nat.one_ne_zero
    rw [arena, if_neg some_]
    exact List.cons_ne_nil _ _

theorem changes_of_ready {after : Store} {segment : SegmentObject} {id : Nat} (found : s.segments[id]? = some segment)
    {opened : Store} (consistent : after.Consistent) (longer : s.segments.length ≤ after.segments.length) :
    opened.Changes after := by
  refine ⟨consistent, fun none => ?_⟩
  have bound := (List.getElem?_eq_some_iff.mp found).1
  rw [none] at longer
  exact absurd bound (Nat.not_lt_of_le (Nat.le_trans longer (Nat.zero_le id)))

theorem getSegment_changes (consistent : s.Consistent) (id : Nat) :
    Meets (getSegment limit id) s (fun _ after => s.Changes after) fun _ after => s.Changes after := by
  apply Meets.get
  split
  · rename_i lazily
    have none_ : s.segments = [] := List.eq_nil_of_length_eq_zero lazily.2
    apply Meets.bind
    apply ((openFirstSegment_meets consistent none_).and (openFirstSegment_opens consistent none_)).mono
    · rintro _ opened ⟨⟨ready, -⟩, some_⟩
      apply Meets.get
      apply Meets.bind
      apply (segmentAt_meets opened 0).mono
      · rintro segment now ⟨found, rfl⟩
        split
        · apply Meets.bind
          apply (allocate_meets ready 0 (by decide) (by decide)).mono
          · rintro _ after ⟨allocates, -⟩
            exact changes_of_ready found allocates.ready.toConsistent allocates.segments
          · rintro _ after ⟨formed, keeps⟩
            exact changes_of_ready found formed.toConsistent keeps.segments
        · exact changes_of_ready found ready.toConsistent (Nat.le_refl _)
      · rintro _ after rfl
        exact ⟨ready.toConsistent, fun none => absurd none some_⟩
    · rintro _ after ⟨rfl, -⟩
      exact ⟨consistent, fun _ => rfl⟩
  · split
    · exact ⟨consistent, fun _ => rfl⟩
    · exact ⟨consistent, fun _ => rfl⟩

theorem allocate_changes (consistent : s.Consistent) (id : Nat) {byteLength : Int} (lower : 0 ≤ byteLength)
    (small : byteLength < 2 ^ 31 - 8) :
    Meets (SharedBuffers.allocate limit id byteLength) s (fun _ after => s.Changes after) fun _ after => s.Changes after := by
  by_cases opened : s.segments = []
  · apply Meets.bind
    apply (assertWritable_meets consistent.writable).mono
    · rintro _ now rfl
      dsimp only
      split
      · exact ⟨consistent, fun _ => rfl⟩
      · apply Meets.bind
        apply (segmentAt_meets now id).mono
        · rintro segment _ ⟨found, -⟩
          rw [opened] at found
          cases found
        · rintro _ _ rfl
          exact ⟨consistent, fun _ => rfl⟩
    · exact fun _ _ failed => failed.elim
  · obtain ⟨segment, found⟩ : ∃ segment, s.segments[0]? = some segment :=
      ⟨_, List.getElem?_eq_getElem (List.length_pos_of_ne_nil opened)⟩
    have ready : s.Ready := by
      refine ⟨consistent, ?_⟩
      rcases consistent.counted with counted | unopened
      · exact counted
      · exact absurd unopened.segments opened
    apply (allocate_meets ready id lower small).mono
    · rintro place after ⟨allocates, -⟩
      exact changes_of_ready found allocates.ready.toConsistent allocates.segments
    · rintro _ after ⟨formed, keeps⟩
      exact changes_of_ready found formed.toConsistent keeps.segments

theorem write_finds (s : Store) (id : Nat) (byteOffset : Int) (bytes : Bytes) :
    Meets (SharedBuffers.write id byteOffset bytes) s (fun _ _ => ∃ segment, s.segments[id]? = some segment)
      fun _ _ => True := by
  apply Meets.bind
  apply (assertWritable_keeps s).mono
  · rintro _ _ rfl
    apply Meets.bind
    apply (segmentAt_meets _ id).mono
    · rintro segment now ⟨found, rfl⟩
      apply Meets.get
      split
      · trivial
      · exact ⟨segment, found⟩
    · exact fun _ _ _ => trivial
  · exact fun _ _ _ => trivial

theorem write_changes (consistent : s.Consistent) {id : Nat} {byteOffset : Int} {bytes : Bytes} (lower : 0 ≤ byteOffset)
    (inside : byteOffset + bytes.length ≤ s.allocated id) :
    Meets (SharedBuffers.write id byteOffset bytes) s (fun _ after => s.Changes after) fun _ after => s.Changes after := by
  obtain ⟨offset, rfl⟩ := Int.eq_ofNat_of_zero_le lower
  apply ((write_meets consistent inside).and (write_finds s id offset bytes)).mono
  · rintro _ after ⟨writes, segment, found⟩
    exact changes_of_ready found writes.consistent (Nat.le_of_eq writes.segments.symm)
  · rintro _ after ⟨rfl, -⟩
    exact ⟨consistent, fun _ => rfl⟩

theorem meets_left {α : Type} {program : StoreM α} {holds : Store → Prop}
    (meets : Meets program s (fun _ after => holds after) fun _ after => holds after) : holds (left program s) := by
  unfold Meets at meets
  unfold left
  cases run : program s with
  | ok value after => rwa [run] at meets
  | error error after => rwa [run] at meets

theorem run_changes (limit : Nat) (consistent : s.Consistent) {op : Op} (allowed : op.Allowed s) : s.Changes (op.run limit s) := by
  cases op with
  | getSegment id => exact meets_left (getSegment_changes consistent id)
  | allocate id byteLength => exact meets_left (allocate_changes consistent id allowed.1 allowed.2)
  | write id byteOffset bytes => exact meets_left (write_changes consistent allowed.1 allowed.2)

theorem run_readonly (readonly : s.readonly = true) (opened : s.segments ≠ []) (op : Op) : op.run limit s = s := by
  have refused {α : Type} (next : Unit → StoreM α) : left (assertWritable >>= next) s = s := by
    unfold left
    rw [bind_apply, assertWritable, if_pos readonly]
  cases op with
  | getSegment id =>
      have some_ : ¬(id = 0 ∧ s.segments.length = 0) := fun none => opened (List.eq_nil_of_length_eq_zero none.2)
      have kept : Meets (SharedBuffers.getSegment limit id) s (fun _ after => after = s) fun _ after => after = s := by
        apply Meets.get
        rw [if_neg some_]
        split
        · rfl
        · rfl
      exact meets_left kept
  | allocate id byteLength => exact refused _
  | write id byteOffset bytes => exact refused _

theorem run_sound (sound : s.Sound) {op : Op} (allowed : op.Allowed s) : (op.run limit s).Sound := by
  have stored := (run_touches limit s op).stored sound.stored
  cases readonly : s.readonly with
  | true =>
      have opened : s.segments ≠ [] := by
        intro none
        rw [(sound.blank none).2] at readonly
        cases readonly
      rw [run_readonly readonly opened]
      exact sound
  | false =>
      have same : { s with readonly := false } = s := by rw [← readonly]
      have changed := run_changes limit (same ▸ sound.consistent) allowed
      have writable := changed.1.writable
      refine ⟨stored, ?_, fun none => ?_⟩
      · have kept : { op.run limit s with readonly := false } = op.run limit s := by rw [← writable]
        rw [kept]
        exact changed.1
      · have unchanged := changed.2 none
        rw [unchanged] at none ⊢
        exact sound.blank none

theorem getFramedSegments_some {message : Bytes} {buffers : List Bytes} (done : getFramedSegments message = .ok buffers) :
    0 < buffers.length := by
  rw [getFramedSegments] at done
  split at done
  · cases done
  · rw [except_bind_eq_ok] at done
    obtain ⟨last, -, done⟩ := done
    dsimp only at done
    split at done
    · cases done
    · split at done
      · cases done
      · rename_i inside
        rw [(sliceSegments_inside (by omega) done).1]
        omega

theorem initMessage_stocked {src : Source} (made : initMessage src = .ok s) :
    s.Stocked ∧ s.traversalLimit = DEFAULT_TRAVERSE_LIMIT ∧ (s.readonly = true → 0 < s.arena.getNumSegments) := by
  have ofSingle {buffer : Bytes} {store : Store} (made : singleSegmentArena buffer = .ok store) :
      store.traversalLimit = DEFAULT_TRAVERSE_LIMIT ∧ store.readonly = false ∧ store.arena.getNumSegments = 1 := by
    unfold singleSegmentArena at made
    split at made
    · cases made
    · cases made
      exact ⟨rfl, rfl, rfl⟩
  have ofMulti {buffers : List Bytes} {store : Store} (made : multiSegmentArena buffers = .ok store) :
      store.traversalLimit = DEFAULT_TRAVERSE_LIMIT ∧ store.readonly = false ∧
        store.arena.getNumSegments = buffers.length := by
    unfold multiSegmentArena at made
    split at made
    · cases made
    · cases made
      exact ⟨rfl, rfl, List.length_range⟩
  cases src with
  | undefined =>
      obtain ⟨limit, writable, -⟩ := ofSingle made
      exact ⟨singleSegmentArena_stocked made, limit, fun readonly => absurd (writable.symm.trans readonly) Bool.false_ne_true⟩
  | single buffer =>
      obtain ⟨limit, writable, -⟩ := ofSingle made
      exact ⟨singleSegmentArena_stocked made, limit, fun readonly => absurd (writable.symm.trans readonly) Bool.false_ne_true⟩
  | multi buffers =>
      obtain ⟨limit, writable, -⟩ := ofMulti made
      exact ⟨multiSegmentArena_stocked made, limit, fun readonly => absurd (writable.symm.trans readonly) Bool.false_ne_true⟩
  | bytes buf packed singleSegment readonly =>
      obtain ⟨plain, -, made⟩ := except_bind_eq_ok.mp made
      obtain ⟨store, arena, same⟩ := except_bind_eq_ok.mp made
      cases same
      cases singleSegment with
      | true =>
          obtain ⟨limit, -, count⟩ := ofSingle arena
          have stocked := singleSegmentArena_stocked arena
          exact ⟨⟨stocked.segments, stocked.aligned, stocked.buffers⟩, limit, fun _ => count ▸ Nat.one_pos⟩
      | false =>
          obtain ⟨buffers, framed, arena⟩ := except_bind_eq_ok.mp arena
          obtain ⟨limit, -, count⟩ := ofMulti arena
          have stocked := multiSegmentArena_stocked arena
          exact ⟨⟨stocked.segments, stocked.aligned, stocked.buffers⟩, limit, fun _ => count ▸ getFramedSegments_some framed⟩

theorem Store.Stocked.aligned_mem (stocked : s.Stocked) {bytes : Bytes} (member : bytes ∈ s.heap) : bytes.length % 8 = 0 := by
  obtain ⟨buffer, inside, rfl⟩ := List.getElem_of_mem member
  have aligned := stocked.aligned buffer
  rwa [Store.bytes, List.getElem?_eq_getElem inside] at aligned

theorem Store.Stocked.made (stocked : s.Stocked) {buffer : Nat} (member : buffer ∈ s.arena.buffers) :
    buffer < s.heap.length := by
  obtain ⟨i, inside, rfl⟩ := List.getElem_of_mem member
  exact (stocked.buffers i _ (AnyArena.getBuffer_eq_ok.mpr (List.getElem?_eq_getElem inside))).2

theorem undefined_sound (made : initMessage .undefined = .ok s) : s.Sound := by
  obtain ⟨stocked, limit, -⟩ := initMessage_stocked made
  have built : newMessage .undefined = .ok s := by
    rw [newMessage, made]
    rfl
  have shape : s = { heap := [List.replicate DEFAULT_BUFFER_SIZE.toNat 0], arena := .single 0 } := by
    unfold initMessage singleSegmentArena at made
    rw [if_neg (by rw [List.length_replicate]; decide)] at made
    exact (Except.ok.inj made).symm
  have writable : s.readonly = false := by rw [shape]
  have same : { s with readonly := false } = s := by rw [← writable]
  refine ⟨⟨fun buffer member => ?_, fun _ => stocked.aligned_mem, fun buffer found => ?_⟩, ?_, fun _ => ⟨limit, writable⟩⟩
  · rw [Store.refs, stocked.segments, List.map_nil, List.append_nil] at member
    exact stocked.made member
  · rw [shape] at found ⊢
    cases found
    rw [Store.bytes]
    exact Nat.le_trans (by decide) (Nat.le_of_eq List.length_replicate.symm)
  · rw [same]
    exact newMessage_consistent built writable

theorem preallocated_sound {stock : Store} (stocked : stock.Stocked) (limit : stock.traversalLimit = DEFAULT_TRAVERSE_LIMIT)
    (some_ : stock.readonly = true → 0 < stock.arena.getNumSegments) (done : preallocateSegments stock = .ok s) :
    s.Sound := by
  have opened : Store.Stocked { stock with readonly := false } := ⟨stocked.segments, stocked.aligned, stocked.buffers⟩
  obtain ⟨segments, made, same⟩ := except_bind_eq_ok.mp done
  have again : preallocateSegments { stock with readonly := false } =
      .ok { stock with segments := segments, readonly := false } := except_bind_eq_ok.mpr ⟨segments, made, rfl⟩
  obtain ⟨length, each⟩ := List.forall₂_iff_get.mp (mapM_ok made)
  rw [List.length_range] at length
  cases same
  refine ⟨⟨fun buffer member => ?_, fun _ => stocked.aligned_mem, fun buffer found => ?_⟩, opened.preallocated rfl again,
    fun none => ⟨limit, ?_⟩⟩
  · rcases List.mem_append.mp member with arena | other
    · exact stocked.made arena
    · obtain ⟨segment, inside, rfl⟩ := List.mem_map.mp other
      obtain ⟨i, bound, rfl⟩ := List.getElem_of_mem inside
      have made := each i (by rw [List.length_range, length]; exact bound) bound
      simp only [List.get_eq_getElem, List.getElem_range] at made
      obtain ⟨buffer, shared, made⟩ := except_bind_eq_ok.mp made
      split at made
      · cases made
      · rw [← Except.ok.inj made]
        exact (stocked.buffers i buffer shared).2
  · have count : 0 < stock.arena.getNumSegments := by
      rw [AnyArena.getNumSegments_eq]
      exact (List.getElem?_eq_some_iff.mp found).1
    have made := each 0 (by rw [List.length_range]; exact count) (by rw [← length]; exact count)
    simp only [List.get_eq_getElem, List.getElem_range] at made
    obtain ⟨other, shared, made⟩ := except_bind_eq_ok.mp made
    obtain rfl : buffer = other := Option.some.inj (found.symm.trans (AnyArena.getBuffer_eq_ok.mp shared))
    split at made
    · cases made
    · rename_i long
      exact Nat.le_of_not_lt fun short => long ⟨rfl, short⟩
  · cases readonly : stock.readonly with
    | false => rfl
    | true =>
        have count := some_ readonly
        dsimp only at none
        rw [length, none] at count
        cases count

theorem newMessage_sound {src : Source} (built : newMessage src = .ok s) : s.Sound := by
  obtain ⟨stock, init, rest⟩ := except_bind_eq_ok.mp built
  obtain ⟨stocked, limit, some_⟩ := initMessage_stocked init
  cases src with
  | undefined =>
      cases rest
      exact undefined_sound init
  | single buffer => exact preallocated_sound stocked limit some_ rest
  | multi buffers => exact preallocated_sound stocked limit some_ rest
  | bytes buf packed singleSegment readonly => exact preallocated_sound stocked limit some_ rest

theorem Built.sound (built : Built limit s) : s.Sound := by
  obtain ⟨src, start, made, run⟩ := built
  apply run.invariant (newMessage_sound made)
  intro before op after sound taken allowed
  cases taken
  exact run_sound sound allowed

/-! A message and its copy do not share a buffer. -/

theorem message_of_bytes {heap : List Bytes} (same : ∀ buffer ∈ s.refs, ({ s with heap := heap } : Store).bytes buffer =
    s.bytes buffer) : ({ s with heap := heap } : Store).message = s.message := by
  have arena : (s.arena.buffers.drop s.segments.length).map ({ s with heap := heap } : Store).bytes =
      (s.arena.buffers.drop s.segments.length).map s.bytes :=
    List.map_congr_left fun buffer member => same buffer (List.mem_append_left _ (List.mem_of_mem_drop member))
  have segments : ({ s with heap := heap } : Store).message.segments = s.message.segments := by
    refine List.map_congr_left fun segment member => ?_
    rw [same _ (List.mem_append_right _ (List.mem_map.mpr ⟨segment, member, rfl⟩))]
  unfold Store.message at segments ⊢
  simp only [Message.mk.injEq, Arena.mk.injEq, true_and, and_true]
  exact ⟨arena, segments⟩

structure Pair.Separate (pair : Pair) : Prop where
  heap : pair.copy.heap = pair.original.heap
  original : pair.original.Stored
  copy : pair.copy.Stored
  apart : ∀ buffer ∈ pair.original.refs, buffer ∉ pair.copy.refs

section touches

variable {after other : Store} (touched : s.Touches after) (heap : other.heap = s.heap) (stored : s.Stored)
  (made : other.Stored) (apart : ∀ buffer ∈ other.refs, buffer ∉ s.refs)
include touched heap made apart

theorem Store.Touches.bytes_other {buffer : Nat} (member : buffer ∈ other.refs) :
    ({ other with heap := after.heap } : Store).bytes buffer = other.bytes buffer := by
  have below := made.made buffer member
  rw [heap] at below
  have kept := touched.others buffer below (apart buffer member)
  rwa [Store.bytes, Store.bytes, ← heap] at kept

theorem Store.Touches.message_other : ({ other with heap := after.heap } : Store).message = other.message :=
  message_of_bytes fun _ member => touched.bytes_other heap made apart member

theorem Store.Touches.apart_other {buffer : Nat} (member : buffer ∈ other.refs) : buffer ∉ after.refs := by
  intro held
  have below := made.made buffer member
  rw [heap] at below
  rcases touched.refs buffer held with old | ⟨new, -⟩
  · exact apart buffer member old
  · exact Nat.not_lt_of_le new below

include stored in
theorem Store.Touches.stored_other : ({ other with heap := after.heap } : Store).Stored where
  made buffer member := by
    have below := made.made buffer member
    rw [heap] at below
    exact Nat.lt_of_lt_of_le below touched.longer
  aligned := (touched.stored stored).aligned
  first buffer found := by
    have member : buffer ∈ other.refs := List.mem_append_left _ (List.mem_of_getElem? found)
    rw [touched.bytes_other heap made apart member]
    exact made.first buffer found

end touches

theorem Pair.Separate.flip {pair : Pair} (separate : pair.Separate) :
    ∀ buffer ∈ pair.copy.refs, buffer ∉ pair.original.refs :=
  fun buffer member held => separate.apart buffer held member

theorem Pair.Separate.step {pair after : Pair} {input : Side × Op} (separate : pair.Separate)
    (taken : pair.step limit input = some after) : after.Separate := by
  obtain ⟨side, op⟩ := input
  cases side with
  | original =>
      cases taken
      have touched := run_touches limit pair.original op
      exact ⟨rfl, touched.stored separate.original,
        touched.stored_other separate.heap separate.original separate.copy separate.flip,
        fun buffer held member => touched.apart_other separate.heap separate.copy separate.flip member held⟩
  | copy =>
      cases taken
      have touched := run_touches limit pair.copy op
      exact ⟨rfl, touched.stored_other separate.heap.symm separate.copy separate.original separate.apart,
        touched.stored separate.copy,
        fun buffer held => touched.apart_other separate.heap.symm separate.original separate.apart held⟩

def Pair.other (pair : Pair) : Side → Store
  | .original => pair.copy
  | .copy => pair.original

theorem Pair.Separate.other {pair after : Pair} {side : Side} {op : Op} (separate : pair.Separate)
    (taken : pair.step limit (side, op) = some after) : (after.other side).message = (pair.other side).message := by
  cases side with
  | original =>
      cases taken
      exact (run_touches limit pair.original op).message_other separate.heap separate.copy separate.flip
  | copy =>
      cases taken
      exact (run_touches limit pair.copy op).message_other separate.heap.symm separate.original separate.apart

/-- Whatever is done later with one of the two does not change the other. -/
def Independent (limit : Nat) (pair : Pair) : Prop :=
  ∀ later side op after, Run (Pair.step limit) (fun _ _ _ => True) pair later →
    Pair.step limit later (side, op) = some after → (after.other side).message = (later.other side).message

theorem Pair.Separate.independent {pair : Pair} (separate : pair.Separate) (limit : Nat) : Independent limit pair := by
  intro later side op after run taken
  exact (run.invariant separate fun _ _ _ before taken _ => before.step taken).other taken

theorem refs_copied {buffer : Nat} (member : buffer ∈ s.copied.refs) : buffer ∈ s.copies := by
  have listed : ∀ other ∈ (s.arena.withBuffers s.copies).buffers, other ∈ s.copies := by
    rw [buffers_withBuffers]
    exact fun _ held => held
  rcases List.mem_append.mp member with arena | other
  · exact listed _ arena
  · obtain ⟨segment, inside, rfl⟩ := List.mem_map.mp other
    obtain ⟨i, bound, rfl⟩ := List.mem_mapIdx.mp inside
    exact listed _ (List.getElem_mem bound)

theorem sliced_stored (stored : s.Stored) : s.sliced.Stored where
  made buffer member := by
    rw [Store.sliced, List.length_append]
    exact Nat.lt_of_lt_of_le (stored.made buffer member) (Nat.le_add_right _ _)
  aligned bytes member := by
    rcases List.mem_append.mp member with old | new
    · exact stored.aligned bytes old
    · obtain ⟨source, -, rfl⟩ := List.mem_map.mp new
      exact bytes_aligned stored source
  first buffer found := by
    rw [sliced_bytes (stored.made buffer (List.mem_append_left _ (List.mem_of_getElem? found)))]
    exact stored.first buffer found

theorem copied_separate (stored : s.Stored) : Pair.Separate ⟨s.sliced, s.copied⟩ where
  heap := rfl
  original := sliced_stored stored
  copy :=
    { made := fun _ member => (copies_bounds (refs_copied member)).2
      aligned := (sliced_stored stored).aligned
      first := fun buffer found => by
        rw [Store.copied, buffers_withBuffers] at found
        exact first_copied stored found }
  apart buffer held member :=
    Nat.not_lt_of_le (copies_bounds (refs_copied member)).1 (stored.made buffer held)

/-! What an identical copy is. -/

def Store.contents (s : Store) : List Bytes :=
  s.segments.map fun segment => (s.bytes segment.buffer).take segment.byteLength.toNat

/-- What `toArrayBuffer` returns or throws. -/
def encoded (m : Message) : Except CapnpError Bytes :=
  match Message.toArrayBuffer m with
  | .ok bytes _ => .ok bytes
  | .error error _ => .error error

structure Identical (s copied : Store) : Prop where
  lengths : copied.segments.map SegmentObject.byteLength = s.segments.map SegmentObject.byteLength
  contents : copied.contents = s.contents
  encoded : encoded copied.message = encoded s.message
  reads : ∀ (w : World) (p : Pointer) (depth : Nat), Pointer.shown (Function.update w p.message copied.message) depth p =
    Pointer.shown (Function.update w p.message s.message) depth p

/-- The arena has no buffers but those of the segments, and these are allocated to their ends. -/
structure Store.Full (s : Store) : Prop where
  opened : s.segments.length = s.arena.getNumSegments
  allocated : ∀ segment ∈ s.segments, segment.byteLength = (s.bytes segment.buffer).length

theorem map_fullSegments {β : Type} {view : SegmentObject → β} {part : Nat → β}
    (same : ∀ i buffer, view { id := i, buffer := buffer, byteLength := (s.bytes buffer).length } = part buffer) :
    s.fullSegments.map view = s.arena.buffers.map part := by
  refine List.ext_getElem? fun i => ?_
  rw [List.getElem?_map, Store.fullSegments, List.getElem?_mapIdx, List.getElem?_map, Option.map_map]
  exact congrArg (Option.map · _) (funext (same i))

theorem map_copied {β : Type} (view : SegmentObject → β) (part : Bytes → β)
    (same : ∀ i buffer, view { id := i, buffer := buffer, byteLength := (s.sliced.bytes buffer).length } =
      part (s.sliced.bytes buffer)) :
    s.copied.segments.map view = s.arena.buffers.map fun buffer => part (s.bytes buffer) := by
  have listed : s.copied.segments.map view = s.copies.map (part ∘ s.sliced.bytes) := by
    rw [← buffers_withBuffers s]
    exact map_fullSegments same
  rw [listed, ← List.map_map, bytes_copies, List.map_map]
  rfl

theorem buffers_of_opened (sound : s.Sound) (opened : s.segments.length = s.arena.getNumSegments) :
    s.segments.map SegmentObject.buffer = s.arena.buffers := by
  rw [AnyArena.getNumSegments_eq] at opened
  refine List.ext_getElem (by rw [List.length_map, opened]) fun i inside below => ?_
  rw [List.length_map] at inside
  have shared := (sound.consistent.holds i _ (List.getElem?_eq_getElem inside)).shared
  have found := AnyArena.getBuffer_eq_ok.mp shared
  rw [List.getElem_map]
  exact (Option.some.inj ((List.getElem?_eq_getElem below).symm.trans found)).symm

theorem map_opened (sound : s.Sound) (opened : s.segments.length = s.arena.getNumSegments) {β : Type}
    (view : SegmentObject → β) (part : Bytes → β)
    (same : ∀ segment ∈ s.segments, view segment = part (s.bytes segment.buffer)) :
    s.segments.map view = s.arena.buffers.map fun buffer => part (s.bytes buffer) := by
  rw [← buffers_of_opened sound opened, List.map_map]
  exact List.map_congr_left same

theorem encoded_of_segments {m other : Message} (same : m.segments = other.segments) (some_ : m.segments ≠ []) :
    encoded m = encoded other := by
  have nonempty : ¬m.segments.length = 0 := fun none => some_ (List.eq_nil_of_length_eq_zero none)
  have unchanged (n : Message) (some_ : ¬n.segments.length = 0) : encoded n =
      (getStreamFrame n >>= fun frame => joinSegments frame n.segments) := by
    have opened : Message.ensureFirstSegment n = .ok () n := by
      rw [Message.ensureFirstSegment, bind_apply, get_apply]
      exact congrFun (if_neg some_) n
    unfold encoded Message.toArrayBuffer
    rw [bind_apply, get_apply]
    dsimp only
    cases frame : getStreamFrame n with
    | error error => rfl
    | ok streamFrame =>
        rw [ofExcept_bind rfl, bind_apply, opened]
        dsimp only
        rw [bind_apply, get_apply, except_ok_bind]
        dsimp only
        cases joinSegments streamFrame n.segments <;> rfl
  rw [unchanged m nonempty, unchanged other (same ▸ nonempty), ← same]
  unfold getStreamFrame
  rw [same]

theorem memory_of_segments {m other : Message} (same : m.segments = other.segments) : m.memory = other.memory := by
  funext segment
  rw [Message.memory, Message.memory, same]

theorem message_blank (blank : s.traversalLimit = DEFAULT_TRAVERSE_LIMIT ∧ s.readonly = false) (none : s.segments = [])
    (buffers : s.arena.buffers = []) : s.copied.message = s.message := by
  obtain ⟨heap, arena, segments, traversalLimit, readonly⟩ := s
  obtain ⟨rfl, rfl⟩ := blank
  cases arena with
  | single buffer => cases buffers
  | multi all =>
      cases none
      cases buffers
      rfl

section

variable (sound : s.Sound)
include sound

theorem segments_of_full (full : s.Full) : s.copied.message.segments = s.message.segments := by
  let part (bytes : Bytes) : Segment := { buffer := bytes, byteLength := bytes.length }
  have original : s.message.segments = s.arena.buffers.map fun buffer => part (s.bytes buffer) :=
    map_opened sound full.opened _ part fun segment member => by rw [full.allocated segment member]
  exact (map_copied _ part fun _ _ => rfl).trans original.symm

theorem identical_of_full (full : s.Full) : Identical s s.copied where
  lengths := by
    let part (bytes : Bytes) : Int := bytes.length
    exact (map_copied _ part fun _ _ => rfl).trans (map_opened sound full.opened _ part full.allocated).symm
  contents := by
    have original : s.contents = s.arena.buffers.map fun buffer => id (s.bytes buffer) :=
      map_opened sound full.opened _ id fun segment member => by
        rw [full.allocated segment member, Int.toNat_natCast, List.take_length, id]
    refine Eq.trans (map_copied _ id fun i buffer => ?_) original.symm
    rw [Int.toNat_natCast]
    exact List.take_length
  encoded := by
    have segments := segments_of_full sound full
    by_cases none : s.segments = []
    · have buffers : s.arena.buffers = [] := by
        rw [← buffers_of_opened sound full.opened, none]
        rfl
      rw [message_blank (sound.blank none) none buffers]
    · refine encoded_of_segments segments ?_
      rw [segments]
      exact fun empty => none (List.map_eq_nil_iff.mp empty)
  reads w p depth := by
    apply Pointer.shown_of_memory
    rw [Function.update_self, Function.update_self]
    exact memory_of_segments (segments_of_full sound full)

theorem full_of_lengths (lengths : s.copied.segments.map SegmentObject.byteLength =
    s.segments.map SegmentObject.byteLength) : s.Full := by
  have each : s.arena.buffers.map (fun buffer => ((s.bytes buffer).length : Int)) =
      s.segments.map SegmentObject.byteLength := by
    rw [← lengths]
    exact (map_copied _ (fun bytes => (bytes.length : Int)) fun _ _ => rfl).symm
  have opened : s.segments.length = s.arena.getNumSegments := by
    have count := congrArg List.length each
    rw [List.length_map, List.length_map] at count
    rw [AnyArena.getNumSegments_eq, count]
  refine ⟨opened, fun segment member => ?_⟩
  rw [← buffers_of_opened sound opened, List.map_map] at each
  exact (List.map_inj_left.mp each segment member).symm

end

def freshStore : Store := { heap := [List.replicate 256 0], arena := .single 0 }

end CapnpEs.SharedBuffers
