import CapnpEs.Serialization.Pointers.CopyFrames

/-! Elements of composite lists as the source and the destination of a copy. -/

namespace CapnpEs

open Outcome
open LittleEndian (read encode store)

def Message.Addressable (m : Message) : Prop := m.segments.length ≤ 2 ^ 32 ∧ ∀ s ∈ m.segments, s.byteLength ≤ 2 ^ 32

instance (m : Message) : Decidable m.Addressable := inferInstanceAs (Decidable (_ ∧ _))

namespace Pointer

variable {w after : World} {p : Pointer}

/-- The pointer's word lies in the buffer, allocated or not. -/
structure InBuffer (p : Pointer) (w : World) : Prop where
  lower : 0 ≤ p.byteOffset
  upper : p.byteOffset + 8 ≤ (w p.message).capacity p.segment

theorem setUint_ok {width : Nat} {byteOffset : Int} {value : Nat} (positive : 0 < width)
    (run : onMessage p.message (Message.setUint width p.segment byteOffset value) w = .ok () after) :
    0 ≤ byteOffset ∧ byteOffset + width ≤ (w p.message).capacity p.segment ∧
      (w p.message).readonly = false ∧
        after = w.patch p.message p.segment byteOffset.toNat (encode width value) := by
  have checks : 0 ≤ byteOffset ∧ byteOffset + width ≤ (w p.message).capacity p.segment ∧
      (w p.message).readonly = false := by
    unfold onMessage at run
    cases ran : Message.setUint width p.segment byteOffset value (w p.message) with
    | error reason m =>
        rw [ran] at run
        cases run
    | ok _ m =>
        rw [Message.setUint, Outcome.bind_eq_ok] at ran
        obtain ⟨_, middle, writable, ran⟩ := ran
        unfold Message.assertWritable at writable
        by_cases readonly : (w p.message).readonly = true
        · rw [if_pos readonly] at writable
          cases writable
        · rw [if_neg readonly] at writable
          cases writable
          rw [Outcome.bind_eq_ok] at ran
          obtain ⟨s, same, found, ran⟩ := ran
          unfold Message.segment at found
          cases located : (w p.message).segments[p.segment]? with
          | none =>
              rw [located] at found
              cases found
          | some t =>
              rw [located] at found
              cases found
              rw [Outcome.bind_eq_ok] at ran
              obtain ⟨buffer, last, written, _⟩ := ran
              obtain ⟨fits, _⟩ := Outcome.ofExcept_eq_ok.mp written
              unfold DataView.setUint at fits
              by_cases outside : byteOffset < 0 ∨ byteOffset + width > s.buffer.length
              · rw [if_pos outside] at fits
                cases fits
              · simp only [Message.capacity, located]
                exact ⟨by omega, by omega, by simpa using readonly⟩
  obtain ⟨lower, upper, writable⟩ := checks
  refine ⟨lower, upper, writable, ?_⟩
  rw [setUint_patch value writable lower positive upper] at run
  cases run
  rfl

theorem setHalves_ok {lo hi : BitVec 32}
    (run : (do
      p.setUint32 p.byteOffset lo
      p.setUint32 (p.byteOffset + 4) hi) w = .ok () after) :
    p.InBuffer w ∧ after = w.putPointer p lo hi := by
  rw [Outcome.bind_eq_ok] at run
  obtain ⟨_, middle, first, second⟩ := run
  obtain ⟨lower, _, _, rfl⟩ := setUint_ok (by decide) first
  obtain ⟨_, upper, _, rfl⟩ := setUint_ok (by decide) second
  rw [World.patch_capacity] at upper
  have inside : p.byteOffset + 8 ≤ (w p.message).capacity p.segment := by
    push_cast at upper
    omega
  refine ⟨⟨lower, inside⟩, ?_⟩
  rw [show (p.byteOffset + 4).toNat = p.byteOffset.toNat + (encode 4 lo.toNat).length by
    rw [LittleEndian.encode_length]; omega, World.patch_append _ _ _ _ _ _
      (by simp only [LittleEndian.encode_length]; omega)]
  rfl

theorem setFarPointer_ok {doubleFar : Bool} {offsetWords : Int} {segmentId : Nat}
    (run : setFarPointer doubleFar offsetWords segmentId p w = .ok () after) :
    p.InBuffer w ∧
      after = w.putPointer p (PointerWord.farLo doubleFar offsetWords) (BitVec.ofNat 32 segmentId) :=
  setHalves_ok run

theorem setListPointer_ok {offsetWords length : Int} {size : ListElementSize} {compositeSize : Option ObjectSize}
    (run : setListPointer offsetWords size length p compositeSize w = .ok () after) :
    p.InBuffer w ∧ ∃ hi, after = w.putPointer p (PointerWord.nearLo .LIST offsetWords) hi := by
  unfold setListPointer at run
  split at run
  · cases compositeSize with
    | none => cases run
    | some compositeSize =>
        obtain ⟨inside, same⟩ := setHalves_ok run
        exact ⟨inside, _, same⟩
  · obtain ⟨inside, same⟩ := setHalves_ok run
    exact ⟨inside, _, same⟩

section putPointer

variable {q : Pointer} {low high : BitVec 32} (inside : p.InBuffer w)
include inside

theorem InBuffer.memory (message segment : Nat) :
    (w.putPointer p low high message).memory segment =
      if message = p.message ∧ segment = p.segment then
        store (store ((w p.message).memory p.segment) p.byteOffset.toNat (encode 4 low.toNat))
          (p.byteOffset.toNat + 4) (encode 4 high.toNat)
      else (w message).memory segment := by
  have upper := inside.upper
  have lower := inside.lower
  rw [World.putPointer, World.patch_memory _ _ _ _ _ _ _
    (by simp only [List.length_append, LittleEndian.encode_length]; omega),
    ← LittleEndian.store_append, LittleEndian.encode_length]

theorem InBuffer.lo (same : q.SameSlot p) : q.lo (w.putPointer p low high) = low := by
  rw [Pointer.lo, inside.memory, if_pos ⟨same.message, same.segment⟩, same.byteOffset,
    LittleEndian.read_store_disjoint _ _ _ _ _ (Or.inl (Nat.le_refl _)), LittleEndian.read_store_same,
    Nat.mod_eq_of_lt (show low.toNat < 256 ^ 4 from low.isLt)]
  exact BitVec.ofNat_toNat 32 low |>.trans (BitVec.setWidth_eq low)

theorem InBuffer.hi (same : q.SameSlot p) : q.hi (w.putPointer p low high) = high := by
  rw [Pointer.hi, inside.memory, if_pos ⟨same.message, same.segment⟩, same.byteOffset,
    LittleEndian.read_store_same, Nat.mod_eq_of_lt (show high.toNat < 256 ^ 4 from high.isLt)]
  exact BitVec.ofNat_toNat 32 high |>.trans (BitVec.setWidth_eq high)

theorem InBuffer.apart (lower : 0 ≤ q.byteOffset) (apart : q.Apart p) :
    q.lo (w.putPointer p low high) = q.lo w ∧ q.hi (w.putPointer p low high) = q.hi w := by
  have nonneg := inside.lower
  rw [Pointer.lo, Pointer.lo, Pointer.hi, Pointer.hi, inside.memory]
  by_cases here : q.message = p.message ∧ q.segment = p.segment
  · rw [if_pos here, here.1, here.2]
    have offsets : q.byteOffset + 8 ≤ p.byteOffset ∨ p.byteOffset + 8 ≤ q.byteOffset := by
      rcases apart with message | segment | offsets
      · exact absurd here.1 message
      · exact absurd here.2 segment
      · exact offsets
    constructor
    · rw [LittleEndian.read_store_disjoint _ _ _ _ _ (by rw [LittleEndian.encode_length]; omega),
        LittleEndian.read_store_disjoint _ _ _ _ _ (by rw [LittleEndian.encode_length]; omega)]
    · rw [LittleEndian.read_store_disjoint _ _ _ _ _ (by rw [LittleEndian.encode_length]; omega),
        LittleEndian.read_store_disjoint _ _ _ _ _ (by rw [LittleEndian.encode_length]; omega)]
  · rw [if_neg here]
    exact ⟨rfl, rfl⟩

end putPointer

theorem InBuffer.putPointer {q : Pointer} {lo hi : BitVec 32} (inside : q.InBuffer w) :
    q.InBuffer (w.putPointer p lo hi) := by
  refine ⟨inside.lower, ?_⟩
  rw [World.putPointer, World.patch_capacity]
  exact inside.upper

theorem InBuffer.spend (inside : p.InBuffer w) (message count : Nat) : p.InBuffer (w.spend message count) := by
  obtain ⟨lower, upper⟩ := inside
  exact ⟨lower, by simpa using upper⟩

theorem InBuffer.getUint32_lo (inside : p.InBuffer w) : p.getUint32 p.byteOffset w = .ok (p.lo w) w := by
  have upper := inside.upper
  rw [getUint32, Outcome.bind_apply, onMessage_reads (Message.getUint_run inside.lower (by omega) (by omega))]
  rfl

theorem InBuffer.getUint32_hi (inside : p.InBuffer w) : p.getUint32 (p.byteOffset + 4) w = .ok (p.hi w) w := by
  have upper := inside.upper
  have lower := inside.lower
  rw [getUint32, Outcome.bind_apply, onMessage_reads (Message.getUint_run (by omega) (by omega) (by omega))]
  simp only [Pointer.hi, Outcome.pure_apply]
  rw [show (p.byteOffset + 4).toNat = p.byteOffset.toNat + 4 by omega]

theorem InBuffer.getPointerType_run (inside : p.InBuffer w) : p.getPointerType w = .ok (.ofBits (p.lo w)) w := by
  rw [getPointerType, Outcome.bind_apply, inside.getUint32_lo]
  rfl

theorem InBuffer.isDoubleFar_run (inside : p.InBuffer w) :
    p.isDoubleFar w = .ok (PointerWord.isDoubleFar (p.lo w)) w := by
  rw [isDoubleFar, Outcome.bind_apply, inside.getPointerType_run]
  simp only [PointerWord.isDoubleFar]
  by_cases far : PointerType.ofBits (p.lo w) = .FAR
  · rw [if_pos far, Outcome.bind_apply, inside.getUint32_lo]
    simp [far, Outcome.pure_apply]
  · rw [if_neg far]
    simp [far, Outcome.pure_apply]

theorem InBuffer.some (inside : p.InBuffer w) : (w p.message).segments.length ≠ 0 := by
  obtain ⟨lower, upper⟩ := inside
  have bound := @Message.lt_of_capacity (w p.message) p.segment p.byteOffset lower (by omega)
  omega

theorem InBuffer.followFar_ok {t : Pointer} (inside : p.InBuffer w) (run : p.followFar w = .ok t after) :
    t = p.landingPad w ∧ after = w.spend p.message 1 := by
  rw [followFar, Outcome.bind_apply, inside.getUint32_hi] at run
  simp only at run
  rw [Outcome.bind_eq_ok] at run
  obtain ⟨segment, same, found, run⟩ := run
  obtain ⟨rfl, rfl⟩ := onMessage_getSegment_ok found inside.some
  rw [Outcome.bind_apply, inside.getUint32_lo] at run
  obtain ⟨rfl, rfl⟩ := newPointer_ok run
  exact ⟨rfl, rfl⟩

theorem InBuffer.followFars_ok {t : Pointer} (inside : p.InBuffer w) (run : p.followFars w = .ok t after) :
    t = p.target w ∧ ∃ count, after = w.spend p.message count := by
  rw [followFars, Outcome.bind_apply, inside.getPointerType_run] at run
  simp only at run
  by_cases far : PointerType.ofBits (p.lo w) = .FAR
  · rw [if_pos far, Outcome.bind_eq_ok] at run
    obtain ⟨landingPad, middle, followed, run⟩ := run
    obtain ⟨rfl, rfl⟩ := inside.followFar_ok followed
    rw [Outcome.bind_apply, (inside.spend p.message 1).isDoubleFar_run, lo_spend] at run
    simp only at run
    by_cases double : PointerWord.isDoubleFar (p.lo w) = true
    · rw [if_pos double] at run
      cases run
      rw [Pointer.target, if_pos far, if_pos double]
      exact ⟨rfl, 1, rfl⟩
    · rw [if_neg double] at run
      cases run
      rw [Pointer.target, if_pos far, if_neg double]
      exact ⟨rfl, 1, rfl⟩
  · rw [if_neg far] at run
    cases run
    rw [Pointer.target, if_neg far]
    exact ⟨rfl, 0, by rw [World.spend_zero]⟩

theorem InBuffer.getTargetPointerType_ok {type : PointerType} (inside : p.InBuffer w)
    (target : (p.target w).InBuffer w) (run : p.getTargetPointerType w = .ok type after) :
    type = p.targetType w := by
  rw [getTargetPointerType, Outcome.bind_eq_ok] at run
  obtain ⟨t, middle, followed, run⟩ := run
  obtain ⟨rfl, count, rfl⟩ := inside.followFars_ok followed
  rw [Outcome.bind_apply, (target.spend p.message count).getPointerType_run, lo_spend] at run
  simp only at run
  split at run
  · cases run
  · cases run
    rfl

end Pointer

theorem Message.trackPointer_lower {m after : Message} {segment : Nat} {byteOffset depthLimit : Int}
    (run : Message.trackPointer segment byteOffset depthLimit m = .ok () after) : 0 ≤ byteOffset := by
  rw [Message.trackPointer] at run
  split at run
  · cases run
  · rw [Outcome.bind_eq_ok] at run
    obtain ⟨_, charged, _, run⟩ := run
    rw [Outcome.bind_apply, Outcome.get_apply] at run
    simp only at run
    split at run
    · cases run
    · rw [Outcome.bind_eq_ok] at run
      obtain ⟨s, same, _, run⟩ := run
      split at run
      · cases run
      · omega

theorem Message.allocate_ok {m after : Message} {id : Nat} {byteLength : Int} {found : Nat × Int} (whole : m.Whole)
    (run : Message.allocate id byteLength m = .ok found after) :
    found.2 % 8 = 0 ∧ 0 ≤ found.2 ∧ after.allocated found.1 = found.2 + padToWord byteLength ∧
      found.1 < after.segments.length ∧ (m.Has id → found.1 = id → found.2 = m.allocated id) := by
  rw [Message.allocate, Outcome.bind_eq_ok] at run
  obtain ⟨_, same, writable, run⟩ := run
  have still := Message.assertWritable_still m
  unfold Meets at still
  rw [writable] at still
  subst still
  simp only at run
  split at run
  · cases run
  · rw [Outcome.bind_eq_ok] at run
    obtain ⟨s, read, located, run⟩ := run
    have first := Message.segment_meets id same
    unfold Meets at first
    rw [located] at first
    obtain ⟨rfl, here⟩ := first
    rw [Outcome.bind_eq_ok] at run
    obtain ⟨there, grown, chosen, run⟩ := run
    rw [Outcome.bind_eq_ok] at run
    obtain ⟨t, still, landed, run⟩ := run
    have second := Message.segment_meets there grown
    unfold Meets at second
    rw [landed] at second
    obtain ⟨rfl, target⟩ := second
    rw [Outcome.bind_eq_ok] at run
    obtain ⟨_, extended, changed, run⟩ := run
    rw [Outcome.modify_apply] at changed
    cases changed
    rw [Outcome.bind_eq_ok] at run
    obtain ⟨_, last, tracked, run⟩ := run
    have lower := Message.trackPointer_lower tracked
    rw [Message.trackPointer_ok tracked] at run
    cases run
    have bound := (List.getElem?_eq_some_iff.mp target).1
    have grownWhole : still.Whole ∧ (read.Has id → there = id → t.byteLength = read.allocated id) := by
      split at chosen
      · cases chosen
        refine ⟨whole, fun _ _ => ?_⟩
        rw [Message.allocated, target]
      · have meets := Message.allocateSegment_meets (padToWord byteLength) read
        unfold Meets at meets
        rw [chosen] at meets
        refine ⟨(meets.2 0).whole whole, ?_⟩
        intro has landed
        have beyond := Message.freshSegment_ge has.multi
        have inside := has.bound
        have fresh := meets.1 whole
        omega
    refine ⟨grownWhole.1.aligned t (List.mem_of_getElem? target), lower, ?_, ?_, grownWhole.2⟩
    · rw [Message.charge_allocated, Message.allocated, Message.setSegment_getElem? bound, if_pos rfl]
    · simpa [Message.setSegment] using bound

theorem Message.Addressable.bound {m : Message} (addressable : m.Addressable) (segment : Nat) :
    m.allocated segment ≤ 2 ^ 32 := by
  rw [Message.allocated]
  split
  · rename_i s found
    exact addressable.2 s (List.mem_of_getElem? found)
  · decide

theorem onMessage_run {α : Type} {message : Nat} {run : MessageM α} {w after : World} {value : α}
    (ran : onMessage message run w = .ok value after) :
    ∃ m, run (w message) = .ok value m ∧ after = Function.update w message m := by
  unfold onMessage at ran
  cases there : run (w message) with
  | error reason m =>
      rw [there] at ran
      cases ran
  | ok result m =>
      rw [there] at ran
      cases ran
      exact ⟨m, rfl, rfl⟩

namespace Pointer

variable {w after : World} {p : Pointer}

structure LeadsToList (p : Pointer) (w : World) : Prop where
  inside : p.InBuffer w
  target : (p.target w).InBuffer w
  list : p.targetType w = .LIST

theorem leadsToList_near {offsetWords : Int} (inside : p.InBuffer w)
    (lo : p.lo w = PointerWord.nearLo .LIST offsetWords) : p.LeadsToList w := by
  have type : PointerType.ofBits (p.lo w) = .LIST := by
    rw [lo, PointerWord.ofBits_nearLo]
  have here : p.target w = p := by
    rw [Pointer.target, type, if_neg (by decide)]
  constructor
  · exact inside
  · rw [here]
    exact inside
  · rw [Pointer.targetType, here, type]

theorem leadsToList_far {doubleFar : Bool} {offset offsetWords : Int} {id : Nat} (inside : p.InBuffer w)
    (lo : p.lo w = PointerWord.farLo doubleFar (offset / 8)) (hi : p.hi w = BitVec.ofNat 32 id)
    (idBound : id < 2 ^ 32) (lower : 0 ≤ offset) (upper : offset < 2 ^ 32) (aligned : offset % 8 = 0)
    (tag : (fresh p.message id (offset + if doubleFar then 8 else 0)).InBuffer w)
    (tagLo : (fresh p.message id (offset + if doubleFar then 8 else 0)).lo w =
      PointerWord.nearLo .LIST offsetWords) : p.LeadsToList w := by
  have far : PointerType.ofBits (p.lo w) = .FAR := by
    rw [lo, PointerWord.ofBits_farLo]
  have double : PointerWord.isDoubleFar (p.lo w) = doubleFar := by
    rw [lo, PointerWord.isDoubleFar_farLo]
  have pad : p.landingPad w = { fresh p.message id offset with depthLimit := p.depthLimit - 1 } := by
    have words := PointerWord.farLo_shiftRight doubleFar (offset / 8)
    rw [landingPad, lo, hi, BitVec.toNat_ofNat, Nat.mod_eq_of_lt idBound, fresh]
    congr 1
    dsimp only
    omega
  have target : p.target w =
      { fresh p.message id (offset + if doubleFar then 8 else 0) with depthLimit := p.depthLimit - 1 } := by
    rw [Pointer.target, if_pos far, double, pad]
    cases doubleFar with
    | false => simp [fresh]
    | true => simp [fresh]
  have type : (p.target w).lo w = PointerWord.nearLo .LIST offsetWords := by
    rw [target]
    exact tagLo
  constructor
  · exact inside
  · rw [target]
    exact ⟨tag.lower, tag.upper⟩
  · rw [Pointer.targetType, type, PointerWord.ofBits_nearLo]

theorem listPointer_leadsToList {contentSegment : Nat} {contentOffset length : Int} {size : ListElementSize}
    {compositeSize : Option ObjectSize}
    (elsewhere : contentSegment ≠ p.segment → (w p.message).Has p.segment ∧ p.InBounds w)
    (run : (do
      let res ← initPointer p.message contentSegment contentOffset p
      setListPointer res.offsetWords size length res.pointer compositeSize) w = .ok () after)
    (addressable : (after p.message).Addressable) : p.LeadsToList after := by
  rw [Outcome.bind_eq_ok] at run
  obtain ⟨res, middle, pointed, written⟩ := run
  obtain ⟨inside, hi, rfl⟩ := setListPointer_ok written
  unfold initPointer at pointed
  split at pointed
  · rename_i apart
    have apart : p.segment ≠ contentSegment := by
      rcases apart with message | segment
      · exact absurd rfl message
      · exact segment
    obtain ⟨has, slot⟩ := elsewhere apart.symm
    rw [Outcome.bind_eq_ok] at pointed
    obtain ⟨s, same, read, pointed⟩ := pointed
    have still := onMessage_run read
    obtain ⟨m, located, rfl⟩ := still
    have first := Message.segment_meets contentSegment (w p.message)
    unfold Meets at first
    rw [located] at first
    obtain ⟨rfl, found⟩ := first
    rw [Function.update_eq_self] at pointed
    split at pointed
    · rw [Outcome.bind_eq_ok] at pointed
      obtain ⟨pad, first, allocated, pointed⟩ := pointed
      rw [Pointer.allocate, Outcome.bind_eq_ok] at allocated
      obtain ⟨place, reserved, ran, allocated⟩ := allocated
      obtain ⟨m, made, rfl⟩ := onMessage_run ran
      cases allocated
      obtain ⟨aligned, lower, ends, bound, same⟩ := Message.allocate_ok has.whole made
      rw [Outcome.bind_eq_ok] at pointed
      obtain ⟨_, second, far, pointed⟩ := pointed
      obtain ⟨slotInside, rfl⟩ := setFarPointer_ok far
      rw [Outcome.bind_eq_ok] at pointed
      obtain ⟨_, third, content, pointed⟩ := pointed
      obtain ⟨padInside, rfl⟩ := setFarPointer_ok content
      cases pointed
      -- the pad lies behind the slot, or in a segment of its own
      have behind : place.1 = p.segment → p.byteOffset + 8 ≤ place.2 := by
        intro here
        rw [same has here]
        exact slot.upper
      have slotPad : p.Apart (fresh p.message place.1 place.2) := by
        by_cases here : place.1 = p.segment
        · exact Or.inr (Or.inr (Or.inl (behind here)))
        · exact Or.inr (Or.inl (Ne.symm here))
      have slotTag : p.Apart (fresh p.message place.1 (place.2 + 8)) := by
        by_cases here : place.1 = p.segment
        · have later := behind here
          exact Or.inr (Or.inr (Or.inl (by simp only [fresh]; omega)))
        · exact Or.inr (Or.inl (Ne.symm here))
      have room := addressable.bound place.1
      have count := addressable.1
      simp only [World.putPointer_allocated, World.putPointer_length, Function.update_self] at room count
      rw [ends, show padToWord 16 = 16 by decide] at room
      apply leadsToList_far slotInside.putPointer.putPointer.putPointer
      · rw [(inside.apart slot.lower slotTag).1, (padInside.apart slot.lower slotPad).1,
          slotInside.lo ⟨rfl, rfl, rfl⟩, tdiv_eight aligned]
      · rw [(inside.apart slot.lower slotTag).2, (padInside.apart slot.lower slotPad).2,
          slotInside.hi ⟨rfl, rfl, rfl⟩]
      · change place.1 < 2 ^ 32
        omega
      · exact lower
      · omega
      · exact aligned
      · exact inside.putPointer
      · exact inside.lo ⟨rfl, rfl, rfl⟩
    · rw [Outcome.bind_eq_ok] at pointed
      obtain ⟨place, reserved, ran, pointed⟩ := pointed
      obtain ⟨m, made, rfl⟩ := onMessage_run ran
      obtain ⟨aligned, lower, ends, bound, _⟩ := Message.allocate_ok has.whole made
      dsimp only at pointed
      split at pointed
      · cases pointed
      · rename_i landed
        have landed : place.1 = contentSegment := by simpa using landed
        rw [Outcome.bind_eq_ok] at pointed
        obtain ⟨_, second, far, pointed⟩ := pointed
        obtain ⟨slotInside, rfl⟩ := setFarPointer_ok far
        cases pointed
        have slotPad : p.Apart (fresh p.message place.1 place.2) := by
          refine Or.inr (Or.inl ?_)
          change p.segment ≠ place.1
          rw [landed]
          exact apart
        have room := addressable.bound place.1
        have count := addressable.1
        simp only [World.putPointer_allocated, World.putPointer_length, Function.update_self] at room count
        rw [ends, show padToWord 8 = 8 by decide] at room
        have tag : fresh p.message place.1 (place.2 + if false then 8 else 0) = fresh p.message place.1 place.2 := by
          simp
        apply leadsToList_far slotInside.putPointer.putPointer
        · rw [(inside.apart slot.lower slotPad).1, slotInside.lo ⟨rfl, rfl, rfl⟩, tdiv_eight aligned]
        · rw [(inside.apart slot.lower slotPad).2, slotInside.hi ⟨rfl, rfl, rfl⟩]
        · omega
        · exact lower
        · omega
        · exact aligned
        · rw [tag]
          exact inside.putPointer
        · rw [tag]
          exact inside.lo ⟨rfl, rfl, rfl⟩
  · cases pointed
    exact leadsToList_near inside.putPointer (inside.lo ⟨rfl, rfl, rfl⟩)

theorem Still.bind {σ α β : Type} {program : EStateM CapnpError σ α} {next : α → EStateM CapnpError σ β}
    (still : Still program) (rests : ∀ value, Still (next value)) : Still (program >>= next) := by
  intro state
  apply Meets.bind
  apply (still state).mono
  · rintro value after rfl
    exact rests value after
  · rintro _ after same
    exact same

theorem getUint_still (width id : Nat) (byteOffset : Int) : Still (Message.getUint width id byteOffset) := by
  apply Still.bind (Message.segment_still id)
  intro s m
  cases DataView.getUint width s.buffer byteOffset with
  | ok value => exact rfl
  | error reason => exact rfl

theorem isNull_still (p : Pointer) : Still p.isNull := by
  intro w
  have unfolded : p.isNull w =
      if p.byteOffset + 8 > ((w p.message).segments[p.segment]?.map (·.byteLength)).getD 0 then
        .error (.PTR_OFFSET_OUT_OF_BOUNDS p.byteOffset) w
      else
        p.isWordZero p.byteOffset w := rfl
  unfold Meets
  rw [unfolded]
  by_cases beyond : p.byteOffset + 8 > ((w p.message).segments[p.segment]?.map (·.byteLength)).getD 0
  · rw [if_pos beyond]
  · rw [if_neg beyond]
    have word : Still (p.isWordZero p.byteOffset) := by
      apply Still.bind
      · intro w
        have read := getUint_still 8 p.segment p.byteOffset (w p.message)
        unfold Meets onMessage at *
        cases run : Message.getUint 8 p.segment p.byteOffset (w p.message) with
        | ok value m =>
            rw [run] at read
            subst read
            exact Function.update_eq_self _ _
        | error reason m =>
            rw [run] at read
            subst read
            exact Function.update_eq_self _ _
      · intro value w
        exact rfl
    exact word w

theorem moves_ok {R : World → World → Prop} {α : Type} {program : WorldM α} {value : α} (moves : Moves R program)
    (run : program w = .ok value after) : R w after := by
  have kept := moves w
  unfold Meets at kept
  rw [run] at kept
  exact kept

theorem setWordZero_null {null : Bool} {last : World} (run : p.setWordZero p.byteOffset w = .ok () after)
    (read : p.isNull after = .ok null last) : null = true := by
  obtain ⟨lower, upper, _, rfl⟩ := @setUint_ok w after p 8 p.byteOffset 0 (by decide) run
  have word : LittleEndian.read ((w.patch p.message p.segment p.byteOffset.toNat (encode 8 0) p.message).memory
      p.segment) p.byteOffset.toNat 8 = 0 := by
    rw [World.patch_memory _ _ _ _ _ _ _ (by rw [LittleEndian.encode_length]; omega), if_pos ⟨rfl, rfl⟩,
      LittleEndian.read_store_same]
    rfl
  have zero : p.isWordZero p.byteOffset (w.patch p.message p.segment p.byteOffset.toNat (encode 8 0)) =
      .ok true (w.patch p.message p.segment p.byteOffset.toNat (encode 8 0)) := by
    rw [isWordZero, Outcome.bind_apply, onMessage_reads (Message.getUint_run lower (by decide)
      (by rw [World.patch_capacity]; exact upper)), word]
    rfl
  unfold isNull at read
  dsimp only at read
  split at read
  · cases read
  · rw [zero] at read
    cases read
    rfl

theorem erase_null {null : Bool} {last : World} (run : p.erase w = .ok () after)
    (read : p.isNull after = .ok null last) : null = true := by
  unfold erase at run
  cases fuel : p.depthLimit.toNat with
  | zero =>
      rw [fuel] at run
      cases run
  | succ depth =>
      rw [fuel] at run
      rw [eraseWithin, Outcome.bind_eq_ok] at run
      obtain ⟨before, middle, found, run⟩ := run
      have still := p.isNull_still w
      unfold Meets at still
      rw [found] at still
      subst still
      split at run
      · rename_i isNull
        cases run
        rw [found] at read
        cases read
        exact isNull
      · rw [Outcome.bind_eq_ok] at run
        obtain ⟨_, erased, _, run⟩ := run
        rw [erasePointer, Outcome.bind_eq_ok] at run
        obtain ⟨type, same, _, run⟩ := run
        split at run
        · rw [Outcome.bind_eq_ok] at run
          obtain ⟨_, _, _, run⟩ := run
          exact setWordZero_null run read
        · exact setWordZero_null run read

theorem copyFromList_leadsToList {depth : Nat} {src : Pointer} (whole : (w p.message).Whole)
    (bound : p.segment < (w p.message).segments.length) (slot : (w p.message).Has p.segment → p.InBounds w)
    (run : copyFromList (copyWithin depth) src p w = .ok () after) (addressable : (after p.message).Addressable) :
    p.LeadsToList after := by
  unfold copyFromList at run
  split at run
  · cases run
  · rw [Outcome.bind_eq_ok] at run
    obtain ⟨srcContent, first, content, run⟩ := run
    rw [Outcome.bind_eq_ok] at run
    obtain ⟨srcElementSize, second, size, run⟩ := run
    rw [Outcome.bind_eq_ok] at run
    obtain ⟨srcLength, third, length, run⟩ := run
    have spared : w.Spares p.message p.segment third := by
      have reads : w.Spares p.message p.segment first := moves_ok (spares_of_uses (src.getContent_uses false)) content
      have sizes : first.Spares p.message p.segment second := moves_ok (spares_of_uses src.getTargetListElementSize_uses) size
      have lengths : second.Spares p.message p.segment third := moves_ok (spares_of_uses src.getTargetListLength_uses) length
      exact trans_of (World.Spares p.message p.segment)
        (trans_of (World.Spares p.message p.segment) reads sizes) lengths
    rw [Outcome.bind_eq_ok] at run
    obtain ⟨copied, fourth, placing, run⟩ := run
    have placed := copyListContent_places (fun message segment src dst => copyWithin_leaves depth message segment src dst)
      src p srcElementSize srcLength srcContent third
    unfold Meets at placed
    rw [placing] at placed
    obtain ⟨placed, _⟩ := placed
    refine listPointer_leadsToList ?_ run addressable
    intro apart
    have multi : (w p.message).arena.kind = .MULTI_SEGMENT := by
      cases kind : (w p.message).arena.kind with
      | MULTI_SEGMENT => rfl
      | SINGLE_SEGMENT =>
          exact absurd (placed.single (spared.whole whole) (spared.kind.trans kind)
            (Nat.lt_of_lt_of_le bound spared.length)) apart
    have has : (w p.message).Has p.segment := ⟨whole, multi, bound⟩
    have kept := trans_of (World.Leaves p.message p.segment) spared.leaves
      (placed.leaves p.message p.segment fun _ _ => apart)
    obtain ⟨still, same⟩ := kept has
    refine ⟨still, (slot has).lower, ?_⟩
    rw [same]
    exact (slot has).upper

/-- What erasing the old content of `p` leaves of a list pointer: a list pointer, or nothing. -/
def StaysList (list p : Pointer) (w : World) : Prop :=
  ∀ cleared, p.erase w = .ok () cleared → ∀ type last, list.getTargetPointerType cleared = .ok type last →
    type = .LIST ∨ Returns list.isNull cleared (· = true)

def IsStruct (p : Pointer) (w : World) : Prop :=
  Returns p.isNull w (· = false) ∧ Returns p.getTargetPointerType w (· = .STRUCT)

theorem LeadsToList.not_struct (list : p.LeadsToList w) : ¬ p.IsStruct w := by
  rintro ⟨_, type, last, run, struct⟩
  have read := list.inside.getTargetPointerType_ok list.target run
  rw [list.list, struct] at read
  cases read

theorem copyFrom_list_not_struct {src : Pointer} (wf : (w p.message).WellFormed) (slot : p.InBounds w)
    (other : ¬ (p.message = src.message ∧ p.segment = src.segment ∧ p.byteOffset = src.byteOffset))
    (stays : src.StaysList p w) (run : copyFrom src p w = .ok () after)
    (addressable : (after p.message).Addressable) : ¬ p.IsStruct after := by
  rw [copyFrom, copyWithin, if_neg other, Outcome.bind_eq_ok] at run
  obtain ⟨_, cleared, erased, run⟩ := run
  have spared : w.Spares p.message p.segment cleared := moves_ok (spares_of_uses p.erase_uses) erased
  rw [copyTarget, Outcome.bind_eq_ok] at run
  obtain ⟨null, same, found, run⟩ := run
  have still := src.isNull_still cleared
  unfold Meets at still
  rw [found] at still
  subst still
  split at run
  · cases run
    rintro ⟨⟨empty, last, read, filled⟩, _⟩
    rw [erase_null erased read] at filled
    cases filled
  · rename_i filled
    rw [Outcome.bind_eq_ok] at run
    obtain ⟨type, typed, target, run⟩ := run
    have list : type = .LIST := by
      rcases stays same erased type typed target with list | ⟨empty, last, read, gone⟩
      · exact list
      · rw [found] at read
        cases read
        exact absurd gone filled
    subst list
    have read : same.Spares p.message p.segment typed := moves_ok (spares_of_uses src.getTargetPointerType_uses) target
    have before : w.Spares p.message p.segment typed :=
      trans_of (World.Spares p.message p.segment) spared read
    apply LeadsToList.not_struct
    refine copyFromList_leadsToList (before.whole wf.whole) ?_ ?_ run addressable
    · exact Nat.lt_of_lt_of_le slot.bound before.length
    · intro has
      have multi : (w p.message).arena.kind = .MULTI_SEGMENT := before.kind.symm.trans has.multi
      refine ⟨slot.lower, ?_⟩
      rw [before.allocated wf.whole multi slot.bound]
      exact slot.upper

end Pointer

namespace CompositeList

open Pointer

/-- What `get` returns. -/
def element (list : Pointer) (index : Nat) : Pointer :=
  { list with depthLimit := list.depthLimit - 1, compositeIndex := some index, compositeList := true }

def copyElement (list : Pointer) (index : Nat) (p : Pointer) : WorldM Unit := do
  let element ← get list index
  copyFrom element p

/-- The elements of a list behave as values, whatever it is for two structs to read alike: an element can be set
to `v`, and copied into the slot `p`. -/
structure BehavesAsValue (alike : Pointer → World → Pointer → World → Prop) (list v p : Pointer)
    (index length : Nat) (w : World) : Prop where
  set : ∃ after, CompositeList.set list index v w = .ok () after ∧ alike (element list index) after v w ∧
    Returns list.getTargetListLength after (· = length) ∧
    ∀ other < length, other ≠ index → alike (element list other) after (element list other) w
  copy : ∃ after, copyElement list index p w = .ok () after ∧ p.IsStruct after ∧
    alike p after (element list index) w ∧
    ∀ other < length, alike (element list other) after (element list other) w

/-- A slot other than the list's own, whose old content does not share its words with the list pointer. -/
structure CopySite (list p : Pointer) (index : Nat) (w : World) : Prop where
  wellFormed : (w p.message).WellFormed
  slot : p.InBounds w
  other : ¬ (p.message = list.message ∧ p.segment = list.segment ∧ p.byteOffset = list.byteOffset)
  unshared : ∀ charged, get list index w = .ok (element list index) charged →
    (element list index).StaysList p charged
  addressable : ∀ after, copyElement list index p w = .ok () after → (after p.message).Addressable

variable {list v p : Pointer} {index length : Nat} {w : World}

theorem get_ok {element' : Pointer} {after : World} (run : get list index w = .ok element' after) :
    element' = element list index ∧ after = w.spend list.message 1 := by
  rw [get, newElement, Outcome.bind_eq_ok] at run
  obtain ⟨made, charged, created, run⟩ := run
  obtain ⟨rfl, rfl⟩ := newPointer_ok created
  cases run
  exact ⟨rfl, rfl⟩

/-- The word of an element is that of its list, so a copy of the element is a list. -/
theorem elements_never_values (alike : Pointer → World → Pointer → World → Prop) (site : CopySite list p index w) :
    ¬ BehavesAsValue alike list v p index length w := by
  rintro ⟨_, after, run, struct, _⟩
  have addressable := site.addressable after run
  rw [copyElement, Outcome.bind_eq_ok] at run
  obtain ⟨found, charged, made, run⟩ := run
  obtain ⟨rfl, rfl⟩ := get_ok made
  have wf : (w.spend list.message 1 p.message).WellFormed := site.wellFormed.spend list.message 1
  have other : ¬ (p.message = (element list index).message ∧ p.segment = (element list index).segment ∧
      p.byteOffset = (element list index).byteOffset) := site.other
  exact copyFrom_list_not_struct wf (site.slot.spend list.message 1) other (site.unshared _ made) run
    addressable struct

def oneElement : Message :=
  { arena := { kind := .SINGLE_SEGMENT, buffers := [] }
    segments :=
      [{ buffer := [1, 0, 0, 0, 15, 0, 0, 0, 4, 0, 0, 0, 1, 0, 0, 0, 42, 0, 0, 0, 0, 0, 0, 0] ++
          List.replicate 8 0 ++ [0, 0, 0, 0, 1, 0, 0, 0, 7, 0, 0, 0, 0, 0, 0, 0] ++ List.replicate 32 0
         byteLength := 48 }]
    traversalLimit := DEFAULT_TRAVERSE_LIMIT
    readonly := false
    capTable := none }

def ends {α : Type} (program : WorldM α) (w : World) (good : α → World → Bool) : Bool :=
  match program w with
  | .ok value after => good value after
  | .error _ _ => false

theorem returns_of_ends {α : Type} [DecidableEq α] {program : WorldM α} {value : α}
    (found : ends program w (fun result _ => decide (result = value)) = true) :
    Returns program w (· = value) := by
  unfold ends at found
  cases run : program w with
  | error reason after =>
      rw [run] at found
      cases found
  | ok result after =>
      rw [run] at found
      exact ⟨result, after, run, of_decide_eq_true found⟩

theorem ends_of_ok {α : Type} {program : WorldM α} {value : α} {after : World} {good : α → World → Bool}
    (found : ends program w good = true) (run : program w = .ok value after) : good value after = true := by
  rw [ends, run] at found
  exact found

theorem oneElement_site : CopySite (fresh 0 0 0) (fresh 0 0 24) 0 fun _ => oneElement := by
  constructor
  · constructor
    · decide
    · decide
    · decide
    · rfl
    · decide
  · exact ⟨by decide, by decide⟩
  · decide
  · intro charged made cleared erased type last read
    have list : ends (do
        let element ← get (fresh 0 0 0) 0
        (fresh 0 0 24).erase
        element.getTargetPointerType) (fun _ => oneElement) (fun type _ => decide (type = .LIST)) = true := by
      decide +kernel
    have ran : (do
        let element ← get (fresh 0 0 0) 0
        (fresh 0 0 24).erase
        element.getTargetPointerType) (fun _ => oneElement) = .ok type last := by
      rw [Outcome.bind_apply, made]
      simp only
      rw [Outcome.bind_apply, erased]
      exact read
    exact Or.inl (of_decide_eq_true (ends_of_ok list ran))
  · intro after run
    have small : ends (copyElement (fresh 0 0 0) 0 (fresh 0 0 24)) (fun _ => oneElement)
        (fun _ after => decide (after 0).Addressable) = true := by
      decide +kernel
    exact of_decide_eq_true (ends_of_ok small run)

theorem elements_never_values_oneElement :
    ¬ BehavesAsValue (fun _ _ _ _ => True) (fresh 0 0 0) (fresh 0 0 32) (fresh 0 0 24) 0 1 fun _ => oneElement :=
  elements_never_values _ oneElement_site

/-- Setting the element to a struct leaves a null list, and copying it makes the slot a list. -/
theorem oneElement_not_value :
    Returns (fresh 0 0 0).getTargetPointerType (fun _ => oneElement) (· = .LIST) ∧
      Returns (fresh 0 0 0).getTargetListElementSize (fun _ => oneElement) (· = .COMPOSITE) ∧
      Returns (fresh 0 0 0).getTargetListLength (fun _ => oneElement) (· = 1) ∧
      Returns (do
        CompositeList.set (fresh 0 0 0) 0 (fresh 0 0 32)
        (fresh 0 0 0).isNull) (fun _ => oneElement) (· = true) ∧
      Returns (do
        copyElement (fresh 0 0 0) 0 (fresh 0 0 24)
        (fresh 0 0 24).getTargetPointerType) (fun _ => oneElement) (· = .LIST) ∧
      ¬ BehavesAsValue (fun _ _ _ _ => True) (fresh 0 0 0) (fresh 0 0 32) (fresh 0 0 24) 0 1 fun _ => oneElement := by
  have copied : Returns (do
      copyElement (fresh 0 0 0) 0 (fresh 0 0 24)
      (fresh 0 0 24).getTargetPointerType) (fun _ => oneElement) (· = .LIST) :=
    returns_of_ends (by decide +kernel)
  refine ⟨returns_of_ends (by decide +kernel), returns_of_ends (by decide +kernel),
    returns_of_ends (by decide +kernel), returns_of_ends (by decide +kernel), copied, ?_⟩
  rintro ⟨_, after, run, ⟨_, type, last, read, struct⟩, _⟩
  obtain ⟨type', last', ran, list⟩ := copied
  rw [Outcome.bind_apply, run] at ran
  simp only at ran
  rw [read] at ran
  cases ran
  rw [struct] at list
  cases list

end CompositeList

end CapnpEs
