import CapnpEs.Serialization.Pointers.Trees

/-! What `erase` sets to zero, and when that is the whole tree. -/

namespace CapnpEs

open Outcome

/-- `w'` is `w` with some bytes of a message set to zero, after at most `cost` pointers were made. -/
structure Zeroed (message cost : Nat) (zeros : Set Byte) (w w' : World) : Prop where
  like : World.Like message zerosᶜ w w'
  zero : ∀ byte ∈ zeros, (w' message).memory byte.1 byte.2 = 0
  others : ∀ other ≠ message, w' other = w other
  budget : (w message).traversalLimit - 8 * cost ≤ (w' message).traversalLimit

theorem World.Like.trans {message : Nat} {bytes : Set Byte} {w w' w'' : World} (first : World.Like message bytes w w')
    (second : World.Like message bytes w' w'') : World.Like message bytes w w'' := by
  constructor
  · exact second.wellFormed
  · rw [second.readonly, first.readonly]
  · rw [second.length, first.length]
  · intro s
    rw [second.allocated, first.allocated]
  · intro s
    rw [second.capacity, first.capacity]
  · intro byte member
    rw [second.memory byte member, first.memory byte member]

namespace Zeroed

variable {message cost : Nat} {zeros : Set Byte} {w w' : World}

theorem spend (wf : (w message).WellFormed) (cost : Nat) : Zeroed message cost ∅ w (w.spend message cost) := by
  refine ⟨⟨wf.spend message cost, ?_, ?_, ?_, ?_, ?_⟩, nofun, ?_, ?_⟩
  · simp
  · simp
  · simp
  · simp
  · simp
  · intro other different
    simp [World.spend, different]
  · simp

theorem trans {more : Nat} {rest : Set Byte} {w'' : World} (first : Zeroed message cost zeros w w')
    (second : Zeroed message more rest w' w'') : Zeroed message (cost + more) (zeros ∪ rest) w w'' := by
  constructor
  · apply World.Like.trans
    · exact first.like.mono (Set.compl_subset_compl.mpr Set.subset_union_left)
    · exact second.like.mono (Set.compl_subset_compl.mpr Set.subset_union_right)
  · intro byte member
    by_cases later : byte ∈ rest
    · exact second.zero byte later
    · rw [second.like.memory byte later]
      exact first.zero byte (member.resolve_right later)
  · intro other different
    rw [second.others other different, first.others other different]
  · have before := first.budget
    have after := second.budget
    push_cast
    omega

theorem mono {more : Nat} (zeroed : Zeroed message cost zeros w w') (le : cost ≤ more) :
    Zeroed message more zeros w w' := by
  refine ⟨zeroed.like, zeroed.zero, zeroed.others, ?_⟩
  have budget := zeroed.budget
  omega

theorem patch {segment count : Nat} {start : Int} (wf : (w message).WellFormed) (lower : 0 ≤ start)
    (inside : start + count ≤ (w message).capacity segment) :
    Zeroed message 0 (span segment start count) w
      (w.patch message segment start.toNat (List.replicate count 0)) := by
  have fits : start.toNat + (List.replicate count (0 : UInt8)).length ≤ (w message).capacity segment := by
    rw [List.length_replicate]
    omega
  refine ⟨⟨wf.patchWorld _ _ _ _, ?_, ?_, ?_, ?_, ?_⟩, ?_, ?_, ?_⟩
  · simp
  · simp
  · simp
  · simp
  · rintro ⟨there, address⟩ outside
    rw [World.patch_memory _ _ _ _ _ _ _ fits]
    split
    · rename_i here
      rw [LittleEndian.store, if_neg, here.2]
      rintro ⟨above, below⟩
      rw [List.length_replicate] at below
      exact outside ⟨here.2, by dsimp only; omega, by dsimp only; omega⟩
    · rfl
  · rintro ⟨there, address⟩ ⟨same, above, below⟩
    dsimp only at same above below
    rw [World.patch_memory _ _ _ _ _ _ _ fits, if_pos ⟨rfl, same⟩, LittleEndian.store, if_pos]
    · simp
    · rw [List.length_replicate]
      omega
  · intro other different
    simp [World.patch, different]
  · simp

end Zeroed

/-- `program` sets exactly these bytes to zero, or fails, and `small` says which. -/
def Erases (program : WorldM Unit) (message cost : Nat) (zeros : Set Byte) (small : Prop) (w : World) : Prop :=
  (small ∧ ∃ after, program w = .ok () after ∧ Zeroed message cost zeros w after) ∨
    (¬ small ∧ ∃ reason after, program w = .error reason after)

namespace Erases

variable {program next : WorldM Unit} {message cost more : Nat} {zeros rest : Set Byte} {small fits : Prop} {w : World}

theorem of_run {after : World} (run : program w = .ok () after) (zeroed : Zeroed message cost zeros w after) :
    Erases program message cost zeros True w :=
  Or.inl ⟨trivial, after, run, zeroed⟩

theorem pure (wf : (w message).WellFormed) : Erases (Pure.pure ()) message 0 ∅ True w := by
  apply of_run (pure_apply () w)
  have none := Zeroed.spend wf 0
  rwa [World.spend_zero] at none

theorem mono (erases : Erases program message cost zeros small w) (le : cost ≤ more) (same : zeros = rest)
    (iff : small ↔ fits) : Erases program message more rest fits w := by
  subst same
  rcases erases with ⟨holds, after, run, zeroed⟩ | ⟨long, failure⟩
  · exact Or.inl ⟨iff.mp holds, after, run, zeroed.mono le⟩
  · exact Or.inr ⟨fun holds => long (iff.mpr holds), failure⟩

theorem read {α : Type} {first : WorldM α} {continues : α → WorldM Unit} {value : α}
    (wf : (w message).WellFormed) (reads : Reads first message cost w value)
    (erases : ∀ count ≤ cost, Erases (continues value) message more zeros small (w.spend message count)) :
    Erases (first >>= continues) message (cost + more) zeros small w := by
  obtain ⟨count, le, run⟩ := reads
  unfold Erases
  rw [bind_apply, run]
  rcases erases count le with ⟨holds, after, later, zeroed⟩ | ⟨long, failure⟩
  · refine Or.inl ⟨holds, after, later, ?_⟩
    have both := (Zeroed.spend wf count).trans zeroed
    rw [Set.empty_union] at both
    exact both.mono (by omega)
  · exact Or.inr ⟨long, failure⟩

theorem seq (first : Erases program message cost zeros small w)
    (second : ∀ w', Zeroed message cost zeros w w' → Erases next message more rest fits w') :
    Erases (program >>= fun _ => next) message (cost + more) (zeros ∪ rest) (small ∧ fits) w := by
  unfold Erases
  rcases first with ⟨holds, middle, run, zeroed⟩ | ⟨long, reason, middle, run⟩
  · rw [bind_apply, run]
    rcases second middle zeroed with ⟨holdsToo, after, later, zeroedToo⟩ | ⟨long, failure⟩
    · exact Or.inl ⟨⟨holds, holdsToo⟩, after, later, zeroed.trans zeroedToo⟩
    · exact Or.inr ⟨fun both => long both.2, failure⟩
  · rw [bind_apply, run]
    exact Or.inr ⟨fun both => long both.1, reason, middle, rfl⟩

theorem forM {visit : Pointer → WorldM Unit} {bytes zeros : Pointer → Set Byte} {cost : Pointer → Nat}
    {small : Pointer → Prop} (items : List Pointer) (wf : (w message).WellFormed)
    (within : ∀ c ∈ items, zeros c ⊆ bytes c) (apart : items.Pairwise fun c d => Disjoint (bytes c) (bytes d))
    (budget : 8 * (items.map cost).sum < (w message).traversalLimit)
    (each : ∀ c ∈ items, ∀ w', World.Like message (bytes c) w w' → 8 * cost c < (w' message).traversalLimit →
      Erases (visit c) message (cost c) (zeros c) (small c) w') :
    Erases (items.forM visit) message (items.map cost).sum { byte | ∃ c ∈ items, byte ∈ zeros c }
      (∀ c ∈ items, small c) w := by
  induction items generalizing w with
  | nil =>
      apply (Erases.pure wf).mono (Nat.zero_le _)
      · ext byte
        simp
      · simp
  | cons c items ih =>
      rw [List.map_cons, List.sum_cons] at budget
      rw [List.pairwise_cons] at apart
      have self : World.Like message (bytes c) w w :=
        ⟨wf, Eq.refl _, Eq.refl _, fun _ => Eq.refl _, fun _ => Eq.refl _, fun _ _ => Eq.refl _⟩
      have first := each c List.mem_cons_self w self (by omega)
      have others : ∀ w', Zeroed message (cost c) (zeros c) w w' →
          Erases (items.forM visit) message (items.map cost).sum { byte | ∃ d ∈ items, byte ∈ zeros d }
            (∀ d ∈ items, small d) w' := by
        intro w' zeroed
        apply ih zeroed.like.wellFormed
        · exact fun d member => within d (List.mem_cons_of_mem c member)
        · exact apart.2
        · have left := zeroed.budget
          omega
        · intro d member w'' like
          apply each d (List.mem_cons_of_mem c member)
          apply World.Like.trans _ like
          apply zeroed.like.mono
          intro byte inside wiped
          exact Set.disjoint_left.mp (apart.1 d member) (within c List.mem_cons_self wiped) inside
      apply (first.seq others).mono (Nat.le_of_eq (by simp))
      · ext byte
        simp
      · simp

end Erases

/-! The writes. -/

theorem Message.setWords_run {m : Message} {segment count : Nat} {byteOffset : Int} (writable : m.readonly = false)
    (found : segment < m.segments.length) (lower : 0 ≤ byteOffset) (aligned : byteOffset % 8 = 0)
    (inside : byteOffset + 8 * count ≤ m.capacity segment) :
    Message.setWords segment byteOffset (List.replicate (count * 8) 0) m =
      .ok () (m.patch segment byteOffset.toNat (List.replicate (count * 8) 0)) := by
  obtain ⟨s, here⟩ := segment_of_lt found
  simp only [capacity, here] at inside
  rw [Message.setWords, bind_apply, assertWritable_run writable]
  simp only
  rw [bind_apply, segment_run here]
  simp only [List.length_replicate, wordsView, uint8View]
  rw [if_neg (by omega), if_neg (by omega)]
  simp only [patch, here, List.length_replicate]
  rw [if_pos (by omega)]
  rfl

namespace Pointer

variable {w : World} {p : Pointer}

section write

variable {byteOffset : Int} (wf : (w p.message).WellFormed) (writable : (w p.message).readonly = false)
  (lower : 0 ≤ byteOffset)
include wf writable lower

theorem setWordZero_erases (inside : byteOffset + 8 ≤ (w p.message).allocated p.segment) :
    Erases (p.setWordZero byteOffset) p.message 0 (span p.segment byteOffset 8) True w := by
  have room := wf.allocated_le p.segment
  exact Erases.of_run (setUint_patch 0 writable lower (by decide) (by omega))
    (Zeroed.patch wf lower (by push_cast; omega))

variable (bound : p.segment < (w p.message).segments.length) (aligned : byteOffset % 8 = 0)
include bound aligned

theorem fillZeroWords_fits (count : Nat) :
    Erases (p.fillZeroWords byteOffset count) p.message 0 (span p.segment byteOffset (8 * count))
      (byteOffset + 8 * count ≤ (w p.message).capacity p.segment) w := by
  by_cases inside : byteOffset + 8 * (count : Int) ≤ (w p.message).capacity p.segment
  · have run := onMessage_ok (Message.setWords_run writable bound lower aligned inside)
    have zeroed := @Zeroed.patch p.message w p.segment (count * 8) byteOffset wf lower (by push_cast; omega)
    rw [show ((count * 8 : Nat) : Int) = 8 * (count : Int) by push_cast; omega] at zeroed
    exact Or.inl ⟨inside, _, run, zeroed⟩
  · refine Or.inr ⟨inside, .RangeError, w, ?_⟩
    obtain ⟨s, here⟩ := Message.segment_of_lt bound
    simp only [Message.capacity, here] at inside
    rw [fillZeroWords, onMessage, Message.setWords, bind_apply, Message.assertWritable_run writable]
    simp only
    rw [bind_apply, Message.segment_run here]
    simp only [List.length_replicate, Message.wordsView, uint8View]
    rw [if_neg (by omega), if_pos (by omega)]
    change EStateM.Result.error CapnpError.RangeError (Function.update w p.message (w p.message)) = _
    rw [Function.update_eq_self]

theorem fillZeroWords_erases {count : Nat}
    (inside : byteOffset + 8 * count ≤ (w p.message).allocated p.segment) :
    Erases (p.fillZeroWords byteOffset count) p.message 0 (span p.segment byteOffset (8 * count)) True w := by
  have room := wf.allocated_le p.segment
  apply (fillZeroWords_fits wf writable lower bound aligned count).mono (Nat.le_refl 0) (Eq.refl _)
  simp only [iff_true]
  omega

theorem fillZeroWordsOf_fits (words : Int) :
    Erases (p.fillZeroWordsOf byteOffset words) p.message 0 (span p.segment byteOffset (8 * words))
      (0 ≤ words ∧ byteOffset + 8 * words ≤ (w p.message).capacity p.segment) w := by
  by_cases negative : words < 0
  · rw [fillZeroWordsOf, if_pos negative, Erases, bind_apply,
      onMessage_reads (Message.assertWritable_run writable)]
    exact Or.inr ⟨by omega, .RangeError, w, rfl⟩
  · rw [fillZeroWordsOf, if_neg negative]
    have count : ((words.toNat : Nat) : Int) = words := by omega
    have filled := fillZeroWords_fits wf writable lower bound aligned words.toNat
    rw [count] at filled
    exact filled.mono (Nat.le_refl 0) (Eq.refl _) (by omega)

theorem fillZeroWordsOf_erases {words : Int}
    (inside : 0 ≤ words → byteOffset + 8 * words ≤ (w p.message).allocated p.segment) :
    Erases (p.fillZeroWordsOf byteOffset words) p.message 0 (span p.segment byteOffset (8 * words)) (0 ≤ words) w := by
  have room := wf.allocated_le p.segment
  apply (fillZeroWordsOf_fits wf writable lower bound aligned words).mono (Nat.le_refl 0) (Eq.refl _)
  constructor
  · exact fun fits => fits.1
  · intro nonneg
    have fits := inside nonneg
    exact ⟨nonneg, by omega⟩

end write

theorem span_append (segment : Nat) (start : Int) {first second : Int} (lower : 0 ≤ first) (upper : 0 ≤ second) :
    span segment start first ∪ span segment (start + first) second = span segment start (first + second) := by
  ext byte
  simp only [span, Set.mem_union, Set.mem_ofPred_eq]
  omega

@[simp] theorem span_zero (segment : Nat) (start : Int) : span segment start 0 = ∅ := by
  ext byte
  constructor
  · rintro ⟨_, above, below⟩
    omega
  · exact nofun

section follow

variable (wf : (w p.message).WellFormed) (writable : (w p.message).readonly = false) (follows : p.Follows w)
  (budget : 8 < (w p.message).traversalLimit)
include wf writable follows budget

theorem eraseLandingPad_erases (far : PointerType.ofBits (p.lo w) = .FAR) :
    Erases p.eraseLandingPad p.message 1 (p.pads w) True w := by
  change Erases _ _ (1 + 0) _ _ _
  apply Erases.read wf (followFar_reads wf follows far budget)
  intro count _
  have padMessage : (p.landingPad w).message = p.message := rfl
  have pad := follows.pad far
  have spentWf := wf.spend p.message count
  have spentWritable : (w.spend p.message count (p.landingPad w).message).readonly = false := by
    rw [padMessage, World.spend_readonly]
    exact writable
  have double : Reads p.isDoubleFar p.message 0 (w.spend p.message count) (PointerWord.isDoubleFar (p.lo w)) := by
    apply Reads.of_run
    rw [isDoubleFar_run spentWf (follows.inBounds.spend p.message count), lo_spend]
  change Erases _ _ (0 + 0) _ _ _
  apply Erases.read spentWf double
  · intro none le
    rw [Nat.le_zero.mp le, World.spend_zero]
    rw [pads, if_pos far]
    split
    · rename_i double
      have tag : (p.landingPad w).byteOffset + 16 ≤ (w p.message).allocated (p.landingPad w).segment := by
        have upper := follows.target.upper
        simp only [target, if_pos far, if_pos double] at upper
        rw [padMessage] at upper
        omega
      have first := @setWordZero_erases (w.spend p.message count) (p.landingPad w) ((p.landingPad w).byteOffset + 8)
        spentWf spentWritable (by have lower := pad.lower; omega)
        (by rw [padMessage, World.spend_allocated]; omega)
      have second : ∀ w', Zeroed (p.landingPad w).message 0
          (span (p.landingPad w).segment ((p.landingPad w).byteOffset + 8) 8) (w.spend p.message count) w' →
          Erases ((p.landingPad w).setWordZero (p.landingPad w).byteOffset) (p.landingPad w).message 0
            (span (p.landingPad w).segment (p.landingPad w).byteOffset 8) True w' := by
        intro w' zeroed
        apply setWordZero_erases zeroed.like.wellFormed
        · rw [zeroed.like.readonly]
          exact spentWritable
        · exact pad.lower
        · rw [zeroed.like.allocated, padMessage, World.spend_allocated]
          omega
      apply (first.seq second).mono (Nat.le_refl 0)
      · rw [Set.union_comm]
        exact span_append _ _ (by decide) (by decide)
      · simp
    · apply setWordZero_erases (p := p.landingPad w) spentWf spentWritable pad.lower
      rw [padMessage, World.spend_allocated]
      exact pad.upper

theorem erasePointer_erases : Erases p.erasePointer p.message 1 (p.path w) True w := by
  have own : ∀ w', Zeroed p.message 1 (p.pads w) w w' →
      Erases (p.setWordZero p.byteOffset) p.message 0 p.word True w' := by
    intro w' zeroed
    apply setWordZero_erases zeroed.like.wellFormed
    · rw [zeroed.like.readonly]
      exact writable
    · exact follows.inBounds.lower
    · rw [zeroed.like.allocated]
      exact follows.inBounds.upper
  change Erases _ _ (0 + 1) _ _ _
  apply Erases.read wf (Reads.of_run (getPointerType_run wf follows.inBounds))
  intro none le
  rw [Nat.le_zero.mp le, World.spend_zero]
  split
  · rename_i far
    have both := (eraseLandingPad_erases wf writable follows budget far).seq own
    apply both.mono (Nat.le_refl 1)
    · rw [path, Set.union_comm]
    · simp
  · rename_i near
    have alone := setWordZero_erases wf writable follows.inBounds.lower follows.inBounds.upper
    apply alone.mono (Nat.zero_le 1)
    · rw [path, pads, if_neg near, Set.union_empty]
      rfl
    · simp

end follow

/-! The content. -/

theorem forM_flatMap {α β : Type} {program : β → WorldM Unit} (items : List α) (parts : α → List β) :
    (items.flatMap parts).forM program = items.forM fun a => (parts a).forM program := by
  induction items with
  | nil => rfl
  | cons a items ih =>
      rw [List.flatMap_cons]
      simp only [List.forM_eq_forM] at ih ⊢
      rw [List.forM_append, List.forM_cons, ih]

def eraseChild (eraseNext : Pointer → WorldM Unit) (c : Pointer) : WorldM Unit := do
  let next ← newPointer c.message c.segment c.byteOffset c.depthLimit
  eraseNext next

theorem erasePointers_eq (eraseNext : Pointer → WorldM Unit) (c : Pointer) (byteOffset : Int) (count : Nat) :
    erasePointers eraseNext p c byteOffset count = (pointersAt p c byteOffset count).forM (eraseChild eraseNext) := by
  simp only [erasePointers, pointersAt, List.forM_eq_forM, List.forM_map]
  rfl

theorem like_of_zeroed {count cost : Nat} {zeros bytes : Set Byte} {w' : World}
    (zeroed : Zeroed p.message cost zeros (w.spend p.message count) w') (wf : (w p.message).WellFormed)
    (apart : Disjoint zeros bytes) : World.Like p.message bytes w w' := by
  apply World.Like.trans
  · exact (Zeroed.spend wf count).like.mono fun _ _ => nofun
  · exact zeroed.like.mono fun byte inside wiped => Set.disjoint_left.mp apart wiped inside

theorem structSize_aligned (hi : BitVec 32) : (PointerWord.structSize hi).dataByteLength % 8 = 0 := by
  simp [PointerWord.structSize]

theorem contentWords_nonneg {elementSize : ListElementSize} {length : Int} (lower : 0 ≤ length)
    (upper : length < 2 ^ 29) : 0 ≤ contentWords elementSize length ↔
      ∀ bytes, getListElementByteLength elementSize = some bytes → length * bytes + 7 < 2 ^ 31 := by
  have each : ∀ bytes : Nat, bytes ≤ 8 → (0 ≤ padToWord (length * bytes) / 8 ↔ length * bytes + 7 < 2 ^ 31) := by
    intro bytes small
    have least : 0 ≤ length * bytes := Int.mul_nonneg lower (by omega)
    have most : length * bytes ≤ (2 ^ 29 - 1) * 8 := Int.mul_le_mul (by omega) (by omega) (by omega) (by omega)
    by_cases fits : length * bytes + 7 < 2 ^ 31
    · rw [padToWord_of_lt least fits]
      omega
    · have negative := padToWord_negative (by omega : 2 ^ 31 ≤ length * bytes + 7) (by omega)
      omega
  unfold contentWords
  cases size : getListElementByteLength elementSize with
  | none => simp
  | some bytes =>
      have small : bytes ≤ 8 := by
        cases elementSize <;> simp [getListElementByteLength] at size <;> omega
      simp only [Option.some.injEq, forall_eq']
      exact each bytes small

theorem contentWords_eq {elementSize : ListElementSize} {length : Int} (lower : 0 ≤ length)
    (small : ∀ bytes, getListElementByteLength elementSize = some bytes → length * bytes + 7 < 2 ^ 31)
    (sized : getListElementByteLength elementSize ≠ none) :
    contentWords elementSize length = listWords elementSize length := by
  unfold contentWords listWords
  cases size : getListElementByteLength elementSize with
  | none => exact absurd size sized
  | some bytes =>
      have least : 0 ≤ length * bytes := Int.mul_nonneg lower (by omega)
      dsimp only
      rw [padToWord_of_lt least (small bytes size)]
      omega

theorem content_bound (resolves : p.Resolves w) : (p.content w).segment < (w p.message).segments.length := by
  have bound := resolves.segment
  rw [content]
  split <;> exact bound

theorem compositeWords (length : Int) (hi : BitVec 32) :
    8 * (length * padToWord (PointerWord.structSize hi).getByteLength / 8) =
      length * (PointerWord.structSize hi).getByteLength := by
  have bound := hi.isLt
  have words := structSize_aligned hi
  have multiple : ((PointerWord.structSize hi).getByteLength : Int) % 8 = 0 := by
    rw [ObjectSize.getByteLength]
    omega
  have short : ((PointerWord.structSize hi).getByteLength : Int) < 2 ^ 31 := by
    simp only [ObjectSize.getByteLength, PointerWord.structSize]
    omega
  obtain ⟨count, equal⟩ := Int.dvd_of_emod_eq_zero multiple
  rw [padToWord_aligned (by omega) short multiple, equal, Int.mul_left_comm, Int.mul_ediv_cancel_left _ (by decide)]

section content

variable {eraseNext : Pointer → WorldM Unit} {bytes zeros : Pointer → Set Byte} {cost : Pointer → Nat}
  {small sound : Pointer → Prop} (wf : (w p.message).WellFormed) (writable : (w p.message).readonly = false)
  (plain : p.compositeIndex = none) (node : IsNode bytes sound p w)
  (within : ∀ c ∈ p.children w, zeros c ⊆ bytes c)
  (each : ∀ c ∈ p.children w, ∀ w', World.Like p.message (bytes c) w w' →
    8 * cost c < (w' p.message).traversalLimit →
    Erases (eraseChild eraseNext c) p.message (cost c) (zeros c) (small c) w')
  (budget : 8 * (16 + ((p.children w).map cost).sum) < (w p.message).traversalLimit)

section children

variable {used : Nat} {wiped : Set Byte} {w' : World}
  (zeroed : Zeroed p.message 0 wiped (w.spend p.message used) w') (le : used ≤ 15)
  (apart : ∀ c ∈ p.children w, Disjoint wiped (bytes c))
include wf node within each budget zeroed le apart

theorem children_erases :
    Erases ((p.children w).forM (eraseChild eraseNext)) p.message ((p.children w).map cost).sum
      { byte | ∃ c ∈ p.children w, byte ∈ zeros c } (∀ c ∈ p.children w, small c) w' := by
  apply Erases.forM (p.children w) zeroed.like.wellFormed within node.siblingsApart
  · have left := zeroed.budget
    rw [World.spend_traversalLimit] at left
    omega
  · intro c member w'' like
    exact each c member w'' ((like_of_zeroed zeroed wf (apart c member)).trans like)

end children

include wf writable plain node within each budget

theorem eraseStruct_erases (struct : p.targetType w = .STRUCT) {used : Nat} (le : used ≤ 1) :
    Erases (eraseStruct eraseNext p) p.message (5 + ((p.children w).map cost).sum)
      (p.wiped w ∪ { byte | ∃ c ∈ p.children w, byte ∈ zeros c }) (p.IsSmall w ∧ ∀ c ∈ p.children w, small c)
      (w.spend p.message used) := by
  have notComposite : p.isComposite w = false := by
    simp [isComposite, struct]
  have wiped : p.wiped w = span (p.content w).segment (p.content w).byteOffset (p.structSize w).dataByteLength := by
    have notBits : p.isBitList w = false := by
      simp [isBitList, struct]
    rw [Pointer.wiped, notBits, own, notComposite]
    simp [extent, struct]
  have children : p.children w = pointersAt p (p.content w)
      ((p.content w).byteOffset + (p.structSize w).dataByteLength) (p.structSize w).pointerLength := by
    rw [Pointer.children, struct]
  have small : p.IsSmall w := by
    intro list
    rw [struct] at list
    cases list
  have lower : 0 ≤ (p.content w).byteOffset := by
    rw [content_plain notComposite]
    exact node.resolves.lower
  have inside := node.fits.inside
  rw [extent, struct] at inside
  have words := structSize_aligned ((p.target w).hi w)
  have count : 8 * (((p.structSize w).dataByteLength / 8 : Nat) : Int) = (p.structSize w).dataByteLength := by
    simp only [structSize] at words ⊢
    omega
  refine Erases.mono (?_ : Erases _ _ (1 + (4 + (0 + ((p.children w).map cost).sum))) _ _ _) (by omega) (Eq.refl _) Iff.rfl
  have size := getTargetStructSize_reads (wf.spend p.message used) (node.resolves.toFollows.spend p.message used)
    (by rw [World.spend_traversalLimit]; omega)
  rw [target_spend, hi_spend] at size
  apply Erases.read (wf.spend p.message used) size
  intro first firstLe
  rw [World.spend_spend]
  have found : Reads (p.getContent false) p.message 4 (w.spend p.message (used + first)) _ :=
    getContent_reads (wf.spend p.message (used + first))
    (node.resolves.spend p.message (used + first)) (by rw [World.spend_traversalLimit]; omega) plain
  rw [content_spend] at found
  apply Erases.read (wf.spend p.message (used + first)) found
  intro second secondLe
  rw [World.spend_spend]
  have filled := @fillZeroWords_erases (w.spend p.message (used + first + second)) (p.content w) (p.content w).byteOffset
    (by rw [content_message]; exact wf.spend _ _) (by rw [content_message]; simpa using writable) lower
    (by rw [content_message]; simpa using content_bound node.resolves) node.fits.aligned
    ((p.structSize w).dataByteLength / 8) (by rw [content_message, count]; simpa using inside)
  rw [content_message, count, ← wiped] at filled
  have both := filled.seq fun w' zeroed =>
    children_erases wf node within each budget zeroed (by omega) fun c member => ?_
  · rw [children, ← erasePointers_eq, ← children] at both
    exact both.mono (Nat.le_refl _) (Eq.refl _) (by simp [small])
  · have apart := (Set.disjoint_union_left.mp (node.childrenApart c member)).2
    rw [inner, notComposite] at apart
    apply apart.mono_left
    rw [Pointer.wiped]
    split
    · exact Set.empty_subset _
    · exact subset_refl _

section list

variable (list : p.targetType w = .LIST) {used : Nat} (le : used ≤ 11)
include list le

omit writable plain in
theorem erasePointerList_erases (size : p.elementSize w = .POINTER) :
    Erases (erasePointers eraseNext p (p.content w) (p.content w).byteOffset (p.listLength w).toNat) p.message
      ((p.children w).map cost).sum (p.wiped w ∪ { byte | ∃ c ∈ p.children w, byte ∈ zeros c })
      (p.IsSmall w ∧ ∀ c ∈ p.children w, small c) (w.spend p.message used) := by
  have children : p.children w = pointersAt p (p.content w) (p.content w).byteOffset (p.listLength w).toNat := by
    rw [Pointer.children, list]
    dsimp only
    rw [if_pos size]
  have notComposite : p.isComposite w = false := by
    rw [elementSize] at size
    simp [isComposite, size]
  have wiped : p.wiped w = ∅ := by
    rw [Pointer.wiped, own, notComposite, extent, list]
    simp [size]
  have small : p.IsSmall w := fun _ other => absurd size other
  have still := Zeroed.spend (wf.spend p.message used) 0
  rw [World.spend_zero] at still
  have erased := children_erases wf node within each budget still (by omega) fun _ _ => Set.empty_disjoint _
  rw [erasePointers_eq, ← children]
  apply erased.mono (Nat.le_refl _)
  · rw [wiped, Set.empty_union]
  · simp [small]

omit plain within each budget le in
theorem eraseDataList_erases (notPointers : p.elementSize w ≠ .POINTER) (notStructs : p.elementSize w ≠ .COMPOSITE) :
    Erases ((p.content w).fillZeroWordsOf (p.content w).byteOffset (contentWords (p.elementSize w) (p.listLength w)))
      p.message ((p.children w).map cost).sum (p.wiped w ∪ { byte | ∃ c ∈ p.children w, byte ∈ zeros c })
      (p.IsSmall w ∧ ∀ c ∈ p.children w, small c) (w.spend p.message used) := by
  have children : p.children w = [] := by
    rw [Pointer.children, list]
    dsimp only
    rw [if_neg notPointers, if_neg notStructs]
  have notComposite : p.isComposite w = false := by
    rw [elementSize] at notStructs
    simp [isComposite, notStructs]
  have lower : 0 ≤ (p.content w).byteOffset := by
    rw [content_plain notComposite]
    exact node.resolves.lower
  have length : p.listLength w < 2 ^ 29 := by
    rw [listLength, notComposite, BitVec.toNat_ushiftRight, Nat.shiftRight_eq_div_pow]
    have bound := ((p.target w).hi w).isLt
    simp only [Bool.false_eq_true, if_false]
    omega
  have isSmall : p.IsSmall w ↔ 0 ≤ contentWords (p.elementSize w) (p.listLength w) := by
    rw [contentWords_nonneg node.fits.length length, IsSmall]
    exact ⟨fun each => each list notPointers, fun each _ _ => each⟩
  have inside := node.fits.inside
  rw [extent, list] at inside
  dsimp only at inside
  rw [if_neg notPointers, if_neg notStructs] at inside
  have nothing : { byte | ∃ c ∈ p.children w, byte ∈ zeros c } = ∅ := by
    simp [children]
  have wiped : p.IsSmall w → p.wiped w = span (p.content w).segment (p.content w).byteOffset
      (8 * contentWords (p.elementSize w) (p.listLength w)) := by
    intro isSmall
    by_cases bits : p.elementSize w = .BIT
    · simp [Pointer.wiped, isBitList, list, bits, contentWords, getListElementByteLength]
    · have sized : getListElementByteLength (p.elementSize w) ≠ none := by
        cases found : p.elementSize w <;> simp_all [getListElementByteLength]
      rw [contentWords_eq node.fits.length (isSmall list notPointers) sized, Pointer.wiped, own, notComposite, extent,
        list]
      simp [isBitList, list, bits, notPointers, notStructs]
  have fits : 0 ≤ contentWords (p.elementSize w) (p.listLength w) → (p.content w).byteOffset +
      8 * contentWords (p.elementSize w) (p.listLength w) ≤ (w p.message).allocated (p.content w).segment := by
    intro words
    by_cases bits : p.elementSize w = .BIT
    · have least := node.fits.length
      simp only [bits, contentWords, listWords, getListElementByteLength] at inside ⊢
      omega
    · have sized : getListElementByteLength (p.elementSize w) ≠ none := by
        cases found : p.elementSize w <;> simp_all [getListElementByteLength]
      rw [contentWords_eq node.fits.length (isSmall.mpr words list notPointers) sized]
      exact inside
  have filled := @fillZeroWordsOf_erases (w.spend p.message used) (p.content w) (p.content w).byteOffset
    (by rw [content_message]; exact wf.spend _ _) (by rw [content_message]; simpa using writable) lower
    (by rw [content_message]; simpa using content_bound node.resolves) node.fits.aligned
    (contentWords (p.elementSize w) (p.listLength w)) (by rw [content_message]; simpa using fits)
  rw [content_message] at filled
  have both : (p.IsSmall w ∧ ∀ c ∈ p.children w, small c) ↔ p.IsSmall w := by
    simp [children]
  by_cases holds : p.IsSmall w
  · apply filled.mono (Nat.zero_le _)
    · rw [nothing, Set.union_empty, wiped holds]
    · rw [both, isSmall]
  · rcases filled with ⟨words, _⟩ | ⟨_, failure⟩
    · exact absurd (isSmall.mpr words) holds
    · exact Or.inr ⟨fun pair => holds pair.1, failure⟩

omit plain in
theorem eraseComposite_erases (size : p.elementSize w = .COMPOSITE) :
    Erases (eraseComposite eraseNext p (p.content w) (p.listLength w)) p.message
      (1 + ((p.children w).map cost).sum) (p.wiped w ∪ { byte | ∃ c ∈ p.children w, byte ∈ zeros c })
      (p.IsSmall w ∧ ∀ c ∈ p.children w, small c) (w.spend p.message used) := by
  have children : p.children w = (List.range (p.listLength w).toNat).flatMap (p.elementPointers w) := by
    rw [Pointer.children, list]
    dsimp only
    rw [if_neg (by rw [size]; decide), if_pos size]
  have composite : p.isComposite w = true := SameNode.composite_of list size
  have tag := node.fits.tag composite
  have start : (p.content w).byteOffset - 8 = (p.objectStart w).byteOffset := by
    rw [content, if_pos composite, Int.add_sub_cancel]
  have segment : (p.content w).segment = (p.objectStart w).segment := by
    rw [content, if_pos composite]
  have isSmall : p.IsSmall w := by
    intro _ _ bytes found
    rw [size] at found
    cases found
  have words := compositeWords (p.listLength w) ((p.objectStart w).hi w)
  have extent : p.extent w = p.listLength w * (p.compositeSize w).getByteLength := by
    rw [Pointer.extent, list]
    dsimp only
    rw [if_neg (by rw [size]; decide), if_pos size]
  have long : 0 ≤ p.extent w := by
    rw [extent]
    exact Int.mul_nonneg node.fits.length (by omega)
  have inside := node.fits.inside
  rw [extent, compositeSize, ← words] at inside
  have wiped : p.wiped w = span (p.content w).segment ((p.content w).byteOffset - 8) 8 ∪
      span (p.content w).segment (p.content w).byteOffset
        (8 * (p.listLength w * padToWord (p.compositeSize w).getByteLength / 8)) := by
    have notBits : p.isBitList w = false := by
      simp [isBitList, size]
    have appended := span_append (p.content w).segment ((p.content w).byteOffset - 8) (by decide : (0 : Int) ≤ 8) long
    rw [Int.sub_add_cancel] at appended
    rw [Pointer.wiped, notBits, own, composite, compositeSize, words, ← compositeSize, ← extent, appended]
    simp
  have back : p.content w = { p.objectStart w with byteOffset := (p.objectStart w).byteOffset + 8 } := by
    rw [content, if_pos composite]
  have made : Reads ((p.content w).add (-8)) p.message 1 (w.spend p.message used) (p.objectStart w) := by
    have depth : (1 : Int) ≤ (p.objectStart w).depthLimit := by
      rw [objectStart]
      split <;> exact (by decide : (1 : Int) ≤ DEFAULT_DEPTH_LIMIT)
    have here : (p.objectStart w).byteOffset + 8 + -8 = (p.objectStart w).byteOffset := by omega
    rw [add, back]
    dsimp only
    rw [here, ← objectStart_message (p := p) (w := w)]
    have made : ({
        message := (p.objectStart w).message
        segment := (p.objectStart w).segment
        byteOffset := (p.objectStart w).byteOffset
        depthLimit := (p.objectStart w).depthLimit } : Pointer) = p.objectStart w := by
      rw [objectStart]
      split <;> rfl
    conv => arg 5; rw [← made]
    apply newPointer_reads depth
    · rw [objectStart_message, World.spend_traversalLimit]
      omega
    · rw [objectStart_message, World.spend_segments]
      exact node.resolves.segment
    · exact tag.lower
    · rw [objectStart_message, World.spend_allocated]
      exact node.resolves.upper
  refine Erases.mono (?_ : Erases _ _ (1 + (0 + (0 + (((p.children w).map cost).sum + 0)))) _ _ _) (by omega)
    (Eq.refl _) Iff.rfl
  apply Erases.read (wf.spend p.message used) made
  intro first firstLe
  rw [World.spend_spend]
  have spentWf := wf.spend p.message (used + first)
  have spentWritable : (w.spend p.message (used + first) p.message).readonly = false := by simpa using writable
  have tagRead : Reads (p.objectStart w).getStructSize p.message 0 (w.spend p.message (used + first))
      (p.compositeSize w) := by
    rw [compositeSize, ← hi_spend (w := w) (p := p.objectStart w) p.message (used + first)]
    exact Reads.of_run (getStructSize_run (by rw [objectStart_message]; exact spentWf) (tag.spend p.message (used + first)))
  apply Erases.read spentWf tagRead
  intro none noneLe
  rw [Nat.le_zero.mp noneLe, World.spend_zero]
  have tagErased := @setWordZero_erases (w.spend p.message (used + first)) (p.content w) ((p.content w).byteOffset - 8)
    (by rw [content_message]; exact spentWf) (by rw [content_message]; exact spentWritable)
    (by rw [start]; exact tag.lower)
    (by rw [start, segment, content_message, World.spend_allocated, ← objectStart_message (p := p) (w := w)]
        exact tag.upper)
  rw [content_message] at tagErased
  have filled : ∀ w' : World, (w' p.message).WellFormed → (w' p.message).readonly = false →
      (w' p.message).segments.length = (w p.message).segments.length →
      (∀ s, (w' p.message).allocated s = (w p.message).allocated s) →
      Erases ((p.content w).fillZeroWordsOf (p.content w).byteOffset
        (p.listLength w * padToWord (p.compositeSize w).getByteLength / 8)) p.message 0
        (span (p.content w).segment (p.content w).byteOffset
          (8 * (p.listLength w * padToWord (p.compositeSize w).getByteLength / 8))) True w' := by
    intro w' laterWf laterWritable length allocated
    have contentLower : 0 ≤ (p.content w).byteOffset := by
      have lower := tag.lower
      omega
    have erased := @fillZeroWordsOf_erases w' (p.content w) (p.content w).byteOffset
      (by rw [content_message]; exact laterWf) (by rw [content_message]; exact laterWritable) contentLower
      (by rw [content_message, length]; exact content_bound node.resolves) node.fits.aligned
      (p.listLength w * padToWord (p.compositeSize w).getByteLength / 8)
      (by rw [content_message, allocated]; exact fun _ => inside)
    rw [content_message] at erased
    apply erased.mono (Nat.le_refl 0) (Eq.refl _)
    have least : 0 ≤ 8 * (p.listLength w * padToWord (p.compositeSize w).getByteLength / 8) := by
      rw [compositeSize, words, ← compositeSize, ← extent]
      exact long
    simp only [iff_true]
    omega
  have all := tagErased.seq fun w' zeroed =>
    (children_erases wf node within each budget zeroed (by omega) fun c member => ?_).seq fun w'' zeroed' =>
      filled w'' zeroed'.like.wellFormed ?_ ?_ ?_
  · rw [children, forM_flatMap, ← children] at all
    simp only [elementPointers, ← erasePointers_eq] at all
    apply all.mono (Nat.le_refl _)
    · rw [wiped, Set.union_assoc, Set.union_comm (span _ _ (8 * _))]
    · simp [isSmall]
  · have apart := (Set.disjoint_union_left.mp (node.childrenApart c member)).2
    apply apart.mono_left
    rw [inner, if_pos composite]
    intro byte inTag
    refine ⟨?_, ?_⟩
    · apply tag_subset_own composite node.fits.length
      rw [word, ← start, ← segment]
      exact inTag
    · rintro ⟨d, sibling, inWord⟩
      rw [children] at sibling
      obtain ⟨i, _, here⟩ := List.mem_flatMap.mp sibling
      obtain ⟨j, _, rfl⟩ := List.mem_map.mp here
      obtain ⟨_, _, below⟩ := inTag
      obtain ⟨_, above, _⟩ := inWord
      have least : 0 ≤ (i : Int) * (p.compositeSize w).getByteLength := Int.mul_nonneg (by omega) (by omega)
      simp only [child] at above
      omega
  · rw [zeroed'.like.readonly, zeroed.like.readonly]
    exact spentWritable
  · rw [zeroed'.like.length, zeroed.like.length, World.spend_segments]
  · intro s
    rw [zeroed'.like.allocated, zeroed.like.allocated, World.spend_allocated]

end list

theorem eraseList_erases (list : p.targetType w = .LIST) {used : Nat} (le : used ≤ 1) :
    Erases (eraseList eraseNext p) p.message (11 + ((p.children w).map cost).sum)
      (p.wiped w ∪ { byte | ∃ c ∈ p.children w, byte ∈ zeros c }) (p.IsSmall w ∧ ∀ c ∈ p.children w, small c)
      (w.spend p.message used) := by
  refine Erases.mono (?_ : Erases _ _ (1 + (5 + (4 + (1 + ((p.children w).map cost).sum)))) _ _ _) (by omega) (Eq.refl _) Iff.rfl
  have size := getTargetListElementSize_reads (wf.spend p.message used)
    (node.resolves.toFollows.spend p.message used) (by rw [World.spend_traversalLimit]; omega)
  rw [target_spend, hi_spend] at size
  apply Erases.read (wf.spend p.message used) size
  intro first firstLe
  rw [World.spend_spend]
  have length := getTargetListLength_reads (wf.spend p.message (used + first))
    (node.resolves.spend p.message (used + first))
    (by rw [World.spend_traversalLimit]; omega) plain (by simpa using list)
    (by rw [isComposite_spend, objectStart_spend]; exact fun composite => (node.fits.tag composite).spend _ _)
  have same : p.listLength (w.spend p.message (used + first)) = p.listLength w := by
    simp [listLength]
  rw [same] at length
  apply Erases.read (wf.spend p.message (used + first)) length
  intro second secondLe
  rw [World.spend_spend]
  have found : Reads (p.getContent false) p.message 4 (w.spend p.message (used + first + second)) _ :=
    getContent_reads (wf.spend p.message (used + first + second))
    (node.resolves.spend p.message (used + first + second)) (by rw [World.spend_traversalLimit]; omega) plain
  rw [content_spend] at found
  apply Erases.read (wf.spend p.message (used + first + second)) found
  intro third thirdLe
  rw [World.spend_spend]
  have few : used + first + second + third ≤ 11 := by omega
  change Erases (if p.elementSize w = .POINTER then _ else _) _ _ _ _ _
  split
  · rename_i size
    have erases := erasePointerList_erases wf node within each budget list few size
    exact erases.mono (by omega) (Eq.refl _) Iff.rfl
  · rename_i notPointers
    split
    · rename_i size
      exact eraseComposite_erases wf writable node within each budget list few size
    · rename_i notStructs
      exact Erases.mono (eraseDataList_erases wf writable node list notPointers notStructs) (Nat.le_add_left _ 1)
        (Eq.refl _) Iff.rfl

theorem eraseContent_erases :
    Erases (eraseContent eraseNext p) p.message (12 + ((p.children w).map cost).sum)
      (p.wiped w ∪ { byte | ∃ c ∈ p.children w, byte ∈ zeros c }) (p.IsSmall w ∧ ∀ c ∈ p.children w, small c) w := by
  refine Erases.mono (?_ : Erases _ _ (1 + (11 + ((p.children w).map cost).sum)) _ _ _) (by omega) (Eq.refl _) Iff.rfl
  apply Erases.read wf
    (getTargetPointerType_reads wf node.resolves.toFollows (by omega) node.resolves.notFar)
  intro used le
  cases type : p.targetType w with
  | STRUCT =>
      apply (eraseStruct_erases wf writable plain node within each budget type le).mono _ (Eq.refl _) Iff.rfl
      omega
  | LIST => exact eraseList_erases wf writable plain node within each budget type le
  | FAR => exact absurd type node.resolves.notFar
  | OTHER =>
      have children : p.children w = [] := by
        rw [Pointer.children, type]
      have notComposite : p.isComposite w = false := by
        simp [isComposite, type]
      have wiped : p.wiped w = ∅ := by
        rw [Pointer.wiped, own, notComposite, extent, type]
        simp
      have small : p.IsSmall w := by
        intro list
        rw [type] at list
        cases list
      apply (Erases.pure (wf.spend p.message used)).mono (Nat.zero_le _)
      · rw [wiped, children]
        simp
      · simp [small, children]

end content

/-! The recursion. -/

theorem zeroWord_halves {low high : Nat} (lowBound : low < 256 ^ 4) (highBound : high < 256 ^ 4) :
    (low + 256 ^ 4 * high == 0 || low + 256 ^ 4 * high == 2 ^ 63) =
      (BitVec.ofNat 32 low == 0 && (BitVec.ofNat 32 high == 0 || BitVec.ofNat 32 high == BitVec.twoPow 32 31)) := by
  have zero : ∀ {half : Nat}, half < 256 ^ 4 → (BitVec.ofNat 32 half = 0 ↔ half = 0) := by
    intro half bound
    rw [BitVec.toNat_eq, BitVec.toNat_ofNat, Nat.mod_eq_of_lt (by omega)]
    rfl
  have sign : BitVec.ofNat 32 high = BitVec.twoPow 32 31 ↔ high = 2 ^ 31 := by
    rw [BitVec.toNat_eq, BitVec.toNat_ofNat, Nat.mod_eq_of_lt (by omega)]
    rfl
  rw [Bool.eq_iff_iff]
  simp only [Bool.or_eq_true, Bool.and_eq_true, beq_iff_eq, zero lowBound, zero highBound, sign]
  omega

theorem isNull_run (wf : (w p.message).WellFormed) (inBounds : p.InBounds w) :
    p.isNull w = .ok (p.isNullWord w) w := by
  have room := wf.allocated_le p.segment
  obtain ⟨lower, upper⟩ := inBounds
  have length : ((w p.message).segments[p.segment]?.map (·.byteLength)).getD 0 = (w p.message).allocated p.segment := by
    rw [Message.allocated]
    cases (w p.message).segments[p.segment]? <;> rfl
  have word := @Message.getUint_run (w p.message) p.segment 8 p.byteOffset lower (by decide)
    (by omega : p.byteOffset + (8 : Nat) ≤ (w p.message).capacity p.segment)
  have halves := LittleEndian.read_add ((w p.message).memory p.segment) p.byteOffset.toNat 4 4
  have lowBound := LittleEndian.read_lt ((w p.message).memory p.segment) p.byteOffset.toNat 4
  have highBound := LittleEndian.read_lt ((w p.message).memory p.segment) (p.byteOffset.toNat + 4) 4
  change (if p.byteOffset + 8 > ((w p.message).segments[p.segment]?.map (·.byteLength)).getD 0 then _ else _) = _
  rw [length, if_neg (by omega), isWordZero, bind_apply, onMessage_reads word]
  simp only [pure_apply]
  rw [halves, zeroWord_halves lowBound highBound, isNullWord, lo, hi]

theorem Follows.like {bytes : Set Byte} {w' : World} (like : World.Like p.message bytes w w') (follows : p.Follows w)
    (covered : p.path w ⊆ bytes) : p.Follows w' ∧ p.path w' = p.path w := by
  obtain ⟨lo, hi, target, _⟩ := path_like like follows.inBounds.lower covered
  have pad : p.landingPad w' = p.landingPad w := by
    rw [landingPad, landingPad, lo, hi]
  refine ⟨⟨follows.inBounds.like like rfl, ?_, ?_, ?_⟩, ?_⟩
  · rw [lo]
    exact follows.depth
  · intro far
    rw [lo] at far
    rw [pad]
    exact (follows.pad far).like like rfl
  · rw [target]
    exact follows.target.like like target_message
  · rw [path, path, pads, pads, lo, pad]

theorem wiped_subset_own : p.wiped w ⊆ p.own w := by
  rw [wiped]
  split
  · exact Set.empty_subset _
  · exact subset_refl _

theorem erased_subset_footprint (depth : Nat) (p : Pointer) : erased w depth p ⊆ footprint w depth p := by
  induction depth generalizing p with
  | zero => exact subset_refl _
  | succ depth ih =>
      rw [erased, footprint]
      split
      · exact Set.empty_subset _
      · rw [Set.union_assoc]
        apply Set.union_subset_union_right
        apply Set.union_subset_union wiped_subset_own
        rintro byte ⟨c, member, inside⟩
        exact ⟨c, member, ih c inside⟩

theorem eraseChild_erases {depth : Nat} {c : Pointer} {w' : World} {next : Pointer → WorldM Unit}
    (like : World.Like c.message (footprint w depth c) w w') (tree : IsTree w depth c) (child : IsChild p c)
    (left : 8 * (1 + visits w depth c : Nat) < (w' c.message).traversalLimit)
    (depthLimit : p.depthLimit = depth + 1) (writable : (w c.message).readonly = false)
    (erases : ∀ v, (v c.message).WellFormed → (v c.message).readonly = false → IsTree v depth c →
      8 * visits v depth c < (v c.message).traversalLimit →
      Erases (next c) c.message (visits v depth c) (erased v depth c) (SmallLists v depth c) v) :
    Erases (eraseChild next c) c.message (1 + visits w depth c) (erased w depth c) (SmallLists w depth c) w' := by
  have first := tree_like depth c like tree
  have positive : depth ≠ 0 := by
    rintro rfl
    exact tree
  have inBounds : c.InBounds w' := by
    obtain ⟨below, rfl⟩ := Nat.exists_eq_succ_of_ne_zero positive
    exact first.isTree.1
  have made : Reads (newPointer c.message c.segment c.byteOffset c.depthLimit) c.message 1 w' _ :=
    newPointer_reads (by rw [child.depthLimit, depthLimit]; omega) (by omega) inBounds.bound inBounds.lower
      (by have upper := inBounds.upper; omega)
  rw [child.rebuilt] at made
  apply Erases.read like.wellFormed made
  intro count countLe
  have spent := Zeroed.spend like.wellFormed count
  have later : World.Like c.message (footprint w depth c) w (w'.spend c.message count) :=
    like.trans (spent.like.mono fun _ _ => nofun)
  have same := tree_like depth c later tree
  have erased := erases _ later.wellFormed (by rw [later.readonly]; exact writable) same.isTree
    (by rw [same.visits, World.spend_traversalLimit]; omega)
  exact erased.mono (Nat.le_of_eq same.visits) same.erased same.small

theorem eraseWithin_erases (depth : Nat) (p : Pointer) (wf : (w p.message).WellFormed)
    (writable : (w p.message).readonly = false) (depthLimit : p.depthLimit = depth) (tree : IsTree w depth p)
    (budget : 8 * visits w depth p < (w p.message).traversalLimit) :
    Erases (eraseWithin depth p) p.message (visits w depth p) (erased w depth p) (SmallLists w depth p) w := by
  induction depth generalizing p w with
  | zero => exact absurd tree id
  | succ depth ih =>
      obtain ⟨inBounds, plain, node⟩ := tree
      refine Erases.mono (?_ : Erases _ _ (0 + visits w (depth + 1) p) _ _ _) (by omega) (Eq.refl _) Iff.rfl
      apply Erases.read wf (Reads.of_run (isNull_run wf inBounds))
      intro none le
      rw [Nat.le_zero.mp le, World.spend_zero]
      cases null : p.isNullWord w with
      | true =>
          apply (Erases.pure wf).mono (Nat.zero_le _)
          · simp [erased, null]
          · simp [SmallLists, null]
      | false =>
          have here := node null
          have each : ∀ c ∈ p.children w, ∀ w', World.Like p.message (footprint w depth c) w w' →
              8 * (1 + visits w depth c : Nat) < (w' p.message).traversalLimit →
              Erases (eraseChild (eraseWithin depth) c) p.message (1 + visits w depth c) (erased w depth c)
                (SmallLists w depth c) w' := by
            intro c member w' like left
            have child := children_isChild member
            rw [← child.message] at like left ⊢
            apply eraseChild_erases like (here.children c member) child left
            · rw [depthLimit]
              omega
            · rw [child.message]
              exact writable
            · intro v wellFormed writable subtree budget
              exact ih c wellFormed writable (by rw [child.depthLimit, depthLimit]; omega) subtree budget
          have visited : visits w (depth + 1) p = 16 + ((p.children w).map fun c => 1 + visits w depth c).sum := by
            simp [visits, null]
          rw [visited] at budget ⊢
          have content := eraseContent_erases wf writable plain here (fun c _ => erased_subset_footprint depth c) each
            (by omega)
          have pointer : ∀ w', Zeroed p.message (12 + ((p.children w).map fun c => 1 + visits w depth c).sum)
              (p.wiped w ∪ { byte | ∃ c ∈ p.children w, byte ∈ erased w depth c }) w w' →
              Erases p.erasePointer p.message 1 (p.path w) True w' := by
            intro w' zeroed
            have covered : p.path w ⊆ (p.wiped w ∪ { byte | ∃ c ∈ p.children w, byte ∈ erased w depth c })ᶜ := by
              intro byte inPath member
              rcases member with own | ⟨c, member, inside⟩
              · exact Set.disjoint_left.mp here.pathApart inPath (wiped_subset_own own)
              · exact Set.disjoint_left.mp (here.childrenApart c member) (Or.inl inPath)
                  (erased_subset_footprint depth c inside)
            obtain ⟨follows, path⟩ := here.resolves.toFollows.like zeroed.like covered
            have erases := erasePointer_erases zeroed.like.wellFormed (by rw [zeroed.like.readonly]; exact writable)
              follows (by have left := zeroed.budget; omega)
            rwa [path] at erases
          apply (content.seq pointer).mono (by omega)
          · simp only [erased, null, Bool.false_eq_true, if_false]
            rw [Set.union_comm, ← Set.union_assoc]
          · simp [SmallLists, null]

/-! Which bytes stay. -/

theorem footprint_eq (depth : Nat) (p : Pointer) : footprint w depth p = erased w depth p ∪ spared w depth p := by
  induction depth generalizing p with
  | zero => simp [footprint, erased, spared]
  | succ depth ih =>
      cases null : p.isNullWord w with
      | true =>
          have near : PointerType.ofBits (p.lo w) ≠ .FAR := by
            simp only [isNullWord, Bool.and_eq_true, beq_iff_eq] at null
            rw [null.1]
            decide
          simp [footprint, erased, spared, null, path, pads, near]
      | false =>
          simp only [footprint, erased, spared, null, Bool.false_eq_true, if_false]
          ext byte
          have children : (∃ c ∈ p.children w, byte ∈ footprint w depth c) ↔
              (∃ c ∈ p.children w, byte ∈ erased w depth c) ∨ ∃ c ∈ p.children w, byte ∈ spared w depth c := by
            constructor
            · rintro ⟨c, member, inside⟩
              rw [ih c] at inside
              exact inside.imp (fun found => ⟨c, member, found⟩) fun found => ⟨c, member, found⟩
            · rintro (⟨c, member, inside⟩ | ⟨c, member, inside⟩)
              · exact ⟨c, member, by rw [ih c]; exact Or.inl inside⟩
              · exact ⟨c, member, by rw [ih c]; exact Or.inr inside⟩
          simp only [Set.mem_union, Set.mem_ofPred_eq, Set.mem_sdiff, children, wiped]
          by_cases bits : p.isBitList w = true
          · simp only [bits, if_true, Set.mem_empty_iff_false, not_false_eq_true, and_true, or_false]
            rw [or_left_comm (a := byte ∈ p.own w), ← or_assoc]
          · by_cases inOwn : byte ∈ p.own w
            · simp [bits, inOwn]
            · simp [bits, inOwn, or_assoc]

theorem children_bitList (bits : p.isBitList w = true) : p.children w = [] := by
  simp only [isBitList, Bool.and_eq_true, decide_eq_true_eq] at bits
  rw [children, bits.1]
  simp [bits.2]

theorem spared_apart (depth : Nat) (p : Pointer) (tree : IsTree w depth p) :
    Disjoint (spared w depth p) (erased w depth p) := by
  induction depth generalizing p with
  | zero => exact absurd tree id
  | succ depth ih =>
      cases null : p.isNullWord w with
      | true => simp [spared, erased, null]
      | false =>
          have node := tree.2.2 null
          simp only [spared, erased, null, Bool.false_eq_true, if_false]
          rw [Set.disjoint_left]
          rintro byte ⟨kept, notWiped⟩ gone
          have inside : ∀ c, byte ∈ spared w depth c → byte ∈ footprint w depth c := by
            intro c found
            rw [footprint_eq]
            exact Or.inr found
          rcases gone with (inPath | wiped) | ⟨d, sibling, found⟩
          · rcases kept with own | ⟨c, member, spares⟩
            · split at own
              · exact Set.disjoint_left.mp node.pathApart inPath own
              · exact own
            · exact Set.disjoint_left.mp (node.childrenApart c member) (Or.inl inPath) (inside c spares)
          · exact notWiped wiped
          · rcases kept with own | ⟨c, member, spares⟩
            · split at own
              · rename_i bits
                rw [children_bitList bits] at sibling
                cases sibling
              · exact own
            · by_cases same : c = d
              · subst same
                exact Set.disjoint_left.mp (ih c (node.children c member)) spares found
              · have symmetric : Std.Symm fun c d : Pointer => Disjoint (footprint w depth c) (footprint w depth d) :=
                  ⟨fun _ _ disjoint => disjoint.symm⟩
                have apart := node.siblingsApart.forall member sibling same
                exact Set.disjoint_left.mp apart (inside c spares) (erased_subset_footprint depth d found)

theorem zeroed_exact {message cost : Nat} {zeros bytes : Set Byte} {w' : World}
    (zeroed : Zeroed message cost zeros w w') :
    ((∀ byte ∈ bytes, (w' message).memory byte.1 byte.2 = 0) ∧
        ∀ byte ∉ bytes, (w' message).memory byte.1 byte.2 = (w message).memory byte.1 byte.2) ↔
      (∀ byte ∈ bytes, byte ∉ zeros → (w message).memory byte.1 byte.2 = 0) ∧
        ∀ byte ∈ zeros, byte ∉ bytes → (w message).memory byte.1 byte.2 = 0 := by
  constructor
  · rintro ⟨blank, same⟩
    constructor
    · intro byte inside kept
      rw [← zeroed.like.memory byte kept]
      exact blank byte inside
    · intro byte gone outside
      rw [← same byte outside]
      exact zeroed.zero byte gone
  · rintro ⟨kept, gone⟩
    constructor
    · intro byte inside
      by_cases wiped : byte ∈ zeros
      · exact zeroed.zero byte wiped
      · rw [zeroed.like.memory byte wiped]
        exact kept byte inside wiped
    · intro byte outside
      by_cases wiped : byte ∈ zeros
      · rw [zeroed.zero byte wiped, gone byte wiped outside]
      · exact zeroed.like.memory byte wiped

/-- Every byte of the tree is set to zero and no other byte changes. -/
def ErasesExactly (p : Pointer) (w : World) : Prop :=
  ∃ after, p.erase w = .ok () after ∧ p.isNullWord after = true ∧
    (∀ byte ∈ footprint w p.depthLimit.toNat p, (after p.message).memory byte.1 byte.2 = 0) ∧
    (∀ byte ∉ footprint w p.depthLimit.toNat p,
      (after p.message).memory byte.1 byte.2 = (w p.message).memory byte.1 byte.2) ∧
    (∀ s, (after p.message).allocated s = (w p.message).allocated s) ∧ ∀ other ≠ p.message, after other = w other

theorem isNullWord_of_zero (lower : 0 ≤ p.byteOffset)
    (zero : ∀ byte ∈ p.word, (w p.message).memory byte.1 byte.2 = 0) : p.isNullWord w = true := by
  have blank : ∀ start : Nat, p.byteOffset ≤ start → (start : Int) + 4 ≤ p.byteOffset + 8 →
      LittleEndian.read ((w p.message).memory p.segment) start 4 = 0 := by
    intro start above below
    have zeros := @LittleEndian.read_congr ((w p.message).memory p.segment) (fun _ => 0) start 4
      fun address first last => zero (p.segment, address) ⟨rfl, by dsimp only; omega, by dsimp only; omega⟩
    rw [zeros]
    rfl
  simp [isNullWord, lo, hi, blank p.byteOffset.toNat (by omega) (by omega),
    blank (p.byteOffset.toNat + 4) (by omega) (by omega)]

/-! A struct with one data word and one pointer, to eight bits of which one is set. -/

def bitTree : World := fun _ =>
  { arena := { kind := .SINGLE_SEGMENT, buffers := [] }
    segments := [{
      buffer := [0, 0, 0, 0, 1, 0, 1, 0, 7, 0, 0, 0, 0, 0, 0, 0, 1, 0, 0, 0, 65, 0, 0, 0, 1, 0, 0, 0, 0, 0, 0, 0]
      byteLength := 32 }]
    traversalLimit := DEFAULT_TRAVERSE_LIMIT
    readonly := false
    capTable := none }

def bitRoot : Pointer := { message := 0, segment := 0, byteOffset := 0, depthLimit := DEFAULT_DEPTH_LIMIT }

def bitList : Pointer := { message := 0, segment := 0, byteOffset := 16, depthLimit := DEFAULT_DEPTH_LIMIT - 1 }

theorem path_near (near : PointerType.ofBits (p.lo w) ≠ .FAR) : p.path w = p.word := by
  rw [path, pads, if_neg near, Set.union_empty]

/-- A near pointer, in front of an object that is no composite list. -/
def IsNear (p : Pointer) (w : World) : Prop :=
  0 ≤ p.byteOffset ∧ p.byteOffset + 8 ≤ (w p.message).allocated p.segment ∧ PointerType.ofBits (p.lo w) ≠ .FAR ∧
    p.compositeIndex = none ∧ p.isComposite w = false ∧
    (p.objectStart w).segment < (w p.message).segments.length ∧ (p.objectStart w).byteOffset % 8 = 0 ∧
    p.byteOffset + 8 ≤ (p.objectStart w).byteOffset ∧ 0 ≤ p.extent w ∧ 0 ≤ p.listLength w ∧
    (p.objectStart w).byteOffset + p.extent w ≤ (w p.message).allocated (p.objectStart w).segment

instance : Decidable (p.IsNear w) := inferInstanceAs (Decidable (_ ∧ _))

namespace IsNear

variable (near : p.IsNear w)
include near

theorem inBounds : p.InBounds w := ⟨near.1, near.2.1⟩

theorem path : p.path w = p.word := path_near near.2.2.1

theorem own : p.own w = span (p.objectStart w).segment (p.objectStart w).byteOffset (p.extent w) := by
  rw [Pointer.own, near.2.2.2.2.1, content_plain near.2.2.2.2.1]
  simp only [Bool.false_eq_true, if_false]

theorem resolves : p.Resolves w := by
  obtain ⟨lower, upper, notFar, plain, notComposite, bound, aligned, behind, long, length, inside⟩ := near
  have target : p.target w = p := by
    rw [Pointer.target, if_neg notFar]
  refine ⟨⟨⟨lower, upper⟩, fun far => absurd far notFar, fun far => absurd far notFar, ?_⟩, ?_, bound, by omega,
    by omega⟩
  · rw [target]
    exact ⟨lower, upper⟩
  · rw [targetType, target]
    exact notFar

theorem node {bytes : Pointer → Set Byte} {sound : Pointer → Prop} (children : ∀ c ∈ p.children w, sound c)
    (apart : ∀ c ∈ p.children w, Disjoint (p.word ∪ p.own w) (bytes c))
    (siblings : (p.children w).Pairwise fun c d => Disjoint (bytes c) (bytes d)) : IsNode bytes sound p w := by
  have resolves := near.resolves
  have path := near.path
  have own := near.own
  obtain ⟨lower, upper, notFar, plain, notComposite, bound, aligned, behind, long, length, inside⟩ := near
  refine ⟨resolves, ⟨?_, length, ?_, ?_⟩, children, ?_, ?_, siblings⟩
  · rw [content_plain notComposite]
    exact aligned
  · intro composite
    rw [notComposite] at composite
    cases composite
  · rw [content_plain notComposite]
    exact inside
  · rw [path, own, Set.disjoint_left]
    rintro byte ⟨_, _, below⟩ ⟨_, above, _⟩
    omega
  · rw [path, inner, notComposite]
    exact apart

theorem leaf_isTree (leaf : p.children w = []) (depth : Nat) : IsTree w (depth + 1) p := by
  refine ⟨near.inBounds, near.2.2.2.1, fun _ => near.node ?_ ?_ ?_⟩
  · rw [leaf]
    intros
    contradiction
  · rw [leaf]
    intros
    contradiction
  · rw [leaf]
    exact List.Pairwise.nil

end IsNear

theorem bitTree_wellFormed : (bitTree 0).WellFormed := by
  constructor <;> decide

theorem bitTree_shape : bitRoot.IsNear bitTree ∧ bitList.IsNear bitTree ∧ bitRoot.children bitTree = [bitList] ∧
    bitList.children bitTree = [] ∧ bitRoot.isNullWord bitTree = false ∧ bitList.isNullWord bitTree = false ∧
    ((bitRoot.objectStart bitTree).byteOffset = 8 ∧ bitRoot.extent bitTree = 8) ∧
    (bitList.objectStart bitTree).segment = 0 ∧ (bitList.objectStart bitTree).byteOffset = 24 ∧
    bitList.extent bitTree = 8 ∧
    8 * visits bitTree bitRoot.depthLimit.toNat bitRoot < (bitTree 0).traversalLimit := by
  decide +kernel

theorem bitList_footprint (depth : Nat) : footprint bitTree (depth + 1) bitList = span 0 16 8 ∪ span 0 24 8 := by
  obtain ⟨_, near, _, leaf, _, filled, _, segment, start, extent, _⟩ := bitTree_shape
  rw [footprint, filled, leaf, near.path, near.own, segment, start, extent]
  simp [word, bitList]

theorem bitRoot_isTree (depth : Nat) : IsTree bitTree (depth + 2) bitRoot := by
  obtain ⟨near, below, children, leaf, _, _, ⟨start, extent⟩, _⟩ := bitTree_shape
  refine ⟨near.inBounds, near.2.2.2.1, fun _ => near.node ?_ ?_ ?_⟩
  · rw [children]
    intro c member
    rw [List.mem_singleton.mp member]
    exact below.leaf_isTree leaf depth
  · rw [children]
    intro c member
    rw [List.mem_singleton.mp member, bitList_footprint, near.own, start, extent]
    have zero : bitRoot.byteOffset = 0 := rfl
    rw [Set.disjoint_left]
    rintro byte (⟨_, _, before⟩ | ⟨_, _, before⟩) (⟨_, behind, _⟩ | ⟨_, behind, _⟩)
    all_goals omega
  · rw [children]
    exact List.pairwise_singleton _ _

theorem erase_exact_iff (wf : (w p.message).WellFormed) (writable : (w p.message).readonly = false)
    (tree : IsTree w p.depthLimit.toNat p)
    (budget : 8 * visits w p.depthLimit.toNat p < (w p.message).traversalLimit) :
    ErasesExactly p w ↔ SmallLists w p.depthLimit.toNat p ∧
      ∀ byte ∈ spared w p.depthLimit.toNat p, (w p.message).memory byte.1 byte.2 = 0 := by
  have positive : p.depthLimit.toNat ≠ 0 := by
    intro zero
    rw [zero] at tree
    exact tree
  have apart := spared_apart p.depthLimit.toNat p tree
  have cover := footprint_eq (w := w) p.depthLimit.toNat p
  have erases := eraseWithin_erases p.depthLimit.toNat p wf writable (by omega) tree budget
  constructor
  · rintro ⟨after, run, _, zero, _⟩
    rcases erases with ⟨small, after', run', zeroed⟩ | ⟨_, reason, after', run'⟩
    · rw [erase, run'] at run
      cases run
      refine ⟨small, fun byte member => ?_⟩
      rw [← zeroed.like.memory byte (Set.disjoint_left.mp apart member)]
      apply zero byte
      rw [cover]
      exact Or.inr member
    · rw [erase, run'] at run
      cases run
  · rintro ⟨small, zero⟩
    rcases erases with ⟨_, after, run, zeroed⟩ | ⟨long, _⟩
    · have blank : ∀ byte ∈ footprint w p.depthLimit.toNat p, (after p.message).memory byte.1 byte.2 = 0 := by
        intro byte member
        rw [cover] at member
        by_cases gone : byte ∈ erased w p.depthLimit.toNat p
        · exact zeroed.zero byte gone
        · rw [zeroed.like.memory byte gone]
          exact zero byte (member.resolve_left gone)
      obtain ⟨depth, depthEq⟩ := Nat.exists_eq_succ_of_ne_zero positive
      have inBounds : p.InBounds w := by
        rw [depthEq] at tree
        exact tree.1
      refine ⟨after, run, ?_, blank, ?_, zeroed.like.allocated, zeroed.others⟩
      · apply isNullWord_of_zero inBounds.lower
        intro byte member
        apply blank byte
        rw [depthEq]
        exact Or.inl (Or.inl member)
      · intro byte outside
        exact zeroed.like.memory byte fun gone => outside (erased_subset_footprint _ _ gone)
    · exact absurd small long

theorem erase_exact_iff_bitTree : ErasesExactly bitRoot bitTree ↔ SmallLists bitTree bitRoot.depthLimit.toNat bitRoot ∧
    ∀ byte ∈ spared bitTree bitRoot.depthLimit.toNat bitRoot, (bitTree 0).memory byte.1 byte.2 = 0 :=
  erase_exact_iff (p := bitRoot) bitTree_wellFormed rfl (bitRoot_isTree 62) bitTree_shape.2.2.2.2.2.2.2.2.2.2

/-- The bit that is set stays. -/
theorem bitTree_keeps_bit : (bitTree 0).WellFormed ∧ (bitTree 0).readonly = false ∧
    IsTree bitTree bitRoot.depthLimit.toNat bitRoot ∧
    8 * visits bitTree bitRoot.depthLimit.toNat bitRoot < (bitTree 0).traversalLimit ∧
    (∃ after, bitRoot.erase bitTree = .ok () after ∧ (after 0).memory 0 24 = 1) ∧ ¬ ErasesExactly bitRoot bitTree := by
  have kept : (match bitRoot.erase bitTree with
      | .ok _ after => (after 0).memory 0 24
      | .error _ _ => 0) = 1 := by
    decide +kernel
  refine ⟨bitTree_wellFormed, rfl, bitRoot_isTree 62, bitTree_shape.2.2.2.2.2.2.2.2.2.2, ?_, ?_⟩
  · cases run : bitRoot.erase bitTree with
    | error reason after =>
        rw [run] at kept
        simp at kept
    | ok value after =>
        rw [run] at kept
        exact ⟨after, rfl, kept⟩
  · rintro ⟨after, run, _, zero, _⟩
    rw [run] at kept
    have blank := zero (0, 24) ?_
    · exact absurd (kept.symm.trans blank) (by decide)
    · obtain ⟨_, _, children, _, filled, _⟩ := bitTree_shape
      change (0, 24) ∈ footprint bitTree 64 bitRoot
      rw [footprint, filled, children]
      refine Or.inr (Or.inr ⟨bitList, List.mem_singleton_self _, ?_⟩)
      rw [bitList_footprint]
      exact Or.inr ⟨rfl, by decide, by decide⟩

end Pointer

end CapnpEs
