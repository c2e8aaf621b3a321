import CapnpEs.Serialization.Pointers.KeptTrees

/-! Moving a pointer to another slot: when the object goes with it. -/

namespace CapnpEs

open Outcome
open LittleEndian (read)

namespace Pointer

variable {p dst src written : Pointer} {w after : World} {depth : Nat}

/-! The word that is moved. -/

/-- The low bits of a pointer word, as `getUint8` reads them. -/
theorem getUint8_type (wf : (w p.message).WellFormed) (inBounds : p.InBounds w) :
    ∃ byte, p.getUint8 p.byteOffset w = .ok byte w ∧ byte &&& 3 = (PointerType.ofBits (p.lo w)).toBits := by
  have room := wf.allocated_le p.segment
  have upper := inBounds.upper
  refine ⟨BitVec.ofNat 32 (read ((w p.message).memory p.segment) p.byteOffset.toNat 1), ?_, ?_⟩
  · rw [getUint8, bind_apply, onMessage_reads (Message.getUint_run inBounds.lower (by omega) (by omega))]
    rfl
  · have parts : read ((w p.message).memory p.segment) p.byteOffset.toNat 4 = _ :=
      LittleEndian.read_add ((w p.message).memory p.segment) p.byteOffset.toNat 1 3
    have byte := LittleEndian.read_lt ((w p.message).memory p.segment) p.byteOffset.toNat 1
    have word := LittleEndian.read_lt ((w p.message).memory p.segment) p.byteOffset.toNat 4
    apply BitVec.eq_of_toNat_eq
    have low : (BitVec.ofNat 32 (read ((w p.message).memory p.segment) p.byteOffset.toNat 1) &&& 3).toNat =
        (p.lo w).toNat % 4 := by
      rw [BitVec.toNat_and, lo, BitVec.toNat_ofNat, BitVec.toNat_ofNat, Nat.mod_eq_of_lt (a := read _ _ 4) (by omega)]
      change _ &&& (2 ^ 2 - 1) = _
      rw [Nat.and_two_pow_sub_one_eq_mod]
      omega
    have bits : (p.lo w).toNat % 4 = 0 ∨ (p.lo w).toNat % 4 = 1 ∨ (p.lo w).toNat % 4 = 2 ∨ (p.lo w).toNat % 4 = 3 := by
      omega
    rw [low, PointerType.ofBits]
    rcases bits with bits | bits | bits | bits
    all_goals
      rw [bits]
      rfl

/-- A shape whose word has this type and this upper half. -/
def shapeOf (type : PointerType) (hi : BitVec 32) : PointerShape :=
  match type with
  | .LIST =>
      if ListElementSize.ofBits hi = .COMPOSITE then .composite (hi >>> 3).toNat ⟨8, 0⟩
      else .list (ListElementSize.ofBits hi) (hi >>> 3).toNat
  | _ => .struct (PointerWord.structSize hi)

theorem listHi_ofBits (hi : BitVec 32) :
    PointerWord.listHi (ListElementSize.ofBits hi) ((hi >>> 3).toNat : Int) = hi := by
  apply BitVec.eq_of_toNat_eq
  have bound := hi.isLt
  have small : (ListElementSize.ofBits hi).toBits.toNat = hi.toNat % 8 := by
    have bits : hi.toNat % 8 = 0 ∨ hi.toNat % 8 = 1 ∨ hi.toNat % 8 = 2 ∨ hi.toNat % 8 = 3 ∨ hi.toNat % 8 = 4 ∨
        hi.toNat % 8 = 5 ∨ hi.toNat % 8 = 6 ∨ hi.toNat % 8 = 7 := by
      omega
    rw [ListElementSize.ofBits]
    rcases bits with bits | bits | bits | bits | bits | bits | bits | bits
    all_goals
      rw [bits]
      rfl
  rw [PointerWord.listHi_toNat, small, BitVec.toNat_ushiftRight, Nat.shiftRight_eq_div_pow]
  omega

theorem structHi_structSize (hi : BitVec 32) : PointerWord.structHi (PointerWord.structSize hi) = hi := by
  apply BitVec.eq_of_toNat_eq
  have bound := hi.isLt
  simp only [PointerWord.structHi, PointerWord.structSize, ObjectSize.getDataWordLength, BitVec.toNat_ofNat]
  omega

theorem shapeOf_fits (type : PointerType) (hi : BitVec 32) : (shapeOf type hi).Fits := by
  have short : (hi >>> 3).toNat < 2 ^ 29 := by
    have bound := hi.isLt
    rw [BitVec.toNat_ushiftRight, Nat.shiftRight_eq_div_pow]
    omega
  cases type with
  | LIST =>
      rw [shapeOf]
      split
      · exact ⟨short, by decide, by decide, by decide⟩
      · rename_i single
        exact ⟨single, short⟩
  | _ => exact structSize_fits hi

theorem shapeOf_hi {type : PointerType} (near : type = .STRUCT ∨ type = .LIST) (hi : BitVec 32) :
    (shapeOf type hi).type = type ∧ (shapeOf type hi).hi = hi := by
  rcases near with rfl | rfl
  · exact ⟨rfl, structHi_structSize hi⟩
  · have word := listHi_ofBits hi
    rw [shapeOf]
    split
    · rename_i composite
      rw [composite] at word
      exact ⟨rfl, (congrArg (PointerWord.listHi .COMPOSITE) (Int.mul_one _)).trans word⟩
    · exact ⟨rfl, word⟩

/-! The run. -/

section word

variable {segment : Nat} {byteOffset : Int} {shape : PointerShape} (site : p.PointerSite w segment byteOffset shape)
include site

theorem initPointer_ready : ∃ res middle, initPointer p.message segment byteOffset p w = .ok res middle ∧
    (middle res.pointer.message).WellFormed ∧ (middle res.pointer.message).readonly = false ∧
      res.pointer.InBounds middle := by
  have wf := site.wellFormed
  have budget := site.budget
  by_cases same : p.segment = segment
  · exact ⟨_, w, initPointer_near same, wf, site.writable, site.slot⟩
  · by_cases room : (w p.message).allocated segment + 8 ≤ (w p.message).capacity segment
    · obtain ⟨w', allocated, run⟩ :=
        initPointer_far byteOffset wf site.writable (by omega) site.slot site.bound same room
      refine ⟨_, _, run, allocated.here.wellFormed.putPointer _ _ _, ?_, (far_pad site rfl allocated).putPointer⟩
      change (w'.putPointer p _ _ p.message).readonly = false
      rw [World.putPointer_readonly, allocated.here.readonly, site.writable]
    · obtain ⟨w', allocated, run⟩ :=
        initPointer_doubleFar byteOffset wf site.writable (by omega) site.slot site.bound same room
      refine ⟨_, _, run, Message.WellFormed.putPointer (allocated.here.wellFormed.putPointer _ _ _) _ _ _, ?_,
        (doubleFar_tag site rfl allocated).putPointer.putPointer⟩
      change ((w'.putPointer p _ _).putPointer _ _ _ p.message).readonly = false
      rw [World.putPointer_readonly, World.putPointer_readonly, allocated.here.readonly, site.writable]

/-- The two halves set one after the other make the word that a writer of this shape makes. -/
theorem halves_run : ∃ res middle between put, initPointer p.message segment byteOffset p w = .ok res middle ∧
    res.pointer.setUint32 res.pointer.byteOffset (PointerWord.nearLo shape.type res.offsetWords) middle = .ok () between ∧
    res.pointer.setUint32 (res.pointer.byteOffset + 4) shape.hi between = .ok () put ∧
    writePointer shape segment byteOffset p w = .ok res.pointer put := by
  obtain ⟨res, middle, run, wf, writable, inBounds⟩ := initPointer_ready site
  have both := setUint32_twice wf writable inBounds (PointerWord.nearLo shape.type res.offsetWords) shape.hi
  rw [bind_eq_ok] at both
  obtain ⟨_, between, first, second⟩ := both
  refine ⟨res, middle, between, _, run, first, second, ?_⟩
  rw [writePointer, bind_apply, run]
  simp only
  rw [bind_apply, setPointer_run wf writable inBounds site.fits]
  rfl

end word

/-- Where `relocateTo` takes the object to start. -/
def takenStart (src : Pointer) (w : World) : Int :=
  (src.target w).byteOffset + 8 + PointerWord.offsetWords ((src.target w).lo w) * 8

def takenShape (src : Pointer) (w : World) : PointerShape := shapeOf (src.targetType w) ((src.target w).hi w)

/-- A source that is no capability, and a slot whose old tree has nothing in common with it. -/
structure MoveSite (dst src : Pointer) (depth : Nat) (w : World) : Prop where
  message : src.message = dst.message
  wellFormed : (w dst.message).WellFormed
  writable : (w dst.message).readonly = false
  few : (w dst.message).segments.length < 2 ^ 32
  tree : IsTree w depth src
  filled : src.isNullWord w = false
  type : src.targetType w ≠ .OTHER
  aligned : dst.byteOffset % 8 = 0
  old : IsTree w dst.depthLimit.toNat dst
  apart : Disjoint (footprint w dst.depthLimit.toNat dst) (footprint w depth src)
  depth : 2 ≤ dst.depthLimit
  budget : 8 * visits w dst.depthLimit.toNat dst + 80 < (w dst.message).traversalLimit

namespace MoveSite

variable (site : MoveSite dst src depth w)
include site

theorem node : ∃ below, depth = below + 1 ∧ IsNode (footprint w below) (IsTree w below) src w := by
  have tree := site.tree
  cases depth with
  | zero => exact absurd tree id
  | succ below => exact ⟨below, rfl, tree.2.2 site.filled⟩

theorem resolves : src.Resolves w := by
  obtain ⟨_, _, node⟩ := site.node
  exact node.resolves

theorem type_near : src.targetType w = .STRUCT ∨ src.targetType w = .LIST := by
  have notFar := site.resolves.notFar
  have notOther := site.type
  cases type : src.targetType w with
  | STRUCT => exact Or.inl rfl
  | LIST => exact Or.inr rfl
  | FAR => exact absurd type notFar
  | OTHER => exact absurd type notOther

theorem path_subset : src.path w ⊆ footprint w depth src := by
  obtain ⟨below, rfl, _⟩ := site.node
  exact Set.subset_union_left

theorem word_subset : dst.word ⊆ footprint w dst.depthLimit.toNat dst := by
  have old := site.old
  cases levels : dst.depthLimit.toNat with
  | zero =>
      rw [levels] at old
      exact absurd old id
  | succ below => exact word_subset_path.trans Set.subset_union_left

theorem slot : dst.InBounds w := by
  have old := site.old
  cases levels : dst.depthLimit.toNat with
  | zero =>
      rw [levels] at old
      exact absurd old id
  | succ below =>
      rw [levels] at old
      exact old.1

theorem start_aligned : src.takenStart w % 8 = 0 := by
  have resolves := site.resolves
  obtain ⟨below, _, node⟩ := site.node
  have aligned := node.fits.aligned
  by_cases double : PointerWord.isDoubleFar (src.lo w) = true
  · have far : PointerType.ofBits (src.lo w) = .FAR := by
      simp only [PointerWord.isDoubleFar, Bool.and_eq_true, decide_eq_true_eq] at double
      exact double.1
    rw [takenStart, Pointer.target, if_pos far, if_pos double]
    simp only [landingPad]
    omega
  · have start : (src.objectStart w).byteOffset = src.takenStart w := by
      rw [objectStart, if_neg double]
      rfl
    rw [content] at aligned
    split at aligned
    · dsimp only at aligned
      omega
    · omega

theorem erase_erases {count : Nat} (le : count ≤ 1) : Erases dst.erase dst.message (visits w dst.depthLimit.toNat dst)
    (Pointer.erased w dst.depthLimit.toNat dst) (SmallLists w dst.depthLimit.toNat dst) (w.spend dst.message count) := by
  have wf := site.wellFormed
  have deep := site.depth
  have budget := site.budget
  have later : World.Like dst.message (footprint w dst.depthLimit.toNat dst) w (w.spend dst.message count) :=
    (Zeroed.spend wf count).like.mono fun _ _ => nofun
  have same := tree_like _ dst later site.old
  have erases := eraseWithin_erases dst.depthLimit.toNat dst later.wellFormed
    (by rw [later.readonly]; exact site.writable) (by omega) same.isTree
    (by rw [same.visits, World.spend_traversalLimit]; omega)
  exact erases.mono (Nat.le_of_eq same.visits) same.erased same.small

end MoveSite

/-- The worlds that `relocateTo` goes through. -/
structure Stages (dst src written : Pointer) (w erased put after : World) : Prop where
  gone : Zeroed dst.message (visits w dst.depthLimit.toNat dst + 1) (Pointer.erased w dst.depthLimit.toNat dst) w erased
  sameSize : (w dst.message).SameSize (erased dst.message)
  ready : dst.PointerSite erased (src.target w).segment (src.takenStart w) (src.takenShape w)
  wrote : writePointer (src.takenShape w) (src.target w).segment (src.takenStart w) dst erased = .ok written put
  wiped : Zeroed dst.message 1 (src.path w) put after

section stages

variable {erased put : World} (site : MoveSite dst src depth w)
include site

theorem MoveSite.kept_erased {cost : Nat}
    (gone : Zeroed dst.message cost (Pointer.erased w dst.depthLimit.toNat dst) w erased) :
    World.Kept src.message (footprint w depth src) w erased := by
  rw [site.message]
  exact (gone.like.mono fun byte member inErased => Set.disjoint_left.mp site.apart
    (erased_subset_footprint _ _ inErased) member).kept

theorem MoveSite.kept_put (gone : Zeroed dst.message (visits w dst.depthLimit.toNat dst + 1)
      (Pointer.erased w dst.depthLimit.toNat dst) w erased) (put' : dst.Put erased put) :
    World.Kept src.message (footprint w depth src) w put := by
  have kept := site.kept_erased gone
  have inside := footprint_allocated depth src site.tree
  rw [site.message] at kept inside ⊢
  refine ⟨Nat.le_trans kept.length put'.length, fun s => Int.le_trans (kept.allocated s) (put'.allocated s), ?_⟩
  intro byte member
  rw [← kept.memory byte member]
  apply put'.memory
  · intro inWord
    exact Set.disjoint_left.mp site.apart (site.word_subset inWord) member
  · left
    rw [gone.like.allocated]
    exact inside byte member

/-- What is read before the old tree is erased. -/
theorem MoveSite.reads : ∃ count ≤ 1, ∃ byte, src.followFars w = .ok (src.target w) (w.spend dst.message count) ∧
    (src.target w).getUint8 (src.target w).byteOffset (w.spend dst.message count) =
      .ok byte (w.spend dst.message count) ∧ byte &&& 3 = (src.targetType w).toBits ∧
    (src.target w).getUint32 ((src.target w).byteOffset + 4) (w.spend dst.message count) =
      .ok ((src.target w).hi w) (w.spend dst.message count) := by
  have wf := site.wellFormed
  have resolves := site.resolves
  have budget := site.budget
  have here := site.message
  have targetHere : (src.target w).message = dst.message := target_message.trans here
  obtain ⟨count, le, follow⟩ := followFars_reads (here ▸ wf) resolves.toFollows (by rw [here]; omega)
  rw [here] at follow
  have spentWf : (w.spend dst.message count (src.target w).message).WellFormed := by
    rw [targetHere]
    exact wf.spend dst.message count
  have targetIn : (src.target w).InBounds (w.spend dst.message count) := resolves.target.spend _ _
  obtain ⟨byte, low, bits⟩ := getUint8_type spentWf targetIn
  have high := getUint32_hi spentWf targetIn
  rw [lo_spend] at bits
  rw [hi_spend] at high
  exact ⟨count, le, byte, follow, low, bits, high⟩

theorem small_of_run (run : dst.relocateTo src w = .ok () after) : SmallLists w dst.depthLimit.toNat dst := by
  obtain ⟨count, le, byte, follow, low, _, high⟩ := site.reads
  rw [relocateTo, bind_apply, follow] at run
  simp only at run
  rw [bind_apply, low] at run
  simp only at run
  rw [bind_apply, high] at run
  obtain ⟨_, erased, erase, _⟩ := bind_eq_ok.mp run
  rcases site.erase_erases le with ⟨small, _⟩ | ⟨_, reason, failed, run'⟩
  · exact small
  · rw [run'] at erase
    cases erase

theorem relocateTo_run (small : SmallLists w dst.depthLimit.toNat dst) :
    ∃ written erased put after, Stages dst src written w erased put after ∧ dst.relocateTo src w = .ok () after := by
  have wf := site.wellFormed
  have resolves := site.resolves
  have budget := site.budget
  have here := site.message
  have targetHere : (src.target w).message = dst.message := target_message.trans here
  obtain ⟨count, countLe, byte, follow, low, bits, high⟩ := site.reads
  rcases site.erase_erases countLe with ⟨_, erased, erase, zeroed⟩ | ⟨large, _⟩
  · have gone := (Zeroed.spend wf count).trans zeroed
    rw [Set.empty_union] at gone
    replace gone := gone.mono (Nat.le_trans (Nat.add_le_add_right countLe _) (Nat.le_of_eq (Nat.add_comm 1 _)))
    have sound : (w dst.message).Sound := ⟨wf, site.slot.segments⟩
    have followed := sameSize_of_uses src.followFars_uses follow dst.message sound
    have sameSize := followed.trans (sameSize_of_uses dst.erase_uses erase dst.message followed.sound)
    have kept := site.kept_erased gone
    obtain ⟨_, _, target, targetLo, targetHi, _⟩ := path_same resolves.inBounds.lower
      fun byte member => kept.memory byte (site.path_subset member)
    have erasedWf := gone.like.wellFormed
    have targetErased : (src.target w).InBounds erased := resolves.target.kept kept target_message
    have offset := getOffsetWords_run (by rw [targetHere]; exact erasedWf) targetErased
    rw [targetLo] at offset
    have shape := shapeOf_hi site.type_near ((src.target w).hi w)
    have ready : dst.PointerSite erased (src.target w).segment (src.takenStart w) (src.takenShape w) := by
      have left := gone.budget
      refine ⟨erasedWf, ?_, ?_, site.aligned, ?_, site.start_aligned, ?_, shapeOf_fits _ _, site.depth, by omega⟩
      · rw [gone.like.readonly]
        exact site.writable
      · exact ⟨site.slot.lower, by rw [gone.like.allocated]; exact site.slot.upper⟩
      · have bound := targetErased.bound
        rwa [targetHere] at bound
      · rw [gone.like.length]
        exact site.few
    obtain ⟨res, middle, between, put, placed, first, second, wrote⟩ := halves_run ready
    have put' := writePointer_put ready wrote
    have keptPut := site.kept_put gone put'
    obtain ⟨below, rfl, node⟩ := site.node
    have same := sameNode_kept keptPut resolves.inBounds.lower resolves node.fits.length site.path_subset (by
      simp only [footprint, site.filled, Bool.false_eq_true, if_false]
      exact Set.subset_union_left.trans Set.subset_union_right)
    have follows := (same.resolves_kept keptPut resolves).toFollows
    have wipes := erasePointer_erases (by rw [here]; exact put'.wellFormed)
      (by rw [here, put'.readonly, gone.like.readonly]; exact site.writable) follows
      (by rw [here]; have left := gone.budget; have spent := put'.traversalLimit; omega)
    rw [same.path, here] at wipes
    rcases wipes with ⟨_, after, wipe, wiped⟩ | ⟨impossible, _⟩
    · refine ⟨res.pointer, erased, put, after, ⟨gone, sameSize, ready, wrote, wiped⟩, ?_⟩
      have lowHalf : res.pointer.setUint32 res.pointer.byteOffset
          ((byte &&& (3 : BitVec 32)) ||| (BitVec.ofInt 32 res.offsetWords <<< 2)) middle = .ok () between := by
        rw [bits, ← shape.1]
        exact first
      have highHalf : res.pointer.setUint32 (res.pointer.byteOffset + 4) ((src.target w).hi w) between = .ok () put := by
        rw [← shape.2]
        exact second
      rw [← targetHere] at placed
      rw [relocateTo]
      exact bind_eq_ok.mpr ⟨_, _, follow, bind_eq_ok.mpr ⟨_, _, low, bind_eq_ok.mpr ⟨_, _, high,
        bind_eq_ok.mpr ⟨_, _, erase, bind_eq_ok.mpr ⟨_, _, offset, bind_eq_ok.mpr ⟨_, _, placed,
        bind_eq_ok.mpr ⟨_, _, lowHalf, bind_eq_ok.mpr ⟨_, _, highHalf, wipe⟩⟩⟩⟩⟩⟩⟩⟩
    · exact absurd trivial impossible
  · exact absurd small large

end stages

/-! What is left alone, and what has become of the slot. -/

/-- A far pointer names its landing pad by the low 32 bits of its place. -/
theorem pad_subset_path {doubleFar : Bool} {offset : Int} {id address : Nat}
    (lo : p.lo w = PointerWord.farLo doubleFar (offset / 8)) (hi : p.hi w = BitVec.ofNat 32 id) (idBound : id < 2 ^ 32)
    (aligned : offset % 8 = 0) (above : offset % 2 ^ 32 ≤ address)
    (below : address < offset % 2 ^ 32 + if doubleFar then 16 else 8) : (id, address) ∈ p.path w := by
  have start := PointerWord.farLo_shiftRight doubleFar (offset / 8)
  have place : ((p.landingPad w).byteOffset : Int) = offset % 2 ^ 32 := by
    simp only [landingPad, lo]
    omega
  have segment : (p.landingPad w).segment = id := by
    simp only [landingPad, hi, BitVec.toNat_ofNat]
    exact Nat.mod_eq_of_lt idBound
  right
  rw [pads, lo, if_pos (PointerWord.ofBits_farLo _ _), PointerWord.isDoubleFar_farLo]
  exact ⟨segment.symm, by rw [place]; exact above, by rw [place]; exact below⟩

theorem writePointer_strays {segment : Nat} {byteOffset : Int} {shape : PointerShape}
    (site : p.PointerSite w segment byteOffset shape) (large : ¬ p.PadFits w segment)
    (run : writePointer shape segment byteOffset p w = .ok written after) :
    ∃ byte ∈ p.path after, byte ∉ p.word ∧ byte.2 < (w p.message).allocated byte.1 := by
  have few := site.few
  have bound := site.bound
  have slotAligned := site.slotAligned
  rw [PadFits, not_or] at large
  obtain ⟨same, large⟩ := large
  by_cases room : (w p.message).allocated segment + 8 ≤ (w p.message).capacity segment
  · obtain ⟨w', allocated, ran⟩ := writePointer_far site same room
    rw [ran] at run
    cases run
    rw [if_pos room] at large
    have aligned := site.wellFormed.allocated_aligned segment
    obtain ⟨_, _, _, lo, hi, _⟩ := far_words site rfl allocated
    refine ⟨(segment, ((w p.message).allocated segment % 2 ^ 32).toNat),
      pad_subset_path lo hi (by omega) aligned (by omega) ?_, ?_, ?_⟩
    · rw [if_neg Bool.false_ne_true]
      omega
    · rintro ⟨here, _⟩
      exact same here.symm
    · dsimp only
      omega
  · obtain ⟨w', allocated, ran⟩ := writePointer_doubleFar site same room
    rw [ran] at run
    cases run
    rw [if_neg room] at large
    obtain ⟨_, _, _, _, lo, hi, _⟩ := doubleFar_words site rfl allocated
    have aligned := site.wellFormed.allocated_aligned ((w p.message).place p.segment 16)
    have idBound := place_lt site 16
    generalize (w p.message).place p.segment 16 = id at *
    -- One of its two words is not the slot.
    by_cases slot : p.byteOffset = (w p.message).allocated id % 2 ^ 32
    · refine ⟨(id, ((w p.message).allocated id % 2 ^ 32).toNat + 8),
        pad_subset_path lo hi idBound aligned (by push_cast; omega) ?_, ?_, ?_⟩
      · rw [if_pos rfl]
        push_cast
        omega
      · rintro ⟨_, _, below⟩
        push_cast at below
        omega
      · dsimp only
        push_cast
        omega
    · refine ⟨(id, ((w p.message).allocated id % 2 ^ 32).toNat),
        pad_subset_path lo hi idBound aligned (by omega) ?_, ?_, ?_⟩
      · rw [if_pos rfl]
        omega
      · rintro ⟨_, above, below⟩
        dsimp only at above below
        omega
      · dsimp only
        omega

/-- A pointer in `p` that is written for one place leads to another: their distance is a multiple of what its offset
counts to, and the other one is in reach. -/
def Reaches (p : Pointer) (w : World) (segment : Nat) (place start : Int) : Prop :=
  if p.segment = segment then
    (place - start) % 2 ^ 33 = 0 ∧ -2 ^ 32 ≤ start - p.byteOffset - 8 ∧ start - p.byteOffset - 8 < 2 ^ 32
  else if (w p.message).allocated segment + 8 ≤ (w p.message).capacity segment then (place - start) % 2 ^ 33 = 0
  else (place - start) % 2 ^ 32 = 0 ∧ start < 2 ^ 31

theorem leadsTo_iff {segment : Nat} {place start : Int} {shape : PointerShape}
    (site : p.PointerSite w segment place shape) (fits : p.PadFits w segment) (lower : 0 ≤ start)
    (upper : start ≤ (w p.message).allocated segment) (aligned : start % 8 = 0) :
    p.leadsTo w segment place = start ↔ p.Reaches w segment place start := by
  have placeAligned := site.aligned
  have slotAligned := site.slotAligned
  have padAligned := site.wellFormed.allocated_aligned segment
  rw [leadsTo, Reaches, Int.bmod, Int.bmod, Int.bmod]
  by_cases same : p.segment = segment
  · rw [if_pos same, if_pos same]
    split <;> omega
  · have small := fits.resolve_left same
    rw [if_neg same, if_neg same]
    by_cases room : (w p.message).allocated segment + 8 ≤ (w p.message).capacity segment
    · rw [if_pos room] at small ⊢
      rw [if_pos room]
      split <;> omega
    · rw [if_neg room, if_neg room]
      split <;> omega

theorem padFits_sameSize {erased : World} (same : (w p.message).SameSize (erased p.message)) (segment : Nat) :
    p.PadFits erased segment ↔ p.PadFits w segment := by
  rw [PadFits, PadFits, same.place]
  simp only [same.sameAllocated, same.sameCapacity]

theorem reaches_sameSize {erased : World} (same : (w p.message).SameSize (erased p.message)) (segment : Nat)
    (place start : Int) : p.Reaches erased segment place start ↔ p.Reaches w segment place start := by
  rw [Reaches, Reaches]
  simp only [same.sameAllocated, same.sameCapacity]

section after

variable {erased put : World} (site : MoveSite dst src depth w) (stages : Stages dst src written w erased put after)
include site stages

theorem Stages.word_kept : ∀ byte ∈ dst.word,
    (after dst.message).memory byte.1 byte.2 = (put dst.message).memory byte.1 byte.2 :=
  fun byte member => stages.wiped.like.memory byte fun inPath =>
    Set.disjoint_left.mp site.apart (site.word_subset member) (site.path_subset inPath)

theorem Stages.path : dst.path after = dst.path put := by
  obtain ⟨lo, hi⟩ := word_same site.slot.lower (stages.word_kept site)
  rw [Pointer.path, Pointer.path, pads, pads, landingPad, landingPad, lo, hi]

theorem Stages.kept {bytes : Set Byte} (apart : Disjoint bytes (footprint w dst.depthLimit.toNat dst ∪ src.path w))
    (inside : ∀ byte ∈ bytes, byte.2 < (w dst.message).allocated byte.1) : World.Kept dst.message bytes w after := by
  have put' := writePointer_put stages.ready stages.wrote
  refine ⟨?_, ?_, ?_⟩
  · rw [stages.wiped.like.length, ← stages.gone.like.length]
    exact put'.length
  · intro s
    rw [stages.wiped.like.allocated, ← stages.gone.like.allocated]
    exact put'.allocated s
  · intro byte member
    have outside := Set.disjoint_left.mp apart member
    rw [stages.wiped.like.memory byte fun inPath => outside (Or.inr inPath)]
    rw [put'.memory byte.1 byte.2 (fun inWord => outside (Or.inl (site.word_subset inWord))) (Or.inl (by
      rw [stages.gone.like.allocated]
      exact inside byte member))]
    exact stages.gone.like.memory byte fun inErased => outside (Or.inl (erased_subset_footprint _ _ inErased))

/-- The slot describes what the source described, and leads where the offsets lead. -/
theorem Stages.leads (fits : dst.PadFits w (src.target w).segment) :
    (dst.targetType after = src.targetType w ∧ (dst.target after).hi after = (src.target w).hi w) ∧
      dst.objectStart after =
        fresh dst.message (src.target w).segment (dst.leadsTo erased (src.target w).segment (src.takenStart w)) ∧
      ∀ byte ∈ dst.path after, byte ∈ dst.word ∨ (w dst.message).allocated byte.1 ≤ byte.2 := by
  obtain ⟨put', ⟨_, encoded⟩, path⟩ := writePointer_leads stages.ready
    ((padFits_sameSize stages.sameSize _).mpr fits) stages.wrote
  have shape := shapeOf_hi site.type_near ((src.target w).hi w)
  have own : ∀ byte ∈ dst.path put, byte ∈ dst.word ∨ (w dst.message).allocated byte.1 ≤ byte.2 := by
    intro byte member
    rw [← stages.gone.like.allocated]
    exact path byte member
  have same : ∀ byte ∈ dst.path put,
      (after dst.message).memory byte.1 byte.2 = (put dst.message).memory byte.1 byte.2 := by
    intro byte member
    rcases own byte member with inWord | new
    · exact stages.word_kept site byte inWord
    · apply stages.wiped.like.memory
      intro inPath
      have old := footprint_allocated depth src site.tree byte (site.path_subset inPath)
      rw [site.message] at old
      omega
  obtain ⟨_, _, target, targetLo, targetHi, start⟩ := path_same site.slot.lower same
  have type := encoded.targetType
  refine ⟨⟨?_, ?_⟩, ?_, ?_⟩
  · rw [targetType] at type
    rw [targetType, target, targetLo, type]
    exact shape.1
  · rw [target, targetHi, encoded.hi]
    exact shape.2
  · rw [start, encoded.start]
  · rw [stages.path site]
    exact own

theorem Stages.start_iff (fits : dst.PadFits w (src.target w).segment) :
    dst.objectStart after = src.objectStart w ↔ (src.target w).segment = (src.objectStart w).segment ∧
      dst.Reaches w (src.target w).segment (src.takenStart w) (src.objectStart w).byteOffset := by
  obtain ⟨_, start, _⟩ := stages.leads site fits
  have lower := site.resolves.lower
  have upper := site.resolves.upper
  have aligned : (src.objectStart w).byteOffset % 8 = 0 := by
    obtain ⟨_, _, node⟩ := site.node
    have aligned := node.fits.aligned
    rw [content] at aligned
    split at aligned
    · dsimp only at aligned
      omega
    · exact aligned
  obtain ⟨id, place, plain⟩ : ∃ id place, src.objectStart w = fresh dst.message id place := by
    rw [← site.message, objectStart]
    split
    · exact ⟨_, _, rfl⟩
    · exact ⟨_, _, rfl⟩
  rw [plain] at lower upper aligned
  rw [site.message] at upper
  have reaches (here : (src.target w).segment = id) :
      dst.leadsTo erased (src.target w).segment (src.takenStart w) = place ↔
        dst.Reaches w (src.target w).segment (src.takenStart w) place := by
    rw [← reaches_sameSize stages.sameSize]
    apply leadsTo_iff stages.ready ((padFits_sameSize stages.sameSize _).mpr fits) lower _ aligned
    rw [stages.gone.like.allocated, here]
    exact upper
  rw [start, plain]
  constructor
  · intro same
    obtain ⟨here, leads⟩ : (src.target w).segment = id ∧
        dst.leadsTo erased (src.target w).segment (src.takenStart w) = place := by
      simpa [fresh] using same
    exact ⟨here, (reaches here).mp leads⟩
  · rintro ⟨here, inReach⟩
    rw [(reaches here).mpr inReach]
    exact congrArg (fun id => fresh dst.message id place) here

/-- The slot reads as null if it is a near pointer to a struct of such a size, right behind it. -/
theorem Stages.null_iff (fits : dst.PadFits w (src.target w).segment) :
    dst.isNullWord after = true ↔ dst.segment = (src.target w).segment ∧ src.targetType w = .STRUCT ∧
      ((src.target w).hi w = 0 ∨ (src.target w).hi w = BitVec.twoPow 32 31) ∧
        dst.leadsTo erased (src.target w).segment (src.takenStart w) = dst.byteOffset + 8 := by
  obtain ⟨⟨type, hi⟩, start, _⟩ := stages.leads site fits
  constructor
  · intro null
    obtain ⟨lo, target⟩ := target_of_null null
    have struct : dst.targetType after = .STRUCT := by
      rw [targetType, target, lo]
      rfl
    have high : dst.hi after = 0 ∨ dst.hi after = BitVec.twoPow 32 31 := by
      simpa [isNullWord, lo] using null
    rw [target] at hi
    have behind : dst.objectStart after = fresh dst.message dst.segment (dst.byteOffset + 8) := by
      rw [objectStart, lo, if_neg (by decide), target, lo]
      exact congrArg (fresh dst.message dst.segment) (Int.add_zero _)
    obtain ⟨here, leads⟩ : dst.segment = (src.target w).segment ∧
        dst.byteOffset + 8 = dst.leadsTo erased (src.target w).segment (src.takenStart w) := by
      simpa [fresh] using behind.symm.trans start
    exact ⟨here, type.symm.trans struct, hi ▸ high, leads.symm⟩
  · rintro ⟨same, struct, high, leads⟩
    obtain ⟨lo, hi⟩ := word_same site.slot.lower (stages.word_kept site)
    have shape := shapeOf_hi site.type_near ((src.target w).hi w)
    have run := writePointer_near stages.ready same
    rw [stages.wrote] at run
    cases run
    have lowWord := lo.trans (lo_putPointer stages.ready.wellFormed stages.ready.slot ⟨rfl, rfl, rfl⟩)
    have highWord := hi.trans (hi_putPointer stages.ready.wellFormed stages.ready.slot ⟨rfl, rfl, rfl⟩)
    rw [takenShape, shape.1, struct] at lowWord
    rw [takenShape, shape.2] at highWord
    rw [leadsTo, if_pos same, Int.bmod] at leads
    have zero : (src.takenStart w - dst.byteOffset - 8) / 8 % 2 ^ 30 = 0 := by
      split at leads <;> omega
    rw [isNullWord, lowWord, highWord, (nearLo_null_iff _).mpr zero]
    simpa using high

omit stages in
/-- The object itself is left alone. -/
theorem MoveSite.object_apart {below : Nat} (deep : depth = below + 1)
    (node : IsNode (footprint w below) (IsTree w below) src w) :
    Disjoint (src.own w ∪ { byte | ∃ c ∈ src.children w, byte ∈ footprint w below c })
      (footprint w dst.depthLimit.toNat dst ∪ src.path w) := by
  subst deep
  have covered : src.own w ∪ { byte | ∃ c ∈ src.children w, byte ∈ footprint w below c } ⊆
      footprint w (below + 1) src := by
    simp only [footprint, site.filled, Bool.false_eq_true, if_false]
    exact Set.subset_union_right
  rw [Set.disjoint_left]
  rintro byte inside (inOld | inPath)
  · exact Set.disjoint_left.mp site.apart inOld (covered inside)
  · rcases inside with inOwn | ⟨c, member, inChild⟩
    · exact Set.disjoint_left.mp node.pathApart inPath inOwn
    · exact Set.disjoint_left.mp (node.childrenApart c member) (Or.inl inPath) inChild

theorem Stages.sameObject (fits : dst.PadFits w (src.target w).segment) (start : dst.objectStart after = src.objectStart w)
    (own : ∀ byte ∈ src.own w, (after src.message).memory byte.1 byte.2 = (w src.message).memory byte.1 byte.2) :
    src.SameObject w dst after := by
  obtain ⟨⟨type, hi⟩, _⟩ := stages.leads site fits
  obtain ⟨_, _, node⟩ := site.node
  have composite : dst.isComposite after = src.isComposite w := by
    rw [isComposite, isComposite, type, hi]
  have tag : src.isComposite w = true → (src.objectStart w).lo after = (src.objectStart w).lo w ∧
      (src.objectStart w).hi after = (src.objectStart w).hi w := by
    intro composite
    apply word_same site.resolves.lower
    intro byte member
    rw [objectStart_message]
    exact own byte (tag_subset_own composite node.fits.length member)
  refine ⟨site.message.symm, type, hi, ?_, ?_, ?_⟩
  · rw [content, content, composite, start]
  · rw [listLength, listLength, composite, start, hi]
    by_cases isComposite : src.isComposite w = true
    · rw [if_pos isComposite, if_pos isComposite, (tag isComposite).1]
    · rw [if_neg isComposite, if_neg isComposite]
  · intro isComposite
    rw [compositeSize, compositeSize, start, (tag isComposite).2]

theorem Stages.shows (fits : dst.PadFits w (src.target w).segment) (start : dst.objectStart after = src.objectStart w)
    (filled : dst.isNullWord after = false) (levels : Nat) :
    Pointer.shown after levels dst = Pointer.shown w levels src := by
  obtain ⟨below, deep, node⟩ := site.node
  have apart := site.object_apart deep node
  have inside : ∀ byte ∈ src.own w ∪ { byte | ∃ c ∈ src.children w, byte ∈ footprint w below c },
      byte.2 < (w dst.message).allocated byte.1 := by
    rw [← site.message]
    rintro byte (inOwn | ⟨c, member, inChild⟩)
    · exact node.fits.own_allocated byte inOwn
    · rw [← (children_isChild member).message]
      exact footprint_allocated below c (node.children c member) byte inChild
  have kept := stages.kept site apart inside
  rw [← site.message] at kept
  have own : ∀ byte ∈ src.own w, (after src.message).memory byte.1 byte.2 = (w src.message).memory byte.1 byte.2 :=
    fun byte member => kept.memory byte (Or.inl member)
  cases levels with
  | zero => rfl
  | succ levels =>
      refine shown_same (stages.sameObject site fits start own) site.filled filled own (content_nonneg node.resolves)
        node.fits.length ?_
      intro c member
      apply shown_kept below c _ (node.children c member)
      rw [(children_isChild member).message]
      exact kept.mono fun byte inChild => Or.inr ⟨c, member, inChild⟩

end after

/-- A pointer to a struct of no size, which a null pointer equals. -/
def IsEmptyStruct (p : Pointer) (w : World) : Prop := p.targetType w = .STRUCT ∧ (p.target w).hi w = 0

/-- The slot has become what the source was, through words of its own, and nothing else has changed. -/
structure Moved (dst src : Pointer) (w after : World) : Prop where
  start : dst.objectStart after = src.objectStart w
  shown : ∀ levels, Pointer.shown after levels dst = Pointer.shown w levels src ∨
    (src.IsEmptyStruct w ∧ Pointer.shown after levels dst = .null)
  path : ∀ byte ∈ dst.path after, byte ∈ dst.word ∨ (w dst.message).allocated byte.1 ≤ byte.2
  null : src.isNullWord after = true
  memory : ∀ byte ∉ footprint w dst.depthLimit.toNat dst ∪ src.path w, byte.2 < (w dst.message).allocated byte.1 →
    (after dst.message).memory byte.1 byte.2 = (w dst.message).memory byte.1 byte.2
  trees : ∀ levels q, q.message = dst.message → IsTree w levels q →
    Disjoint (footprint w levels q) (footprint w dst.depthLimit.toNat dst ∪ src.path w) →
      IsTree after levels q ∧ ∀ seen, Pointer.shown after seen q = Pointer.shown w seen q
  others : ∀ other ≠ dst.message, after other = w other

/-- The object lies where `relocateTo` takes it to lie, and the pointer that is written can say so. -/
structure Relocatable (dst src : Pointer) (w : World) : Prop where
  small : SmallLists w dst.depthLimit.toNat dst
  pad : dst.PadFits w (src.target w).segment
  segment : (src.target w).segment = (src.objectStart w).segment
  reaches : dst.Reaches w (src.target w).segment (src.takenStart w) (src.objectStart w).byteOffset
  filled : ¬ (src.targetType w = .STRUCT ∧ (src.target w).hi w = BitVec.twoPow 32 31 ∧
    dst.segment = (src.target w).segment ∧ (src.objectStart w).byteOffset = dst.byteOffset + 8)

def Moves (dst src : Pointer) (w : World) : Prop :=
  ∃ after, dst.relocateTo src w = .ok () after ∧ Moved dst src w after

theorem moved_iff {erased put : World} (site : MoveSite dst src depth w) (small : SmallLists w dst.depthLimit.toNat dst)
    (stages : Stages dst src written w erased put after) : Moved dst src w after ↔ Relocatable dst src w := by
  constructor
  · intro moved
    have pad : dst.PadFits w (src.target w).segment := by
      by_contra large
      obtain ⟨byte, inPath, outside, old⟩ := writePointer_strays stages.ready
        (fun fits => large ((padFits_sameSize stages.sameSize _).mp fits)) stages.wrote
      rw [← stages.path site] at inPath
      rw [stages.gone.like.allocated] at old
      rcases moved.path byte inPath with inWord | new
      · exact outside inWord
      · omega
    obtain ⟨segment, reaches⟩ := (stages.start_iff site pad).mp moved.start
    refine ⟨small, pad, segment, reaches, ?_⟩
    rintro ⟨struct, high, here, behind⟩
    obtain ⟨_, start, _⟩ := stages.leads site pad
    have leads := congrArg Pointer.byteOffset (start.symm.trans moved.start)
    have null := (stages.null_iff site pad).mpr ⟨here, struct, Or.inr high, leads.trans behind⟩
    rcases moved.shown 1 with same | ⟨empty, _⟩
    · rw [shown_null null, Pointer.shown, if_neg (by rw [site.filled]; decide)] at same
      cases same
    · exact absurd (high.symm.trans empty.2) (by decide)
  · intro relocatable
    have pad := relocatable.pad
    have start := (stages.start_iff site pad).mpr ⟨relocatable.segment, relocatable.reaches⟩
    obtain ⟨_, leads, path⟩ := stages.leads site pad
    constructor
    · exact start
    · intro levels
      cases null : dst.isNullWord after with
      | false => exact Or.inl (stages.shows site pad start null levels)
      | true =>
          right
          obtain ⟨here, struct, high, behind⟩ := (stages.null_iff site pad).mp null
          have place := congrArg Pointer.byteOffset (leads.symm.trans start)
          refine ⟨⟨struct, high.resolve_right fun top => relocatable.filled ⟨struct, top, here, ?_⟩⟩, shown_null null levels⟩
          exact place.symm.trans behind
    · exact path
    · apply isNullWord_of_zero site.resolves.inBounds.lower
      intro byte member
      rw [site.message]
      exact stages.wiped.zero byte (word_subset_path member)
    · intro byte outside inside
      have kept : World.Kept dst.message {byte} w after := by
        apply stages.kept site (Set.disjoint_singleton_left.mpr outside)
        rintro _ rfl
        exact inside
      exact kept.memory byte rfl
    · intro levels q here tree apart
      have inside := footprint_allocated levels q tree
      rw [here] at inside
      have kept := stages.kept site apart inside
      rw [← here] at kept
      exact ⟨(tree_kept levels q kept tree).isTree, shown_kept levels q kept tree q.depthLimit⟩
    · intro other different
      rw [stages.wiped.others other different, (writePointer_put stages.ready stages.wrote).others other different,
        stages.gone.others other different]

/-- The object moves if and only if `relocateTo` takes its place from the word it finds and can write it down again. -/
theorem relocateTo_moves_iff (site : MoveSite dst src depth w) : Moves dst src w ↔ Relocatable dst src w := by
  constructor
  · rintro ⟨after, run, moved⟩
    have small := small_of_run site run
    obtain ⟨_, _, _, after', stages, run'⟩ := relocateTo_run site small
    rw [run'] at run
    cases run
    exact (moved_iff site small stages).mp moved
  · intro relocatable
    obtain ⟨_, _, _, after, stages, run⟩ := relocateTo_run site relocatable.small
    exact ⟨after, run, (moved_iff site relocatable.small stages).mpr relocatable⟩

/-! A struct whose pointer moves to another segment, and takes the place of a struct there. -/

def apartTrees : World := fun _ =>
  { arena := { kind := .MULTI_SEGMENT, buffers := [] }
    segments :=
      [{ buffer := [0, 0, 0, 0, 1, 0, 0, 0, 7, 0, 0, 0, 0, 0, 0, 0, 0, 0, 0, 0, 0, 0, 0, 0], byteLength := 16 },
        { buffer := [0, 0, 0, 0, 1, 0, 0, 0, 9, 0, 0, 0, 0, 0, 0, 0], byteLength := 16 }]
    traversalLimit := DEFAULT_TRAVERSE_LIMIT
    readonly := false
    capTable := none }

def sevenRoot : Pointer := { message := 0, segment := 0, byteOffset := 0, depthLimit := DEFAULT_DEPTH_LIMIT }

def nineRoot : Pointer := { message := 0, segment := 1, byteOffset := 0, depthLimit := DEFAULT_DEPTH_LIMIT }

theorem apartTrees_shape : (sevenRoot.IsNear apartTrees ∧ nineRoot.IsNear apartTrees) ∧
    (sevenRoot.children apartTrees = [] ∧ nineRoot.children apartTrees = []) ∧
    (sevenRoot.isNullWord apartTrees = false ∧ nineRoot.isNullWord apartTrees = false) ∧
    ((sevenRoot.objectStart apartTrees).segment = 0 ∧ (nineRoot.objectStart apartTrees).segment = 1) ∧
    sevenRoot.targetType apartTrees = .STRUCT ∧
    8 * visits apartTrees nineRoot.depthLimit.toNat nineRoot + 80 < (apartTrees 0).traversalLimit := by
  decide +kernel

theorem apartTrees_site : MoveSite nineRoot sevenRoot 1 apartTrees := by
  obtain ⟨⟨near, nearToo⟩, ⟨leaf, leafToo⟩, ⟨filled, filledToo⟩, ⟨first, second⟩, type, budget⟩ := apartTrees_shape
  constructor
  · rfl
  · constructor <;> decide
  · rfl
  · exact (by decide : 2 < 2 ^ 32)
  · exact near.leaf_isTree leaf 0
  · exact filled
  · rw [type]
    decide
  · decide
  · exact nearToo.leaf_isTree leafToo 63
  · change Disjoint (footprint apartTrees (63 + 1) nineRoot) (footprint apartTrees (0 + 1) sevenRoot)
    rw [footprint, footprint, filled, filledToo, leaf, leafToo, near.path, nearToo.path, near.own, nearToo.own, first, second,
      Set.disjoint_left]
    rintro byte (here | here | ⟨_, impossible, _⟩) (there | there | ⟨_, impossible, _⟩)
    all_goals first
      | cases impossible
      | exact absurd (here.1.symm.trans there.1) (by decide)
  · decide
  · exact budget

theorem relocateTo_moves_iff_far : Moves nineRoot sevenRoot apartTrees := by
  refine (relocateTo_moves_iff apartTrees_site).mpr ⟨?_, Or.inr (by decide +kernel), by decide +kernel, ?_, ?_⟩
  · change SmallLists apartTrees (63 + 1) nineRoot
    intro _
    refine ⟨fun list => absurd list (by decide +kernel), ?_⟩
    rw [apartTrees_shape.2.1.2]
    intro c member
    cases member
  · rw [Reaches]
    decide +kernel
  · rintro ⟨_, high, _⟩
    revert high
    decide +kernel

/-! A double-far pointer to a struct in a segment of its own, and an empty slot. -/

def doubleFarTree : World := fun _ =>
  { arena := { kind := .MULTI_SEGMENT, buffers := [] }
    segments :=
      [{ buffer := [6, 0, 0, 0, 1, 0, 0, 0, 0, 0, 0, 0, 0, 0, 0, 0], byteLength := 16 },
        { buffer := [2, 0, 0, 0, 2, 0, 0, 0, 0, 0, 0, 0, 1, 0, 0, 0, 0, 0, 0, 0, 0, 0, 0, 0], byteLength := 16 },
        { buffer := [7, 0, 0, 0, 0, 0, 0, 0], byteLength := 8 }]
    traversalLimit := DEFAULT_TRAVERSE_LIMIT
    readonly := false
    capTable := none }

def emptySlot : Pointer := { message := 0, segment := 0, byteOffset := 8, depthLimit := DEFAULT_DEPTH_LIMIT }

theorem doubleFarTree_site : MoveSite emptySlot sevenRoot 1 doubleFarTree := by
  have null : emptySlot.isNullWord doubleFarTree = true := by decide +kernel
  have filled : sevenRoot.isNullWord doubleFarTree = false := by decide +kernel
  have leaf : sevenRoot.children doubleFarTree = [] := by decide +kernel
  have path : sevenRoot.path doubleFarTree = span 0 0 8 ∪ span 1 0 16 := by
    have far : PointerType.ofBits (sevenRoot.lo doubleFarTree) = .FAR := by decide +kernel
    have double : PointerWord.isDoubleFar (sevenRoot.lo doubleFarTree) = true := by decide +kernel
    have pad : (sevenRoot.landingPad doubleFarTree).segment = 1 ∧ (sevenRoot.landingPad doubleFarTree).byteOffset = 0 := by
      decide +kernel
    rw [Pointer.path, pads, if_pos far, if_pos double, pad.1, pad.2]
    rfl
  have own : sevenRoot.own doubleFarTree = span 2 0 8 := by
    have single : ¬ sevenRoot.isComposite doubleFarTree = true := by decide +kernel
    have content : (sevenRoot.content doubleFarTree).segment = 2 ∧ (sevenRoot.content doubleFarTree).byteOffset = 0 ∧
        sevenRoot.extent doubleFarTree = 8 := by
      decide +kernel
    rw [Pointer.own, if_neg single, content.1, content.2.1, content.2.2]
  constructor
  · rfl
  · constructor <;> decide
  · rfl
  · exact (by decide : 3 < 2 ^ 32)
  · refine ⟨⟨by decide, by decide +kernel⟩, rfl, fun _ => ?_⟩
    constructor
    · constructor
      · constructor
        · exact ⟨by decide, by decide +kernel⟩
        · intro _
          decide
        · intro _
          exact ⟨by decide +kernel, by decide +kernel⟩
        · exact ⟨by decide +kernel, by decide +kernel⟩
      · decide +kernel
      · decide +kernel
      · decide +kernel
      · decide +kernel
    · constructor
      · decide +kernel
      · decide +kernel
      · exact fun composite => absurd composite (by decide +kernel)
      · decide +kernel
    · rw [leaf]
      intro c member
      cases member
    · rw [path, own, Set.disjoint_left]
      rintro byte (⟨here, _⟩ | ⟨here, _⟩) ⟨there, _⟩
      all_goals exact absurd (here.symm.trans there) (by decide)
    · rw [leaf]
      intro c member
      cases member
    · rw [leaf]
      exact List.Pairwise.nil
  · exact filled
  · decide +kernel
  · decide
  · change IsTree doubleFarTree (63 + 1) emptySlot
    refine ⟨⟨by decide, by decide +kernel⟩, rfl, fun impossible => ?_⟩
    rw [null] at impossible
    cases impossible
  · change Disjoint (footprint doubleFarTree (63 + 1) emptySlot) (footprint doubleFarTree (0 + 1) sevenRoot)
    have near : PointerType.ofBits (emptySlot.lo doubleFarTree) ≠ .FAR := by decide +kernel
    rw [footprint, footprint, null, filled, leaf, path, own, path_near near, Set.disjoint_left]
    rintro byte (⟨here, above, _⟩ | impossible) ((⟨_, _, below⟩ | ⟨there, _⟩) | (⟨there, _⟩ | ⟨_, impossible, _⟩))
    · exact absurd (Int.lt_of_le_of_lt above below) (by decide)
    all_goals first
      | cases impossible
      | exact absurd (here.symm.trans there) (by decide)
  · decide
  · change 8 * ((visits doubleFarTree (63 + 1) emptySlot : Nat) : Int) + 80 < DEFAULT_TRAVERSE_LIMIT
    rw [visits, null]
    decide

/-- The slot is left with a pointer to its own landing pad. -/
theorem relocateTo_loses_object : MoveSite emptySlot sevenRoot 1 doubleFarTree ∧
    (∃ after, emptySlot.relocateTo sevenRoot doubleFarTree = .ok () after ∧
      sevenRoot.numbers doubleFarTree = [7, 0, 0, 0, 0, 0, 0, 0] ∧
        emptySlot.numbers after = [252, 255, 255, 255, 1, 0, 0, 0]) ∧ ¬ Moves emptySlot sevenRoot doubleFarTree := by
  have moved : returned (do
      emptySlot.relocateTo sevenRoot
      let w ← get
      return (emptySlot.numbers w, (emptySlot.objectStart w).segment)) doubleFarTree =
        some ([252, 255, 255, 255, 1, 0, 0, 0], 1) := by
    decide +kernel
  obtain ⟨_, observed⟩ := returned_eq_some.mp moved
  obtain ⟨_, after, run, seen⟩ := bind_eq_ok.mp observed
  obtain ⟨numbers, segment⟩ : emptySlot.numbers after = [252, 255, 255, 255, 1, 0, 0, 0] ∧
      (emptySlot.objectStart after).segment = 1 := by
    injection seen with values
    exact Prod.mk.inj values
  refine ⟨doubleFarTree_site, ⟨after, run, by decide +kernel, numbers⟩, ?_⟩
  rintro ⟨_, again, there⟩
  rw [run] at again
  cases again
  rw [there.start] at segment
  revert segment
  decide +kernel

end Pointer

end CapnpEs
