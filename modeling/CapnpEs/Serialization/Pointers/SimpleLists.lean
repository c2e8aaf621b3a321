import CapnpEs.Serialization.Pointers.PointerGetters

/-! Pointers to lists of simple elements: their length, and where the elements are. -/

namespace CapnpEs.Pointer

variable {w w' : World} {d : Pointer} {size : ListElementSize}

/-- A pointer to a list with elements of this size, or a null pointer. -/
structure IsSimpleList (size : ListElementSize) (d : Pointer) (w : World) : Prop where
  simple : size ≠ .COMPOSITE
  resolves : d.Resolves w
  plain : d.compositeIndex = none
  kind : (d.targetType w = .LIST ∧ d.elementSize w = size) ∨ (d.lo w = 0 ∧ d.hi w = 0)

namespace IsSimpleList

variable (list : d.IsSimpleList size w)
include list

theorem notComposite : d.elementSize w ≠ .COMPOSITE := by
  obtain ⟨-, same⟩ | ⟨lo, hi⟩ := list.kind
  · rw [same]
    exact list.simple
  · have target : d.target w = d := by
      rw [Pointer.target, lo, if_neg (by decide)]
    rw [elementSize, target, hi]
    decide

theorem single : d.isComposite w = false := by
  rw [isComposite, Bool.and_eq_false_iff, decide_eq_false_iff_not, decide_eq_false_iff_not]
  exact Or.inr list.notComposite

theorem listLength : d.listLength w = ((d.target w).hi w >>> 3).toNat := by
  rw [Pointer.listLength, list.single, if_neg Bool.false_ne_true]

theorem length_nonneg : 0 ≤ d.listLength w := by
  rw [list.listLength]
  exact Int.natCast_nonneg _

theorem start_nonneg : 0 ≤ (d.content w).byteOffset := by
  rw [content_plain list.single]
  exact list.resolves.lower

theorem spend (message count : Nat) : d.IsSimpleList size (w.spend message count) := by
  refine ⟨list.simple, list.resolves.spend message count, list.plain, ?_⟩
  simpa [elementSize_spend] using list.kind

theorem getContent_reads (wf : (w d.message).WellFormed) (budget : 32 < (w d.message).traversalLimit) :
    Reads d.getContent d.message 4 w (d.content w) :=
  Pointer.getContent_reads wf list.resolves budget list.plain

theorem getTargetListLength_reads (wf : (w d.message).WellFormed) (budget : 8 < (w d.message).traversalLimit) :
    Reads d.getTargetListLength d.message 1 w (d.listLength w) := by
  have follows := list.resolves.toFollows
  refine Reads.bind (k := 1) (r := 0) (followFars_reads wf follows budget) ?_
  intro count _
  refine Reads.bind (k := 0) (r := 0) (Reads.of_run (getListElementSize_run (target_wellFormed wf count)
    (follows.target.spend d.message count))) ?_
  intro none le
  have simple : ListElementSize.ofBits ((d.target w).hi w) ≠ .COMPOSITE := list.notComposite
  rw [Nat.le_zero.mp le, World.spend_zero, hi_spend, if_neg simple, list.listLength]
  refine Reads.bind (k := 0) (r := 0) (Reads.of_run (getListLength_run (target_wellFormed wf count)
    (follows.target.spend d.message count))) ?_
  intro none le
  rw [Nat.le_zero.mp le, World.spend_zero, hi_spend]
  exact Reads.pure _

theorem like (like : World.Like d.message (d.path w) w w') : d.IsSimpleList size w' ∧ SameNode d w w' := by
  obtain ⟨lo, hi, target, targetLo, targetHi, start⟩ := path_like like list.resolves.inBounds.lower Set.Subset.rfl
  have single := list.single
  have same : SameNode d w w' := by
    refine ⟨lo, hi, target, targetLo, targetHi, start, ?_, ?_⟩
    · intro composite
      rw [single] at composite
      cases composite
    · intro composite
      rw [single] at composite
      cases composite
  refine ⟨⟨list.simple, same.resolves like list.resolves, list.plain, ?_⟩, same⟩
  rw [same.targetType, same.elementSize, lo, hi]
  exact list.kind

end IsSimpleList

end CapnpEs.Pointer
