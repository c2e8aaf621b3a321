import CapnpEs.Serialization.Pointers.LaidPointers

/-! Two pointers to one object, and trees that stay as they are while their message grows. -/

namespace CapnpEs

namespace Pointer

variable {p q : Pointer} {w w' : World}

/-! One object behind two pointers. -/

/-- `q` leads in `w'` to what `p` leads to in `w`. -/
structure SameObject (p : Pointer) (w : World) (q : Pointer) (w' : World) : Prop where
  message : q.message = p.message
  type : q.targetType w' = p.targetType w
  hi : (q.target w').hi w' = (p.target w).hi w
  content : q.content w' = p.content w
  length : q.listLength w' = p.listLength w
  size : p.isComposite w = true → q.compositeSize w' = p.compositeSize w

theorem SameNode.sameObject (same : SameNode p w w') : p.SameObject w p w' :=
  ⟨rfl, same.targetType, by rw [same.target, same.targetHi], same.content, same.listLength, same.compositeSize⟩

theorem content_subset_own : span (p.content w).segment (p.content w).byteOffset (p.extent w) ⊆ p.own w := by
  rintro byte ⟨here, above, below⟩
  rw [own]
  split
  · exact ⟨here, by omega, by omega⟩
  · exact ⟨here, above, below⟩

namespace SameObject

variable (same : p.SameObject w q w')
include same

theorem elementSize : q.elementSize w' = p.elementSize w := by
  rw [Pointer.elementSize, Pointer.elementSize, same.hi]

theorem structSize : q.structSize w' = p.structSize w := by
  rw [Pointer.structSize, Pointer.structSize, same.hi]

theorem isComposite : q.isComposite w' = p.isComposite w := by
  rw [Pointer.isComposite, Pointer.isComposite, same.type, same.hi]

theorem compositeSize (list : p.targetType w = .LIST) (size : p.elementSize w = .COMPOSITE) :
    q.compositeSize w' = p.compositeSize w :=
  same.size (SameNode.composite_of list size)

theorem extent : q.extent w' = p.extent w := by
  unfold Pointer.extent
  rw [same.type, same.structSize, same.elementSize, same.length]
  split
  · rfl
  · rename_i list
    split
    · rfl
    · split
      · rename_i size
        rw [same.compositeSize list size]
      · rfl
  · rfl

theorem own : q.own w' = p.own w := by
  rw [Pointer.own, Pointer.own, same.isComposite, same.content, same.extent]

theorem children : q.children w' = (p.children w).map fun c => { c with depthLimit := q.depthLimit - 1 } := by
  have pointers (c : Pointer) (byteOffset : Int) (count : Nat) : pointersAt q c byteOffset count =
      (pointersAt p c byteOffset count).map fun c => { c with depthLimit := q.depthLimit - 1 } := by
    rw [pointersAt, pointersAt, List.map_map]
    rfl
  unfold Pointer.children
  simp only [pointers, same.type, same.content, same.structSize, same.elementSize, same.length]
  split
  · rfl
  · rename_i list
    split
    · rfl
    · split
      · rename_i size
        rw [List.map_flatMap]
        apply List.flatMap_congr
        intro i _
        rw [elementPointers, elementPointers, pointers, same.content, same.compositeSize list size]
      · rfl
  · rfl

variable (memory : ∀ byte ∈ p.own w, (w' p.message).memory byte.1 byte.2 = (w p.message).memory byte.1 byte.2)
  (start : 0 ≤ (p.content w).byteOffset)
include memory start

theorem numberAt {offset width : Nat} (inside : offset + width ≤ p.extent w) :
    q.numberAt w' offset width = p.numberAt w offset width := by
  rw [Pointer.numberAt, Pointer.numberAt, same.content, same.message]
  apply LittleEndian.read_congr
  intro address above below
  exact memory ((p.content w).segment, address) (content_subset_own ⟨rfl, by dsimp only; omega, by dsimp only; omega⟩)

theorem numbers (length : 0 ≤ p.listLength w) : q.numbers w' = p.numbers w := by
  have number {offset width : Nat} (inside : offset + width ≤ p.extent w) := same.numberAt memory start inside
  rw [Pointer.numbers, Pointer.numbers, same.type]
  rw [Pointer.extent] at number
  cases type : p.targetType w with
  | STRUCT =>
      rw [type] at number
      simp only [same.structSize]
      apply List.map_congr_left
      intro i member
      obtain ⟨place, below, rfl⟩ : ∃ place < (p.structSize w).dataByteLength, i = (place : Int) := by
        simpa using member
      exact number (by dsimp only; omega)
  | LIST =>
      rw [type] at number
      simp only [same.elementSize, same.length]
      cases size : p.elementSize w with
      | COMPOSITE =>
          rw [size] at number
          simp only [same.compositeSize type size]
          apply List.flatMap_congr
          intro i inList
          apply List.map_congr_left
          intro j inData
          have element := List.mem_range.mp inList
          have data := List.mem_range.mp inData
          apply number
          have rows : (i + 1) * (p.compositeSize w).getByteLength ≤
              (p.listLength w).toNat * (p.compositeSize w).getByteLength := Nat.mul_le_mul_right _ element
          have row : (p.compositeSize w).dataByteLength ≤ (p.compositeSize w).getByteLength := Nat.le_add_right ..
          rw [Nat.add_one_mul] at rows
          have total : ((p.listLength w).toNat * (p.compositeSize w).getByteLength : Nat) =
              p.listLength w * (p.compositeSize w).getByteLength := by
            rw [Nat.cast_mul, Int.toNat_of_nonneg length]
          simp only [if_neg (by decide : ListElementSize.COMPOSITE ≠ .POINTER), if_true]
          omega
      | POINTER => rfl
      | BIT =>
          rw [size] at number
          apply List.map_congr_left
          intro i member
          have below := List.mem_range.mp member
          rw [number]
          simp only [if_neg (by decide : ListElementSize.BIT ≠ .POINTER), if_neg (by decide : ListElementSize.BIT ≠ .COMPOSITE),
            listWords, getListElementByteLength]
          omega
      | VOID =>
          rw [size] at number
          apply List.map_congr_left
          intro i _
          apply number
          simp [listWords, getListElementByteLength]
      | _ =>
          rw [size] at number
          apply List.map_congr_left
          intro i member
          have below := List.mem_range.mp member
          apply number
          simp [listWords, getListElementByteLength]
          omega
  | FAR => rfl
  | OTHER => rfl

end SameObject

/-! What is shown. -/

theorem sameObject_deep (depthLimit : Int) : p.SameObject w { p with depthLimit := depthLimit } w := by
  have target : (Pointer.target { p with depthLimit := depthLimit } w).SameSlot (p.target w) := by
    rw [Pointer.target, Pointer.target]
    change (if PointerType.ofBits (p.lo w) = .FAR then _ else _ : Pointer).SameSlot _
    split
    · change (if PointerWord.isDoubleFar (p.lo w) then _ else _ : Pointer).SameSlot _
      split
      · exact ⟨rfl, rfl, rfl⟩
      · exact ⟨rfl, rfl, rfl⟩
    · exact ⟨rfl, rfl, rfl⟩
  have lo : (Pointer.target { p with depthLimit := depthLimit } w).lo w = (p.target w).lo w := by
    rw [Pointer.lo, Pointer.lo, target.message, target.segment, target.byteOffset]
  have hi : (Pointer.target { p with depthLimit := depthLimit } w).hi w = (p.target w).hi w := by
    rw [Pointer.hi, Pointer.hi, target.message, target.segment, target.byteOffset]
  have type : Pointer.targetType { p with depthLimit := depthLimit } w = p.targetType w := by
    rw [targetType, targetType, lo]
  have start : Pointer.objectStart { p with depthLimit := depthLimit } w = p.objectStart w := by
    rw [objectStart, objectStart, lo, target.segment, target.byteOffset]
    rfl
  have composite : Pointer.isComposite { p with depthLimit := depthLimit } w = p.isComposite w := by
    rw [isComposite, isComposite, type, hi]
  refine ⟨rfl, type, hi, ?_, ?_, fun _ => ?_⟩
  · rw [content, content, composite, start]
  · rw [listLength, listLength, composite, start, hi]
  · rw [compositeSize, compositeSize, start]

theorem SameObject.trans {o : Pointer} {w'' : World} (first : p.SameObject w q w') (second : q.SameObject w' o w'') :
    p.SameObject w o w'' := by
  refine ⟨second.message.trans first.message, second.type.trans first.type, second.hi.trans first.hi,
    second.content.trans first.content, second.length.trans first.length, fun composite => ?_⟩
  rw [second.size (by rw [first.isComposite]; exact composite), first.size composite]

theorem shown_same {depth : Nat} (same : p.SameObject w q w') (filled : p.isNullWord w = false)
    (stillFilled : q.isNullWord w' = false)
    (memory : ∀ byte ∈ p.own w, (w' p.message).memory byte.1 byte.2 = (w p.message).memory byte.1 byte.2)
    (start : 0 ≤ (p.content w).byteOffset) (length : 0 ≤ p.listLength w)
    (children : ∀ c ∈ p.children w, shown w' depth { c with depthLimit := q.depthLimit - 1 } = shown w depth c) :
    shown w' (depth + 1) q = shown w (depth + 1) p := by
  have tag : (if p.isComposite w then some (q.listLength w', q.compositeSize w') else none) =
      if p.isComposite w then some (p.listLength w, p.compositeSize w) else none := by
    by_cases composite : p.isComposite w = true
    · rw [if_pos composite, if_pos composite, same.length, same.size composite]
    · rw [if_neg composite, if_neg composite]
  have below : (q.children w').map (shown w' depth) = (p.children w).map (shown w depth) := by
    rw [same.children, List.map_map]
    exact List.map_congr_left children
  rw [shown, shown, filled, stillFilled, same.type, same.hi, same.isComposite, tag, same.numbers memory start length, below]

theorem content_nonneg (resolves : p.Resolves w) : 0 ≤ (p.content w).byteOffset := by
  have lower := resolves.lower
  rw [content]
  split
  · dsimp only
    omega
  · exact lower

/-- Only the bytes of the tree matter, and not how deep its pointers may lead. -/
theorem shown_kept (depth : Nat) (p : Pointer) (kept : World.Kept p.message (footprint w depth p) w w')
    (tree : IsTree w depth p) (depthLimit : Int) (levels : Nat) :
    shown w' levels { p with depthLimit := depthLimit } = shown w levels p := by
  induction depth generalizing p depthLimit levels with
  | zero => exact absurd tree id
  | succ depth ih =>
      obtain ⟨inBounds, plain, node⟩ := tree
      obtain ⟨lo, hi, _⟩ := path_same inBounds.lower fun byte member => kept.memory byte (Or.inl member)
      have null : Pointer.isNullWord { p with depthLimit := depthLimit } w' = p.isNullWord w := by
        rw [isNullWord, isNullWord, ← lo, ← hi]
        rfl
      cases filled : p.isNullWord w with
      | true => rw [shown_null filled, shown_null (null.trans filled)]
      | false =>
          have here := node filled
          have covered : p.own w ∪ { byte | ∃ c ∈ p.children w, byte ∈ footprint w depth c } ⊆ footprint w (depth + 1) p := by
            simp only [footprint, filled, Bool.false_eq_true, if_false]
            exact Set.subset_union_right
          have ownCovered := Set.subset_union_left.trans covered
          have same := sameNode_kept kept inBounds.lower here.resolves here.fits.length Set.subset_union_left ownCovered
          cases levels with
          | zero => rfl
          | succ levels =>
              refine shown_same (same.sameObject.trans (sameObject_deep depthLimit)) filled (null.trans filled)
                (fun byte member => kept.memory byte (ownCovered member)) (content_nonneg here.resolves) here.fits.length ?_
              intro c member
              apply ih c
              · rw [(children_isChild member).message]
                exact kept.mono fun byte inside => covered (Or.inr ⟨c, member, inside⟩)
              · exact here.children c member

theorem ContentFits.own_allocated (fits : p.ContentFits w) : ∀ byte ∈ p.own w, byte.2 < (w p.message).allocated byte.1 := by
  intro byte member
  have inside := fits.inside
  rw [own] at member
  split at member
  all_goals
    obtain ⟨here, above, below⟩ := member
    rw [here]
    omega

theorem footprint_allocated (depth : Nat) (p : Pointer) (tree : IsTree w depth p) :
    ∀ byte ∈ footprint w depth p, byte.2 < (w p.message).allocated byte.1 := by
  induction depth generalizing p with
  | zero => exact absurd tree id
  | succ depth ih =>
      obtain ⟨inBounds, _, node⟩ := tree
      rintro byte (inPath | inObject)
      · cases null : p.isNullWord w with
        | true =>
            have inWord : byte ∈ p.word := by
              rw [← bytes_of_null null]
              exact Or.inl inPath
            obtain ⟨here, above, below⟩ := inWord
            have upper := inBounds.upper
            rw [here]
            omega
        | false => exact (node null).resolves.path_allocated byte inPath
      · split at inObject
        · exact absurd inObject (Set.notMem_empty byte)
        · rename_i filled
          have here := node (Bool.eq_false_of_not_eq_true filled)
          rcases inObject with inOwn | ⟨c, member, inside⟩
          · exact here.fits.own_allocated byte inOwn
          · rw [← (children_isChild member).message]
            exact ih c (here.children c member) byte inside

end Pointer

end CapnpEs
