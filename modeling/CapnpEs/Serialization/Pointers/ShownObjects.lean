import CapnpEs.Serialization.Pointers.PointerGetters

/-! What a pointer shows: the tree of values under it, wherever its parts lie. -/

namespace CapnpEs

open LittleEndian (read)

inductive Shown
  | null
  | object (type : PointerType) (size : BitVec 32) (tag : Option (Int × ObjectSize)) (numbers : List Nat)
      (pointers : List Shown)

namespace Pointer

variable {w w' : World} {p : Pointer}

def numberAt (p : Pointer) (w : World) (byteOffset : Int) (width : Nat) : Nat :=
  read ((w p.message).memory (p.content w).segment) ((p.content w).byteOffset + byteOffset).toNat width

/-- The data of the object, but for the padding behind it. -/
def numbers (p : Pointer) (w : World) : List Nat :=
  match p.targetType w with
  | .STRUCT => (List.range (p.structSize w).dataByteLength).map fun i => p.numberAt w i 1
  | .LIST =>
      let length := (p.listLength w).toNat
      match p.elementSize w with
      | .BIT => (List.range length).map fun i => p.numberAt w (i / 8 : Nat) 1 / 2 ^ (i % 8) % 2
      | .POINTER => []
      | .COMPOSITE => (List.range length).flatMap fun i => (List.range (p.compositeSize w).dataByteLength).map fun j =>
          p.numberAt w (i * (p.compositeSize w).getByteLength + j : Nat) 1
      | elementSize =>
          let width := (getListElementByteLength elementSize).getD 0
          (List.range length).map fun i => p.numberAt w (i * width : Nat) width
  | _ => []

def shown (w : World) : Nat → Pointer → Shown
  | 0, _ => .null
  | depth + 1, p =>
      if p.isNullWord w then .null
      else .object (p.targetType w) ((p.target w).hi w)
        (if p.isComposite w then some (p.listLength w, p.compositeSize w) else none) (p.numbers w)
        ((p.children w).map (shown w depth))

theorem shown_null (null : p.isNullWord w = true) (depth : Nat) : shown w depth p = .null := by
  cases depth with
  | zero => rfl
  | succ depth => rw [shown, if_pos null]

theorem sameNode_of_memory (memory : (w' p.message).memory = (w p.message).memory) : SameNode p w w' := by
  have words (q : Pointer) (here : q.message = p.message) : q.lo w' = q.lo w ∧ q.hi w' = q.hi w := by
    simp only [lo, hi, here, memory, and_self]
  have pad : p.landingPad w' = p.landingPad w := by
    rw [landingPad, landingPad, (words p rfl).1, (words p rfl).2]
  have target : p.target w' = p.target w := by
    rw [Pointer.target, Pointer.target, (words p rfl).1, pad]
  have targetWords := words (p.target w) target_message
  have tagWords := words (p.objectStart w) objectStart_message
  refine ⟨(words p rfl).1, (words p rfl).2, target, targetWords.1, targetWords.2, ?_, fun _ => tagWords.1, fun _ => tagWords.2⟩
  have padWords := words (p.landingPad w) rfl
  rw [objectStart, objectStart, (words p rfl).1, pad, target, padWords.1, padWords.2, targetWords.1]

theorem compositeSize_of_memory (memory : (w' p.message).memory = (w p.message).memory) :
    p.compositeSize w' = p.compositeSize w := by
  rw [compositeSize, compositeSize, (sameNode_of_memory memory).start]
  simp only [hi, objectStart_message, memory]

theorem numbers_of_memory (memory : (w' p.message).memory = (w p.message).memory) : p.numbers w' = p.numbers w := by
  have same := sameNode_of_memory memory
  have number : p.numberAt w' = p.numberAt w := by
    funext byteOffset width
    rw [numberAt, numberAt, same.content, memory]
  simp only [numbers, same.targetType, same.structSize, same.elementSize, same.listLength, compositeSize_of_memory memory,
    number]

theorem shown_of_memory (depth : Nat) : ∀ {p : Pointer}, (w' p.message).memory = (w p.message).memory →
    shown w' depth p = shown w depth p := by
  induction depth with
  | zero =>
      intro p _
      rfl
  | succ depth ih =>
      intro p memory
      have same := sameNode_of_memory memory
      have children : (p.children w').map (shown w' depth) = (p.children w).map (shown w depth) := by
        rw [same.children]
        apply List.map_congr_left
        intro c member
        apply ih
        rw [(children_isChild member).message]
        exact memory
      rw [shown, shown, same.isNullWord, same.targetType, same.target, same.targetHi, same.isComposite, same.listLength,
        compositeSize_of_memory memory, numbers_of_memory memory, children]

theorem shown_spend (depth message count : Nat) : shown (w.spend message count) depth p = shown w depth p := by
  apply shown_of_memory
  funext segment
  exact World.spend_memory w message count p.message segment

/-! What is the same of two pointers that show the same. -/

section same

variable {q : Pointer} (same : ∀ depth, shown w depth p = shown w depth q)
include same

theorem isNullWord_of_shown : p.isNullWord w = q.isNullWord w := by
  have first := same 1
  rw [shown, shown] at first
  cases left : p.isNullWord w <;> cases right : q.isNullWord w <;> simp_all

variable (notNull : p.isNullWord w = false)
include notNull

theorem node_of_shown : p.targetType w = q.targetType w ∧ (p.target w).hi w = (q.target w).hi w ∧
    p.numbers w = q.numbers w := by
  have first := same 1
  have also := isNullWord_of_shown same
  rw [shown, shown, notNull, ← also, notNull] at first
  simp only [Bool.false_eq_true, if_false] at first
  injection first with type size _ numbers _
  exact ⟨type, size, numbers⟩

omit same notNull in
theorem numbers_bytes (list : p.targetType w = .LIST) (bytes : p.elementSize w = .BYTE) :
    p.numbers w = (List.range (p.listLength w).toNat).map fun i => p.numberAt w (i * 1 : Nat) 1 := by
  rw [numbers, list, bytes]
  rfl

omit same notNull in
theorem numberAt_byte (start : 0 ≤ (p.content w).byteOffset) (i : Nat) : p.numberAt w (i * 1 : Nat) 1 =
    ((w p.message).memory (p.content w).segment ((p.content w).byteOffset.toNat + i)).toNat := by
  rw [numberAt, show ((p.content w).byteOffset + (i * 1 : Nat)).toNat = (p.content w).byteOffset.toNat + i by omega]
  rfl

theorem textAt_of_shown (decode : Bytes → String) (start : 0 ≤ (p.content w).byteOffset)
    (otherStart : 0 ≤ (q.content w).byteOffset) : p.textAt decode w = q.textAt decode w := by
  obtain ⟨type, hi, numbers⟩ := node_of_shown same notNull
  have size : p.elementSize w = q.elementSize w := by
    rw [elementSize, elementSize, hi]
  rw [textAt, textAt, ← type, ← size]
  by_cases list : p.targetType w = .LIST
  · rw [if_neg (not_not.mpr list), if_neg (not_not.mpr list)]
    by_cases bytes : p.elementSize w = .BYTE
    · have composite : p.isComposite w = q.isComposite w := by
        rw [isComposite, isComposite, type, hi]
      have single : p.isComposite w = false := by
        rw [elementSize] at bytes
        simp [isComposite, bytes]
      have length : p.listLength w = q.listLength w := by
        rw [listLength, listLength, ← composite, single, if_neg Bool.false_ne_true, if_neg Bool.false_ne_true, hi]
      rw [numbers_bytes list bytes, numbers_bytes (type ▸ list) (size ▸ bytes), ← length] at numbers
      have content : bytesAt w p.message (p.content w).segment (p.content w).byteOffset.toNat (p.listLength w - 1).toNat =
          bytesAt w q.message (q.content w).segment (q.content w).byteOffset.toNat (p.listLength w - 1).toNat := by
        apply List.map_congr_left
        intro i member
        have bound : i < (p.listLength w).toNat := by
          have less := List.mem_range.mp member
          omega
        have number := List.map_inj_left.mp numbers i (List.mem_range.mpr bound)
        rw [numberAt_byte start, numberAt_byte otherStart] at number
        exact UInt8.toNat_inj.mp number
      rw [if_neg (not_not.mpr bytes), if_neg (not_not.mpr bytes), ← length, content]
    · rw [if_pos bytes, if_pos bytes]
  · rw [if_pos list, if_pos list]

end same

end Pointer

end CapnpEs
