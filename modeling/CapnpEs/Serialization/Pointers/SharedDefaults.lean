import CapnpEs.Serialization.Pointers.CompletedRuns
import CapnpEs.Serialization.Pointers.PointerFields

/-! The default of a field is one pointer for all messages, and every read of the field charges the traversal limit of
the message that holds it. -/

namespace CapnpEs

open Outcome

/-- The fields that have a default pointer, by their getter. -/
inductive DefaultField
  | struct (size : ObjectSize)
  | list (elementSize : ListElementSize) (compositeSize : Option ObjectSize)
  | data
  deriving DecidableEq, Repr

namespace DefaultField

section history

variable (nullMessage copied : Nat)

def get (index : Int) (s : Pointer) (defaultValue : Option Pointer) : DefaultField → WorldM Pointer
  | struct size => getStruct nullMessage copied index size s defaultValue
  | list elementSize compositeSize => getList nullMessage copied index elementSize compositeSize s defaultValue
  | data => getData nullMessage copied index s defaultValue

/-- The state after some reads of the field, in any structs; a read that throws does not stop the rest. -/
def afterReads (field : DefaultField) (defaultValue : Pointer) : List (Pointer × Int) → World → World
  | [], w => w
  | (s, index) :: history, w =>
      afterReads field defaultValue history
        (match field.get nullMessage copied index s (some defaultValue) w with
        | .ok _ after => after
        | .error _ after => after)

/-- The field is null, and without its default the read goes through. -/
def IsNull (field : DefaultField) (index : Int) (s : Pointer) (w : World) : Prop :=
  ∃ p after, field.get nullMessage copied index s none w = .ok p after ∧ Returns p.isNull after (· = true)

def NeverWearsOut (field : DefaultField) (defaultValue : Pointer) (m : Message) : Prop :=
  ∀ (w : World) (history : List (Pointer × Int)) (s : Pointer) (index : Int), w defaultValue.message = m →
    let after := field.afterReads nullMessage copied defaultValue history w
    (after s.message).readonly = true → field.IsNull nullMessage copied index s after →
      ∀ last, field.get nullMessage copied index s (some defaultValue) after ≠ .error .PTR_TRAVERSAL_LIMIT_EXCEEDED last

end history

def nullRoot : Message :=
  { arena := { kind := .SINGLE_SEGMENT, buffers := [] }
    segments := [{ buffer := [0, 0, 0, 0, 0, 0, 0, 0], byteLength := 8 }]
    traversalLimit := DEFAULT_TRAVERSE_LIMIT
    readonly := true
    capTable := none }

def rootOf (message : Nat) : Pointer := { message, segment := 0, byteOffset := 0, depthLimit := DEFAULT_DEPTH_LIMIT }

/-- The read of the default itself: a pointer, and then one of the field's class. -/
def readDefault (defaultValue : Pointer) : WorldM Pointer := do
  let p ← newPointer defaultValue.message defaultValue.segment defaultValue.byteOffset (DEFAULT_DEPTH_LIMIT - 1)
  newPointerAt p

variable {w : World} {defaultValue : Pointer} {message nullMessage copied : Nat} {field : DefaultField}

theorem isNull_zeroWord {q : Pointer} (first : q.segment = 0) (start : q.byteOffset = 0)
    (segments : (w q.message).segments = nullRoot.segments) : q.isNull w = .ok true w := by
  have word : Message.getUint 8 0 0 (w q.message) = .ok 0 (w q.message) := by
    rw [Message.getUint, bind_apply, Message.segment, segments]
    rfl
  rw [Pointer.isNull]
  rw [first, start, segments, if_neg (by decide), Pointer.isWordZero, bind_apply, first, onMessage_reads word]
  rfl

theorem isNull_root (root : w message = nullRoot) : (rootOf message).isNull w = .ok true w :=
  isNull_zeroWord rfl rfl (by rw [rootOf, root])

theorem getSize_root (root : w message = nullRoot) : getSize (rootOf message) w = .ok ⟨0, 0⟩ w := by
  rw [getSize, bind_apply, isNull_root root]
  rfl

theorem checkReadPointerBounds_root (root : w message = nullRoot) :
    checkReadPointerBounds 0 (rootOf message) w = .ok false w := by
  rw [checkReadPointerBounds, bind_apply, getSize_root root]
  simp only
  rw [if_neg (by decide), bind_apply]
  have readOnly : isReadOnly (rootOf message) w = .ok true w := by
    rw [isReadOnly, rootOf, root]
    rfl
  rw [readOnly]
  rfl

/-! Out of bounds, a field is the null pointer. -/

def nullPointer (nullMessage : Nat) : Pointer :=
  { message := nullMessage, segment := 0, byteOffset := 0, depthLimit := DEFAULT_DEPTH_LIMIT - 1 }

theorem newPointer_null (nullMessage : Nat) {w : World} (segments : (w nullMessage).segments = readOnlyNullMessage.segments)
    (budget : 8 < (w nullMessage).traversalLimit) :
    newPointer nullMessage 0 0 (DEFAULT_DEPTH_LIMIT - 1) w =
      .ok (nullPointer nullMessage) (Function.update w nullMessage (w nullMessage).charge) := by
  have bound : 0 < (w nullMessage).segments.length := by
    rw [segments]
    decide
  have upper : (0 : Int) ≤ (w nullMessage).allocated 0 := by
    rw [Message.allocated, segments]
    exact Int.natCast_nonneg 8
  rw [newPointer, bind_apply, onMessage_ok (Message.trackPointer_run (by decide) budget bound (Int.le_refl 0) upper)]
  rfl

theorem getNullPointer_root : getNullPointer nullMessage (rootOf message) w =
    .ok (nullPointer nullMessage) (Function.update w nullMessage readOnlyNullMessage.charge) := by
  rw [getNullPointer, getReadOnlyNullPointer, bind_apply, modify_apply]
  simp only
  have made := newPointer_null nullMessage (w := Function.update w nullMessage readOnlyNullMessage)
    (by rw [Function.update_self]) (by rw [Function.update_self]; decide)
  rw [Function.update_self, Function.update_idem] at made
  exact made

theorem newPointerAt_null : newPointerAt (nullPointer nullMessage)
      (Function.update w nullMessage readOnlyNullMessage.charge) =
    .ok (nullPointer nullMessage) (Function.update w nullMessage readOnlyNullMessage.charge.charge) := by
  have made := newPointer_null nullMessage (w := Function.update w nullMessage readOnlyNullMessage.charge)
    (by rw [Function.update_self]; rfl) (by rw [Function.update_self]; decide)
  rw [Function.update_self, Function.update_idem] at made
  exact made

theorem getReadOnlyPointer_default (copied : Nat) (readonly : (w defaultValue.message).readonly = true) :
    (do newPointerAt (← getReadOnlyPointer copied defaultValue (DEFAULT_DEPTH_LIMIT - 1)) : WorldM Pointer) w =
      readDefault defaultValue w := by
  have isRead : isReadOnly defaultValue w = .ok true w := by
    rw [isReadOnly, readonly]
  rw [readDefault, bind_apply, bind_apply, getReadOnlyPointer, bind_apply, isRead]
  rfl

theorem isNull_nullPointer (segments : (w nullMessage).segments = readOnlyNullMessage.segments) :
    (nullPointer nullMessage).isNull w = .ok true w :=
  isNull_zeroWord rfl rfl segments

theorem isReadOnly_root (root : w message = nullRoot) : isReadOnly (rootOf message) w = .ok true w := by
  rw [isReadOnly, rootOf, root]
  rfl

theorem getPointerAs_root (root : w message = nullRoot) : getPointerAs nullMessage 0 (rootOf message) w =
    .ok (nullPointer nullMessage) (Function.update w nullMessage readOnlyNullMessage.charge.charge) := by
  rw [getPointerAs, bind_apply, checkReadPointerBounds_root root]
  simp only [Bool.false_eq_true, if_false]
  rw [bind_apply, getNullPointer_root]
  exact newPointerAt_null

section root

variable (root : w message = nullRoot) (other : message ≠ nullMessage)
include root other

theorem get_root (field : DefaultField) (copied : Nat) (readonly : (w defaultValue.message).readonly = true) (shared : defaultValue.message ≠ nullMessage) :
    ∃ spent, field.get nullMessage copied 0 (rootOf message) (some defaultValue) w =
      readDefault defaultValue (Function.update w nullMessage spent) := by
  have kept (spent : Message) : (Function.update w nullMessage spent defaultValue.message).readonly = true := by
    rw [Function.update_of_ne shared]
    exact readonly
  cases field with
  | struct size =>
      refine ⟨readOnlyNullMessage.charge.charge, ?_⟩
      rw [← getReadOnlyPointer_default copied (kept _), get, getStruct, bind_apply, getPointerAs_root root]
      simp only
      rw [bind_apply, isReadOnly_root (by rw [Function.update_of_ne other]; exact root)]
      simp only
      rw [bind_apply, isNull_nullPointer (by rw [Function.update_self]; rfl)]
      rfl
  | list elementSize compositeSize =>
      refine ⟨readOnlyNullMessage.charge, ?_⟩
      rw [← getReadOnlyPointer_default copied (kept _), get, getList, bind_apply,
        checkReadPointerBounds_root root]
      simp only [Bool.false_eq_true, if_false]
      rw [bind_apply, getNullPointer_root]
      rfl
  | data =>
      refine ⟨readOnlyNullMessage.charge.charge, ?_⟩
      rw [← getReadOnlyPointer_default copied (kept _), get, getData, bind_apply,
        checkReadPointerBounds_root root]
      simp only [Bool.false_eq_true, if_false]
      rw [bind_apply, bind_apply, getNullPointer_root]
      simp only
      rw [bind_apply, newPointerAt_null]
      rfl

theorem isNull_field : field.IsNull nullMessage copied 0 (rootOf message) w := by
  cases field with
  | struct size =>
      refine ⟨nullPointer nullMessage, _, ?_, true, _, isNull_nullPointer (w := Function.update w nullMessage
        readOnlyNullMessage.charge.charge) (by rw [Function.update_self]; rfl), rfl⟩
      rw [get, getStruct, bind_apply, getPointerAs_root root]
      simp only
      rw [bind_apply, isReadOnly_root (by rw [Function.update_of_ne other]; exact root)]
      simp only
      rw [bind_apply, isNull_nullPointer (by rw [Function.update_self]; rfl)]
      rfl
  | list elementSize compositeSize =>
      refine ⟨nullPointer nullMessage, _, ?_, true, _, isNull_nullPointer (w := Function.update w nullMessage
        readOnlyNullMessage.charge.charge) (by rw [Function.update_self]; rfl), rfl⟩
      rw [get, getList, bind_apply, checkReadPointerBounds_root root]
      simp only [Bool.false_eq_true, if_false]
      rw [bind_apply, getNullPointer_root]
      exact newPointerAt_null
  | data =>
      refine ⟨nullPointer nullMessage, _, ?_, true, _, isNull_nullPointer (w := Function.update w nullMessage
        readOnlyNullMessage.charge.charge) (by rw [Function.update_self]; rfl), rfl⟩
      rw [get, getData, bind_apply, checkReadPointerBounds_root root]
      simp only [Bool.false_eq_true, if_false]
      rw [bind_apply, getNullPointer_root]
      simp only
      rw [bind_apply, newPointerAt_null]
      rfl

end root

/-! Each read costs the default's message eight bytes of its limit, or sixteen. -/

theorem trackPointer_charges (m : Message) (id : Nat) (byteOffset : Int) {depthLimit : Int} (depth : 1 ≤ depthLimit) :
    Meets (Message.trackPointer id byteOffset depthLimit) m (fun _ after => after = m.charge)
      fun _ after => after = m.charge := by
  unfold Message.trackPointer
  rw [if_neg (by omega)]
  apply Meets.bind
  change Meets _ m.charge _ _
  apply Meets.get
  split
  · rfl
  · apply Meets.bind
    apply (Message.segment_meets id m.charge).mono
    · rintro s after ⟨rfl, _⟩
      split <;> rfl
    · intro _ after same
      exact same

theorem newPointer_charges {id : Nat} {byteOffset depthLimit : Int} (depth : 1 ≤ depthLimit) :
    Meets (newPointer message id byteOffset depthLimit) w
      (fun p after => p = { message, segment := id, byteOffset, depthLimit } ∧
        after = Function.update w message (w message).charge)
      fun _ after => after = Function.update w message (w message).charge := by
  apply Meets.bind
  have charged := trackPointer_charges (w message) id byteOffset depth
  unfold Meets at charged ⊢
  rw [onMessage]
  cases run : Message.trackPointer id byteOffset depthLimit (w message) with
  | ok value m =>
      rw [run] at charged
      subst charged
      exact ⟨rfl, rfl⟩
  | error reason m =>
      rw [run] at charged
      subst charged
      rfl

/-- `w'` is `w` after so many reads of the default. -/
structure Spent (message defaultMessage reads : Nat) (w w' : World) : Prop where
  root : w' message = w message
  readonly : (w' defaultMessage).readonly = (w defaultMessage).readonly
  limit : (w' defaultMessage).traversalLimit ≤ (w defaultMessage).traversalLimit - 8 * reads

theorem Spent.trans {defaultMessage first second : Nat} {w' w'' : World} (sooner : Spent message defaultMessage first w w')
    (later : Spent message defaultMessage second w' w'') : Spent message defaultMessage (first + second) w w'' := by
  refine ⟨later.root.trans sooner.root, later.readonly.trans sooner.readonly, ?_⟩
  have before := sooner.limit
  have after := later.limit
  push_cast
  omega

theorem Spent.charge {defaultMessage : Nat} (apart : message ≠ defaultMessage) (w : World) :
    Spent message defaultMessage 1 w (Function.update w defaultMessage (w defaultMessage).charge) := by
  refine ⟨Function.update_of_ne apart _ _, ?_, ?_⟩
  · rw [Function.update_self]
    rfl
  · rw [Function.update_self, Message.charge_traversalLimit]
    omega

theorem Spent.fewer {defaultMessage reads fewer : Nat} {w' : World} (spent : Spent message defaultMessage reads w w')
    (le : fewer ≤ reads) : Spent message defaultMessage fewer w w' :=
  ⟨spent.root, spent.readonly, by have limit := spent.limit; omega⟩

theorem readDefault_spends (apart : message ≠ defaultValue.message) (w : World) :
    Meets (readDefault defaultValue) w (fun _ after => Spent message defaultValue.message 1 w after)
      fun _ after => Spent message defaultValue.message 1 w after := by
  apply Meets.bind
  apply (newPointer_charges (by decide)).mono
  · rintro p middle ⟨rfl, rfl⟩
    have sooner := Spent.charge apart w
    apply (newPointer_charges (show (1 : Int) ≤ DEFAULT_DEPTH_LIMIT - 1 by decide)).mono
    · rintro _ after ⟨_, rfl⟩
      exact (sooner.trans (Spent.charge apart _)).fewer (by omega)
    · rintro _ after rfl
      exact (sooner.trans (Spent.charge apart _)).fewer (by omega)
  · rintro _ after rfl
    exact Spent.charge apart w

section history

variable (other : message ≠ nullMessage) (shared : defaultValue.message ≠ nullMessage)
  (apart : message ≠ defaultValue.message)
include other shared apart

theorem get_spends (field : DefaultField) (copied : Nat) (root : w message = nullRoot) (readonly : (w defaultValue.message).readonly = true) :
    Meets (field.get nullMessage copied 0 (rootOf message) (some defaultValue)) w
      (fun _ after => Spent message defaultValue.message 1 w after)
      fun _ after => Spent message defaultValue.message 1 w after := by
  obtain ⟨spent, run⟩ := get_root root other field copied readonly shared
  have none : Spent message defaultValue.message 0 w (Function.update w nullMessage spent) := by
    refine ⟨Function.update_of_ne other _ _, ?_, ?_⟩
    · rw [Function.update_of_ne shared]
    · rw [Function.update_of_ne shared]
      omega
  have reads := readDefault_spends apart (Function.update w nullMessage spent)
  unfold Meets at reads ⊢
  rw [run]
  split
  · rename_i ended
    rw [ended] at reads
    exact (none.trans reads).fewer (by omega)
  · rename_i ended
    rw [ended] at reads
    exact (none.trans reads).fewer (by omega)

theorem afterReads_spends (field : DefaultField) (copied reads : Nat) (root : w message = nullRoot)
    (readonly : (w defaultValue.message).readonly = true) :
    Spent message defaultValue.message reads w
      (field.afterReads nullMessage copied defaultValue (List.replicate reads (rootOf message, 0)) w) := by
  induction reads generalizing w with
  | zero =>
      refine ⟨rfl, rfl, ?_⟩
      change (w defaultValue.message).traversalLimit ≤ _
      omega
  | succ reads ih =>
      rw [List.replicate_succ]
      simp only [afterReads]
      have once := get_spends other shared apart field copied root readonly
      unfold Meets at once
      generalize field.get nullMessage copied 0 (rootOf message) (some defaultValue) w = ended at once
      cases ended with
      | ok _ after =>
          have rest := ih (once.root.trans root) (once.readonly.trans readonly)
          exact (once.trans rest).fewer (by omega)
      | error _ after =>
          have rest := ih (once.root.trans root) (once.readonly.trans readonly)
          exact (once.trans rest).fewer (by omega)

omit apart in
theorem get_exhausted (field : DefaultField) (copied : Nat) (root : w message = nullRoot) (readonly : (w defaultValue.message).readonly = true)
    (exhausted : (w defaultValue.message).traversalLimit ≤ 8) :
    ∃ last, field.get nullMessage copied 0 (rootOf message) (some defaultValue) w =
      .error .PTR_TRAVERSAL_LIMIT_EXCEEDED last := by
  obtain ⟨spent, run⟩ := get_root root other field copied readonly shared
  have same : Function.update w nullMessage spent defaultValue.message = w defaultValue.message :=
    Function.update_of_ne shared _ _
  rw [run, readDefault, bind_apply, newPointer, bind_apply, onMessage, same,
    Message.trackPointer_exhausted (by decide) exhausted]
  exact ⟨_, rfl⟩

theorem exhausted_by_reads (field : DefaultField) (copied : Nat) (root : w message = nullRoot) (readonly : (w defaultValue.message).readonly = true) :
    let after := field.afterReads nullMessage copied defaultValue
      (List.replicate (w defaultValue.message).traversalLimit.toNat (rootOf message, 0)) w
    after message = nullRoot ∧ field.IsNull nullMessage copied 0 (rootOf message) after ∧
      ∃ last, field.get nullMessage copied 0 (rootOf message) (some defaultValue) after =
        .error .PTR_TRAVERSAL_LIMIT_EXCEEDED last := by
  have spent := afterReads_spends other shared apart field copied
    (w defaultValue.message).traversalLimit.toNat root readonly
  have still := spent.root.trans root
  have limit := spent.limit
  exact ⟨still, isNull_field still other,
    get_exhausted other shared field copied still (spent.readonly.trans readonly) (by omega)⟩

end history

/-- Whatever the default, reads of it wear it out. -/
theorem default_wears_out (field : DefaultField) (nullMessage copied : Nat) (defaultValue : Pointer) (m : Message)
    (readonly : m.readonly = true) (shared : defaultValue.message ≠ nullMessage) :
    ¬ field.NeverWearsOut nullMessage copied defaultValue m := by
  intro never
  -- A message that is neither the default's nor the null message.
  let message := defaultValue.message + nullMessage + 1
  have other : message ≠ nullMessage := by omega
  have apart : message ≠ defaultValue.message := by omega
  let w : World := Function.update (fun _ => nullRoot) defaultValue.message m
  have here : w defaultValue.message = m := Function.update_self _ _ _
  have root : w message = nullRoot := Function.update_of_ne apart _ _
  obtain ⟨still, null, last, failed⟩ :=
    exhausted_by_reads other shared apart field copied root (by rw [here]; exact readonly)
  refine never w _ (rootOf message) 0 here ?_ null last failed
  change (field.afterReads nullMessage copied defaultValue _ w message).readonly = true
  rw [still]
  rfl

/-- The empty list that `readRawPointer` makes of a framed message of one segment. -/
def emptyListDefault : Message :=
  { nullRoot with
    segments := [{ buffer := [1, 0, 0, 0, 2, 0, 0, 0], byteLength := 8 }]
    traversalLimit := DEFAULT_TRAVERSE_LIMIT - 8 }

theorem default_wears_out_emptyList :
    ¬ (DefaultField.list .BYTE none).NeverWearsOut 0 1 (rootOf 2) emptyListDefault :=
  default_wears_out (.list .BYTE none) 0 1 (rootOf 2) emptyListDefault rfl (by decide)

/-- Eight million reads of one null field use up the default, and no limit of the message that is read. -/
theorem emptyListDefault_exhausted :
    ∃ (w : World) (history : List (Pointer × Int)), w 2 = emptyListDefault ∧
      let after := (DefaultField.list .BYTE none).afterReads 0 1 (rootOf 2) history w
      after 3 = nullRoot ∧ (DefaultField.list .BYTE none).IsNull 0 1 0 (rootOf 3) after ∧
        ∃ last, (DefaultField.list .BYTE none).get 0 1 0 (rootOf 3) (some (rootOf 2)) after =
          .error .PTR_TRAVERSAL_LIMIT_EXCEEDED last := by
  let w : World := Function.update (fun _ => nullRoot) 2 emptyListDefault
  have root : w 3 = nullRoot := Function.update_of_ne (by decide) _ _
  have here : w 2 = emptyListDefault := Function.update_self _ _ _
  have readonly : (w (rootOf 2).message).readonly = true := by
    change (w 2).readonly = true
    rw [here]
    rfl
  have apart : 3 ≠ (rootOf 2).message := by decide
  have shared : (rootOf 2).message ≠ 0 := by decide
  exact ⟨w, _, here, exhausted_by_reads (by decide) shared apart (.list .BYTE none) 1 root readonly⟩

end DefaultField

end CapnpEs
