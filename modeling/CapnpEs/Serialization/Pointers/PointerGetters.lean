import CapnpEs.Serialization.Pointers.ReadableStructs

/-! The getters of pointers in a received message: what is in its place, or a null pointer and the default. -/

namespace CapnpEs

namespace Pointer

variable {w : World} {s : Pointer}

/-! The checks of what a pointer leads to. -/

section checks

variable {p : Pointer} (wf : (w p.message).WellFormed) (follows : p.Follows w) (notNull : p.isNullWord w = false)
  (budget : 8 < (w p.message).traversalLimit)
include wf follows notNull budget

theorem validate_run (pointerType : PointerType) : ∃ count ≤ 1, p.validate pointerType w =
    if p.targetType w = pointerType then .ok () (w.spend p.message count)
    else .error .PTR_WRONG_POINTER_TYPE (w.spend p.message count) := by
  obtain ⟨count, le, run⟩ := followFars_reads wf follows budget
  have type := getPointerType_run (target_wellFormed wf count) (follows.target.spend p.message count)
  rw [lo_spend] at type
  refine ⟨count, le, ?_⟩
  rw [validate, Outcome.bind_apply, isNull_run wf follows.inBounds, notNull]
  simp only [Bool.false_eq_true, if_false]
  rw [Outcome.bind_apply, run]
  simp only
  rw [Outcome.bind_apply, type, targetType]
  simp only
  by_cases same : PointerType.ofBits ((p.target w).lo w) = pointerType
  · rw [if_pos same, if_neg (not_not.mpr same)]
    rfl
  · rw [if_neg same, if_pos same]
    rfl

theorem validateList_run (elementSize : ListElementSize) : ∃ count ≤ 1, p.validateList elementSize w =
    if p.targetType w ≠ .LIST then .error .PTR_WRONG_POINTER_TYPE (w.spend p.message count)
    else if p.elementSize w ≠ elementSize then .error .PTR_WRONG_LIST_TYPE (w.spend p.message count)
    else .ok () (w.spend p.message count) := by
  obtain ⟨count, le, run⟩ := followFars_reads wf follows budget
  have type := getPointerType_run (target_wellFormed wf count) (follows.target.spend p.message count)
  have size := getListElementSize_run (target_wellFormed wf count) (follows.target.spend p.message count)
  rw [lo_spend] at type
  rw [hi_spend] at size
  refine ⟨count, le, ?_⟩
  rw [validateList, Outcome.bind_apply, isNull_run wf follows.inBounds, notNull]
  simp only [Bool.false_eq_true, if_false]
  rw [Outcome.bind_apply, run]
  simp only
  rw [Outcome.bind_apply, type, targetType]
  simp only
  by_cases list : PointerType.ofBits ((p.target w).lo w) = .LIST
  · rw [if_neg (not_not.mpr list), if_neg (not_not.mpr list), Outcome.bind_apply, size, Pointer.elementSize]
    simp only
    by_cases same : ListElementSize.ofBits ((p.target w).hi w) = elementSize
    · rw [if_neg (not_not.mpr same), if_neg (not_not.mpr same)]
      rfl
    · rw [if_pos same, if_pos same]
      rfl
  · rw [if_pos list, if_pos list]
    rfl

end checks

/-! The pointers. -/

def defaultOr (copied : Nat) (defaultValue : Option Pointer) (l : Pointer) : WorldM Pointer := do
  match defaultValue with
  | some defaultValue => newPointerAt (← getReadOnlyPointer copied defaultValue l.depthLimit)
  | none => return l

/-- `w'` is `w` after some reads of `s`; the null message is made on the way. -/
def ReadsOnly (nullMessage : Nat) (s : Pointer) (w w' : World) : Prop :=
  ∃ count ≤ 16, ∀ message ≠ nullMessage, w' message = w.spend s.message count message

/-- A null pointer that stands for a field of `s`: the one in its place, or the null message's. -/
structure NullField (nullMessage : Nat) (s l : Pointer) (w w' : World) : Prop where
  null : l.isNullWord w' = true
  isNull : l.isNull w' = .ok true w'
  depth : l.depthLimit = s.depthLimit - 1
  readonly : (w' s.message).readonly = true
  reads : ReadsOnly nullMessage s w w'
  again : ∃ after, newPointerAt l w' = .ok l after ∧ l.isNull after = .ok true after ∧
    (after s.message).readonly = true

/-- The pointer to the null message that a field beyond the pointer section is. -/
def nullField (nullMessage : Nat) (s : Pointer) : Pointer :=
  { message := nullMessage, segment := 0, byteOffset := 0, depthLimit := s.depthLimit - 1 }

theorem newPointer_null {nullMessage : Nat} {depthLimit : Int} (depth : 1 ≤ depthLimit)
    (segments : (w nullMessage).segments = readOnlyNullMessage.segments) (budget : 8 < (w nullMessage).traversalLimit) :
    newPointer nullMessage 0 0 depthLimit w =
      .ok { message := nullMessage, segment := 0, byteOffset := 0, depthLimit }
        (Function.update w nullMessage (w nullMessage).charge) := by
  have bound : 0 < (w nullMessage).segments.length := by
    rw [segments]
    decide
  have upper : (0 : Int) ≤ (w nullMessage).allocated 0 := by
    rw [Message.allocated, segments]
    exact Int.natCast_nonneg 8
  rw [newPointer, Outcome.bind_apply, onMessage_ok (Message.trackPointer_run depth budget bound (Int.le_refl 0) upper)]
  rfl

section pointers

variable {nullMessage copied : Nat} {index : Int}

theorem getNullPointer_run (depth : 2 ≤ s.depthLimit) : getNullPointer nullMessage s w =
    .ok (nullField nullMessage s) (Function.update w nullMessage readOnlyNullMessage.charge) := by
  rw [getNullPointer, getReadOnlyNullPointer, Outcome.bind_apply, Outcome.modify_apply]
  simp only
  have made := newPointer_null (w := Function.update w nullMessage readOnlyNullMessage) (by omega : 1 ≤ s.depthLimit - 1)
    (by rw [Function.update_self]) (by rw [Function.update_self]; decide)
  rw [Function.update_self, Function.update_idem] at made
  exact made

theorem newPointerAt_nullField (depth : 2 ≤ s.depthLimit) : newPointerAt (nullField nullMessage s)
      (Function.update w nullMessage readOnlyNullMessage.charge) =
    .ok (nullField nullMessage s) (Function.update w nullMessage readOnlyNullMessage.charge.charge) := by
  have made := newPointer_null (w := Function.update w nullMessage readOnlyNullMessage.charge)
    (by omega : 1 ≤ s.depthLimit - 1) (by rw [Function.update_self]; rfl) (by rw [Function.update_self]; decide)
  rw [Function.update_self, Function.update_idem] at made
  exact made

variable (readable : s.Readable w)
include readable

theorem Readable.slot_inBounds (lower : 0 ≤ index) (inside : index < (s.readSize w).pointerLength) :
    (s.slot index w).InBounds w := by
  have notNull := notNull_of_pointer lower inside
  have start := (readable.holds notNull).dataSection_nonneg
  have room := readable.pointers notNull
  rw [readSize_of_notNull notNull] at inside
  simp only [ObjectSize.getByteLength] at room
  push_cast at room
  constructor
  · simp only [slot]
    omega
  · simp only [slot]
    omega

omit readable in
theorem readOnlyNullMessage_wellFormed : readOnlyNullMessage.WellFormed := by
  constructor <;> decide

theorem update_readonly {m : Message} (count : Nat) (readonly : m.readonly = true) :
    (Function.update (w.spend s.message count) nullMessage m s.message).readonly = true := by
  by_cases here : s.message = nullMessage
  · rw [here, Function.update_self]
    exact readonly
  · rw [Function.update_of_ne here, World.spend, Function.update_self]
    exact readable.readonly

omit readable in
theorem isNull_nullField (s : Pointer) (nullMessage : Nat) (w' : World) (wf : (w' nullMessage).WellFormed)
    (segments : (w' nullMessage).segments = readOnlyNullMessage.segments) :
    (nullField nullMessage s).isNullWord w' = true ∧ (nullField nullMessage s).isNull w' = .ok true w' := by
  have null : (nullField nullMessage s).isNullWord w' = true := by
    simp only [isNullWord, lo, hi, nullField, Message.memory, segments]
    decide
  have inBounds : (nullField nullMessage s).InBounds w' := by
    refine ⟨Int.le_refl 0, ?_⟩
    simp only [nullField, Message.allocated, segments]
    decide
  refine ⟨null, ?_⟩
  rw [← null]
  exact isNull_run wf inBounds

theorem nullField_null {m : Message} {count : Nat} (depth : 2 ≤ s.depthLimit) (le : count ≤ 16) (wf : m.WellFormed)
    (segments : m.segments = readOnlyNullMessage.segments) (readonly : m.readonly = true) (limit : 8 < m.traversalLimit) :
    NullField nullMessage s (nullField nullMessage s) w (Function.update (w.spend s.message count) nullMessage m) := by
  obtain ⟨null, isNull⟩ := isNull_nullField s nullMessage (Function.update (w.spend s.message count) nullMessage m)
    (by rw [Function.update_self]; exact wf)
    (by rw [Function.update_self]; exact segments)
  refine ⟨null, isNull, rfl, update_readonly readable count readonly, ⟨count, le, ?_⟩,
    Function.update (w.spend s.message count) nullMessage m.charge, ?_, ?_, update_readonly readable count readonly⟩
  · intro message other
    exact Function.update_of_ne other _ _
  · have made := newPointer_null (w := Function.update (w.spend s.message count) nullMessage m)
      (by omega : 1 ≤ s.depthLimit - 1) (by rw [Function.update_self]; exact segments)
      (by rw [Function.update_self]; exact limit)
    rw [Function.update_self, Function.update_idem] at made
    exact made
  · exact (isNull_nullField s nullMessage _ (by rw [Function.update_self]; exact wf.charge) (by rw [Function.update_self]; exact segments)).2

variable (budget : 256 < (w s.message).traversalLimit) (depth : 2 ≤ s.depthLimit)
include budget depth

theorem newPointerAt_slot (lower : 0 ≤ index) (inside : index < (s.readSize w).pointerLength) {count : Nat} (le : count ≤ 16) :
    Reads (newPointerAt (s.slot index w)) s.message 1 (w.spend s.message count) (s.slot index w) := by
  have place := readable.slot_inBounds lower inside
  have upper : (s.slot index w).byteOffset + 8 ≤ (w s.message).allocated (s.slot index w).segment := place.upper
  have below : 1 ≤ s.depthLimit - 1 := by omega
  have left : 8 < (w.spend s.message count s.message).traversalLimit := by
    rw [World.spend_traversalLimit]
    omega
  have room : (s.slot index w).byteOffset ≤ (w s.message).allocated (s.slot index w).segment := by omega
  exact newPointer_reads below left (by rw [World.spend_segments]; exact place.bound) place.lower
    (by rw [World.spend_allocated]; exact room)

theorem slot_null {count : Nat} (le : count ≤ 16) (lower : 0 ≤ index) (inside : index < (s.readSize w).pointerLength)
    (null : (s.slot index w).isNullWord w = true) :
    NullField nullMessage s (s.slot index w) w (w.spend s.message count) := by
  have still (count : Nat) : (s.slot index w).isNullWord (w.spend s.message count) = true := by
    rw [isNullWord_spend]
    exact null
  have isNull (count : Nat) : (s.slot index w).isNull (w.spend s.message count) = .ok true (w.spend s.message count) := by
    rw [← still count]
    exact isNull_run (readable.wellFormed.spend s.message count) ((readable.slot_inBounds lower inside).spend s.message count)
  have readonly (count : Nat) : (w.spend s.message count s.message).readonly = true := by
    rw [World.spend, Function.update_self]
    exact readable.readonly
  obtain ⟨more, _, made⟩ := newPointerAt_slot readable budget depth lower inside le
  rw [World.spend_spend] at made
  exact ⟨still count, isNull count, rfl, readonly count, ⟨count, le, fun message _ => rfl⟩, _, made, isNull _, readonly _⟩

theorem newFieldPointer_readable (lower : 0 ≤ index) (inside : index < (s.readSize w).pointerLength) (count : Nat)
    (le : count ≤ 4) :
    Reads (newFieldPointer index s) s.message 9 (w.spend s.message count) (s.slot index w) := by
  have notNull := notNull_of_pointer lower inside
  have struct := readable.holds notNull
  have size : padToWord (s.size w).dataByteLength = (s.size w).dataByteLength := by
    simp only [Pointer.size, PointerWord.structSize]
    exact padToWord_aligned (by omega) (by omega) (by omega)
  have section_ (count : Nat) (le : count ≤ 4) : Reads (getPointerSection s) s.message 8 (w.spend s.message count)
      { s.dataSection w with byteOffset := (s.dataSection w).byteOffset + (s.size w).dataByteLength } := by
    refine Reads.bind (k := 4) (r := 4) (v := s.dataSection w) ?_ ?_
    · rw [← dataSection_spend s.message count]
      exact getDataSection_reads (readable.wellFormed.spend s.message count) (struct.spend s.message count)
        (by rw [World.spend_traversalLimit]; omega)
    · intro more _
      refine Reads.bind (k := 4) (r := 0) (v := s.size w) ?_ ?_
      · rw [World.spend_spend, ← size_spend s.message (count + more)]
        exact getSize_reads (readable.wellFormed.spend s.message _) (struct.spend s.message _)
          (by rw [World.spend_traversalLimit]; omega)
      · intro rest _
        rw [size]
        exact Reads.pure _
  refine Reads.bind (k := 8) (r := 1) (section_ count le) ?_
  intro more bound
  have made := newPointerAt_slot readable budget depth lower inside (by omega : count + more ≤ 16)
  simp only [dataSection_message]
  rw [World.spend_spend]
  exact made

theorem getter_slot {α : Type} (nullMessage : Nat) (next otherwise : Pointer → WorldM α) (lower : 0 ≤ index)
    (inside : index < (s.readSize w).pointerLength) :
    ∃ count ≤ 13, (do
      if ← checkReadPointerBounds index s then
        let l ← newFieldPointer index s
        next l
      else
        let p ← getNullPointer nullMessage s
        otherwise p : WorldM α) w = next (s.slot index w) (w.spend s.message count) := by
  obtain ⟨count, le, checked⟩ := checkReadPointerBounds_readable readable (by omega) lower
  obtain ⟨more, bound, made⟩ := newFieldPointer_readable readable budget depth lower inside count le
  refine ⟨count + more, by omega, ?_⟩
  rw [Outcome.bind_apply, checked]
  simp only [decide_eq_true inside, if_true]
  rw [Outcome.bind_apply, made, World.spend_spend]

theorem getter_null {α : Type} (nullMessage : Nat) (next otherwise : Pointer → WorldM α) (lower : 0 ≤ index)
    (beyond : ¬ index < (s.readSize w).pointerLength) :
    ∃ count ≤ 4, (do
      if ← checkReadPointerBounds index s then
        let l ← newFieldPointer index s
        next l
      else
        let p ← getNullPointer nullMessage s
        otherwise p : WorldM α) w =
      otherwise (nullField nullMessage s) (Function.update (w.spend s.message count) nullMessage readOnlyNullMessage.charge) := by
  obtain ⟨count, le, checked⟩ := checkReadPointerBounds_readable readable (by omega) lower
  refine ⟨count, le, ?_⟩
  rw [Outcome.bind_apply, checked]
  simp only [decide_eq_false beyond, Bool.false_eq_true, if_false]
  rw [Outcome.bind_apply, getNullPointer_run depth]

/-- The field is null: it is beyond the pointer section, or its word is zero. -/
def IsNullField (s : Pointer) (index : Int) (w : World) : Prop :=
  index < (s.readSize w).pointerLength → (s.slot index w).isNullWord w = true

end pointers

/-! The getters of pointers. -/

theorem isReadOnly_run {w' : World} (readonly : (w' s.message).readonly = true) : isReadOnly s w' = .ok true w' := by
  rw [isReadOnly, readonly]

def FallsBack (nullMessage copied : Nat) (defaultValue : Option Pointer) (program : WorldM Pointer) (s : Pointer)
    (w : World) : Prop :=
  ∃ l w', program w = defaultOr copied defaultValue l w' ∧ NullField nullMessage s l w w'

def GivesSlot (program : WorldM Pointer) (s : Pointer) (index : Int) (w : World) : Prop :=
  ∃ count, program w = .ok (s.slot index w) (w.spend s.message count)

section getters

variable {nullMessage copied : Nat} {index : Int} {defaultValue : Option Pointer}
variable (readable : s.Readable w) (budget : 256 < (w s.message).traversalLimit) (depth : 2 ≤ s.depthLimit)
variable (lower : 0 ≤ index)
include readable budget depth lower

theorem getter_fallsBack {next otherwise : Pointer → WorldM Pointer} (null : s.IsNullField index w)
    (nextNull : ∀ l w', NullField nullMessage s l w w' → next l w' = defaultOr copied defaultValue l w')
    (otherwiseNull : ∀ count ≤ 4, ∃ w', otherwise (nullField nullMessage s)
      (Function.update (w.spend s.message count) nullMessage readOnlyNullMessage.charge) =
        defaultOr copied defaultValue (nullField nullMessage s) w' ∧ NullField nullMessage s (nullField nullMessage s) w w') :
    FallsBack nullMessage copied defaultValue (do
      if ← checkReadPointerBounds index s then
        let l ← newFieldPointer index s
        next l
      else
        let p ← getNullPointer nullMessage s
        otherwise p) s w := by
  by_cases inside : index < (s.readSize w).pointerLength
  · obtain ⟨count, le, run⟩ := getter_slot readable budget depth nullMessage next otherwise lower inside
    have field : NullField nullMessage s (s.slot index w) w (w.spend s.message count) :=
      slot_null readable budget depth (by omega) lower inside (null inside)
    exact ⟨_, _, run.trans (nextNull _ _ field), field⟩
  · obtain ⟨count, le, run⟩ := getter_null readable budget depth nullMessage next otherwise lower inside
    obtain ⟨w', ends, field⟩ := otherwiseNull count le
    exact ⟨_, w', run.trans ends, field⟩

omit readable budget depth lower in
theorem getPointer_eq : getPointer nullMessage index s = (do
    if ← checkReadPointerBounds index s then
      newFieldPointer index s >>= pure
    else
      getNullPointer nullMessage s >>= pure) := by
  simp only [getPointer, bind_pure]

omit readable budget depth lower in
theorem getPointerAs_eq : getPointerAs nullMessage index s = (do
    if ← checkReadPointerBounds index s then
      newFieldPointer index s >>= pure
    else
      getNullPointer nullMessage s >>= newPointerAt) := by
  simp only [getPointerAs, bind_pure]

theorem getPointer_fallsBack (nullMessage copied : Nat) (null : s.IsNullField index w) :
    FallsBack nullMessage copied none (getPointer nullMessage index s) s w := by
  rw [getPointer_eq]
  apply getter_fallsBack readable budget depth lower null
  · intro l w' _
    rfl
  · intro count le
    exact ⟨_, rfl, nullField_null readable depth (by omega) readOnlyNullMessage_wellFormed.charge rfl rfl (by decide)⟩

theorem getPointerAs_fallsBack (nullMessage copied : Nat) (null : s.IsNullField index w) :
    FallsBack nullMessage copied none (getPointerAs nullMessage index s) s w := by
  rw [getPointerAs_eq]
  apply getter_fallsBack readable budget depth lower null
  · intro l w' _
    rfl
  · intro count le
    exact ⟨_, newPointerAt_nullField depth,
      nullField_null readable depth (by omega) readOnlyNullMessage_wellFormed.charge.charge rfl rfl (by decide)⟩

theorem getStruct_fallsBack (size : ObjectSize) (null : s.IsNullField index w) :
    FallsBack nullMessage copied defaultValue (getStruct nullMessage copied index size s defaultValue) s w := by
  obtain ⟨l, w', run, field⟩ := getPointerAs_fallsBack readable budget depth lower nullMessage copied null
  refine ⟨l, w', ?_, field⟩
  rw [getStruct, Outcome.bind_apply, run]
  change (isReadOnly s >>= _) w' = _
  rw [Outcome.bind_apply, isReadOnly_run field.readonly]
  simp only
  rw [Outcome.bind_apply, field.isNull]
  cases defaultValue <;> rfl

omit readable budget depth lower in
theorem fillNullList_null {l : Pointer} {w' : World} (elementSize : ListElementSize) (compositeSize : Option ObjectSize)
    (field : NullField nullMessage s l w w') :
    fillNullList copied elementSize compositeSize s l defaultValue w' = defaultOr copied defaultValue l w' := by
  rw [fillNullList, Outcome.bind_apply, isReadOnly_run field.readonly]
  cases defaultValue <;> rfl

theorem getList_fallsBack (elementSize : ListElementSize) (compositeSize : Option ObjectSize) (null : s.IsNullField index w) :
    FallsBack nullMessage copied defaultValue (getList nullMessage copied index elementSize compositeSize s defaultValue)
      s w := by
  unfold getList
  apply getter_fallsBack readable budget depth lower null
  · intro l w' field
    rw [Outcome.bind_apply, field.isNull]
    exact fillNullList_null elementSize compositeSize field
  · intro count le
    cases defaultValue with
    | some d => exact ⟨_, rfl, nullField_null readable depth (by omega) readOnlyNullMessage_wellFormed.charge rfl rfl (by decide)⟩
    | none =>
        exact ⟨_, newPointerAt_nullField depth,
          nullField_null readable depth (by omega) readOnlyNullMessage_wellFormed.charge.charge rfl rfl (by decide)⟩

theorem getData_fallsBack (null : s.IsNullField index w) :
    FallsBack nullMessage copied defaultValue (getData nullMessage copied index s defaultValue) s w := by
  have shape : getData nullMessage copied index s defaultValue = (do
      if ← checkReadPointerBounds index s then
        let l ← newFieldPointer index s
        if ← l.isNull then
          fillNullList copied .BYTE none s l defaultValue
        else
          return l
      else
        let p ← getNullPointer nullMessage s
        newPointerAt p >>= defaultOr copied defaultValue) := by
    rw [getData]
    cases defaultValue <;> rfl
  rw [shape]
  apply getter_fallsBack readable budget depth lower null
  · intro l w' field
    rw [Outcome.bind_apply, field.isNull]
    exact fillNullList_null .BYTE none field
  · intro count le
    refine ⟨Function.update (w.spend s.message count) nullMessage readOnlyNullMessage.charge.charge, ?_,
      nullField_null readable depth (by omega) readOnlyNullMessage_wellFormed.charge.charge rfl rfl (by decide)⟩
    rw [Outcome.bind_apply, newPointerAt_nullField depth]

/-! What is in its place is not null. -/

variable (inside : index < (s.readSize w).pointerLength)
include inside

theorem getPointerAs_givesSlot : GivesSlot (getPointerAs nullMessage index s) s index w := by
  obtain ⟨count, le, run⟩ := getter_slot readable budget depth nullMessage pure newPointerAt lower inside
  rw [getPointerAs_eq]
  exact ⟨count, run⟩

theorem getPointer_givesSlot : GivesSlot (getPointer nullMessage index s) s index w := by
  obtain ⟨count, le, run⟩ := getter_slot readable budget depth nullMessage pure pure lower inside
  rw [getPointer_eq]
  exact ⟨count, run⟩

variable (notNull : (s.slot index w).isNullWord w = false)
include notNull

omit budget depth in
theorem slot_isNull (count : Nat) :
    (s.slot index w).isNull (w.spend s.message count) = .ok false (w.spend s.message count) := by
  rw [← notNull, ← isNullWord_spend s.message count]
  exact isNull_run (readable.wellFormed.spend s.message count) ((readable.slot_inBounds lower inside).spend s.message count)

theorem getList_givesSlot (elementSize : ListElementSize) (compositeSize : Option ObjectSize) :
    GivesSlot (getList nullMessage copied index elementSize compositeSize s defaultValue) s index w := by
  unfold getList
  cases compositeSize with
  | none =>
      obtain ⟨count, le, run⟩ := getter_slot readable budget depth nullMessage (fun l => do
          if ← l.isNull then
            fillNullList copied elementSize none s l defaultValue
          else
            return l) _ lower inside
      refine ⟨count, run.trans ?_⟩
      rw [Outcome.bind_apply, slot_isNull readable lower inside notNull]
      rfl
  | some dstSize =>
      obtain ⟨count, le, run⟩ := getter_slot readable budget depth nullMessage (fun l => do
          if ← l.isNull then
            fillNullList copied elementSize (some dstSize) s l defaultValue
          else do
            (if ← isReadOnly s then pure () else growList elementSize dstSize l)
            return l) _ lower inside
      refine ⟨count, run.trans ?_⟩
      rw [Outcome.bind_apply, slot_isNull readable lower inside notNull]
      change (isReadOnly s >>= _) (w.spend s.message count) = _
      obtain ⟨none, le, readonly⟩ := isReadOnly_readable readable count
      rw [Nat.le_zero.mp le, World.spend_zero] at readonly
      rw [Outcome.bind_apply, readonly]
      rfl

theorem getData_givesSlot : GivesSlot (getData nullMessage copied index s defaultValue) s index w := by
  unfold getData
  obtain ⟨count, le, run⟩ := getter_slot readable budget depth nullMessage (fun l => do
      if ← l.isNull then
        fillNullList copied .BYTE none s l defaultValue
      else
        return l) _ lower inside
  refine ⟨count, run.trans ?_⟩
  rw [Outcome.bind_apply, slot_isNull readable lower inside notNull]
  rfl

theorem getStruct_stored (nullMessage copied : Nat) (size : ObjectSize) (defaultValue : Option Pointer) : ∃ count, getStruct nullMessage copied index size s defaultValue w =
    if (s.slot index w).targetType w = .STRUCT then .ok (s.slot index w) (w.spend s.message count)
    else .error .PTR_WRONG_POINTER_TYPE (w.spend s.message count) := by
  have follows := (readable.leads index lower inside notNull).resolves.toFollows
  obtain ⟨count, le, run⟩ := getter_slot readable budget depth nullMessage pure newPointerAt lower inside
  have left : 8 < (w.spend s.message count s.message).traversalLimit := by
    rw [World.spend_traversalLimit]
    omega
  obtain ⟨more, bound, checked⟩ := validate_run (p := s.slot index w) (readable.wellFormed.spend s.message count)
    (follows.spend s.message count) (by rw [isNullWord_spend]; exact notNull) left .STRUCT
  have slotMessage : (s.slot index w).message = s.message := rfl
  rw [targetType_spend, slotMessage, World.spend_spend] at checked
  have isNull := slot_isNull readable lower inside notNull count
  obtain ⟨none, least, readonly⟩ := isReadOnly_readable readable count
  rw [Nat.le_zero.mp least, World.spend_zero] at readonly
  have open_ : getStruct nullMessage copied index size s defaultValue w =
      (do
        (s.slot index w).validate .STRUCT
        let ts ← (s.slot index w).getTargetStructSize
        (if !true ∧ (ts.dataByteLength < size.dataByteLength ∨ ts.pointerLength < size.pointerLength) then
          resize size (s.slot index w)
        else
          pure ())
        return s.slot index w : WorldM Pointer) (w.spend s.message count) := by
    rw [getStruct, Outcome.bind_apply, getPointerAs_eq, run, Outcome.pure_apply]
    simp only
    rw [Outcome.bind_apply, readonly]
    simp only
    rw [Outcome.bind_apply, isNull]
    rfl
  by_cases struct : (s.slot index w).targetType w = .STRUCT
  · rw [if_pos struct] at checked
    obtain ⟨rest, _, sized⟩ := getTargetStructSize_reads (p := s.slot index w)
      (readable.wellFormed.spend s.message (count + more)) (follows.spend s.message (count + more))
      (by rw [slotMessage, World.spend_traversalLimit]; omega)
    rw [slotMessage, World.spend_spend] at sized
    refine ⟨count + more + rest, ?_⟩
    rw [if_pos struct, open_, Outcome.bind_apply, checked]
    simp only
    rw [Outcome.bind_apply, sized]
    simp only [Bool.not_true, Bool.false_eq_true, false_and, if_false]
    rfl
  · rw [if_neg struct] at checked
    refine ⟨count + more, ?_⟩
    rw [if_neg struct, open_, Outcome.bind_apply, checked]

end getters

/-! Text. -/

def bytesAt (w : World) (message segment start count : Nat) : Bytes :=
  (List.range count).map fun i => (w message).memory segment (start + i)

/-- What `getText` makes of a pointer that is not null. -/
def textAt (decode : Bytes → String) (p : Pointer) (w : World) : Except CapnpError String :=
  if p.targetType w ≠ .LIST then .error .PTR_WRONG_POINTER_TYPE
  else if p.elementSize w ≠ .BYTE then .error .PTR_WRONG_LIST_TYPE
  else if p.listLength w < 1 then .error .RangeError
  else .ok (decode (bytesAt w p.message (p.content w).segment (p.content w).byteOffset.toNat (p.listLength w - 1).toNat))

theorem take_eq_memory {buffer : Bytes} {start count : Nat} (inside : start + count ≤ buffer.length) :
    (buffer.drop start).take count = (List.range count).map fun i => LittleEndian.memoryOf buffer (start + i) := by
  apply List.ext_getElem
  · simp only [List.length_take, List.length_drop, List.length_map, List.length_range]
    omega
  · intro i first second
    simp only [List.length_map, List.length_range] at second
    simp only [List.getElem_take, List.getElem_drop, List.getElem_map, List.getElem_range, LittleEndian.memoryOf]
    rw [List.getD_eq_getElem?_getD, List.getElem?_eq_getElem (by omega), Option.getD_some]

theorem get_text {p : Pointer} (decode : Bytes → String) (wf : (w p.message).WellFormed) (leads : p.LeadsToObject w)
    (notNull : p.isNullWord w = false) (plain : p.compositeIndex = none) (budget : 128 < (w p.message).traversalLimit)
    (list : p.targetType w = .LIST) (size : p.elementSize w = .BYTE) :
    ∃ after, Text.get decode 0 p w = match p.textAt decode w with
      | .ok text => .ok text after
      | .error reason => .error reason after := by
  have resolves := leads.resolves
  have single : p.isComposite w = false := by
    simp only [isComposite, Bool.and_eq_false_iff, decide_eq_false_iff_not]
    exact Or.inr (by rw [elementSize] at size; rw [size]; decide)
  have length : 0 ≤ p.listLength w := by
    rw [listLength, single, if_neg (by decide)]
    exact Int.natCast_nonneg _
  have inside := leads.bytes list size
  have room := wf.allocated_le (p.content w).segment
  have start : 0 ≤ (p.content w).byteOffset := by
    rw [content_plain single]
    exact resolves.lower
  obtain ⟨sg, found⟩ := Message.segment_of_lt (content_bound resolves)
  have buffer : (w p.message).capacity (p.content w).segment = sg.buffer.length := by
    rw [Message.capacity, found]
  have memory : (w p.message).memory (p.content w).segment = LittleEndian.memoryOf sg.buffer := by
    rw [Message.memory, found]
  obtain ⟨count, le, content⟩ : Reads p.getContent p.message 4 w (p.content w) :=
    getContent_reads wf resolves (by omega) plain
  have segment : onMessage (p.content w).message (Message.segment (p.content w).segment) (w.spend p.message count) =
      .ok sg (w.spend p.message count) := by
    rw [content_message]
    exact onMessage_reads (Message.segment_run (by rw [World.spend_segments]; exact found))
  obtain ⟨more, _, counted⟩ := getTargetListLength_reads (wf.spend p.message count) (resolves.spend p.message count)
    (by rw [World.spend_traversalLimit]; omega) plain (by rw [targetType_spend]; exact list)
    (by rw [isComposite_spend, single]; exact fun impossible => absurd impossible (by decide))
  rw [listLength_spend, World.spend_spend] at counted
  have ends : Text.get decode 0 p w = (do
      let bytes ← ofExcept (uint8View sg.buffer ((p.content w).byteOffset + (0 : Nat)) (p.listLength w - 1 - (0 : Nat)))
      return decode bytes : WorldM String) (w.spend p.message (count + more)) := by
    rw [Text.get, Outcome.bind_apply, isNull_run wf resolves.inBounds, notNull]
    simp only [Bool.false_eq_true, if_false]
    rw [Outcome.bind_apply, content]
    simp only
    rw [Outcome.bind_apply, segment]
    simp only
    rw [Outcome.bind_apply, Text.length, Outcome.bind_apply, counted]
    rfl
  refine ⟨w.spend p.message (count + more), ?_⟩
  rw [ends, textAt, if_neg (not_not.mpr list), if_neg (not_not.mpr size), uint8View]
  by_cases empty : p.listLength w < 1
  · rw [if_pos empty, if_pos (by omega)]
    rfl
  · rw [if_neg empty, if_neg (by omega), bytesAt, memory, ← take_eq_memory (by omega)]
    simp only [Int.natCast_zero, Int.add_zero, Int.sub_zero]
    rfl

theorem LeadsToObject.spend {p : Pointer} (leads : p.LeadsToObject w) (message count : Nat) :
    p.LeadsToObject (w.spend message count) := by
  refine ⟨leads.resolves.spend message count, ?_⟩
  simpa [elementSize_spend, listLength_spend] using leads.bytes

theorem textAt_spend {p : Pointer} {decode : Bytes → String} (message count : Nat) :
    p.textAt decode (w.spend message count) = p.textAt decode w := by
  simp only [textAt, targetType_spend, elementSize_spend, listLength_spend, content_spend, bytesAt, World.spend_memory]

section text

variable {nullMessage : Nat} {index : Int} {defaultValue : Option String} {encode : String → Bytes} {decode : Bytes → String}
variable (readable : s.Readable w) (budget : 256 < (w s.message).traversalLimit) (depth : 2 ≤ s.depthLimit)
variable (lower : 0 ≤ index)
include readable budget depth lower

theorem getText_null (null : s.IsNullField index w) :
    ∃ after, getText nullMessage encode decode index s defaultValue w = .ok (defaultValue.getD "") after := by
  obtain ⟨l, w', run, field⟩ := getPointer_fallsBack readable budget depth lower nullMessage 0 null
  obtain ⟨after, again, isNull, readonly⟩ := field.again
  have text : Text.fromPointer l w' = .ok l after := by
    rw [Text.fromPointer, Outcome.bind_apply, validateList, Outcome.bind_apply, field.isNull]
    exact again
  refine ⟨after, ?_⟩
  rw [getText, Outcome.bind_apply, run, defaultOr, Outcome.pure_apply]
  simp only
  rw [Outcome.bind_apply, text]
  simp only
  rw [Outcome.bind_apply, isNull]
  simp only
  by_cases empty : defaultValue.getD "" = ""
  · rw [if_neg (by simp [empty]), empty, Text.get, Outcome.bind_apply, isNull]
    rfl
  · rw [if_pos ⟨trivial, empty⟩, Outcome.bind_apply, isReadOnly_run readonly]
    rfl

theorem getText_stored (inside : index < (s.readSize w).pointerLength) (notNull : (s.slot index w).isNullWord w = false) :
    ∃ after, getText nullMessage encode decode index s defaultValue w =
      match (s.slot index w).textAt decode w with
      | .ok text => .ok text after
      | .error reason => .error reason after := by
  have leads := readable.leads index lower inside notNull
  have slotMessage : (s.slot index w).message = s.message := rfl
  obtain ⟨count, le, run⟩ := getter_slot readable budget depth nullMessage pure pure lower inside
  obtain ⟨more, bound, checked⟩ := validateList_run (p := s.slot index w) (readable.wellFormed.spend s.message count)
    (leads.resolves.toFollows.spend s.message count) (by rw [isNullWord_spend]; exact notNull)
    (by rw [slotMessage, World.spend_traversalLimit]; omega) .BYTE
  rw [targetType_spend, elementSize_spend, slotMessage, World.spend_spend] at checked
  obtain ⟨rest, last, made⟩ := newPointerAt_slot readable budget depth lower inside (by omega : count + more ≤ 16)
  rw [World.spend_spend] at made
  have opened : getText nullMessage encode decode index s defaultValue w =
      (do
        let t ← Text.fromPointer (s.slot index w)
        if (← t.isNull) ∧ defaultValue.getD "" ≠ "" then
          if ← isReadOnly s then
            return defaultValue.getD ""
          else
            Text.set encode 0 (defaultValue.getD "") t
            Text.get decode 0 t
        else
          Text.get decode 0 t : WorldM String) (w.spend s.message count) := by
    rw [getText, Outcome.bind_apply, getPointer_eq, run]
    rfl
  by_cases list : (s.slot index w).targetType w = .LIST
  · rw [if_neg (not_not.mpr list)] at checked
    by_cases size : (s.slot index w).elementSize w = .BYTE
    · rw [if_neg (not_not.mpr size)] at checked
      obtain ⟨after, got⟩ := get_text (p := s.slot index w) decode
        (readable.wellFormed.spend s.message (count + more + rest)) (leads.spend s.message (count + more + rest))
        (by rw [isNullWord_spend]; exact notNull) rfl (by rw [slotMessage, World.spend_traversalLimit]; omega)
        (by rw [targetType_spend]; exact list) (by rw [elementSize_spend]; exact size)
      rw [textAt_spend] at got
      refine ⟨after, ?_⟩
      rw [opened, Outcome.bind_apply, Text.fromPointer, Outcome.bind_apply, checked]
      simp only
      rw [made]
      simp only
      rw [Outcome.bind_apply, slot_isNull readable lower inside notNull]
      simp only [Bool.false_eq_true, false_and, if_false]
      exact got
    · rw [if_pos size] at checked
      refine ⟨w.spend s.message (count + more), ?_⟩
      rw [textAt, if_neg (not_not.mpr list), if_pos size, opened, Outcome.bind_apply, Text.fromPointer,
        Outcome.bind_apply, checked]
  · rw [if_pos list] at checked
    refine ⟨w.spend s.message (count + more), ?_⟩
    rw [textAt, if_pos list, opened, Outcome.bind_apply, Text.fromPointer, Outcome.bind_apply, checked]

end text

end Pointer

end CapnpEs
