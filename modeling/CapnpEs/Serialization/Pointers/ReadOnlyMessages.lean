import CapnpEs.Serialization.Pointers.Operations

/-! A read-only message keeps its segments, whatever is done with its pointers. -/

namespace CapnpEs

open Outcome

namespace Message

/-- A read-only message that has its first segment stays as it is; what is charged for pointers, and the
capabilities, may change. -/
def Stays (m m' : Message) : Prop :=
  m.readonly = true → m'.readonly = true ∧ (m.segments ≠ [] → m'.segments = m.segments)

/-- What a read-only message keeps even if it is given more room: the segments that it has, with all their bytes. -/
def Keeps (m m' : Message) : Prop := m.readonly = true → m'.readonly = true ∧ m.segments <+: m'.segments

variable {m m' : Message} {α : Type}

theorem Stays.refl (m : Message) : Stays m m := fun readonly => ⟨readonly, fun _ => rfl⟩

theorem Stays.trans {first second third : Message} (sooner : Stays first second) (later : Stays second third) :
    Stays first third := by
  intro readonly
  obtain ⟨still, same⟩ := sooner readonly
  obtain ⟨last, again⟩ := later still
  refine ⟨last, ?_⟩
  intro some
  have kept := same some
  exact (again (kept ▸ some)).trans kept

instance : IsPreorder Message Stays where
  refl := Stays.refl
  trans _ _ _ := Stays.trans

theorem Stays.keeps (stays : Stays m m') : Keeps m m' := by
  intro readonly
  obtain ⟨still, same⟩ := stays readonly
  refine ⟨still, ?_⟩
  by_cases some : m.segments = []
  · rw [some]
    exact List.nil_prefix
  · exact (same some).symm ▸ List.prefix_rfl

instance : IsPreorder Message Keeps where
  refl m := (Stays.refl m).keeps
  trans _ _ _ := by
    intro sooner later readonly
    obtain ⟨still, kept⟩ := sooner readonly
    obtain ⟨last, again⟩ := later still
    exact ⟨last, kept.trans again⟩

theorem keeps_of_stays {program : MessageM α} (stays : Moves Stays program) : Moves Keeps program := fun m =>
  (stays m).mono (fun _ _ stays => stays.keeps) fun _ _ stays => stays.keeps

theorem Stays.of_writable (writable : m.readonly = false) (m' : Message) : Stays m m' := by
  intro readonly
  rw [writable] at readonly
  cases readonly

theorem stays_of_asserted (rest : Unit → MessageM α) : Moves Stays (assertWritable >>= rest) := by
  intro m
  cases readonly : m.readonly with
  | true =>
      have refused : (assertWritable >>= rest) m = .error .PTR_WRITE_CONST_STRUCT m := by
        rw [bind_apply, assertWritable, readonly]
        rfl
      unfold Meets
      rw [refused]
      exact Stays.refl m
  | false =>
      unfold Meets
      cases (assertWritable >>= rest) m with
      | ok value after => exact Stays.of_writable readonly after
      | error reason after => exact Stays.of_writable readonly after

theorem trackPointer_stays (id : Nat) (byteOffset depthLimit : Int) :
    Moves Stays (trackPointer id byteOffset depthLimit) := by
  unfold trackPointer
  split
  · exact Moves.throw _
  · apply Moves.bind (Moves.modify fun m readonly => ⟨readonly, fun _ => rfl⟩)
    intro _
    apply Moves.get
    intro m
    split
    · exact Stays.refl m
    · apply Moves.bind (segment_still id).moves
      intro s
      split
      · exact Moves.throw _
      · exact Moves.pure _

theorem getUint_stays (width id : Nat) (byteOffset : Int) : Moves Stays (getUint width id byteOffset) := by
  apply Moves.bind (segment_still id).moves
  intro s
  cases DataView.getUint width s.buffer byteOffset with
  | ok value => exact Moves.pure value
  | error reason => exact Moves.throw reason

theorem allocateSegment_keeps (byteLength : Int) : Moves Keeps (allocateSegment byteLength) := by
  intro m
  unfold allocateSegment
  apply Meets.get
  cases Arena.allocate byteLength m with
  | error reason => exact (Stays.refl m).keeps
  | ok res =>
      change Meets (if res.1 = m.segments.length then _ else if res.1 > m.segments.length then _ else _) m _ _
      split
      · exact fun readonly => ⟨readonly, List.prefix_append _ _⟩
      · split
        · exact (Stays.refl m).keeps
        · have replaced : Moves Stays (replaceBuffer res.1 res.2) :=
            Moves.bind (segment_still _).moves fun s => stays_of_asserted _
          exact Moves.bind (keeps_of_stays replaced) (fun _ => Moves.pure _) m

theorem getSegment_keeps (id : Nat) : Moves Keeps (getSegment id) := by
  have reserves : Moves Keeps (do
      let s ← segment 0
      if !s.hasCapacity 8 then
        throw .MSG_SEGMENT_TOO_SMALL
      else
        let _ ← allocate 0 8
        return 0 : MessageM Nat) := by
    apply Moves.bind (segment_still 0).moves
    intro s
    split
    · exact Moves.throw _
    · exact Moves.bind (keeps_of_stays (stays_of_asserted _)) fun _ => Moves.pure _
  intro m
  unfold getSegment
  apply Meets.get
  split
  · rename_i first
    have none : m.segments = [] := List.length_eq_zero_iff.mp first.2
    split
    · exact Moves.bind (allocateSegment_keeps DEFAULT_BUFFER_SIZE) (fun _ => reserves) m
    · cases Arena.getBuffer 0 m with
      | error reason => exact (Stays.refl m).keeps
      | ok buffer =>
          have opens : Keeps m { m with
              segments := [{ buffer := buffer, byteLength := 0 }]
              arena := { m.arena with buffers := m.arena.buffers.tail } } := by
            intro readonly
            rw [none]
            exact ⟨readonly, List.nil_prefix⟩
          exact (reserves _).mono (fun _ _ kept => trans_of Keeps opens kept) fun _ _ kept => trans_of Keeps opens kept
  · split
    · exact (Stays.refl m).keeps
    · exact (Stays.refl m).keeps

theorem getSegment_stays (id : Nat) : Moves Stays (getSegment id) := by
  intro m
  by_cases some : m.segments = []
  · have empty {after : Message} (kept : Keeps m after) : Stays m after := fun readonly =>
      ⟨(kept readonly).1, fun other => absurd some other⟩
    exact (getSegment_keeps id m).mono (fun _ _ => empty) fun _ _ => empty
  · have length : ¬ (id = 0 ∧ m.segments.length = 0) := fun none => some (List.length_eq_zero_iff.mp none.2)
    unfold getSegment
    apply Meets.get
    rw [if_neg length]
    split
    · exact Stays.refl m
    · exact Stays.refl m

end Message

namespace World

def Stays (message : Nat) (w w' : World) : Prop := (w message).Stays (w' message)

instance (message : Nat) : IsPreorder World (Stays message) where
  refl w := Message.Stays.refl (w message)
  trans _ _ _ := Message.Stays.trans

theorem Stays.update {message : Nat} {w : World} {other : Nat} {m : Message} (stays : (w other).Stays m) :
    w.Stays message (Function.update w other m) := by
  unfold Stays
  by_cases same : message = other
  · subst same
    rw [Function.update_self]
    exact stays
  · rw [Function.update_of_ne same]
    exact Message.Stays.refl _

theorem Stays.elsewhere {message other : Nat} (apart : message ≠ other) (w : World) (m : Message) :
    w.Stays message (Function.update w other m) := by
  unfold Stays
  rw [Function.update_of_ne apart]
  exact Message.Stays.refl _

end World

variable {message : Nat} {α : Type}

theorem onMessage_stays (other : Nat) {run : MessageM α} (stays : Moves Message.Stays run) :
    Moves (World.Stays message) (onMessage other run) := by
  intro w
  have kept := stays (w other)
  unfold Meets onMessage at *
  cases ran : run (w other) with
  | ok value m =>
      rw [ran] at kept
      exact World.Stays.update kept
  | error reason m =>
      rw [ran] at kept
      exact World.Stays.update kept

theorem onMessage_elsewhere {other : Nat} (apart : message ≠ other) (run : MessageM α) :
    Moves (World.Stays message) (onMessage other run) := by
  intro w
  unfold Meets onMessage
  cases run (w other) with
  | ok value m => exact World.Stays.elsewhere apart w m
  | error reason m => exact World.Stays.elsewhere apart w m

theorem Accessor.stays {allowed : Int → Prop} {program : WorldM α} (accessor : Accessor allowed α program) :
    Moves (World.Stays message) program := by
  cases accessor with
  | get => exact fun w => Message.Stays.refl (w message)
  | segment other id => exact onMessage_stays other (Message.segment_still id).moves
  | assertWritable other => exact onMessage_stays other Message.assertWritable_still.moves
  | getSegment other id => exact onMessage_stays other (Message.getSegment_stays id)
  | trackPointer other id byteOffset depthLimit =>
      exact onMessage_stays other (Message.trackPointer_stays id byteOffset depthLimit)
  | getUint other width id byteOffset => exact onMessage_stays other (Message.getUint_stays width id byteOffset)
  | setUint other width id byteOffset value => exact onMessage_stays other (Message.stays_of_asserted _)
  | setWords other id byteOffset _ => exact onMessage_stays other (Message.stays_of_asserted _)
  | addCap other client =>
      intro w
      exact World.Stays.update fun readonly => ⟨readonly, fun _ => rfl⟩
  | allocate other id _ => exact onMessage_stays other (Message.stays_of_asserted _)

theorem stays_of_uses {program : WorldM α} (uses : Uses (fun _ => True) program) :
    Moves (World.Stays message) program :=
  uses.moves Accessor.stays
/-! Writing through a view of the buffer asks nothing, so it matters in which message the content is. -/

theorem stays_unless_frozen {program : WorldM α} {w : World}
    (frozen : (w message).readonly = true →
      Meets program w (fun _ after => w.Stays message after) fun _ after => w.Stays message after) :
    Meets program w (fun _ after => w.Stays message after) fun _ after => w.Stays message after := by
  by_cases frozenNow : (w message).readonly = true
  · exact frozen frozenNow
  · unfold Meets
    cases program w with
    | ok value after => exact fun readonly => absurd readonly frozenNow
    | error reason after => exact fun readonly => absurd readonly frozenNow

theorem stays_of_refused {program : WorldM α} {w after : World} {error : CapnpError}
    (refused : program w = .error error after) (stays : w.Stays message after) :
    Meets program w (fun _ after => w.Stays message after) fun _ after => w.Stays message after := by
  unfold Meets
  rw [refused]
  exact stays

theorem stays_bind_ok {β : Type} {program : WorldM α} {next : α → WorldM β} (first : Moves (World.Stays message) program)
    (rest : ∀ value w after, program w = .ok value after → Moves (World.Stays message) (next value)) :
    Moves (World.Stays message) (program >>= next) := by
  intro w
  have moved := first w
  unfold Meets at moved ⊢
  rw [bind_apply]
  cases ran : program w with
  | error reason after =>
      rw [ran] at moved
      exact moved
  | ok value middle =>
      rw [ran] at moved
      have later := rest value w middle ran middle
      unfold Meets at later
      dsimp only
      cases last : next value middle with
      | ok found after =>
          rw [last] at later
          exact moved.trans later
      | error reason after =>
          rw [last] at later
          exact moved.trans later

namespace Pointer

section follow

variable {p c : Pointer} {w after : World}

theorem followFar_message (run : p.followFar w = .ok c after) : c.message = p.message := by
  simp only [followFar, bind_eq_ok] at run
  obtain ⟨_, _, _, _, _, _, _, _, _, made⟩ := run
  rw [(newPointer_ok made).1]

theorem followFars_message (run : p.followFars w = .ok c after) : c.message = p.message := by
  simp only [followFars, bind_eq_ok] at run
  obtain ⟨type, _, _, run⟩ := run
  split at run
  · simp only [bind_eq_ok] at run
    obtain ⟨landingPad, _, followed, double, _, _, run⟩ := run
    have here := followFar_message followed
    split at run
    · cases run
      exact here
    · cases run
      exact here
  · cases run
    rfl

theorem getObject_message (run : p.getObject w = .ok c after) : c.message = p.message := by
  simp only [getObject, bind_eq_ok] at run
  obtain ⟨double, _, _, run⟩ := run
  split at run
  · simp only [bind_eq_ok] at run
    obtain ⟨_, _, _, _, _, _, _, _, _, _, _, _, made⟩ := run
    rw [(newPointer_ok made).1]
  · simp only [bind_eq_ok] at run
    obtain ⟨target, _, followed, _, _, _, made⟩ := run
    have here := followFars_message followed
    rw [(newPointer_ok made).1]
    exact here

theorem getContent_message {ignoreCompositeIndex : Bool} (run : p.getContent ignoreCompositeIndex w = .ok c after) :
    c.message = p.message := by
  simp only [getContent, bind_eq_ok] at run
  obtain ⟨start, _, found, composite, _, _, run⟩ := run
  have here : (if composite = true then { start with byteOffset := start.byteOffset + 8 } else start).message =
      p.message := by
    have same := getObject_message found
    split
    · exact same
    · exact same
  cases index : p.compositeIndex with
  | none =>
      rw [index] at run
      cases run
      exact here
  | some element =>
      rw [index] at run
      dsimp only at run
      split at run
      · cases run
        exact here
      · simp only [bind_eq_ok] at run
        obtain ⟨_, _, _, run⟩ := run
        cases run
        exact here

end follow

end Pointer

theorem Data.copyBuffer_stays (src : BufferSource) (d : Pointer) : Moves (World.Stays message) (Data.copyBuffer src d) := by
  intro w
  apply stays_unless_frozen
  intro readonly
  by_cases here : message = d.message
  · subst here
    have refused : Data.copyBuffer src d w = .error .PTR_WRITE_CONST_LIST w := by
      simp only [Data.copyBuffer, bind_apply, isReadOnly, readonly]
      rfl
    exact stays_of_refused refused (Message.Stays.refl _)
  · have moves : Moves (World.Stays message) (Data.copyBuffer src d) := by
      apply Moves.bind (stays_of_uses (isReadOnly_uses d))
      intro readOnly
      cases readOnly with
      | true => exact Moves.throw _
      | false =>
          apply stays_bind_ok (stays_of_uses (d.getContent_uses false))
          intro c before after found
          have elsewhere : message ≠ c.message := by
            rw [Pointer.getContent_message found]
            exact here
          apply Moves.bind (stays_of_uses d.getTargetListLength_uses)
          intro dstLength
          apply Moves.bind (stays_of_uses (Built.ofExcept _))
          intro i
          apply Moves.bind (stays_of_uses (Built.basic (.segment ..)))
          intro s
          apply Moves.bind (stays_of_uses d.getTargetListLength_uses)
          intro length
          apply Moves.bind (stays_of_uses (Built.ofExcept _))
          intro view
          apply Moves.bind (stays_of_uses (Built.ofExcept _))
          intro o
          exact onMessage_elsewhere elsewhere _
    exact moves w

section text

variable (encode : String → Bytes) (t : Pointer)

theorem setView_elsewhere {c : Pointer} (elsewhere : message ≠ c.message) (byteLength : Int) (bytes : Bytes)
    (offset : Nat) : Moves (World.Stays message) (c.setView byteLength bytes offset) := by
  apply Moves.bind (stays_of_uses (Built.basic (.segment ..)))
  intro s
  apply Moves.bind (stays_of_uses (Built.ofExcept _))
  intro view
  apply Moves.bind (stays_of_uses (Built.ofExcept _))
  intro filled
  exact onMessage_elsewhere elsewhere _

theorem initList_refused {w : World} (readonly : (w t.message).readonly = true) (length : Int) :
    Pointer.initList .BYTE length t none w = .error .PTR_WRITE_CONST_STRUCT w := by
  have refused : t.allocate (length * (getListElementByteLength .BYTE).getD 0) w =
      .error .PTR_WRITE_CONST_STRUCT w := by
    have first : Message.allocate t.segment (length * (getListElementByteLength .BYTE).getD 0) (w t.message) =
        .error .PTR_WRITE_CONST_STRUCT (w t.message) := by
      rw [Message.allocate, bind_apply, Message.assertWritable, readonly]
      rfl
    rw [Pointer.allocate, bind_apply, onMessage, first]
    dsimp only
    rw [Function.update_eq_self]
  have content : Pointer.initListContent .BYTE length t none w = .error .PTR_WRITE_CONST_STRUCT w := by
    change (t.allocate _ >>= fun c => pure (c, none)) w = _
    rw [bind_apply, refused]
  unfold Pointer.initList
  rw [if_neg (by decide), bind_apply, content]

theorem Text.set_stays (index : Nat) (value : String) : Moves (World.Stays message) (Text.set encode index value t) := by
  intro w
  apply stays_unless_frozen
  intro readonly
  by_cases here : message = t.message
  · subst here
    apply Meets.bind
    apply (stays_of_uses (Text.original_uses t index) w).mono
    · intro original after stays
      have refused := initList_refused t (stays readonly).1 ((encode value).length + index + 1)
      unfold Meets
      rw [bind_apply, refused]
      exact stays
    · intro reason after stays
      exact stays
  · have moves : Moves (World.Stays message) (Text.set encode index value t) := by
      apply Moves.bind (stays_of_uses (Text.original_uses t index))
      intro original
      apply Moves.bind (stays_of_uses (t.initList_uses _ _ _))
      intro _
      apply stays_bind_ok (stays_of_uses (t.getContent_uses false))
      intro c before after found
      have elsewhere : message ≠ c.message := by
        rw [Pointer.getContent_message found]
        exact here
      refine Moves.bind ?_ fun _ => setView_elsewhere elsewhere _ _ _
      cases original with
      | none => exact Moves.pure _
      | some original => exact setView_elsewhere elsewhere _ _ _
    exact moves w

end text

theorem Primitive.stays {nullMessage : Nat} (apart : message ≠ nullMessage) {program : WorldM α}
    (primitive : Primitive nullMessage message α program) : Moves (World.Stays message) program := by
  cases primitive with
  | accessor accessor => exact accessor.stays
  | null => exact Moves.modify fun w => World.Stays.elsewhere apart w _
  | copy new src =>
      intro w
      change Meets (ofExcept (w src.message).copy >>= _) w _ _
      cases (w src.message).copy with
      | error reason => exact Message.Stays.refl _
      | ok m => exact World.Stays.elsewhere new w _
  | text encode index value t => exact Text.set_stays encode t index value
  | buffer src d => exact Data.copyBuffer_stays src d

section run

variable {nullMessage : Nat} {native : Bool} {encode : String → Bytes} {decode : Bytes → String}

theorem Operation.after_stays (apart : message ≠ nullMessage) (operation : Operation) (new : message ∉ operation.makes)
    (w : World) : w.Stays message (operation.after nullMessage native encode decode w) := by
  rcases operation.call_built new w with refused | ⟨α, program, calls, called⟩
  · rw [Operation.after, refused]
    exact Message.Stays.refl _
  · rw [Operation.after, called]
    exact outcome_moves (calls.moves (Primitive.stays apart)) w

/-- Whatever is called, and however it ends: a read-only message keeps its segments. -/
theorem readonly_message_stays (operations : List Operation) (w : World) (apart : message ≠ nullMessage)
    (new : ∀ operation ∈ operations, message ∉ operation.makes) (readonly : (w message).readonly = true)
    (some : (w message).segments ≠ []) :
    ((operations.foldl (fun w operation => operation.after nullMessage native encode decode w) w) message).segments =
      (w message).segments := by
  have stays : w.Stays message
      (operations.foldl (fun w operation => operation.after nullMessage native encode decode w) w) := by
    clear readonly some
    induction operations generalizing w with
    | nil => exact Message.Stays.refl _
    | cons operation operations ih =>
        have first : w.Stays message (operation.after nullMessage native encode decode w) :=
          operation.after_stays apart (new operation (List.mem_cons_self ..)) w
        exact first.trans (ih _ fun other member => new other (List.mem_cons_of_mem _ member))
  exact (stays readonly).2 some

/-- The message behind every null pointer, read and written to. -/
theorem readonly_message_stays_shared :
    let p : Pointer := { message := 0, segment := 0, byteOffset := 0, depthLimit := 4 }
    let operations : List Operation := [.getStruct 2 0 ⟨8, 1⟩ p none, .setText 0 "text" p, .allocate 0 0 8,
      .copyFrom { p with message := 1 } p, .disown p, .initRoot 0 ⟨8, 1⟩]
    ((operations.foldl (fun w operation => operation.after 3 true (fun _ => [1, 2]) (fun _ => "") w)
      fun _ => readOnlyNullMessage) 0).segments = readOnlyNullMessage.segments := by
  apply readonly_message_stays _ fun _ => readOnlyNullMessage
  · decide
  · intro operation member
    simp only [List.mem_cons, List.not_mem_nil, or_false] at member
    rcases member with rfl | rfl | rfl | rfl | rfl | rfl
    · decide
    · exact List.not_mem_nil
    · exact List.not_mem_nil
    · exact List.not_mem_nil
    · exact List.not_mem_nil
    · exact List.not_mem_nil
  · rfl
  · exact List.cons_ne_nil _ _

end run

end CapnpEs
