import CapnpEs.Library.Transition
import CapnpEs.Serialization.Pointers.CompletedRuns
import CapnpEs.Serialization.Pointers.ReadOnlyMessages

/-! A message in use stays well formed and never shrinks, as long as the calls return. -/

namespace CapnpEs

open Outcome

/-! What is read twice is the same, however much has been spent in between. -/

section repeated

variable {message : Nat} {α β : Type}

def Repeats (message : Nat) (program : WorldM α) : Prop :=
  ∀ ⦃w : World⦄ ⦃count count' : Nat⦄ ⦃value value' : α⦄ ⦃after after' : World⦄, (w message).segments ≠ [] →
    program (w.spend message count) = .ok value after → program (w.spend message count') = .ok value' after' →
    value = value' ∧ ∃ spent spent', after = w.spend message spent ∧ after' = w.spend message spent'

namespace Repeats

theorem pure (value : α) : Repeats message (pure value : WorldM α) := by
  intro w count count' _ _ _ _ _ run run'
  cases run
  cases run'
  exact ⟨rfl, count, count', rfl, rfl⟩

theorem throw (error : CapnpError) : Repeats message (throw error : WorldM α) := by
  intro _ _ _ _ _ _ _ _ run
  cases run

theorem bind {program : WorldM α} {next : α → WorldM β} (first : Repeats message program)
    (rest : ∀ value w after, program w = .ok value after → Repeats message (next value)) :
    Repeats message (program >>= next) := by
  intro w count count' value value' after after' some run run'
  obtain ⟨found, middle, sooner, later⟩ := bind_eq_ok.mp run
  obtain ⟨found', middle', sooner', later'⟩ := bind_eq_ok.mp run'
  obtain ⟨rfl, spent, spent', rfl, rfl⟩ := first some sooner sooner'
  exact rest found _ _ sooner some later later'

theorem getUint (width id : Nat) (byteOffset : Int) :
    Repeats message (onMessage message (Message.getUint width id byteOffset)) := by
  intro w count count' value value' after after' _ run run'
  have read : ∀ {m m' : Message} {found : Nat}, Message.getUint width id byteOffset m = .ok found m' →
      m' = m ∧ ∃ s, m.segments[id]? = some s ∧ DataView.getUint width s.buffer byteOffset = .ok found := by
    intro m m' found ended
    obtain ⟨s, middle, located, rest⟩ := bind_eq_ok.mp ended
    have here := Message.segment_meets id m
    unfold Meets at here
    rw [located] at here
    obtain ⟨fits, rfl⟩ := ofExcept_eq_ok.mp rest
    exact ⟨here.1, s, here.2, fits⟩
  obtain ⟨m, ended, rfl⟩ := onMessage_ends run
  obtain ⟨m', ended', rfl⟩ := onMessage_ends run'
  obtain ⟨rfl, s, located, fits⟩ := read ended
  obtain ⟨rfl, s', located', fits'⟩ := read ended'
  rw [World.spend_segments] at located located'
  rw [located] at located'
  cases located'
  rw [fits] at fits'
  cases fits'
  rw [Function.update_eq_self, Function.update_eq_self]
  exact ⟨rfl, count, count', rfl, rfl⟩

theorem getSegment (id : Nat) : Repeats message (onMessage message (Message.getSegment id)) := by
  intro w count count' value value' after after' some run run'
  have length : ∀ spent, (w.spend message spent message).segments.length ≠ 0 := by
    intro spent
    rw [World.spend_segments]
    exact fun none => some (List.length_eq_zero_iff.mp none)
  obtain ⟨rfl, rfl⟩ := onMessage_getSegment_ok run (length count)
  obtain ⟨rfl, rfl⟩ := onMessage_getSegment_ok run' (length count')
  exact ⟨rfl, count, count', rfl, rfl⟩

theorem newPointer (segment : Nat) (byteOffset depthLimit : Int) :
    Repeats message (newPointer message segment byteOffset depthLimit) := by
  intro w count count' value value' after after' _ run run'
  obtain ⟨rfl, rfl⟩ := newPointer_ok run
  obtain ⟨rfl, rfl⟩ := newPointer_ok run'
  rw [World.spend_spend, World.spend_spend]
  exact ⟨rfl, _, _, rfl, rfl⟩

end Repeats

namespace Pointer

variable {p : Pointer} (here : p.message = message)

include here

theorem getUint32_repeats (byteOffset : Int) : Repeats message (p.getUint32 byteOffset) := by
  subst here
  exact Repeats.bind (Repeats.getUint _ _ _) fun _ _ _ _ => Repeats.pure _

theorem getUint16_repeats (byteOffset : Int) : Repeats message (p.getUint16 byteOffset) := by
  subst here
  exact Repeats.getUint _ _ _

theorem getPointerType_repeats : Repeats message p.getPointerType :=
  Repeats.bind (getUint32_repeats here _) fun _ _ _ _ => Repeats.pure _

theorem getFarSegmentId_repeats : Repeats message p.getFarSegmentId :=
  Repeats.bind (getUint32_repeats here _) fun _ _ _ _ => Repeats.pure _

theorem getListElementSize_repeats : Repeats message p.getListElementSize :=
  Repeats.bind (getUint32_repeats here _) fun _ _ _ _ => Repeats.pure _

theorem getListLength_repeats : Repeats message p.getListLength :=
  Repeats.bind (getUint32_repeats here _) fun _ _ _ _ => Repeats.pure _

theorem getOffsetWords_repeats : Repeats message p.getOffsetWords :=
  Repeats.bind (getUint32_repeats here _) fun _ _ _ _ => Repeats.pure _

theorem getStructSize_repeats : Repeats message p.getStructSize := by
  apply Repeats.bind (getUint16_repeats here _)
  intro _ _ _ _
  exact Repeats.bind (getUint16_repeats here _) fun _ _ _ _ => Repeats.pure _

theorem isDoubleFar_repeats : Repeats message p.isDoubleFar := by
  apply Repeats.bind (getPointerType_repeats here)
  intro type _ _ _
  split
  · exact Repeats.bind (getUint32_repeats here _) fun _ _ _ _ => Repeats.pure _
  · exact Repeats.pure _

theorem followFar_repeats : Repeats message p.followFar := by
  apply Repeats.bind (getUint32_repeats here _)
  intro id _ _ _
  rw [here]
  apply Repeats.bind (Repeats.getSegment _)
  intro segment _ _ _
  apply Repeats.bind (getUint32_repeats here _)
  intro offset _ _ _
  exact Repeats.newPointer _ _ _

theorem followFars_repeats : Repeats message p.followFars := by
  apply Repeats.bind (getPointerType_repeats here)
  intro type _ _ _
  split
  · apply Repeats.bind (followFar_repeats here)
    intro landingPad _ _ _
    apply Repeats.bind (isDoubleFar_repeats here)
    intro double _ _ _
    split
    · exact Repeats.pure _
    · exact Repeats.pure _
  · exact Repeats.pure _

theorem isCompositeList_repeats : Repeats message p.isCompositeList := by
  have type : Repeats message p.getTargetPointerType := by
    apply Repeats.bind (followFars_repeats here)
    intro target _ _ followed
    have there := (followFars_message followed).trans here
    apply Repeats.bind (getPointerType_repeats there)
    intro type _ _ _
    split
    · exact Repeats.throw _
    · exact Repeats.pure _
  apply Repeats.bind type
  intro found _ _ _
  split
  · apply Repeats.bind
    · apply Repeats.bind (followFars_repeats here)
      intro target _ _ followed
      exact getListElementSize_repeats ((followFars_message followed).trans here)
    · exact fun _ _ _ _ => Repeats.pure _
  · exact Repeats.pure _

theorem getObject_repeats : Repeats message p.getObject := by
  apply Repeats.bind (isDoubleFar_repeats here)
  intro double _ _ _
  split
  · apply Repeats.bind (followFar_repeats here)
    intro landingPad _ _ followed
    have there := (followFar_message followed).trans here
    apply Repeats.bind (getFarSegmentId_repeats there)
    intro id _ _ _
    rw [here]
    apply Repeats.bind (Repeats.getSegment _)
    intro segment _ _ _
    apply Repeats.bind (getOffsetWords_repeats there)
    intro offset _ _ _
    exact Repeats.newPointer _ _ _
  · apply Repeats.bind (followFars_repeats here)
    intro target _ _ followed
    have there := (followFars_message followed).trans here
    apply Repeats.bind (getOffsetWords_repeats there)
    intro offset _ _ _
    rw [there]
    exact Repeats.newPointer _ _ _

theorem getContent_repeats (ignoreCompositeIndex : Bool) : Repeats message (p.getContent ignoreCompositeIndex) := by
  apply Repeats.bind (getObject_repeats here)
  intro c _ _ found
  have there := (getObject_message found).trans here
  apply Repeats.bind (isCompositeList_repeats here)
  intro composite _ _ _
  cases p.compositeIndex with
  | none => exact Repeats.pure _
  | some index =>
      dsimp only
      split
      · exact Repeats.pure _
      · refine Repeats.bind (getStructSize_repeats ?_) fun _ _ _ _ => Repeats.pure _
        split
        · exact there
        · exact there

theorem getTargetListLength_repeats : Repeats message p.getTargetListLength := by
  apply Repeats.bind (followFars_repeats here)
  intro target _ _ followed
  have there := (followFars_message followed).trans here
  apply Repeats.bind (getListElementSize_repeats there)
  intro size _ _ _
  split
  · apply Repeats.bind
    · exact Repeats.bind (getContent_repeats here false) fun _ _ _ _ => Repeats.pure _
    · intro tag _ _ found
      obtain ⟨c, _, content, made⟩ := bind_eq_ok.mp found
      cases made
      exact getOffsetWords_repeats ((getContent_message content).trans here)
  · exact Repeats.bind (getListLength_repeats there) fun _ _ _ _ => Repeats.pure _

end Pointer

end repeated

namespace Message

variable {m m' : Message} {id : Nat}

/-- A message made without a source that has no segment yet. -/
structure Unused (m : Message) : Prop where
  segments : m.segments = []
  kind : m.arena.kind = .SINGLE_SEGMENT
  buffers : ∃ buffer, m.arena.buffers = [buffer]

/-- A message in use never shrinks, and a new one becomes one in use. -/
structure Grows (m m' : Message) : Prop where
  larger : m.Sound → m.Larger m'
  usable : m.Unused → m'.Unused ∨ m'.Sound

theorem Grows.of_same (segments : m'.segments = m.segments) (arena : m'.arena = m.arena)
    (larger : m.Sound → m.Larger m') : m.Grows m' := by
  refine ⟨larger, fun unused => Or.inl ⟨segments.trans unused.segments, ?_, ?_⟩⟩
  · rw [arena]
    exact unused.kind
  · rw [arena]
    exact unused.buffers

theorem Grows.refl (m : Message) : m.Grows m := Grows.of_same rfl rfl Sound.larger

theorem Grows.of_some (some : m.segments ≠ []) (larger : m.Sound → m.Larger m') : m.Grows m' :=
  ⟨larger, fun unused => absurd unused.segments some⟩

theorem getSegment_grows {found : Nat} (run : Message.getSegment id m = .ok found m') : m.Grows m' := by
  by_cases none : id = 0 ∧ m.segments.length = 0
  · refine ⟨fun sound => absurd none.2 sound.some, fun unused => Or.inr ?_⟩
    obtain ⟨buffer, buffers⟩ := unused.buffers
    have started : ({ m with segments := [{ buffer, byteLength := 0 }], arena := { m.arena with buffers := [] } } :
        Message).Sound := by
      refine ⟨⟨?_, ?_, ?_, rfl, fun _ => rfl⟩, Nat.one_ne_zero⟩
      · intro s member
        rw [List.mem_singleton.mp member]
      · intro s member
        rw [List.mem_singleton.mp member]
        rfl
      · intro s member
        rw [List.mem_singleton.mp member]
        exact Int.natCast_nonneg _
    have count : Arena.getNumSegments m ≠ 0 := by
      rw [Arena.getNumSegments, unused.kind]
      exact Nat.one_ne_zero
    have first : Arena.getBuffer 0 m = .ok buffer := by
      rw [Arena.getBuffer, unused.kind]
      simp [buffers, unused.segments]
    rw [getSegment, bind_apply, get_apply] at run
    dsimp only at run
    rw [if_pos none, if_neg count] at run
    simp only [first, bind_apply, ofExcept_ok, modify_apply] at run
    rw [buffers, List.tail_cons] at run
    change (if (!({ buffer, byteLength := 0 } : Segment).hasCapacity 8) = true then throw .MSG_SEGMENT_TOO_SMALL
        else do
          let _ ← allocate 0 8
          pure 0 : MessageM Nat) _ = _ at run
    split at run
    · cases run
    · obtain ⟨_, after, taken, done⟩ := bind_eq_ok.mp run
      cases done
      exact (allocate_larger started taken).sound
  · rw [getSegment, bind_apply, get_apply] at run
    dsimp only at run
    rw [if_neg none] at run
    split at run
    · cases run
    · cases run
      exact Grows.refl m

theorem some_of_found {s : Segment} (found : m.segments[id]? = some s) : m.segments ≠ [] := by
  intro none
  rw [none] at found
  cases found

theorem segment_ends {s : Segment} (run : segment id m = .ok s m') : m' = m ∧ m.segments[id]? = some s := by
  have here := segment_meets id m
  unfold Meets at here
  rw [run] at here
  exact here

theorem some_of_segment {s : Segment} (run : segment id m = .ok s m') : m.segments ≠ [] :=
  some_of_found (segment_ends run).2

theorem assertWritable_ends (run : assertWritable m = .ok () m') : m' = m := by
  have still := assertWritable_still m
  unfold Meets at still
  rw [run] at still
  exact still

theorem some_of_asserted {α : Type} {rest : Segment → MessageM α} {value : α}
    (run : (do assertWritable; let s ← segment id; rest s : MessageM α) m = .ok value m') : m.segments ≠ [] := by
  obtain ⟨_, middle, asserted, later⟩ := bind_eq_ok.mp run
  have same := assertWritable_ends asserted
  subst same
  obtain ⟨_, _, located, _⟩ := bind_eq_ok.mp later
  exact some_of_segment located

theorem some_of_trackPointer {byteOffset depthLimit : Int}
    (run : trackPointer id byteOffset depthLimit m = .ok () m') : m.segments ≠ [] := by
  rw [trackPointer] at run
  split at run
  · cases run
  · obtain ⟨_, charged, changed, later⟩ := bind_eq_ok.mp run
    cases changed
    obtain ⟨_, _, same, last⟩ := bind_eq_ok.mp later
    cases same
    split at last
    · cases last
    · obtain ⟨_, _, located, _⟩ := bind_eq_ok.mp last
      exact (some_of_segment located : { m with traversalLimit := m.traversalLimit - 8 }.segments ≠ [])

theorem some_of_allocate {byteLength : Int} {found : Nat × Int} (run : allocate id byteLength m = .ok found m') :
    m.segments ≠ [] := by
  obtain ⟨_, middle, asserted, later⟩ := bind_eq_ok.mp run
  have same := assertWritable_ends asserted
  subst same
  dsimp only at later
  split at later
  · cases later
  · obtain ⟨_, _, located, _⟩ := bind_eq_ok.mp later
    exact some_of_segment located

end Message

namespace World

def Grows (message : Nat) (w w' : World) : Prop := (w message).Grows (w' message)

instance (message : Nat) : IsPreorder World (Grows message) where
  refl w := Message.Grows.refl (w message)
  trans first second third sooner later := by
    refine ⟨fun sound => (sooner.larger sound).trans (later.larger (sooner.larger sound).sound), fun unused => ?_⟩
    rcases sooner.usable unused with still | sound
    · exact later.usable still
    · exact Or.inr (later.larger sound).sound

variable {message : Nat} {w : World}

theorem Grows.update {other : Nat} {m : Message} (grows : (w other).Grows m) :
    w.Grows message (Function.update w other m) := by
  unfold Grows
  by_cases same : message = other
  · subst same
    rw [Function.update_self]
    exact grows
  · rw [Function.update_of_ne same]
    exact Message.Grows.refl _

theorem Grows.elsewhere {other : Nat} (apart : message ≠ other) (m : Message) :
    w.Grows message (Function.update w other m) := by
  unfold Grows
  rw [Function.update_of_ne apart]
  exact Message.Grows.refl _

end World

section grows

variable {message : Nat} {α : Type} {w after : World} {value : α}

theorem onMessage_usable {other : Nat} {run : MessageM α}
    (each : ∀ {m}, run (w other) = .ok value m → (w other).Unused → m.Unused ∨ m.Sound)
    (ended : onMessage other run w = .ok value after) (unused : (w message).Unused) :
    (after message).Unused ∨ (after message).Sound := by
  obtain ⟨m, ran, rfl⟩ := onMessage_ends ended
  by_cases same : message = other
  · subst same
    rw [Function.update_self]
    exact each ran unused
  · rw [Function.update_of_ne same]
    exact Or.inl unused

theorem Accessor.usable {allowed : Int → Prop} {program : WorldM α} (accessor : Accessor allowed α program)
    (run : program w = .ok value after) (unused : (w message).Unused) :
    (after message).Unused ∨ (after message).Sound := by
  cases accessor with
  | get =>
      cases run
      exact Or.inl unused
  | segment other id =>
      refine onMessage_usable (fun ran none => absurd none.segments ?_) run unused
      exact Message.some_of_segment ran
  | assertWritable other =>
      refine onMessage_usable (fun ran none => Or.inl ?_) run unused
      rw [Message.assertWritable_ends ran]
      exact none
  | getSegment other id => exact onMessage_usable (fun ran => (Message.getSegment_grows ran).usable) run unused
  | trackPointer other id byteOffset depthLimit =>
      refine onMessage_usable (fun ran none => absurd none.segments ?_) run unused
      exact Message.some_of_trackPointer ran
  | getUint other width id byteOffset =>
      refine onMessage_usable (fun ran none => absurd none.segments ?_) run unused
      obtain ⟨_, _, located, _⟩ := bind_eq_ok.mp ran
      exact Message.some_of_segment located
  | setUint other width id byteOffset number =>
      exact onMessage_usable (fun ran none => absurd none.segments (Message.some_of_asserted ran)) run unused
  | setWords other id byteOffset _ =>
      exact onMessage_usable (fun ran none => absurd none.segments (Message.some_of_asserted ran)) run unused
  | addCap other client =>
      cases run
      by_cases same : message = other
      · subst same
        rw [Function.update_self]
        exact Or.inl ⟨unused.segments, unused.kind, unused.buffers⟩
      · rw [Function.update_of_ne same]
        exact Or.inl unused
  | allocate other id _ =>
      refine onMessage_usable (fun ran none => absurd none.segments ?_) run unused
      exact Message.some_of_allocate ran

theorem Accessor.grows {allowed : Int → Prop} {program : WorldM α} (accessor : Accessor allowed α program)
    (run : program w = .ok value after) : w.Grows message after :=
  ⟨accessor.larger run message, accessor.usable run⟩

theorem grows_of_uses {program : WorldM α} (uses : Uses (fun _ => True) program) (run : program w = .ok value after) :
    w.Grows message after :=
  Built.ends (fun accessor _ _ _ ran => accessor.grows ran) uses run

/-! Writing through a view. -/

theorem onMessage_segment_ok {other id : Nat} {s : Segment} (run : onMessage other (Message.segment id) w = .ok s after) :
    after = w ∧ (w other).segments[id]? = some s := by
  obtain ⟨m, ran, rfl⟩ := onMessage_ends run
  obtain ⟨rfl, found⟩ := Message.segment_ends ran
  exact ⟨Function.update_eq_self .., found⟩

theorem overwrite_grows {other id : Nat} {s : Segment} {byteOffset byteLength : Int} {before view : Bytes}
    (found : (w other).segments[id]? = some s) (viewed : uint8View s.buffer byteOffset byteLength = .ok before)
    (length : view.length = before.length) :
    w.Grows message (Function.update w other ((w other).setSegment id
      { s with buffer := LittleEndian.overwrite s.buffer byteOffset.toNat view })) := by
  apply World.Grows.update
  have some : (w other).segments ≠ [] := Message.some_of_found found
  obtain ⟨lower, _, inside, _⟩ := uint8View_eq_ok viewed
  have whole := uint8View_length viewed
  refine Message.Grows.of_some some fun sound => (Message.SameSize.setBuffer sound found ?_).toLarger
  exact LittleEndian.overwrite_length (by omega)

theorem setView_grows {c : Pointer} {byteLength : Int} {bytes : Bytes} {offset : Nat}
    (run : c.setView byteLength bytes offset w = .ok () after) : w.Grows message after := by
  obtain ⟨s, _, located, later⟩ := bind_eq_ok.mp run
  obtain ⟨rfl, found⟩ := onMessage_segment_ok located
  obtain ⟨before, _, viewing, filling⟩ := bind_eq_ok.mp later
  obtain ⟨viewed, rfl⟩ := ofExcept_eq_ok.mp viewing
  obtain ⟨view, _, setting, storing⟩ := bind_eq_ok.mp filling
  obtain ⟨filled, rfl⟩ := ofExcept_eq_ok.mp setting
  cases storing
  exact overwrite_grows found viewed (setBytes_length filled)

theorem Text.set_grows {encode : String → Bytes} {index : Nat} {text : String} {t : Pointer}
    (run : Text.set encode index text t w = .ok () after) : w.Grows message after := by
  obtain ⟨original, kept, read, later⟩ := bind_eq_ok.mp run
  obtain ⟨_, made, initialised, opening⟩ := bind_eq_ok.mp later
  obtain ⟨c, found, content, writing⟩ := bind_eq_ok.mp opening
  obtain ⟨_, copied, first, second⟩ := bind_eq_ok.mp writing
  have sooner : w.Grows message found := by
    apply trans_of (World.Grows message) (grows_of_uses (Text.original_uses t index) read)
    exact trans_of (World.Grows message) (grows_of_uses (t.initList_uses _ _ _) initialised)
      (grows_of_uses (t.getContent_uses false) content)
  apply trans_of (World.Grows message) sooner
  cases original with
  | none =>
      cases first
      exact setView_grows second
  | some original => exact trans_of (World.Grows message) (setView_grows first) (setView_grows second)

theorem some_of_getTargetListLength {d : Pointer} {length : Int} (run : d.getTargetListLength w = .ok length after) :
    (w d.message).segments ≠ [] := by
  obtain ⟨_, _, followed, _⟩ := bind_eq_ok.mp run
  obtain ⟨_, _, typed, _⟩ := bind_eq_ok.mp followed
  obtain ⟨_, _, word, _⟩ := bind_eq_ok.mp typed
  obtain ⟨_, _, read, _⟩ := bind_eq_ok.mp word
  obtain ⟨_, ran, _⟩ := onMessage_ends read
  obtain ⟨_, _, located, _⟩ := bind_eq_ok.mp ran
  exact Message.some_of_segment located

theorem fillView_length {view : Bytes} {filling : UInt8} {first last : Nat} (inside : last ≤ view.length)
    (order : first ≤ last) : (fillView view filling first last).length = view.length := by
  simp only [fillView, List.length_append, List.length_take, List.length_replicate, List.length_drop]
  omega

theorem Data.copyBuffer_grows {src : BufferSource} {d : Pointer} (run : Data.copyBuffer src d w = .ok () after) :
    w.Grows message after := by
  obtain ⟨readOnly, _, asked, writable⟩ := bind_eq_ok.mp run
  cases readOnly with
  | true => cases writable
  | false =>
      obtain ⟨c, opened, content, measuring⟩ := bind_eq_ok.mp writable
      obtain ⟨dstLength, measured, length, choosing⟩ := bind_eq_ok.mp measuring
      obtain ⟨i, _, chosen, locating⟩ := bind_eq_ok.mp choosing
      obtain ⟨source, rfl⟩ := ofExcept_eq_ok.mp chosen
      obtain ⟨s, _, located, again⟩ := bind_eq_ok.mp locating
      obtain ⟨rfl, found⟩ := onMessage_segment_ok located
      obtain ⟨dstLength', last, length', viewing⟩ := bind_eq_ok.mp again
      obtain ⟨before, _, viewed, filling⟩ := bind_eq_ok.mp viewing
      obtain ⟨shown, rfl⟩ := ofExcept_eq_ok.mp viewed
      obtain ⟨filled, _, setting, storing⟩ := bind_eq_ok.mp filling
      obtain ⟨fits, rfl⟩ := ofExcept_eq_ok.mp setting
      have repeats : Repeats d.message d.getTargetListLength := Pointer.getTargetListLength_repeats rfl
      have some : (opened d.message).segments ≠ [] := some_of_getTargetListLength length
      have reached : w.Grows message last := by
        apply trans_of (World.Grows message) (grows_of_uses (isReadOnly_uses d) asked)
        apply trans_of (World.Grows message) (grows_of_uses (d.getContent_uses false) content)
        exact trans_of (World.Grows message) (grows_of_uses d.getTargetListLength_uses length)
          (grows_of_uses d.getTargetListLength_uses length')
      have zero : opened.spend d.message 0 = opened := World.spend_zero ..
      rw [← zero] at length
      obtain ⟨_, spent, _, rfl, _⟩ := repeats some length length
      obtain ⟨rfl, _, spent', _, rfl⟩ := repeats some length length'
      rw [World.spend_segments] at found
      have whole := uint8View_length shown
      have same := setBytes_length fits
      cases storing
      apply trans_of (World.Grows message) reached
      refine overwrite_grows ?_ shown ?_
      · rw [World.spend_segments]
        exact found
      · split
        · rw [fillView_length (by omega) (by omega), same]
        · exact same

theorem Primitive.grows {nullMessage : Nat} (apart : message ≠ nullMessage) {program : WorldM α}
    (primitive : Primitive nullMessage message α program) (run : program w = .ok value after) : w.Grows message after := by
  cases primitive with
  | accessor accessor => exact accessor.grows run
  | null =>
      cases run
      exact World.Grows.elsewhere apart _
  | copy new src =>
      obtain ⟨_, _, same, later⟩ := bind_eq_ok.mp run
      cases same
      obtain ⟨_, _, copying, last⟩ := bind_eq_ok.mp later
      obtain ⟨_, rfl⟩ := ofExcept_eq_ok.mp copying
      cases last
      exact World.Grows.elsewhere new _
  | text encode index text t => exact Text.set_grows run
  | buffer src d => exact Data.copyBuffer_grows run

end grows

section run

variable {message nullMessage : Nat} {native : Bool} {encode : String → Bytes} {decode : Bytes → String}

def Operation.completed (nullMessage : Nat) (native : Bool) (encode : String → Bytes) (decode : Bytes → String)
    (w : World) (operation : Operation) : Option World :=
  if operation.returns nullMessage native encode decode w then
    some (operation.after nullMessage native encode decode w)
  else
    none

theorem Operation.completed_grows (apart : message ≠ nullMessage) {operation : Operation} {w after : World}
    (new : message ∉ operation.makes)
    (completed : Operation.completed nullMessage native encode decode w operation = some after) :
    w.Grows message after := by
  rw [Operation.completed] at completed
  split at completed
  · rename_i returned
    cases completed
    rcases operation.call_built new w with refused | ⟨α, program, calls, called⟩
    · rw [Operation.returns, refused] at returned
      cases returned
    · rw [Operation.returns, called] at returned
      obtain ⟨value, ran⟩ := outcome_returns returned
      rw [Operation.after, called]
      exact Built.ends (fun primitive _ _ _ ran => primitive.grows apart ran) calls ran
  · cases completed

/-- Whatever is called, as long as it returns: a new message is unused until it gets its first segment, and a message
that has one stays well formed, keeps all its segments and never shrinks. -/
theorem messages_never_shrink (operations : List Operation) {start w : World} (apart : message ≠ nullMessage)
    (new : ∀ operation ∈ operations, message ∉ operation.makes)
    (done : operations.foldlM (Operation.completed nullMessage native encode decode) start = some w) :
    (start message).Grows (w message) := by
  induction operations generalizing start with
  | nil =>
      cases done
      exact Message.Grows.refl _
  | cons operation operations ih =>
      obtain ⟨middle, completed, rest⟩ := Option.bind_eq_some_iff.mp done
      have first : start.Grows message middle :=
        Operation.completed_grows apart (new operation (List.mem_cons_self ..)) completed
      exact trans_of (World.Grows message) first
        (ih (fun other member => new other (List.mem_cons_of_mem _ member)) rest)

/-- A root and a text in a message made without a source. -/
theorem messages_never_shrink_root :
    let p : Pointer := { message := 0, segment := 0, byteOffset := 0, depthLimit := 4 }
    let start : World := fun _ => { Message.fresh with arena := { kind := .SINGLE_SEGMENT, buffers := [List.replicate 64 0] } }
    ∃ w, [.initRoot 0 ⟨8, 1⟩, .setText 0 "text" p, .erase p].foldlM
        (Operation.completed 1 true (fun _ => [116, 101]) fun _ => "") start = some w ∧ (start 0).Grows (w 0) := by
  intro p start
  obtain ⟨w, done⟩ := Option.isSome_iff_exists.mp (show ([.initRoot 0 ⟨8, 1⟩, .setText 0 "text" p, .erase p].foldlM
    (Operation.completed 1 true (fun _ => [116, 101]) fun _ => "") start).isSome = true by decide +kernel)
  refine ⟨w, done, messages_never_shrink _ (by decide) ?_ done⟩
  intro operation member
  simp only [List.mem_cons, List.not_mem_nil, or_false] at member
  rcases member with rfl | rfl | rfl
  · exact List.not_mem_nil
  · exact List.not_mem_nil
  · exact List.not_mem_nil

end run

end CapnpEs
