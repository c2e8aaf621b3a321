import CapnpEs.Serialization.AllocationGuard
import CapnpEs.Serialization.Pointers.CopyFrames

/-! What a run that ends normally leaves of the messages: they stay well formed, and nothing in them shrinks. -/

namespace CapnpEs

open Outcome

namespace Message

structure Sound (m : Message) : Prop where
  wellFormed : m.WellFormed
  some : m.segments.length ≠ 0

/-- `m'` is as large as `m`, or larger. -/
structure Larger (m m' : Message) : Prop where
  sound : m'.Sound
  readonly : m'.readonly = m.readonly
  kind : m'.arena.kind = m.arena.kind
  traversalLimit : m'.traversalLimit ≤ m.traversalLimit
  length : m.segments.length ≤ m'.segments.length
  allocated : ∀ s, m.allocated s ≤ m'.allocated s
  capacity : ∀ s, m.capacity s ≤ m'.capacity s

/-- `m'` is `m` with other contents. -/
structure SameSize (m m' : Message) : Prop extends Larger m m' where
  sameLength : m'.segments.length = m.segments.length
  sameAllocated : ∀ s, m'.allocated s = m.allocated s
  sameCapacity : ∀ s, m'.capacity s = m.capacity s

variable {m m' : Message} {id : Nat}

theorem Sound.larger (sound : m.Sound) : Larger m m :=
  ⟨sound, rfl, rfl, Int.le_refl _, Nat.le_refl _, fun _ => Int.le_refl _, fun _ => Nat.le_refl _⟩

theorem Sound.sameSize (sound : m.Sound) : SameSize m m :=
  ⟨sound.larger, rfl, fun _ => rfl, fun _ => rfl⟩

theorem Larger.trans {m'' : Message} (first : Larger m m') (second : Larger m' m'') : Larger m m'' := by
  constructor
  · exact second.sound
  · rw [second.readonly, first.readonly]
  · rw [second.kind, first.kind]
  · exact Int.le_trans second.traversalLimit first.traversalLimit
  · exact Nat.le_trans first.length second.length
  · exact fun s => Int.le_trans (first.allocated s) (second.allocated s)
  · exact fun s => Nat.le_trans (first.capacity s) (second.capacity s)

theorem SameSize.trans {m'' : Message} (first : SameSize m m') (second : SameSize m' m'') : SameSize m m'' := by
  refine ⟨first.toLarger.trans second.toLarger, ?_, ?_, ?_⟩
  · rw [second.sameLength, first.sameLength]
  · intro s
    rw [second.sameAllocated, first.sameAllocated]
  · intro s
    rw [second.sameCapacity, first.sameCapacity]

theorem SameSize.charge (sound : m.Sound) : SameSize m m.charge := by
  refine ⟨⟨⟨sound.wellFormed.charge, sound.some⟩, rfl, rfl, ?_, Nat.le_refl _, fun _ => Int.le_refl _,
    fun _ => Nat.le_refl _⟩, rfl, fun _ => rfl, fun _ => rfl⟩
  rw [charge_traversalLimit]
  omega

theorem SameSize.setBuffer {s : Segment} {buffer : Bytes} (sound : m.Sound) (found : m.segments[id]? = some s)
    (length : buffer.length = s.buffer.length) : SameSize m (m.setSegment id { s with buffer := buffer }) := by
  have member := List.mem_of_getElem? found
  have wf := sound.wellFormed
  have changed := setSegment_getElem? (t := { s with buffer := buffer }) (List.getElem?_eq_some_iff.mp found).1
  have allocated (other : Nat) :
      (m.setSegment id { s with buffer := buffer }).allocated other = m.allocated other := by
    simp only [Message.allocated, changed]
    by_cases same : other = id
    · rw [if_pos same, same, found]
    · rw [if_neg same]
  have capacity (other : Nat) :
      (m.setSegment id { s with buffer := buffer }).capacity other = m.capacity other := by
    simp only [Message.capacity, changed]
    by_cases same : other = id
    · rw [if_pos same, same, found]
      exact length
    · rw [if_neg same]
  have segments : (m.setSegment id { s with buffer := buffer }).segments.length = m.segments.length := by
    simp [Message.setSegment]
  refine ⟨⟨⟨?_, ?_⟩, rfl, rfl, Int.le_refl _, Nat.le_of_eq segments.symm, fun s => Int.le_of_eq (allocated s).symm,
    fun s => Nat.le_of_eq (capacity s).symm⟩, segments, allocated, capacity⟩
  · have inside := wf.inside s member
    exact wf.setSegment (wf.nonneg s member) (wf.aligned s member) (by dsimp only; omega)
  · rw [segments]
    exact sound.some

theorem write_ends (view : Segment → Except CapnpError Bytes) (result : Segment → Bytes → Bytes) (sound : m.Sound)
    (length : ∀ s bytes, view s = .ok bytes → (result s bytes).length = s.buffer.length) {after : Message}
    (run : (do
      assertWritable
      let s ← Message.segment id
      let bytes ← ofExcept (view s)
      modify fun m => m.setSegment id { s with buffer := result s bytes } : MessageM Unit) m = .ok () after) :
    SameSize m after := by
  obtain ⟨_, same, writable, rest⟩ := bind_eq_ok.mp run
  have still := assertWritable_still m
  unfold Meets at still
  rw [writable] at still
  subst still
  obtain ⟨s, read, located, later⟩ := bind_eq_ok.mp rest
  have here := segment_meets id same
  unfold Meets at here
  rw [located] at here
  obtain ⟨rfl, found⟩ := here
  obtain ⟨bytes, last, viewed, changed⟩ := bind_eq_ok.mp later
  obtain ⟨fits, rfl⟩ := ofExcept_eq_ok.mp viewed
  cases changed
  exact SameSize.setBuffer sound found (length s bytes fits)

theorem setUint_ends {width : Nat} {byteOffset value : Int} {after : Message} (sound : m.Sound)
    (run : Message.setUint width id byteOffset value m = .ok () after) : SameSize m after := by
  apply write_ends (fun s => DataView.setUint width s.buffer byteOffset value) (fun _ bytes => bytes) sound ?_ run
  intro s bytes fits
  rw [DataView.setUint] at fits
  split at fits
  · cases fits
  · cases fits
    rw [LittleEndian.overwrite_length]
    rw [LittleEndian.encode_length]
    omega

theorem setWords_ends {byteOffset : Int} {words : Bytes} {after : Message} (sound : m.Sound)
    (whole : words.length % 8 = 0) (run : Message.setWords id byteOffset words m = .ok () after) :
    SameSize m after := by
  apply write_ends (fun s => wordsView s.buffer byteOffset (words.length / 8))
    (fun s _ => LittleEndian.overwrite s.buffer byteOffset.toNat words) sound ?_ run
  intro s view fits
  rw [wordsView] at fits
  split at fits
  · cases fits
  · obtain ⟨lower, _, inside, _⟩ := uint8View_eq_ok fits
    exact LittleEndian.overwrite_length (by omega)

theorem trackPointer_ends {byteOffset depthLimit : Int} {after : Message} (sound : m.Sound)
    (run : Message.trackPointer id byteOffset depthLimit m = .ok () after) : SameSize m after := by
  rw [trackPointer_ok run]
  exact SameSize.charge sound

theorem allocate_larger {byteLength : Int} {found : Nat × Int} {after : Message} (sound : m.Sound)
    (run : Message.allocate id byteLength m = .ok found after) : Larger m after := by
  obtain ⟨rounded, _, _, _, _, taken⟩ := allocate_ends sound.wellFormed run
  refine ⟨⟨taken.wellFormed, ?_⟩, taken.readonly, taken.kind, ?_, taken.length, ?_, taken.capacity⟩
  · have some := sound.some
    have longer := taken.length
    omega
  · rw [taken.traversalLimit]
    omega
  · intro s
    have grown := taken.allocated s
    split at grown <;> omega

end Message

namespace World

/-- What a normal end keeps of the messages that are in use. -/
def Larger (w w' : World) : Prop := ∀ message, (w message).Sound → (w message).Larger (w' message)

def SameSize (w w' : World) : Prop := ∀ message, (w message).Sound → (w message).SameSize (w' message)

instance : IsPreorder World Larger where
  refl _ _ sound := sound.larger
  trans _ _ _ first second message sound :=
    (first message sound).trans (second message (first message sound).sound)

instance : IsPreorder World SameSize where
  refl _ _ sound := sound.sameSize
  trans _ _ _ first second message sound :=
    (first message sound).trans (second message (first message sound).sound)

theorem SameSize.update {w : World} {message : Nat} {m : Message}
    (changed : (w message).Sound → (w message).SameSize m) : w.SameSize (Function.update w message m) := by
  intro other sound
  by_cases same : other = message
  · subst same
    rw [Function.update_self]
    exact changed sound
  · rw [Function.update_of_ne same]
    exact sound.sameSize

theorem SameSize.spend (w : World) (message count : Nat) : w.SameSize (w.spend message count) := by
  apply SameSize.update
  intro sound
  have wf := sound.wellFormed
  refine ⟨⟨⟨⟨wf.nonneg, wf.aligned, wf.inside, wf.wrapped, wf.single⟩, sound.some⟩, rfl, rfl, ?_, Nat.le_refl _,
    fun _ => Int.le_refl _, fun _ => Nat.le_refl _⟩, rfl, fun _ => rfl, fun _ => rfl⟩
  dsimp only
  omega

end World

theorem onMessage_ends {α : Type} {program : MessageM α} {message : Nat} {w after : World} {value : α}
    (run : onMessage message program w = .ok value after) :
    ∃ m, program (w message) = .ok value m ∧ after = Function.update w message m := by
  rw [onMessage] at run
  split at run
  · rename_i found m ended
    cases run
    exact ⟨m, ended, rfl⟩
  · cases run

theorem SameSize.onMessage {α : Type} {program : MessageM α} {message : Nat} {w after : World} {value : α}
    (each : ∀ {m}, (w message).Sound → program (w message) = .ok value m → (w message).SameSize m)
    (run : CapnpEs.onMessage message program w = .ok value after) : w.SameSize after := by
  obtain ⟨m, ended, rfl⟩ := onMessage_ends run
  exact World.SameSize.update fun sound => each sound ended

theorem Accessor.sameSize {α : Type} {program : WorldM α} (accessor : Accessor (fun _ => False) α program)
    {w after : World} {value : α} (run : program w = .ok value after) : w.SameSize after := by
  cases accessor with
  | get =>
      cases run
      exact refl_of World.SameSize w
  | segment message id =>
      refine SameSize.onMessage (fun sound ended => ?_) run
      have here := Message.segment_meets id (w message)
      unfold Meets at here
      rw [ended] at here
      rw [here.1]
      exact sound.sameSize
  | assertWritable message =>
      refine SameSize.onMessage (fun sound ended => ?_) run
      have still := Message.assertWritable_still (w message)
      unfold Meets at still
      rw [ended] at still
      rw [still]
      exact sound.sameSize
  | getSegment message id =>
      intro other sound
      by_cases same : other = message
      · subst same
        obtain ⟨_, rfl⟩ := onMessage_getSegment_ok run sound.some
        exact sound.sameSize
      · obtain ⟨m, _, rfl⟩ := onMessage_ends run
        rw [Function.update_of_ne same]
        exact sound.sameSize
  | trackPointer message id byteOffset depthLimit =>
      exact SameSize.onMessage (fun sound ended => Message.trackPointer_ends sound ended) run
  | getUint message width id byteOffset =>
      refine SameSize.onMessage (fun sound ended => ?_) run
      rw [Message.getUint] at ended
      obtain ⟨s, same, located, rest⟩ := bind_eq_ok.mp ended
      have here := Message.segment_meets id (w message)
      unfold Meets at here
      rw [located] at here
      obtain ⟨_, rfl⟩ := ofExcept_eq_ok.mp rest
      rw [here.1]
      exact sound.sameSize
  | setUint message width id byteOffset value =>
      exact SameSize.onMessage (fun sound ended => Message.setUint_ends sound ended) run
  | setWords message id byteOffset whole =>
      exact SameSize.onMessage (fun sound ended => Message.setWords_ends sound whole ended) run
  | addCap message client =>
      cases run
      apply World.SameSize.update
      intro sound
      exact ⟨⟨⟨⟨sound.wellFormed.nonneg, sound.wellFormed.aligned, sound.wellFormed.inside, sound.wellFormed.wrapped,
        sound.wellFormed.single⟩, sound.some⟩, rfl, rfl, Int.le_refl _, Nat.le_refl _, fun _ => Int.le_refl _, fun _ => Nat.le_refl _⟩,
        rfl, fun _ => rfl, fun _ => rfl⟩
  | allocate _ _ size => exact size.elim

theorem World.SameSize.larger {w w' : World} (same : w.SameSize w') : w.Larger w' :=
  fun message sound => (same message sound).toLarger

theorem Accessor.larger {allowed : Int → Prop} {α : Type} {program : WorldM α} (accessor : Accessor allowed α program)
    {w after : World} {value : α} (run : program w = .ok value after) : w.Larger after := by
  cases accessor with
  | allocate message id size =>
      intro other sound
      obtain ⟨m, ended, rfl⟩ := onMessage_ends run
      by_cases same : other = message
      · subst same
        rw [Function.update_self]
        exact Message.allocate_larger sound ended
      · rw [Function.update_of_ne same]
        exact sound.larger
  | get => exact (Accessor.get.sameSize run).larger
  | segment message id => exact ((Accessor.segment message id).sameSize run).larger
  | assertWritable message => exact ((Accessor.assertWritable message).sameSize run).larger
  | getSegment message id => exact ((Accessor.getSegment message id).sameSize run).larger
  | trackPointer message id byteOffset depthLimit =>
      exact ((Accessor.trackPointer message id byteOffset depthLimit).sameSize run).larger
  | getUint message width id byteOffset =>
      exact ((Accessor.getUint message width id byteOffset).sameSize run).larger
  | setUint message width id byteOffset number =>
      exact ((Accessor.setUint message width id byteOffset number).sameSize run).larger
  | setWords message id byteOffset whole =>
      exact ((Accessor.setWords message id byteOffset whole).sameSize run).larger
  | addCap message client => exact ((Accessor.addCap message client).sameSize run).larger

theorem sameSize_of_uses {α : Type} {program : WorldM α} (uses : Uses (fun _ => False) program) {w after : World}
    {value : α} (run : program w = .ok value after) : w.SameSize after :=
  Built.ends (fun accessor _ _ _ ran => accessor.sameSize ran) uses run

theorem larger_of_uses {α : Type} {program : WorldM α} (uses : Uses (fun _ => True) program)
    {w after : World} {value : α} (run : program w = .ok value after) : w.Larger after :=
  Built.ends (fun accessor _ _ _ ran => accessor.larger ran) uses run

end CapnpEs
