import CapnpEs.Serialization.Pointers.Accessors
import CapnpEs.Serialization.Pointers.PointerRoundTrip

/-! What erasing and copying leave alone, whatever the pointers lead to: the allocated length of every segment
that nothing is copied into. -/

namespace CapnpEs

open Outcome

namespace Message

/-- What no accessor can break, not even with lengths that no writer leaves behind. -/
structure Whole (m : Message) : Prop where
  aligned : ∀ s ∈ m.segments, s.byteLength % 8 = 0
  wrapped : m.arena.buffers = []
  single : m.arena.kind = .SINGLE_SEGMENT → m.segments.length = 1

theorem WellFormed.whole {m : Message} (wf : m.WellFormed) : m.Whole := ⟨wf.aligned, wf.wrapped, wf.single⟩

/-- `m` becomes `m'`, and nothing is allocated in one of its segments. -/
structure Spares (segment : Nat) (m m' : Message) : Prop where
  whole : m.Whole → m'.Whole
  kind : m'.arena.kind = m.arena.kind
  length : m.segments.length ≤ m'.segments.length
  allocated : m.Whole → m.arena.kind = .MULTI_SEGMENT → segment < m.segments.length →
    m'.allocated segment = m.allocated segment

variable {m m' : Message} {segment id : Nat}

theorem Spares.refl (segment : Nat) (m : Message) : Spares segment m m :=
  ⟨fun whole => whole, rfl, Nat.le_refl _, fun _ _ _ => rfl⟩

theorem Spares.trans {m'' : Message} (first : Spares segment m m') (second : Spares segment m' m'') :
    Spares segment m m'' := by
  constructor
  · intro whole
    exact second.whole (first.whole whole)
  · rw [second.kind, first.kind]
  · exact Nat.le_trans first.length second.length
  · intro whole multi bound
    have later := second.allocated (first.whole whole) (first.kind.trans multi)
      (Nat.lt_of_lt_of_le bound first.length)
    rw [later, first.allocated whole multi bound]

instance (segment : Nat) : IsPreorder Message (Spares segment) where
  refl := Spares.refl segment
  trans _ _ _ := Spares.trans

theorem Spares.charge (segment : Nat) (m : Message) : Spares segment m m.charge :=
  ⟨fun whole => ⟨whole.aligned, whole.wrapped, whole.single⟩, rfl, Nat.le_refl _, fun _ _ _ => rfl⟩

theorem Whole.setSegment {t : Segment} (whole : m.Whole) (aligned : t.byteLength % 8 = 0) :
    (m.setSegment id t).Whole := by
  constructor
  · intro s member
    rcases List.mem_or_eq_of_mem_set member with old | rfl
    · exact whole.aligned s old
    · exact aligned
  · exact whole.wrapped
  · simpa [Message.setSegment] using whole.single

theorem Spares.setBuffer {s : Segment} (found : m.segments[id]? = some s) (buffer : Bytes) (segment : Nat) :
    Spares segment m (m.setSegment id { s with buffer := buffer }) := by
  have member : s ∈ m.segments := List.mem_of_getElem? found
  constructor
  · intro whole
    exact whole.setSegment (whole.aligned s member)
  · rfl
  · simp [Message.setSegment]
  · intro _ _ _
    simp only [Message.allocated, setSegment_getElem? (List.getElem?_eq_some_iff.mp found).1]
    by_cases same : segment = id
    · rw [if_pos same, same, found]
    · rw [if_neg same]

end Message

/-- A program that leaves the state it runs from as it was. -/
def Still {σ α : Type} (program : EStateM CapnpError σ α) : Prop :=
  ∀ state, Meets program state (fun _ after => after = state) fun _ after => after = state

theorem Still.moves {σ α : Type} {R : σ → σ → Prop} [IsPreorder σ R] {program : EStateM CapnpError σ α}
    (still : Still program) : Moves R program := by
  intro state
  apply (still state).mono
  · rintro _ after rfl
    exact refl_of R after
  · rintro _ after rfl
    exact refl_of R after

theorem moves_ofExcept {σ α : Type} {R : σ → σ → Prop} [IsPreorder σ R] (result : Except CapnpError α) :
    Moves R (ofExcept result : EStateM CapnpError σ α) := by
  cases result with
  | ok value => exact Moves.pure value
  | error reason => exact Moves.throw reason

namespace Message

variable {m : Message} {segment : Nat}

theorem segment_meets (id : Nat) (m : Message) :
    Meets (Message.segment id) m (fun s after => after = m ∧ m.segments[id]? = some s) fun _ after => after = m := by
  unfold Message.segment Meets
  cases found : m.segments[id]? with
  | none => simp [found]
  | some s => simp [found]

theorem segment_still (id : Nat) : Still (Message.segment id) := by
  intro m
  apply (segment_meets id m).mono
  · intro s after read
    exact read.1
  · intro _ after same
    exact same

theorem assertWritable_still : Still Message.assertWritable := by
  intro m
  unfold Message.assertWritable Meets
  by_cases readonly : m.readonly = true
  · simp [readonly]
  · simp [readonly]

theorem getUint_spares (width id : Nat) (byteOffset : Int) : Moves (Spares segment) (getUint width id byteOffset) :=
  Moves.bind (segment_still id).moves fun _ => moves_ofExcept _

theorem write_spares (id : Nat) (view : Segment → Except CapnpError Bytes) (result : Segment → Bytes → Bytes) :
    Moves (Spares segment) (do
      assertWritable
      let s ← Message.segment id
      let bytes ← ofExcept (view s)
      modify fun m => m.setSegment id { s with buffer := result s bytes }) := by
  apply Moves.bind assertWritable_still.moves
  intro _ m
  apply Meets.bind
  apply (segment_meets id m).mono
  · rintro s after ⟨rfl, found⟩
    cases view s with
    | ok bytes => exact Spares.setBuffer found _ segment
    | error reason => exact Spares.refl segment after
  · rintro _ after rfl
    exact Spares.refl segment after

theorem setUint_spares (width id : Nat) (byteOffset value : Int) :
    Moves (Spares segment) (setUint width id byteOffset value) :=
  write_spares id (fun s => DataView.setUint width s.buffer byteOffset value) fun _ buffer => buffer

theorem setWords_spares (id : Nat) (byteOffset : Int) (words : Bytes) :
    Moves (Spares segment) (setWords id byteOffset words) :=
  write_spares id (fun s => wordsView s.buffer byteOffset (words.length / 8)) fun s _ =>
    LittleEndian.overwrite s.buffer byteOffset.toNat words

theorem trackPointer_spares (id : Nat) (byteOffset depthLimit : Int) :
    Moves (Spares segment) (trackPointer id byteOffset depthLimit) := by
  unfold trackPointer
  split
  · exact Moves.throw _
  · apply Moves.bind (Moves.modify fun m => Spares.charge segment m)
    intro _
    apply Moves.get
    intro m
    split
    · exact Spares.refl segment m
    · apply Moves.follow ((segment_still id).moves m)
      intro s
      split
      · exact Moves.throw _
      · exact Moves.pure _

theorem replaceBuffer_spares (id : Nat) (buffer : Bytes) : Moves (Spares segment) (replaceBuffer id buffer) := by
  intro m
  apply Meets.bind
  apply (segment_meets id m).mono
  · rintro s after ⟨rfl, found⟩
    apply Meets.bind
    apply (assertWritable_still after).mono
    · rintro _ same rfl
      split
      · exact Spares.refl segment same
      · exact Spares.setBuffer found buffer segment
    · rintro _ same rfl
      exact Spares.refl segment same
  · rintro _ after rfl
    exact Spares.refl segment after

theorem Spares.of_empty {m' : Message} {other : Nat} (spares : Spares other m m') (empty : m.segments.length = 0) :
    Spares segment m m' := by
  refine ⟨spares.whole, spares.kind, spares.length, ?_⟩
  intro _ _ bound
  omega

theorem Spares.append (segment : Nat) (m : Message) (buffer : Bytes) (multi : m.Whole → m.arena.kind ≠ .SINGLE_SEGMENT) :
    Spares segment m { m with
      segments := m.segments ++ [{ buffer := buffer, byteLength := 0 }]
      arena := { m.arena with buffers := [] } } := by
  constructor
  · intro whole
    refine ⟨?_, rfl, fun single => absurd single (multi whole)⟩
    intro s member
    rcases List.mem_append.mp member with old | new
    · exact whole.aligned s old
    · rw [List.mem_singleton.mp new]
      rfl
  · rfl
  · simp
  · intro _ _ bound
    simp only [Message.allocated, List.getElem?_append_left bound]

theorem allocateSegment_meets (byteLength : Int) (m : Message) :
    Meets (allocateSegment byteLength) m
      (fun id after => (m.Whole → id = m.freshSegment) ∧ ∀ segment, Spares segment m after)
      fun _ after => ∀ segment, Spares segment m after := by
  unfold allocateSegment
  apply Meets.get
  cases found : Arena.allocate byteLength m with
  | error reason => exact fun segment => Spares.refl segment m
  | ok res =>
      have number : res.1 = if m.arena.kind = .MULTI_SEGMENT then m.segments.length + m.arena.buffers.length else 0 := by
        rw [Arena.allocate] at found
        cases kind : m.arena.kind with
        | MULTI_SEGMENT =>
            rw [kind] at found
            obtain ⟨buffer, _, rest⟩ := Outcome.except_bind_eq_ok.mp found
            cases rest
            simp [Arena.getNumSegments, kind]
        | SINGLE_SEGMENT =>
            rw [kind] at found
            obtain ⟨srcBuffer, _, rest⟩ := Outcome.except_bind_eq_ok.mp found
            obtain ⟨buffer, _, rest⟩ := Outcome.except_bind_eq_ok.mp rest
            obtain ⟨filled, _, rest⟩ := Outcome.except_bind_eq_ok.mp rest
            cases rest
            rfl
      have fresh : m.Whole → res.1 = m.freshSegment := by
        intro whole
        rw [number, freshSegment]
        cases kind : m.arena.kind with
        | MULTI_SEGMENT => simp [whole.wrapped]
        | SINGLE_SEGMENT => rfl
      change Meets (if res.1 = m.segments.length then _ else if res.1 > m.segments.length then _ else _) m _ _
      split
      · rename_i last
        refine ⟨fresh, fun segment => Spares.append segment m res.2 ?_⟩
        intro whole single
        have one := whole.single single
        rw [single, if_neg (by decide)] at number
        omega
      · split
        · exact fun segment => Spares.refl segment m
        · have replaced : ∀ segment, Moves (Spares segment) (replaceBuffer res.1 res.2) := fun segment =>
            replaceBuffer_spares res.1 res.2
          unfold Meets
          rw [bind_apply]
          have kept := fun segment => replaced segment m
          unfold Meets at kept
          cases run : replaceBuffer res.1 res.2 m with
          | ok _ after =>
              rw [run] at kept
              exact ⟨fresh, kept⟩
          | error reason after =>
              rw [run] at kept
              exact kept

theorem freshSegment_ge (multi : m.arena.kind = .MULTI_SEGMENT) : m.segments.length ≤ m.freshSegment := by
  rw [freshSegment, multi]

theorem allocate_meets (id : Nat) (byteLength : Int) (m : Message) :
    Meets (allocate id byteLength) m
      (fun found after => (m.Whole → found.1 = id ∨ found.1 = m.freshSegment) ∧ ∀ segment,
        (m.Whole → m.arena.kind = .MULTI_SEGMENT → segment < m.segments.length → segment ≠ found.1) →
          Spares segment m after)
      fun _ after => ∀ segment,
        (m.Whole → m.arena.kind = .MULTI_SEGMENT → segment < m.segments.length → segment ≠ id) →
          Spares segment m after := by
  unfold allocate
  apply Meets.bind
  apply (assertWritable_still m).mono
  · rintro _ same rfl
    dsimp only
    split
    · exact fun segment _ => Spares.refl segment same
    · apply Meets.bind
      apply (segment_meets id same).mono
      · rintro s after ⟨rfl, found⟩
        have chosen : Meets (if s.hasCapacity (padToWord byteLength) then pure id
            else allocateSegment (padToWord byteLength)) after
            (fun there grown => (after.Whole → there = id ∨ there = after.freshSegment) ∧
              ∀ segment, Spares segment after grown)
            fun _ grown => ∀ segment, Spares segment after grown := by
          split
          · exact ⟨fun _ => Or.inl rfl, fun segment => Spares.refl segment after⟩
          · apply (allocateSegment_meets (padToWord byteLength) after).mono
            · rintro there grown ⟨fresh, spares⟩
              exact ⟨fun whole => Or.inr (fresh whole), spares⟩
            · rintro _ grown spares
              exact spares
        apply Meets.bind
        apply chosen.mono
        · rintro there grown ⟨place, spares⟩
          apply Meets.bind
          apply (segment_meets there grown).mono
          · rintro t read ⟨rfl, located⟩
            have bound := (List.getElem?_eq_some_iff.mp located).1
            have placed : ∀ segment, (after.Whole → after.arena.kind = .MULTI_SEGMENT →
                segment < after.segments.length → segment ≠ there) →
                Spares segment after
                  (read.setSegment there { t with byteLength := t.byteLength + padToWord byteLength }) := by
              intro segment other
              constructor
              · intro whole
                apply ((spares segment).whole whole).setSegment
                have multiple := padToWord_emod byteLength
                have words := ((spares segment).whole whole).aligned t (List.mem_of_getElem? located)
                dsimp only
                omega
              · exact (spares segment).kind
              · simpa [Message.setSegment] using (spares segment).length
              · intro whole multi inside
                rw [← (spares segment).allocated whole multi inside]
                simp only [Message.allocated, setSegment_getElem? bound]
                rw [if_neg (other whole multi inside)]
            apply Meets.bind
            change Meets _ (read.setSegment there { t with byteLength := t.byteLength + padToWord byteLength }) _ _
            have tracked := fun segment => @trackPointer_spares segment there t.byteLength
              DEFAULT_DEPTH_LIMIT
              (read.setSegment there { t with byteLength := t.byteLength + padToWord byteLength })
            unfold Meets at tracked ⊢
            rw [bind_apply]
            cases run : trackPointer there t.byteLength DEFAULT_DEPTH_LIMIT
                (read.setSegment there { t with byteLength := t.byteLength + padToWord byteLength }) with
            | ok _ last =>
                rw [run] at tracked
                refine ⟨place, ?_⟩
                intro segment other
                exact (placed segment other).trans (tracked segment)
            | error reason last =>
                rw [run] at tracked
                intro segment other
                refine (placed segment ?_).trans (tracked segment)
                intro whole multi inside
                rcases place whole with rfl | rfl
                · exact other whole multi inside
                · have beyond := freshSegment_ge multi
                  omega
          · rintro _ read rfl
            exact fun segment _ => spares segment
        · rintro _ grown spares
          exact fun segment _ => spares segment
      · rintro _ after rfl
        exact fun segment _ => Spares.refl segment after
  · rintro _ same rfl
    exact fun segment _ => Spares.refl segment same

/-- What `getSegment` does once it has made the first segment. -/
theorem reserveRoot_spares {grown : Message} (spares : ∀ segment, Spares segment m grown)
    (empty : m.segments.length = 0) :
    Meets (do
      let s ← Message.segment 0
      if !s.hasCapacity 8 then
        throw .MSG_SEGMENT_TOO_SMALL
      else
        let _ ← allocate 0 8
        return 0) grown (fun _ after => Spares segment m after) fun _ after => Spares segment m after := by
  apply Meets.bind
  apply (segment_meets 0 grown).mono
  · rintro s same ⟨rfl, _⟩
    split
    · exact spares segment
    · have beyond : ∀ after, Spares same.segments.length same after → Spares segment m after := fun after later =>
        ((spares same.segments.length).trans later).of_empty empty
      apply Meets.bind
      apply (allocate_meets 0 8 same).mono
      · rintro _ after ⟨_, kept⟩
        exact beyond after (kept same.segments.length fun _ _ inside => absurd inside (Nat.lt_irrefl _))
      · intro _ after kept
        exact beyond after (kept same.segments.length fun _ _ inside => absurd inside (Nat.lt_irrefl _))
  · rintro _ same rfl
    exact spares segment

theorem getSegment_spares (id : Nat) : Moves (Spares segment) (getSegment id) := by
  intro m
  unfold getSegment
  apply Meets.get
  split
  · rename_i first
    split
    · apply Meets.bind
      apply (allocateSegment_meets DEFAULT_BUFFER_SIZE m).mono
      · rintro _ grown ⟨_, spares⟩
        exact reserveRoot_spares spares first.2
      · rintro _ grown spares
        exact spares segment
    · rename_i some
      have broken : ¬ m.Whole := by
        intro whole
        apply some
        rw [Arena.getNumSegments]
        cases kind : m.arena.kind with
        | MULTI_SEGMENT => simp [first.2, whole.wrapped]
        | SINGLE_SEGMENT =>
            have one := whole.single kind
            omega
      apply Meets.bind
      cases Arena.getBuffer 0 m with
      | error reason => exact Spares.refl segment m
      | ok buffer =>
          apply @reserveRoot_spares m segment { m with
            segments := [{ buffer := buffer, byteLength := 0 }]
            arena := { m.arena with buffers := m.arena.buffers.tail } } ?_ first.2
          intro segment
          refine ⟨fun whole => absurd whole broken, rfl, ?_, fun whole => absurd whole broken⟩
          rw [first.2]
          exact Nat.zero_le _
  · split
    · exact Spares.refl segment m
    · exact Spares.refl segment m

end Message

def World.Spares (message segment : Nat) (w w' : World) : Prop := (w message).Spares segment (w' message)

instance (message segment : Nat) : IsPreorder World (World.Spares message segment) where
  refl w := Message.Spares.refl segment (w message)
  trans _ _ _ := Message.Spares.trans

variable {message segment : Nat}

theorem World.Spares.update {w : World} {other : Nat} {m : Message} (spares : (w other).Spares segment m) :
    w.Spares message segment (Function.update w other m) := by
  unfold World.Spares
  by_cases same : message = other
  · subst same
    rw [Function.update_self]
    exact spares
  · rw [Function.update_of_ne same]
    exact Message.Spares.refl segment _

theorem onMessage_spares {α : Type} (other : Nat) {run : MessageM α} (spares : Moves (Message.Spares segment) run) :
    Moves (World.Spares message segment) (onMessage other run) := by
  intro w
  have kept := spares (w other)
  unfold Meets onMessage at *
  cases ran : run (w other) with
  | ok value m =>
      rw [ran] at kept
      exact World.Spares.update kept
  | error reason m =>
      rw [ran] at kept
      exact World.Spares.update kept

theorem Accessor.spares {α : Type} {program : WorldM α} (accessor : Accessor (fun _ => False) α program) :
    Moves (World.Spares message segment) program := by
  cases accessor with
  | get => exact fun w => Message.Spares.refl segment _
  | segment other id => exact onMessage_spares other (Message.segment_still id).moves
  | assertWritable other => exact onMessage_spares other Message.assertWritable_still.moves
  | getSegment other id => exact onMessage_spares other (Message.getSegment_spares id)
  | trackPointer other id byteOffset depthLimit =>
      exact onMessage_spares other (Message.trackPointer_spares id byteOffset depthLimit)
  | getUint other width id byteOffset => exact onMessage_spares other (Message.getUint_spares width id byteOffset)
  | setUint other width id byteOffset value =>
      exact onMessage_spares other (Message.setUint_spares width id byteOffset value)
  | setWords other id byteOffset _ => exact onMessage_spares other (Message.setWords_spares id byteOffset _)
  | addCap other client =>
      intro w
      apply World.Spares.update
      exact ⟨fun whole => ⟨whole.aligned, whole.wrapped, whole.single⟩, rfl, Nat.le_refl _, fun _ _ _ => rfl⟩
  | allocate _ _ size => exact size.elim

theorem spares_of_uses {α : Type} {program : WorldM α} (uses : Uses (fun _ => False) program) :
    Moves (World.Spares message segment) program :=
  uses.moves Accessor.spares

/-! Copying. -/

structure Message.Has (m : Message) (segment : Nat) : Prop where
  whole : m.Whole
  multi : m.arena.kind = .MULTI_SEGMENT
  bound : segment < m.segments.length

/-- Of a message of several segments one is left as long as it was. -/
def World.Leaves (message segment : Nat) (w w' : World) : Prop :=
  (w message).Has segment →
    (w' message).Has segment ∧ (w' message).allocated segment = (w message).allocated segment

instance (message segment : Nat) : IsPreorder World (World.Leaves message segment) where
  refl _ has := ⟨has, rfl⟩
  trans := by
    intro first second third sooner later has
    obtain ⟨still, same⟩ := sooner has
    obtain ⟨last, again⟩ := later still
    exact ⟨last, again.trans same⟩

theorem World.Spares.leaves {w w' : World} (spares : w.Spares message segment w') : w.Leaves message segment w' := by
  intro has
  refine ⟨⟨spares.whole has.whole, spares.kind.trans has.multi, ?_⟩, spares.allocated has.whole has.multi has.bound⟩
  exact Nat.lt_of_lt_of_le has.bound spares.length

theorem leaves_of_spares {α : Type} {program : WorldM α} (spares : Moves (World.Spares message segment) program) :
    Moves (World.Leaves message segment) program := by
  intro w
  apply (spares w).mono
  · intro _ after kept
    exact World.Spares.leaves kept
  · intro _ after kept
    exact World.Spares.leaves kept

theorem leaves_of_uses {α : Type} {program : WorldM α} (uses : Uses (fun _ => False) program) :
    Moves (World.Leaves message segment) program :=
  leaves_of_spares (spares_of_uses uses)

namespace Pointer

/-- `p` lies in another segment. -/
def Off (message segment : Nat) (p : Pointer) : Prop := p.message = message → p.segment ≠ segment

/-- Where the content of a copy into `dst` has been allocated. -/
structure Placed (dst : Pointer) (w : World) (c : Pointer) (after : World) : Prop where
  message : c.message = dst.message
  off : ∀ message segment, (w message).Has segment → Off message segment dst → Off message segment c
  single : (w dst.message).Whole → (w dst.message).arena.kind = .SINGLE_SEGMENT →
    dst.segment < (w dst.message).segments.length → c.segment = dst.segment
  leaves : ∀ message segment, ((w message).Has segment → Off message segment c) → w.Leaves message segment after

/-- A failure too leaves the segments that are not asked for as they were. -/
def Fails (dst : Pointer) (w after : World) : Prop :=
  ∀ message segment, Off message segment dst → w.Leaves message segment after

theorem allocate_places (dst : Pointer) (byteLength : Int) (w : World) :
    Meets (dst.allocate byteLength) w (fun c after => Placed dst w c after) fun _ after => Fails dst w after := by
  have found := Message.allocate_meets dst.segment byteLength (w dst.message)
  unfold allocate
  apply Meets.bind
  unfold Meets onMessage at *
  cases run : Message.allocate dst.segment byteLength (w dst.message) with
  | ok place m =>
      rw [run] at found
      obtain ⟨located, spares⟩ := found
      constructor
      · rfl
      · intro message segment has off here
        have there : dst.message = message := here
        subst there
        rcases located has.whole with old | new
        · change place.1 ≠ segment
          rw [old]
          exact off rfl
        · have beyond := Message.freshSegment_ge has.multi
          have bound := has.bound
          change place.1 ≠ segment
          omega
      · intro whole single bound
        have one := whole.single single
        change place.1 = dst.segment
        rcases located whole with old | new
        · exact old
        · rw [Message.freshSegment, single] at new
          dsimp only at new
          omega
      · intro message segment off has
        by_cases same : message = dst.message
        · subst same
          refine World.Spares.leaves (World.Spares.update (spares segment ?_)) has
          intro _ _ _ landed
          exact off has rfl landed.symm
        · simp only [Function.update_of_ne same]
          exact ⟨has, trivial⟩
  | error reason m =>
      rw [run] at found
      intro message segment off has
      by_cases same : message = dst.message
      · subst same
        refine World.Spares.leaves (World.Spares.update (found segment ?_)) has
        intro _ _ _ landed
        exact off rfl landed.symm
      · simp only [Function.update_of_ne same]
        exact ⟨has, trivial⟩

theorem Placed.follow {dst c : Pointer} {w middle : World} {α : Type} {rest : WorldM α} (placed : Placed dst w c middle)
    (off : Off message segment dst) (rests : Off message segment c → Moves (World.Leaves message segment) rest) :
    Meets rest middle (fun _ after => w.Leaves message segment after) fun _ after => w.Leaves message segment after := by
  by_cases has : (w message).Has segment
  · have apart := placed.off message segment has off
    have sooner := placed.leaves message segment fun _ => apart
    apply (rests apart middle).mono
    · intro _ after later
      exact trans_of (World.Leaves message segment) sooner later
    · intro _ after later
      exact trans_of (World.Leaves message segment) sooner later
  · unfold Meets
    split
    · exact fun here => absurd here has
    · exact fun here => absurd here has

theorem allocate_follow {α : Type} {p : Pointer} {byteLength : Int} {rest : Pointer → WorldM α}
    (off : Off message segment p)
    (rests : ∀ c, Off message segment c → Moves (World.Leaves message segment) (rest c)) :
    Moves (World.Leaves message segment) (p.allocate byteLength >>= rest) := by
  intro w
  apply Meets.bind
  apply (p.allocate_places byteLength w).mono
  · intro c middle placed
    exact placed.follow off (rests c)
  · intro _ after fails
    exact fails message segment off

theorem allocate_fill {dst : Pointer} {byteLength : Int} {fill : Pointer → WorldM Unit}
    (fills : ∀ message segment c, Off message segment c → Moves (World.Leaves message segment) (fill c)) (w : World) :
    Meets (do
      let c ← dst.allocate byteLength
      fill c
      return c) w (fun c after => Placed dst w c after) fun _ after => Fails dst w after := by
  apply Meets.bind
  apply (dst.allocate_places byteLength w).mono
  · intro c middle placed
    unfold Meets
    rw [bind_apply]
    have moves := fun message segment off => fills message segment c off middle
    unfold Meets at moves
    cases run : fill c middle with
    | ok _ after =>
        rw [run] at moves
        refine ⟨placed.message, placed.off, placed.single, ?_⟩
        intro message segment off has
        exact trans_of (World.Leaves message segment) (placed.leaves message segment off)
          (moves message segment (off has)) has
    | error reason after =>
        rw [run] at moves
        intro message segment off has
        have apart := placed.off message segment has off
        exact trans_of (World.Leaves message segment) (placed.leaves message segment fun _ => apart)
          (moves message segment apart) has
  · intro _ after fails
    exact fails

theorem Placed.of_spares {dst c : Pointer} {w middle after : World}
    (spares : ∀ message segment, w.Spares message segment middle) (placed : Placed dst middle c after) :
    Placed dst w c after := by
  have has : ∀ message segment, (w message).Has segment → (middle message).Has segment := by
    intro message segment here
    exact ((spares message segment).leaves here).1
  constructor
  · exact placed.message
  · intro message segment here
    exact placed.off message segment (has message segment here)
  · intro whole single bound
    have kept := spares dst.message dst.segment
    exact placed.single (kept.whole whole) (kept.kind.trans single) (Nat.lt_of_lt_of_le bound kept.length)
  · intro message segment off here
    exact trans_of (World.Leaves message segment) (spares message segment).leaves
      (placed.leaves message segment fun _ => off here) here

theorem Fails.of_spares {dst : Pointer} {w middle after : World}
    (spares : ∀ message segment, w.Spares message segment middle) (fails : Fails dst middle after) :
    Fails dst w after := by
  intro message segment off
  exact trans_of (World.Leaves message segment) (spares message segment).leaves (fails message segment off)

theorem initPointer_leaves {p : Pointer} (off : Off message segment p) {contentSegment : Nat} (contentOffset : Int)
    (apart : p.message = message → contentSegment ≠ segment) :
    Moves (World.Leaves message segment) (initPointer p.message contentSegment contentOffset p) := by
  unfold initPointer
  split
  · apply Moves.bind (leaves_of_uses (Built.basic (.segment ..)))
    intro s
    split
    · apply allocate_follow off
      intro landingPad _
      apply Moves.bind (leaves_of_uses (setFarPointer_uses _ _ _ p))
      intro _
      exact Moves.bind (leaves_of_uses (setFarPointer_uses _ _ _ landingPad)) fun _ => Moves.pure _
    · have landed : Moves (World.Leaves message segment) (do
          let landingPad ← Pointer.allocate (fresh p.message contentSegment 0) 8
          if landingPad.segment ≠ contentSegment then
            throw .INVARIANT_UNREACHABLE_CODE
          setFarPointer false (landingPad.byteOffset.tdiv 8) landingPad.segment p
          return (⟨landingPad, (contentOffset - landingPad.byteOffset - 8).tdiv 8⟩ : PointerAllocationResult)) := by
        apply allocate_follow (p := fresh p.message contentSegment 0) apart
        intro landingPad _
        split
        · exact Moves.bind (Moves.throw _) fun _ =>
            Moves.bind (leaves_of_uses (setFarPointer_uses _ _ _ p)) fun _ => Moves.pure _
        · exact Moves.bind (leaves_of_uses (setFarPointer_uses _ _ _ p)) fun _ => Moves.pure _
      unfold Pointer.allocate at landed
      rw [bind_assoc] at landed
      exact landed
  · exact Moves.pure _

section copy

variable {copyNext : Pointer → Pointer → WorldM Unit}
  (leaves : ∀ src dst, Off message segment dst → Moves (World.Leaves message segment) (copyNext src dst))

theorem newPointer_follow {α : Type} {other id : Nat} {byteOffset depthLimit : Int} {rest : Pointer → WorldM α}
    (rests : ∀ c : Pointer, c.message = other → c.segment = id → Moves (World.Leaves message segment) (rest c)) :
    Moves (World.Leaves message segment) (newPointer other id byteOffset depthLimit >>= rest) := by
  unfold newPointer
  rw [bind_assoc]
  apply Moves.bind (leaves_of_uses (Built.basic (.trackPointer ..)))
  intro _
  exact rests _ rfl rfl

include leaves

theorem copyPointerAt_leaves (src dst srcContent : Pointer) {dstContent : Pointer} (off : Off message segment dstContent)
    (offset : Int) :
    Moves (World.Leaves message segment) (copyPointerAt copyNext src dst srcContent dstContent offset) := by
  apply Moves.bind (leaves_of_uses (newPointer_uses _ _ _ _))
  intro srcPtr
  apply newPointer_follow
  intro dstPtr sameMessage sameSegment
  apply leaves
  rw [Off, sameMessage, sameSegment]
  exact off

theorem copyElementPointer_leaves (src dst srcContent : Pointer) {dstContent : Pointer}
    (off : Off message segment dstContent) (offset : Int) :
    Moves (World.Leaves message segment) (copyElementPointer copyNext src dst srcContent dstContent offset) := by
  apply Moves.bind (leaves_of_uses (newPointer_uses _ _ _ _))
  intro srcPtr
  apply newPointer_follow
  intro dstPtr sameMessage sameSegment
  apply Moves.bind (leaves_of_uses (dstPtr.setWordZero_uses _))
  intro _
  apply leaves
  rw [Off, sameMessage, sameSegment]
  exact off

theorem fillCompositeList_leaves (src dst srcContent : Pointer) (srcLength : Int) (srcCompositeSize : ObjectSize)
    {dstContent : Pointer} (off : Off message segment dstContent) :
    Moves (World.Leaves message segment)
      (fillCompositeList copyNext src dst srcContent srcLength srcCompositeSize dstContent) := by
  apply Moves.bind (leaves_of_uses (dstContent.copyWord_uses _ _ _))
  intro _
  apply Moves.bind
  · split
    · exact leaves_of_uses (dstContent.copyWordsOf_uses _ _ _ _)
    · exact Moves.pure _
  · intro _
    apply Moves.forM
    intro i _
    apply Moves.forM
    intro j _
    exact copyElementPointer_leaves leaves src dst srcContent off _

theorem fillStruct_leaves (src dst : Pointer) (srcSize : ObjectSize) (srcContent : Pointer) {dstContent : Pointer}
    (off : Off message segment dstContent) :
    Moves (World.Leaves message segment) (fillStruct copyNext src dst srcSize srcContent dstContent) := by
  apply Moves.bind (leaves_of_uses (dstContent.copyWords_uses _ _ _ _))
  intro _
  apply Moves.forM
  intro i _
  exact copyPointerAt_leaves leaves src dst srcContent off _

end copy

section content

variable {copyNext : Pointer → Pointer → WorldM Unit}
  (leaves : ∀ message segment src dst, Off message segment dst →
    Moves (World.Leaves message segment) (copyNext src dst))
include leaves

theorem copyPointerList_places (src dst srcContent : Pointer) (srcLength : Int) (w : World) :
    Meets (copyPointerList copyNext src dst srcContent srcLength) w (fun c after => Placed dst w c after)
      fun _ after => Fails dst w after := by
  apply allocate_fill
  intro message segment c off
  apply Moves.forM
  intro i _
  exact copyPointerAt_leaves (leaves message segment) src dst srcContent off _

theorem copyCompositeList_places (src dst srcContent : Pointer) (srcLength : Int) (srcCompositeSize : ObjectSize)
    (w : World) :
    Meets (copyCompositeList copyNext src dst srcContent srcLength srcCompositeSize) w
      (fun c after => Placed dst w c after) fun _ after => Fails dst w after := by
  apply allocate_fill
  intro message segment c off
  exact fillCompositeList_leaves (leaves message segment) src dst srcContent srcLength srcCompositeSize off

theorem copyStructContent_places (src dst : Pointer) (srcSize : ObjectSize) (srcContent : Pointer) (w : World) :
    Meets (copyStructContent copyNext src dst srcSize srcContent) w (fun c after => Placed dst w c after)
      fun _ after => Fails dst w after := by
  apply allocate_fill
  intro message segment c off
  exact fillStruct_leaves (leaves message segment) src dst srcSize srcContent off

omit leaves in
theorem copyDataList_places (dst srcContent : Pointer) (srcElementSize : ListElementSize) (srcLength : Int)
    (w : World) :
    Meets (copyDataList dst srcContent srcElementSize srcLength) w (fun c after => Placed dst w c after)
      fun _ after => Fails dst w after := by
  apply allocate_fill
  intro message segment c _
  exact leaves_of_uses (c.copyWords_uses _ _ _ _)

theorem copyListContent_places (src dst : Pointer) (srcElementSize : ListElementSize) (srcLength : Int)
    (srcContent : Pointer) (w : World) :
    Meets (copyListContent copyNext src dst srcElementSize srcLength srcContent) w
      (fun content after => Placed dst w content.1 after ∧ (srcElementSize = .COMPOSITE → content.2 ≠ none))
      fun _ after => Fails dst w after := by
  unfold copyListContent
  split
  · rename_i pointers
    apply Meets.bind
    apply (copyPointerList_places leaves src dst srcContent srcLength w).mono
    · intro c after placed
      refine ⟨placed, ?_⟩
      rw [pointers]
      exact nofun
    · intro _ after fails
      exact fails
  · rename_i plain
    split
    · have sized := fun message segment => @spares_of_uses message segment _ _ src.copiedSize_uses w
      unfold Meets at sized ⊢
      rw [bind_apply]
      cases run : src.copiedSize w with
      | ok srcCompositeSize middle =>
          rw [run] at sized
          have placed := copyCompositeList_places leaves src dst srcContent srcLength srcCompositeSize middle
          apply Meets.bind
          apply placed.mono
          · intro c after placed
            exact ⟨placed.of_spares sized, fun _ => nofun⟩
          · intro _ after fails
            exact Fails.of_spares sized fails
      | error reason middle =>
          rw [run] at sized
          exact fun message segment _ => (sized message segment).leaves
    · rename_i notComposite
      apply Meets.bind
      apply (copyDataList_places dst srcContent srcElementSize srcLength w).mono
      · intro c after placed
        exact ⟨placed, fun composite => absurd composite notComposite⟩
      · intro _ after fails
        exact fails

theorem copyFromList_leaves {message segment : Nat} (src : Pointer) {dst : Pointer} (off : Off message segment dst) :
    Moves (World.Leaves message segment) (copyFromList copyNext src dst) := by
  unfold copyFromList
  split
  · exact Moves.throw _
  · apply Moves.bind (leaves_of_uses (src.getContent_uses false))
    intro srcContent
    apply Moves.bind (leaves_of_uses src.getTargetListElementSize_uses)
    intro srcElementSize
    apply Moves.bind (leaves_of_uses src.getTargetListLength_uses)
    intro srcLength w
    apply Meets.bind
    apply (copyListContent_places leaves src dst srcElementSize srcLength srcContent w).mono
    · rintro content middle ⟨placed, _⟩
      apply placed.follow off
      intro apart
      apply Moves.bind
      · apply initPointer_leaves off
        intro here
        exact apart (placed.message.trans here)
      · intro res
        exact leaves_of_uses (setListPointer_uses _ _ _ _ _)
    · intro _ after fails
      exact fails message segment off

theorem copyFromStruct_leaves {message segment : Nat} (src : Pointer) {dst : Pointer} (off : Off message segment dst) :
    Moves (World.Leaves message segment) (copyFromStruct copyNext src dst) := by
  unfold copyFromStruct
  split
  · exact Moves.throw _
  · apply Moves.bind (leaves_of_uses (src.getContent_uses false))
    intro srcContent
    apply Moves.bind (leaves_of_uses src.getTargetStructSize_uses)
    intro srcSize w
    apply Meets.bind
    apply (copyStructContent_places leaves src dst srcSize srcContent w).mono
    · intro c middle placed
      apply placed.follow off
      intro apart
      split
      · exact Moves.pure _
      · apply Moves.bind
        · apply initPointer_leaves off
          intro here
          exact apart (placed.message.trans here)
        · intro res
          exact leaves_of_uses (setStructPointer_uses _ _ _)
    · intro _ after fails
      exact fails message segment off

theorem copyTarget_leaves {message segment : Nat} (src : Pointer) {dst : Pointer} (off : Off message segment dst) :
    Moves (World.Leaves message segment) (copyTarget copyNext src dst) := by
  apply Moves.bind (leaves_of_uses src.isNull_uses)
  intro isNull
  split
  · exact Moves.pure _
  · apply Moves.bind (leaves_of_uses src.getTargetPointerType_uses)
    intro type
    cases type with
    | STRUCT => exact copyFromStruct_leaves leaves src off
    | LIST => exact copyFromList_leaves leaves src off
    | OTHER => exact leaves_of_uses (copyFromInterface_uses src dst)
    | FAR => exact Moves.throw _

end content

theorem copyWithin_leaves (depth message segment : Nat) (src dst : Pointer) (off : Off message segment dst) :
    Moves (World.Leaves message segment) (copyWithin depth src dst) := by
  induction depth generalizing message segment src dst with
  | zero => exact Moves.throw _
  | succ depth ih =>
      unfold copyWithin
      split
      · exact Moves.pure _
      · exact Moves.bind (leaves_of_uses dst.erase_uses) fun _ => copyTarget_leaves ih src off

end Pointer

end CapnpEs
