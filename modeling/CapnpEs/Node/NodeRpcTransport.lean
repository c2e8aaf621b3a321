import CapnpEs.Library.Transition
import CapnpEs.Node.FrameDecoding
import CapnpEs.Serialization.Pointers.PointerUtils

/-! Receiving on a byte stream: `NodeRpcTransport` of `node/index.ts` and `deferred-transport.ts`. -/

namespace CapnpEs.Node

open CapnpFrameDecoder Transition

/-- `getRoot` of a message that is only read; the world holds this message alone. -/
def getRoot : WorldM Unit := do
  let segment ← onMessage 0 (Message.getSegment 0)
  let root ← newPointer 0 segment 0
  root.validate .STRUCT
  let _ ← root.getTargetStructSize

/-- `new Message(buf, false).getRoot(RPCMessage)`, as the message behind the root. -/
def decodeFrame (buf : Bytes) : Except CapnpError Message := do
  let m ← newMessage (.buffer buf) false
  match getRoot fun _ => m with
  | .ok _ world => .ok (world 0)
  | .error error _ => .error error

/-- What `recvMessage` fails with. -/
inductive ReceiveError
  | refused (error : CapnpError)
  | closed (reason : Option String)

structure NodeRpcTransport where
  -- `decoder.pending`
  pending : Bytes := []
  -- whether a `recvMessage` waits, `d !== undefined`
  d : Bool := false
  closed : Bool := false
  closeError : Option String := none
  queue : List Message := []
  -- the frames that the decoder has emitted, and how each `recvMessage` ended
  emitted : List Bytes := []
  received : List (Except ReceiveError Message) := []

namespace NodeRpcTransport

/-- Settles the `recvMessage` that waits, if one does. -/
def settle (t : NodeRpcTransport) (result : Except ReceiveError Message) : NodeRpcTransport :=
  if t.d then { t with d := false, received := t.received ++ [result] } else t

/-- `DeferredTransport.resolve`. -/
def resolve (t : NodeRpcTransport) (buf : Bytes) : NodeRpcTransport :=
  let t := { t with emitted := t.emitted ++ [buf] }
  match decodeFrame buf with
  | .ok msg => if t.d then t.settle (.ok msg) else { t with queue := t.queue ++ [msg] }
  | .error error => t.settle (.error (.refused error))

/-- `DeferredTransport.close`. -/
def close (t : NodeRpcTransport) (err : Option String) : NodeRpcTransport :=
  { t with closed := true, closeError := err, queue := [] }.settle (.error (.closed err))

def fail (t : NodeRpcTransport) (err : String) : NodeRpcTransport := if t.closed then t else t.close (some err)

def onData (t : NodeRpcTransport) (chunk : Bytes) : NodeRpcTransport :=
  match push chunk t.pending with
  | .ok frames pending => frames.foldl resolve { t with pending := pending }
  | .error error pending => { t with pending := pending }.fail error

def recvMessage (t : NodeRpcTransport) : NodeRpcTransport :=
  if t.closed then
    { t with received := t.received ++ [.error (.closed t.closeError)] }
  else
    match t.queue with
    | msg :: queue => { t with queue := queue, received := t.received ++ [.ok msg] }
    | [] => { t with d := true }

inductive Input
  | data (chunk : Bytes)
  | recvMessage
  | close
  | fail (err : String)

/-- A stream that is closed gives no more data, and one `recvMessage` is outstanding at a time. -/
def step (t : NodeRpcTransport) : Input → Option NodeRpcTransport
  | .data chunk => if t.closed then none else some (t.onData chunk)
  | .recvMessage => if t.d then none else some t.recvMessage
  | .close => some (if t.closed then t else t.close none)
  | .fail err => some (t.fail err)

/-- A frame that `Message` or `getRoot` throws for. -/
def Refuses (frame : Bytes) : Prop := ∃ error, decodeFrame frame = .error error

def delivered {ε : Type} : List (Except ε Message) → List Message
  | [] => []
  | .ok msg :: results => msg :: delivered results
  | .error _ :: _ => []

variable {t : NodeRpcTransport}

def decoded (t : NodeRpcTransport) : List (Except CapnpError Message) := t.emitted.map decodeFrame

def Failed (t : NodeRpcTransport) : Prop := ∃ error, .error error ∈ t.received

/-- Messages come in the order of their frames. Until a `recvMessage` fails or the transport closes every one of them
up to the first frame that is refused has been received or is queued, and it is queued only while no `recvMessage`
waits. A frame that is refused has made a `recvMessage` fail, or the next one fails. -/
structure SkipsNothing (t : NodeRpcTransport) : Prop where
  inOrder : delivered t.received <+: delivered t.decoded
  whole : ¬ t.Failed → t.closed = false → delivered t.decoded = delivered t.received ++ t.queue
  waiting : t.d = true → t.queue = [] ∧ t.closed = false
  reported : (∃ frame ∈ t.emitted, Refuses frame) → t.Failed ∨ t.d = false ∧ (t.queue = [] → t.recvMessage.Failed)

section delivered

variable {ε : Type} {results : List (Except ε Message)}

theorem delivered_append_ok (fine : ∀ error, .error error ∉ results) (more : List (Except ε Message)) :
    delivered (results ++ more) = delivered results ++ delivered more := by
  induction results with
  | nil => rfl
  | cons result results ih =>
      cases result with
      | ok msg =>
          rw [List.cons_append, delivered, delivered, List.cons_append,
            ih fun error member => fine error (List.mem_cons_of_mem _ member)]
      | error error => exact absurd (List.mem_cons_self ..) (fine error)

theorem delivered_append_failed {error : ε} (failed : .error error ∈ results) (more : List (Except ε Message)) :
    delivered (results ++ more) = delivered results := by
  induction results with
  | nil => cases failed
  | cons result results ih =>
      cases result with
      | ok msg =>
          have later : .error error ∈ results := by simpa using failed
          rw [List.cons_append, delivered, delivered, ih later]
      | error error => rfl

theorem delivered_grows (more : List (Except ε Message)) : delivered results <+: delivered (results ++ more) := by
  by_cases failed : ∃ error, .error error ∈ results
  · obtain ⟨error, member⟩ := failed
    exact ⟨[], by rw [List.append_nil, delivered_append_failed member]⟩
  · rw [delivered_append_ok (not_exists.mp failed)]
    exact List.prefix_append _ _

end delivered

theorem not_refuses {frame : Bytes} (accepted : ¬ Refuses frame) : ∃ msg, decodeFrame frame = .ok msg := by
  cases found : decodeFrame frame with
  | ok msg => exact ⟨msg, rfl⟩
  | error error => exact absurd ⟨error, found⟩ accepted

/-- While no `recvMessage` has failed, every frame has been received or is queued. -/
structure Conveys (t : NodeRpcTransport) : Prop where
  inOrder : delivered t.received <+: delivered t.decoded
  accepted : ¬ t.Failed → ∀ frame ∈ t.emitted, ¬ Refuses frame
  whole : ¬ t.Failed → t.closed = false → delivered t.decoded = delivered t.received ++ t.queue
  waiting : t.d = true → t.queue = [] ∧ t.closed = false

theorem Conveys.skipsNothing (conveys : t.Conveys) : t.SkipsNothing := by
  refine ⟨conveys.inOrder, conveys.whole, conveys.waiting, ?_⟩
  rintro ⟨frame, member, refused⟩
  left
  by_contra fine
  exact conveys.accepted fine frame member refused

theorem conveys_initial : Conveys {} where
  inOrder := List.prefix_rfl
  accepted _ _ member := nomatch member
  whole _ _ := rfl
  waiting waits := nomatch waits

theorem failed_append {more : List (Except ReceiveError Message)} :
    Failed { t with received := t.received ++ more } ↔ t.Failed ∨ ∃ error, .error error ∈ more := by
  simp only [Failed, List.mem_append, exists_or]

theorem Conveys.fail_waiting (conveys : t.Conveys) (error : ReceiveError) :
    delivered (t.received ++ [.error error]) <+: delivered t.decoded := by
  by_cases failed : t.Failed
  · obtain ⟨earlier, member⟩ := failed
    rw [delivered_append_failed member]
    exact conveys.inOrder
  · rw [delivered_append_ok (not_exists.mp failed), delivered, List.append_nil]
    exact conveys.inOrder

theorem Conveys.close (conveys : t.Conveys) (err : Option String) : (t.close err).Conveys := by
  unfold NodeRpcTransport.close settle
  dsimp only
  split
  · refine ⟨conveys.fail_waiting _, ?_, ?_, nofun⟩
    · exact fun fine => absurd (failed_append.mpr (Or.inr ⟨_, List.mem_singleton_self _⟩)) fine
    · intro _ isOpen
      cases isOpen
  · rename_i idle
    refine ⟨conveys.inOrder, conveys.accepted, ?_, fun waits => absurd waits idle⟩
    intro _ isOpen
    cases isOpen

theorem Conveys.fail (conveys : t.Conveys) (err : String) : (t.fail err).Conveys := by
  unfold NodeRpcTransport.fail
  split
  · exact conveys
  · exact conveys.close _

theorem Conveys.recvMessage (conveys : t.Conveys) (idle : t.d = false) : t.recvMessage.Conveys := by
  unfold NodeRpcTransport.recvMessage
  split
  · refine ⟨conveys.fail_waiting _, ?_, ?_, fun waits => absurd waits (by simp [idle])⟩
    · exact fun fine => absurd (failed_append.mpr (Or.inr ⟨_, List.mem_singleton_self _⟩)) fine
    · exact fun fine => absurd (failed_append.mpr (Or.inr ⟨_, List.mem_singleton_self _⟩)) fine
  · rename_i unclosed
    have isOpen : t.closed = false := Bool.eq_false_of_not_eq_true unclosed
    split
    · rename_i msg queue queued
      have before : ¬ Failed { t with queue := queue, received := t.received ++ [.ok msg] } → ¬ t.Failed :=
        fun fine failed => fine (failed_append.mpr (Or.inl failed))
      have taken : ¬ t.Failed → delivered t.decoded = delivered (t.received ++ [.ok msg]) ++ queue := by
        intro fine
        rw [conveys.whole fine isOpen, queued, delivered_append_ok (not_exists.mp fine), List.append_assoc]
        rfl
      refine ⟨?_, fun fine => conveys.accepted (before fine), fun fine _ => taken (before fine),
        fun waits => absurd waits (by simp [idle])⟩
      by_cases failed : t.Failed
      · obtain ⟨error, member⟩ := failed
        change delivered (t.received ++ [.ok msg]) <+: _
        rw [delivered_append_failed member]
        exact conveys.inOrder
      · exact ⟨queue, (taken failed).symm⟩
    · rename_i empty
      exact ⟨conveys.inOrder, conveys.accepted, conveys.whole, fun _ => ⟨empty, isOpen⟩⟩

theorem resolve_ok {frame : Bytes} {msg : Message} (found : decodeFrame frame = .ok msg) :
    t.resolve frame = if t.d then
      { t with d := false, emitted := t.emitted ++ [frame], received := t.received ++ [.ok msg] }
    else
      { t with emitted := t.emitted ++ [frame], queue := t.queue ++ [msg] } := by
  unfold resolve settle
  rw [found]
  dsimp only
  split
  · rfl
  · rfl

theorem resolve_refused {frame : Bytes} {error : CapnpError} (found : decodeFrame frame = .error error) :
    t.resolve frame = if t.d then
      { t with
        d := false
        emitted := t.emitted ++ [frame]
        received := t.received ++ [.error (.refused error)] }
    else
      { t with emitted := t.emitted ++ [frame] } := by
  unfold resolve settle
  rw [found]

theorem decoded_of_emitted {after : NodeRpcTransport} {frame : Bytes} (emits : after.emitted = t.emitted ++ [frame]) :
    after.decoded = t.decoded ++ [decodeFrame frame] := by
  unfold decoded
  rw [emits, List.map_append]
  rfl

theorem resolve_spec (t : NodeRpcTransport) (frame : Bytes) :
    (t.resolve frame).emitted = t.emitted ++ [frame] ∧ (t.resolve frame).closed = t.closed ∧
      (t.resolve frame).d = false ∧ t.received <+: (t.resolve frame).received := by
  cases found : decodeFrame frame with
  | ok msg =>
      rw [resolve_ok found]
      split
      · exact ⟨rfl, rfl, rfl, List.prefix_append _ _⟩
      · rename_i idle
        exact ⟨rfl, rfl, Bool.eq_false_of_not_eq_true idle, List.prefix_rfl⟩
  | error error =>
      rw [resolve_refused found]
      split
      · exact ⟨rfl, rfl, rfl, List.prefix_append _ _⟩
      · rename_i idle
        exact ⟨rfl, rfl, Bool.eq_false_of_not_eq_true idle, List.prefix_rfl⟩

theorem Conveys.resolve_failed (conveys : t.Conveys) (failed : t.Failed) (frame : Bytes) :
    (t.resolve frame).Conveys ∧ (t.resolve frame).Failed := by
  obtain ⟨error, member⟩ := failed
  obtain ⟨emits, _, idle, more, received⟩ := resolve_spec t frame
  have still : (t.resolve frame).Failed := ⟨error, received ▸ List.mem_append_left more member⟩
  refine ⟨⟨?_, fun fine => absurd still fine, fun fine => absurd still fine, fun waits => ?_⟩, still⟩
  · rw [← received, delivered_append_failed member, decoded_of_emitted emits]
    exact conveys.inOrder.trans (delivered_grows _)
  · rw [idle] at waits
    cases waits

theorem Conveys.resolve_accepted (conveys : t.Conveys) {frame : Bytes} (accepted : ¬ Refuses frame) :
    (t.resolve frame).Conveys := by
  by_cases failed : t.Failed
  · exact (conveys.resolve_failed failed frame).1
  · obtain ⟨msg, found⟩ := not_refuses accepted
    obtain ⟨emits, closed, idle, _⟩ := resolve_spec t frame
    have clean : ∀ error, .error error ∉ t.decoded := by
      intro error member
      obtain ⟨other, emitted, refused⟩ := List.mem_map.mp member
      exact conveys.accepted failed other emitted ⟨error, refused⟩
    have all : delivered (t.resolve frame).decoded = delivered t.decoded ++ [msg] := by
      rw [decoded_of_emitted emits, delivered_append_ok clean, found]
      rfl
    have frames : ∀ other ∈ (t.resolve frame).emitted, ¬ Refuses other := by
      intro other member
      rw [emits, List.mem_append, List.mem_singleton] at member
      rcases member with earlier | rfl
      · exact conveys.accepted failed other earlier
      · exact accepted
    have whole : t.closed = false →
        delivered (t.resolve frame).decoded = delivered (t.resolve frame).received ++ (t.resolve frame).queue := by
      intro isOpen
      rw [all, conveys.whole failed isOpen, resolve_ok found]
      split
      · rename_i waits
        rw [(conveys.waiting waits).1, delivered_append_ok (not_exists.mp failed), List.append_nil, List.append_nil]
        rfl
      · exact List.append_assoc _ _ _
    refine ⟨?_, fun _ => frames, fun _ isOpen => whole (closed ▸ isOpen), fun waits => ?_⟩
    · cases shut : t.closed with
      | false => exact ⟨_, (whole shut).symm⟩
      | true =>
          rw [all, resolve_ok found]
          split
          · rename_i waits
            rw [(conveys.waiting waits).2] at shut
            cases shut
          · exact conveys.inOrder.trans (List.prefix_append _ _)
    · rw [idle] at waits
      cases waits

theorem Conveys.resolve_awaited (conveys : t.Conveys) (waits : t.d = true) {frame : Bytes} (refused : Refuses frame) :
    (t.resolve frame).Conveys ∧ (t.resolve frame).Failed := by
  by_cases failed : t.Failed
  · exact conveys.resolve_failed failed frame
  · obtain ⟨error, found⟩ := refused
    obtain ⟨emits, _, idle, _⟩ := resolve_spec t frame
    have reported : (t.resolve frame).received = t.received ++ [.error (.refused error)] := by
      rw [resolve_refused found, if_pos waits]
    have fails : (t.resolve frame).Failed := ⟨_, reported ▸ List.mem_append_right _ (List.mem_singleton_self _)⟩
    refine ⟨⟨?_, fun fine => absurd fails fine, fun fine => absurd fails fine, fun later => ?_⟩, fails⟩
    · rw [reported, decoded_of_emitted emits]
      exact (conveys.fail_waiting _).trans (delivered_grows _)
    · rw [idle] at later
      cases later

/-- Of the frames that a chunk completes only the first may be refused, and only while a `recvMessage` waits. -/
def RefusalAwaited (waits : Bool) : List Bytes → Prop
  | [] => True
  | frame :: frames => (Refuses frame → waits = true) ∧ (¬ Refuses frame → ∀ other ∈ frames, ¬ Refuses other)

theorem Conveys.resolves_failed (conveys : t.Conveys) (failed : t.Failed) (frames : List Bytes) :
    (frames.foldl resolve t).Conveys := by
  induction frames generalizing t with
  | nil => exact conveys
  | cons frame frames ih =>
      obtain ⟨conveyed, still⟩ := conveys.resolve_failed failed frame
      exact ih conveyed still

theorem Conveys.resolves_accepted (conveys : t.Conveys) {frames : List Bytes}
    (accepted : ∀ frame ∈ frames, ¬ Refuses frame) : (frames.foldl resolve t).Conveys := by
  induction frames generalizing t with
  | nil => exact conveys
  | cons frame frames ih =>
      apply ih
      · exact conveys.resolve_accepted (accepted frame (List.mem_cons_self ..))
      · exact fun other member => accepted other (List.mem_cons_of_mem _ member)

theorem Conveys.resolves (conveys : t.Conveys) {frames : List Bytes} (awaited : RefusalAwaited t.d frames) :
    (frames.foldl resolve t).Conveys := by
  cases frames with
  | nil => exact conveys
  | cons frame frames =>
      obtain ⟨first, rest⟩ := awaited
      by_cases refused : Refuses frame
      · obtain ⟨conveyed, failed⟩ := conveys.resolve_awaited (first refused) refused
        exact conveyed.resolves_failed failed frames
      · exact (conveys.resolve_accepted refused).resolves_accepted (rest refused)

/-- While no `recvMessage` has failed, one waits for each frame that is refused. -/
def RefusalsAwaited (before : NodeRpcTransport) (input : Input) (_ : NodeRpcTransport) : Prop :=
  ∀ chunk, input = .data chunk → ¬ before.Failed → ∀ frames pending,
    push chunk before.pending = .ok frames pending → RefusalAwaited before.d frames

theorem Conveys.step {input : Input} {after : NodeRpcTransport} (conveys : t.Conveys)
    (taken : t.step input = some after) (awaited : RefusalsAwaited t input after) : after.Conveys := by
  cases input with
  | data chunk =>
      unfold NodeRpcTransport.step at taken
      dsimp only at taken
      split at taken
      · cases taken
      · cases taken
        unfold onData
        cases pushed : push chunk t.pending with
        | ok frames pending =>
            have kept : Conveys { t with pending := pending } :=
              ⟨conveys.inOrder, conveys.accepted, conveys.whole, conveys.waiting⟩
            dsimp only
            by_cases failed : t.Failed
            · exact kept.resolves_failed failed frames
            · exact kept.resolves (awaited chunk rfl failed frames pending pushed)
        | error error pending =>
            have kept : Conveys { t with pending := pending } :=
              ⟨conveys.inOrder, conveys.accepted, conveys.whole, conveys.waiting⟩
            exact kept.fail error
  | recvMessage =>
      unfold NodeRpcTransport.step at taken
      dsimp only at taken
      split at taken
      · cases taken
      · rename_i idle
        cases taken
        exact conveys.recvMessage (Bool.eq_false_of_not_eq_true idle)
  | close =>
      cases taken
      split
      · exact conveys
      · exact conveys.close none
  | fail err =>
      cases taken
      exact conveys.fail err

theorem skipsNothing_of_run (run : Run step RefusalsAwaited {} t) : t.SkipsNothing := by
  apply Conveys.skipsNothing
  apply run.invariant conveys_initial
  intro before input after conveys taken awaited
  exact conveys.step taken awaited

theorem push_frame {frame : Bytes} (whole : frameBytes frame = .ok (some frame.length)) :
    push frame [] = .ok [frame] [] := by
  have taken : framing.takeFrames ([] ++ frame) = ⟨[frame], [], none⟩ := by
    have first : framing.first frame = .ok (some frame.length) := whole
    have alone := Framing.takeFrames_append first []
    rw [List.append_nil, takeFrames_nothing] at alone
    exact alone
  rw [push_eq_ok, taken]
  exact ⟨rfl, rfl, rfl⟩

/-- A frame without segments' contents, too small for a root, and one whose root is a null pointer. -/
def emptyFrame : Bytes := [0, 0, 0, 0, 0, 0, 0, 0]

def nullFrame : Bytes := [0, 0, 0, 0, 1, 0, 0, 0, 0, 0, 0, 0, 0, 0, 0, 0]

theorem emptyFrame_refused : decodeFrame emptyFrame = .error .MSG_SEGMENT_TOO_SMALL := by
  rfl

theorem nullFrame_accepted : ∃ msg, decodeFrame nullFrame = .ok msg := ⟨_, rfl⟩

theorem onData_frame {frame : Bytes} (whole : frameBytes frame = .ok (some frame.length)) (drained : t.pending = []) :
    t.onData frame = t.resolve frame := by
  have same : ({ t with pending := [] } : NodeRpcTransport) = t := by rw [← drained]
  unfold onData
  rw [drained, push_frame whole]
  dsimp only [List.foldl]
  rw [same]

theorem skipsNothing_of_run_awaited : SkipsNothing (resolve { d := true } emptyFrame) := by
  have asked : step {} .recvMessage = some { d := true } := rfl
  have waits : Run step RefusalsAwaited {} { d := true } := .step .start asked nofun
  have taken : step { d := true } (.data emptyFrame) = some (resolve { d := true } emptyFrame) :=
    congrArg some (onData_frame rfl rfl)
  apply skipsNothing_of_run (.step waits taken ?_)
  rintro chunk ⟨⟩ _ frames pending pushed
  change push emptyFrame [] = _ at pushed
  rw [push_frame rfl] at pushed
  cases pushed
  exact ⟨fun _ => rfl, fun _ _ => nofun⟩

theorem transport_skips_frames : ¬ ∀ t, Run step (fun _ _ _ => True) {} t → t.SkipsNothing := by
  intro always
  obtain ⟨msg, accepted⟩ := nullFrame_accepted
  have dropped : step {} (.data emptyFrame) = some { emitted := [emptyFrame] } := by
    refine congrArg some ((onData_frame rfl rfl).trans ?_)
    exact resolve_refused emptyFrame_refused
  have queued : step { emitted := [emptyFrame] } (.data nullFrame) =
      some { emitted := [emptyFrame, nullFrame], queue := [msg] } := by
    refine congrArg some ((onData_frame rfl rfl).trans ?_)
    exact resolve_ok accepted
  have received : step { emitted := [emptyFrame, nullFrame], queue := [msg] } .recvMessage =
      some { emitted := [emptyFrame, nullFrame], received := [.ok msg] } := rfl
  have skips := always _ (((Run.start.step dropped trivial).step queued trivial).step received trivial)
  have nothing : delivered (decoded { emitted := [emptyFrame, nullFrame], received := [.ok msg] }) = [] := by
    unfold decoded
    rw [List.map_cons, emptyFrame_refused]
    rfl
  have inOrder := skips.inOrder
  rw [nothing] at inOrder
  cases List.prefix_nil.mp inOrder

end NodeRpcTransport

end CapnpEs.Node
