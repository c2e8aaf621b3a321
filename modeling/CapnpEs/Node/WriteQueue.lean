import CapnpEs.Library.Transition
import CapnpEs.Node.FrameDecoding

/-! Sending on a byte stream: the write queue of `NodeRpcTransport` in `node/index.ts`. `stream.write` and
`emit("drain")` call back into the transport, so what is under way is a stack of calls. -/

namespace CapnpEs.Node

open Transition Outcome

inductive Call
  -- `stream.write`, called from the loop of `flushWrites`
  | write
  -- `emit("drain")` with the listeners that it still calls
  | emit (listeners : List Nat)

structure NodeRpcSender where
  -- `none` for `Infinity`
  maxQueuedBytes : Option Nat
  closeRequested : Bool := false
  closed : Bool := false
  waitingForDrain : Bool := false
  writeQueue : List Bytes := []
  queuedBytes : Int := 0
  -- the stream: the wrappers of `onDrain` that `once` has added, those that have run, and whether a write has
  -- answered `false` since the last "drain"
  listeners : List Nat := []
  fired : List Nat := []
  added : Nat := 0
  needsDrain : Bool := false
  calls : List Call := []
  -- what `sendMessage` took, and what `stream.write` was given
  sent : List Message := []
  written : List Bytes := []

inductive SendError
  | disconnected (reason : String)
  | encoding (error : CapnpError)

/-- `bytes > maxQueuedBytes` -/
def exceeds (bytes : Int) : Option Nat → Prop
  | none => False
  | some max => bytes > max

instance (bytes : Int) (max : Option Nat) : Decidable (exceeds bytes max) := by
  cases max <;> unfold exceeds <;> infer_instance

def byteLengths (chunks : List Bytes) : Int := (chunks.map fun chunk => (chunk.length : Int)).sum

namespace NodeRpcSender

def during (t : NodeRpcSender) (calls : List Call) : NodeRpcSender := { t with calls := calls }

/-- `off` takes away the listener that was added last. -/
def cleanup (t : NodeRpcSender) : NodeRpcSender :=
  { t with writeQueue := [], queuedBytes := 0, waitingForDrain := false, listeners := t.listeners.dropLast }

def fail (t : NodeRpcSender) : NodeRpcSender := if t.closed then t else { t.cleanup with closed := true }

def close (t : NodeRpcSender) : NodeRpcSender :=
  if t.closed then t else { ({ t with closeRequested := true } : NodeRpcSender).cleanup with closed := true }

def onClose (t : NodeRpcSender) : NodeRpcSender :=
  if t.closeRequested then { t.cleanup with closed := true } else t.fail

/-- The loop of `flushWrites`, as far as its next call of `stream.write`. -/
def writeNext (t : NodeRpcSender) : NodeRpcSender :=
  match t.writeQueue with
  | [] => t
  | frame :: rest =>
      { t with
        writeQueue := rest
        queuedBytes := t.queuedBytes - frame.length
        written := t.written ++ [frame]
        calls := .write :: t.calls }

def flushWrites (t : NodeRpcSender) : NodeRpcSender :=
  if t.closed || t.waitingForDrain then t else t.writeNext

/-- The loop of `flushWrites`, from where `stream.write` has returned. -/
def wrote (t : NodeRpcSender) (canContinue : Bool) : NodeRpcSender :=
  if canContinue then
    t.writeNext
  else
    { t with
      needsDrain := true
      waitingForDrain := true
      listeners := t.listeners ++ [t.added]
      added := t.added + 1 }

def onDrain (t : NodeRpcSender) : NodeRpcSender := ({ t with waitingForDrain := false } : NodeRpcSender).flushWrites

/-- A wrapper that `once` made takes itself off and runs once, also when two emits hold it. -/
def runListener (t : NodeRpcSender) (listener : Nat) : NodeRpcSender :=
  if listener ∈ t.fired then
    t
  else
    onDrain { t with listeners := t.listeners.erase listener, fired := listener :: t.fired }

def enqueueWrite (chunks : List Bytes) : EStateM SendError NodeRpcSender Unit := do
  let t ← get
  let byteLength := byteLengths chunks
  if exceeds (t.queuedBytes + byteLength) t.maxQueuedBytes then
    set t.fail
    throw (.disconnected "transport write queue limit exceeded")
  set { t with writeQueue := t.writeQueue ++ chunks, queuedBytes := t.queuedBytes + byteLength }
  modify flushWrites

/-- `sendMessage`, where `m` is the message of `msg`, or the new one that `setRoot` has copied it to. -/
def sendMessage (m : Message) : EStateM SendError NodeRpcSender Unit := do
  let t ← get
  if t.closed then
    throw (.disconnected "transport closed")
  match messageToBufferChunks m with
  | .ok chunks _ => enqueueWrite chunks
  | .error error _ => throw (.encoding error)

inductive Input
  | sendMessage (m : Message)
  -- `stream.write` returns, or throws
  | answer (canContinue : Bool)
  | writeThrows
  | drain
  -- the innermost `emit("drain")` calls its next listener, or returns
  | emitNext
  | close
  | streamClosed
  -- an error or the end of the stream, an abort, a frame that the decoder refuses
  | fail

def step (t : NodeRpcSender) : Input → Option NodeRpcSender
  | .sendMessage m =>
      match sendMessage m t with
      | .ok _ after => some { after with sent := after.sent ++ [m] }
      | .error _ after => some after
  | .answer canContinue =>
      match t.calls with
      | .write :: calls => some ((t.during calls).wrote canContinue)
      | _ => none
  | .writeThrows =>
      match t.calls with
      | .write :: calls => some (t.during calls).fail
      | _ => none
  | .drain => some { t with needsDrain := false, calls := .emit t.listeners :: t.calls }
  | .emitNext =>
      match t.calls with
      | .emit (listener :: rest) :: calls =>
          some ((t.during (.emit rest :: calls)).runListener listener)
      | .emit [] :: calls => some (t.during calls)
      | _ => none
  | .close => some t.close
  | .streamClosed => some t.onClose
  | .fail => some t.fail

/-- The bytes given to the stream and the queued ones are the frames that were sent, and the queue is counted and
bounded; a transport that is closed has nothing queued. -/
structure Intact (t : NodeRpcSender) : Prop where
  inOrder : t.closed = false →
    ∃ frames, List.Forall₂ EncodedAs t.sent frames ∧ (t.written ++ t.writeQueue).flatten = frames.flatten
  counted : t.queuedBytes = byteLengths t.writeQueue
  bounded : ¬exceeds t.queuedBytes t.maxQueuedBytes
  stopped : t.closed = true → t.writeQueue = []

def Waits (t : NodeRpcSender) : Prop := t.closed = false → t.needsDrain = true → t.waitingForDrain = true

/-- A write that answers `true` while another one still waits for its drain finds nothing queued, and a listener of an
earlier "drain" does not run meanwhile. -/
def AwaitsDrain (t : NodeRpcSender) : Input → NodeRpcSender → Prop
  | .answer true, _ => t.needsDrain = true → t.writeQueue = []
  | .emitNext, _ => ∀ listener rest calls, t.calls = .emit (listener :: rest) :: calls → listener ∉ t.fired →
      t.closed = false → t.needsDrain = false
  | _, _ => True

theorem byteLengths_append (chunks more : List Bytes) :
    byteLengths (chunks ++ more) = byteLengths chunks + byteLengths more := by
  simp [byteLengths]

theorem exceeds_mono {fewer bytes : Int} {max : Option Nat} (smaller : fewer ≤ bytes)
    (more : exceeds fewer max) : exceeds bytes max := by
  cases max with
  | none => exact more
  | some max =>
      change (max : Int) < bytes
      have larger : (max : Int) < fewer := more
      omega

theorem not_exceeds_zero (max : Option Nat) : ¬exceeds 0 max := by
  cases max with
  | none => exact id
  | some max => simp [exceeds]

variable {t after : NodeRpcSender} {m : Message} {input : Input}

@[simp]
theorem closed_writeNext : t.writeNext.closed = t.closed := by
  unfold writeNext
  split <;> rfl

theorem Intact.writeNext (intact : t.Intact) : t.writeNext.Intact := by
  unfold NodeRpcSender.writeNext
  split
  · exact intact
  · rename_i frame rest queued
    have counted : t.queuedBytes - frame.length = byteLengths rest := by
      rw [intact.counted, queued]
      simp [byteLengths]
    refine ⟨fun isOpen => ?_, counted, fun more => intact.bounded (exceeds_mono ?_ more), fun closed => ?_⟩
    · obtain ⟨frames, encoded, joined⟩ := intact.inOrder isOpen
      refine ⟨frames, encoded, ?_⟩
      change (t.written ++ [frame] ++ rest).flatten = frames.flatten
      rw [← joined, queued, List.append_assoc, List.singleton_append]
    · change t.queuedBytes - frame.length ≤ t.queuedBytes
      omega
    · simp [intact.stopped closed] at queued

theorem Intact.flushWrites (intact : t.Intact) : t.flushWrites.Intact := by
  unfold NodeRpcSender.flushWrites
  split
  · exact intact
  · exact intact.writeNext

theorem Intact.of_same (intact : t.Intact) (closed : after.closed = t.closed) (sent : after.sent = t.sent)
    (written : after.written = t.written) (queue : after.writeQueue = t.writeQueue)
    (bytes : after.queuedBytes = t.queuedBytes) (max : after.maxQueuedBytes = t.maxQueuedBytes) : after.Intact := by
  constructor
  · rw [closed, sent, written, queue]
    exact intact.inOrder
  · rw [bytes, queue]
    exact intact.counted
  · rw [bytes, max]
    exact intact.bounded
  · rw [closed, queue]
    exact intact.stopped

theorem Intact.during (intact : t.Intact) (calls : List Call) : (t.during calls).Intact :=
  intact.of_same rfl rfl rfl rfl rfl rfl

theorem Intact.wrote (intact : t.Intact) (canContinue : Bool) : (t.wrote canContinue).Intact := by
  cases canContinue with
  | true => exact intact.writeNext
  | false => exact intact.of_same rfl rfl rfl rfl rfl rfl

/-- What `fail`, `close` and `onClose` leave. -/
theorem intact_of_stopped (closed : t.closed = true) (queue : t.writeQueue = []) (bytes : t.queuedBytes = 0) :
    t.Intact := by
  refine ⟨fun isOpen => ?_, ?_, ?_, fun _ => queue⟩
  · rw [closed] at isOpen
    contradiction
  · rw [bytes, queue]
    rfl
  · rw [bytes]
    exact not_exceeds_zero _

theorem Intact.fail (intact : t.Intact) : t.fail.Intact := by
  unfold NodeRpcSender.fail
  split
  · exact intact
  · exact intact_of_stopped rfl rfl rfl

theorem Intact.close (intact : t.Intact) : t.close.Intact := by
  unfold NodeRpcSender.close
  split
  · exact intact
  · exact intact_of_stopped rfl rfl rfl

theorem Intact.onClose (intact : t.Intact) : t.onClose.Intact := by
  unfold NodeRpcSender.onClose
  split
  · exact intact_of_stopped rfl rfl rfl
  · exact intact.fail

theorem Intact.runListener (intact : t.Intact) (listener : Nat) : (t.runListener listener).Intact := by
  unfold NodeRpcSender.runListener
  split
  · exact intact
  · exact Intact.flushWrites (intact.of_same rfl rfl rfl rfl rfl rfl)

def queueFrame (t : NodeRpcSender) (m : Message) (chunks : List Bytes) : NodeRpcSender :=
  { t with
    writeQueue := t.writeQueue ++ chunks
    queuedBytes := t.queuedBytes + byteLengths chunks
    sent := t.sent ++ [m] }

theorem sendMessage_cases (m : Message) (t : NodeRpcSender) :
    (∃ chunks encoded, t.closed = false ∧ messageToBufferChunks m = .ok chunks encoded ∧
      ¬exceeds (t.queuedBytes + byteLengths chunks) t.maxQueuedBytes ∧
      sendMessage m t = .ok () ({ t with
        writeQueue := t.writeQueue ++ chunks
        queuedBytes := t.queuedBytes + byteLengths chunks } : NodeRpcSender).flushWrites) ∨
    ∃ error after, sendMessage m t = .error error after ∧ (after = t ∨ after = t.fail) := by
  rcases Bool.eq_false_or_eq_true t.closed with closed | isOpen
  · refine .inr ⟨.disconnected "transport closed", t, ?_, .inl rfl⟩
    simp only [sendMessage, bind_apply, get_apply, closed, if_true, throw_apply]
  · have passed : sendMessage m t = (match messageToBufferChunks m with
        | .ok chunks _ => enqueueWrite chunks
        | .error error _ => throw (SendError.encoding error)) t := by
      simp only [sendMessage, bind_apply, get_apply, isOpen]
      rfl
    cases framed : messageToBufferChunks m with
    | error error encoded =>
        rw [framed] at passed
        exact .inr ⟨.encoding error, t, passed, .inl rfl⟩
    | ok chunks encoded =>
        rw [framed] at passed
        by_cases full : exceeds (t.queuedBytes + byteLengths chunks) t.maxQueuedBytes
        · refine .inr ⟨.disconnected "transport write queue limit exceeded", t.fail, ?_, .inr rfl⟩
          rw [passed]
          simp only [enqueueWrite, bind_apply, get_apply, if_pos full]
          rfl
        · refine .inl ⟨chunks, encoded, isOpen, rfl, full, ?_⟩
          rw [passed]
          simp only [enqueueWrite, bind_apply, get_apply, if_neg full]
          rfl

theorem Intact.sent (intact : t.Intact) {chunks : List Bytes} {encoded : Message}
    (framed : messageToBufferChunks m = .ok chunks encoded)
    (fits : ¬exceeds (t.queuedBytes + byteLengths chunks) t.maxQueuedBytes) (isOpen : t.closed = false) :
    (t.queueFrame m chunks).Intact := by
  refine ⟨fun _ => ?_, ?_, fits, fun closed => ?_⟩
  · obtain ⟨frames, encodings, joined⟩ := intact.inOrder isOpen
    refine ⟨frames ++ [chunks.flatten], List.rel_append encodings (.cons ⟨chunks, encoded, framed, rfl⟩ .nil), ?_⟩
    change (t.written ++ (t.writeQueue ++ chunks)).flatten = _
    rw [← List.append_assoc, List.flatten_append, joined, List.flatten_append]
    simp
  · change t.queuedBytes + byteLengths chunks = byteLengths (t.writeQueue ++ chunks)
    rw [byteLengths_append, intact.counted]
  · change t.closed = true at closed
    rw [isOpen] at closed
    contradiction

theorem flushWrites_sent (t : NodeRpcSender) (m : Message) :
    ({ t.flushWrites with sent := t.flushWrites.sent ++ [m] } : NodeRpcSender) =
      ({ t with sent := t.sent ++ [m] } : NodeRpcSender).flushWrites := by
  obtain ⟨max, requested, closed, waiting, queue, bytes, listeners, fired, added, needs, calls, before, written⟩ := t
  cases closed <;> cases waiting <;> cases queue <;> rfl

theorem step_cases (taken : step t input = some after) :
    (∃ m chunks encoded, t.closed = false ∧ messageToBufferChunks m = .ok chunks encoded ∧
      ¬exceeds (t.queuedBytes + byteLengths chunks) t.maxQueuedBytes ∧
      after = (t.queueFrame m chunks).flushWrites) ∨
    (∃ calls canContinue, input = .answer canContinue ∧
      after = (t.during calls).wrote canContinue) ∨
    (∃ listener rest calls, input = .emitNext ∧ t.calls = .emit (listener :: rest) :: calls ∧
      after = (t.during (.emit rest :: calls)).runListener listener) ∨
    (∃ calls, after = t.during calls ∨ after = (t.during calls).fail) ∨
    (∃ calls, after = { t with needsDrain := false, calls := calls }) ∨ after = t.close ∨ after = t.onClose := by
  cases input with
  | sendMessage m =>
      simp only [step] at taken
      obtain ⟨chunks, encoded, isOpen, framed, fits, run⟩ | ⟨error, refused, run, which⟩ := sendMessage_cases m t
      · rw [run] at taken
        cases taken
        exact .inl ⟨m, chunks, encoded, isOpen, framed, fits, flushWrites_sent _ m⟩
      · rw [run] at taken
        cases taken
        refine .inr (.inr (.inr (.inl ⟨t.calls, ?_⟩)))
        exact which
  | answer canContinue =>
      simp only [step] at taken
      split at taken
      · cases taken
        exact .inr (.inl ⟨_, canContinue, rfl, rfl⟩)
      · contradiction
  | writeThrows =>
      simp only [step] at taken
      split at taken
      · cases taken
        exact .inr (.inr (.inr (.inl ⟨_, .inr rfl⟩)))
      · contradiction
  | drain =>
      cases taken
      exact .inr (.inr (.inr (.inr (.inl ⟨_, rfl⟩))))
  | emitNext =>
      simp only [step] at taken
      split at taken
      · rename_i listener rest calls top
        cases taken
        exact .inr (.inr (.inl ⟨listener, rest, calls, rfl, top, rfl⟩))
      · cases taken
        exact .inr (.inr (.inr (.inl ⟨_, .inl rfl⟩)))
      · contradiction
  | close =>
      cases taken
      exact .inr (.inr (.inr (.inr (.inr (.inl rfl)))))
  | streamClosed =>
      cases taken
      exact .inr (.inr (.inr (.inr (.inr (.inr rfl)))))
  | fail =>
      cases taken
      exact .inr (.inr (.inr (.inl ⟨t.calls, .inr rfl⟩)))

theorem intact_step (intact : t.Intact) (taken : step t input = some after) : after.Intact := by
  obtain ⟨m, chunks, encoded, isOpen, framed, fits, rfl⟩ | ⟨calls, canContinue, -, rfl⟩ |
    ⟨listener, rest, calls, -, -, rfl⟩ | ⟨calls, rfl | rfl⟩ | ⟨calls, rfl⟩ | rfl | rfl := step_cases taken
  · exact (intact.sent framed fits isOpen).flushWrites
  · exact (intact.during calls).wrote canContinue
  · exact (intact.during _).runListener listener
  · exact intact.during calls
  · exact (intact.during calls).fail
  · exact intact.of_same rfl rfl rfl rfl rfl rfl
  · exact intact.close
  · exact intact.onClose

/-! When a step writes. -/

theorem writeNext_idle (queue : t.writeQueue = []) : t.writeNext = t := by
  unfold writeNext
  rw [queue]

theorem flushWrites_idle (waiting : t.closed = true ∨ t.waitingForDrain = true) : t.flushWrites = t := by
  unfold flushWrites
  rw [if_pos (Bool.or_eq_true_iff.mpr waiting)]

@[simp]
theorem written_fail : t.fail.written = t.written := by
  unfold fail
  split <;> rfl

@[simp]
theorem written_close : t.close.written = t.written := by
  unfold close
  split <;> rfl

@[simp]
theorem written_onClose : t.onClose.written = t.written := by
  unfold onClose
  split
  · rfl
  · exact written_fail

@[simp]
theorem closed_fail : t.fail.closed = true := by
  unfold fail
  split
  · assumption
  · rfl

@[simp]
theorem closed_close : t.close.closed = true := by
  unfold close
  split
  · assumption
  · rfl

@[simp]
theorem closed_onClose : t.onClose.closed = true := by
  unfold onClose
  split
  · rfl
  · exact closed_fail

theorem onDrain_closed (closed : t.closed = true) : t.onDrain.closed = true ∧ t.onDrain.written = t.written := by
  have idle : t.onDrain = { t with waitingForDrain := false } := flushWrites_idle (.inl closed)
  rw [idle]
  exact ⟨closed, rfl⟩

theorem runListener_closed (closed : t.closed = true) (listener : Nat) :
    (t.runListener listener).closed = true ∧ (t.runListener listener).written = t.written := by
  unfold runListener
  split
  · exact ⟨closed, rfl⟩
  · exact onDrain_closed closed

theorem step_closed (intact : t.Intact) (closed : t.closed = true) (taken : step t input = some after) :
    after.closed = true ∧ after.written = t.written := by
  obtain ⟨m, chunks, encoded, isOpen, -⟩ | ⟨calls, canContinue, -, rfl⟩ | ⟨listener, rest, calls, -, -, rfl⟩ |
    ⟨calls, rfl | rfl⟩ | ⟨calls, rfl⟩ | rfl | rfl := step_cases taken
  · rw [closed] at isOpen
    contradiction
  · cases canContinue with
    | false => exact ⟨closed, rfl⟩
    | true =>
        have idle : (t.during calls).wrote true = t.during calls :=
          writeNext_idle (intact.stopped closed)
        rw [idle]
        exact ⟨closed, rfl⟩
  · exact runListener_closed (t := t.during (.emit rest :: calls)) closed listener
  · exact ⟨closed, rfl⟩
  · exact ⟨closed_fail, written_fail⟩
  · exact ⟨closed, rfl⟩
  · exact ⟨closed_close, written_close⟩
  · exact ⟨closed_onClose, written_onClose⟩

theorem Waits.writeNext (waits : t.Waits) : t.writeNext.Waits := by
  unfold NodeRpcSender.writeNext
  split <;> exact waits

theorem Waits.flushWrites (waits : t.Waits) : t.flushWrites.Waits := by
  unfold NodeRpcSender.flushWrites
  split
  · exact waits
  · exact waits.writeNext

theorem waits_of_closed (closed : t.closed = true) : t.Waits := by
  intro isOpen
  rw [closed] at isOpen
  contradiction

theorem waits_step (waits : t.Waits) (taken : step t input = some after) (awaits : AwaitsDrain t input after) :
    after.Waits := by
  obtain ⟨m, chunks, encoded, isOpen, framed, fits, rfl⟩ | ⟨calls, canContinue, -, rfl⟩ |
    ⟨listener, rest, calls, rfl, top, rfl⟩ | ⟨calls, rfl | rfl⟩ | ⟨calls, rfl⟩ | rfl | rfl := step_cases taken
  · exact Waits.flushWrites waits
  · cases canContinue with
    | true => exact Waits.writeNext waits
    | false => exact fun _ _ => rfl
  · unfold runListener
    split
    · exact waits
    · rename_i fresh
      refine Waits.flushWrites fun isOpen needs => ?_
      have drained : t.needsDrain = false := awaits listener rest calls top fresh isOpen
      exact absurd (drained.symm.trans needs) Bool.false_ne_true
  · exact waits
  · exact waits_of_closed closed_fail
  · intro _ needs
    contradiction
  · exact waits_of_closed closed_close
  · exact waits_of_closed closed_onClose

theorem step_awaiting (intact : t.Intact) (waits : t.Waits) (needs : t.needsDrain = true)
    (taken : step t input = some after) (awaits : AwaitsDrain t input after) : after.written = t.written := by
  cases closed : t.closed with
  | true => exact (step_closed intact closed taken).2
  | false =>
      have waiting := waits closed needs
      obtain ⟨m, chunks, encoded, isOpen, framed, fits, rfl⟩ | ⟨calls, canContinue, rfl, rfl⟩ |
        ⟨listener, rest, calls, rfl, top, rfl⟩ | ⟨calls, rfl | rfl⟩ | ⟨calls, rfl⟩ | rfl | rfl := step_cases taken
      · have idle : (t.queueFrame m chunks).flushWrites = t.queueFrame m chunks := flushWrites_idle (.inr waiting)
        rw [idle]
        rfl
      · cases canContinue with
        | false => rfl
        | true =>
            have idle : (t.during calls).wrote true = t.during calls :=
              writeNext_idle (awaits needs)
            rw [idle]
            rfl
      · unfold runListener
        split
        · rfl
        · rename_i fresh
          rw [awaits listener rest calls top fresh closed] at needs
          contradiction
      · rfl
      · exact written_fail
      · rfl
      · exact written_close
      · exact written_onClose

def DEFAULT_MAX_QUEUED_BYTES : Nat := 16 * 1024 * 1024

def start (maxQueuedBytes : Option Nat) : NodeRpcSender := { maxQueuedBytes := maxQueuedBytes }

variable {max : Option Nat} {allowed : NodeRpcSender → Input → NodeRpcSender → Prop}

theorem intact_run (run : Run step allowed (start max) t) : t.Intact := by
  have started : (start max).Intact := ⟨fun _ => ⟨[], .nil, rfl⟩, rfl, not_exceeds_zero max, fun _ => rfl⟩
  exact run.invariant started fun _ _ _ intact taken _ => intact_step intact taken

theorem waits_run (run : Run step AwaitsDrain (start max) t) : t.Waits := by
  refine run.invariant (fun _ needs => ?_) fun _ _ _ waits taken awaits => waits_step waits taken awaits
  contradiction

theorem run_closed {later : NodeRpcSender} (intact : t.Intact) (closed : t.closed = true)
    (run : Run step allowed t later) : later.written = t.written := by
  have kept : later.Intact ∧ later.closed = true ∧ later.written = t.written := by
    induction run with
    | start => exact ⟨intact, closed, rfl⟩
    | step _ taken _ ih =>
        obtain ⟨held, stopped, same⟩ := ih
        obtain ⟨stays, writes⟩ := step_closed held stopped taken
        exact ⟨intact_step held taken, stays, writes.trans same⟩
  exact kept.2.2

/-- Until it is closed the transport keeps the stream whole, gives the stream nothing while a drain is awaited, and
once it is closed nothing at all. -/
theorem writeQueue_keeps_stream (run : Run step AwaitsDrain (start max) t) :
    t.Intact ∧
    (∀ input after, step t input = some after → AwaitsDrain t input after → t.needsDrain = true →
      after.written = t.written) ∧
    (t.closed = true → ∀ later, Run step (fun _ _ _ => True) t later → later.written = t.written) :=
  ⟨intact_run run, fun _ _ taken awaits needs => step_awaiting (intact_run run) (waits_run run) needs taken awaits,
    fun closed _ more => run_closed (intact_run run) closed more⟩

theorem writeQueue_keeps_stream_drained :
    ∃ t : NodeRpcSender, t.sent = [oneWordMessage, oneWordMessage] ∧ t.written = [oneWordFrame, oneWordFrame] ∧
      t.Intact ∧
      (∀ input after, step t input = some after → AwaitsDrain t input after → t.needsDrain = true →
        after.written = t.written) ∧
      (t.closed = true → ∀ later, Run step (fun _ _ _ => True) t later → later.written = t.written) := by
  have inputs : ∃ t, Run.follow step (start none)
      [.sendMessage oneWordMessage, .answer false, .sendMessage oneWordMessage, .drain] = some t ∧
      t.needsDrain = false ∧
      ∃ after, step t .emitNext = some after ∧ after.sent = [oneWordMessage, oneWordMessage] ∧
        after.written = [oneWordFrame, oneWordFrame] := ⟨_, rfl, rfl, _, rfl, rfl, rfl⟩
  obtain ⟨t, followed, drained, after, taken, sent, written⟩ := inputs
  have before : Run step AwaitsDrain (start none) t := by
    refine .of_follow_allowed .start (fun _ input _ member => ?_) followed
    simp only [List.mem_cons, List.not_mem_nil, or_false] at member
    obtain rfl | rfl | rfl | rfl := member <;> trivial
  exact ⟨after, sent, written, writeQueue_keeps_stream (before.step taken fun _ _ _ _ _ _ => drained)⟩

/-- A send inside `stream.write` is told to wait, and the write that it was inside goes on. -/
theorem nested_send_ignores_backPressure :
    ∃ t after : NodeRpcSender, Run step (fun _ _ _ => True) (start (some DEFAULT_MAX_QUEUED_BYTES)) t ∧
      step t (.answer true) = some after ∧ t.closed = false ∧ t.needsDrain = true ∧
      after.written = t.written ++ [oneWordFrame] := by
  have run : ∃ t, Run.follow step (start (some DEFAULT_MAX_QUEUED_BYTES))
      [.sendMessage oneWordMessage, .sendMessage oneWordMessage, .answer false, .sendMessage oneWordMessage] = some t ∧
      t.closed = false ∧ t.needsDrain = true ∧ t.written = [oneWordFrame, oneWordFrame] ∧
      ∃ after, step t (.answer true) = some after ∧ after.written = [oneWordFrame, oneWordFrame, oneWordFrame] :=
    ⟨_, rfl, rfl, rfl, rfl, _, rfl, rfl⟩
  obtain ⟨t, followed, isOpen, needs, before, after, taken, written⟩ := run
  refine ⟨t, after, .of_follow .start followed, taken, isOpen, needs, ?_⟩
  rw [before, written]
  rfl

end NodeRpcSender

end CapnpEs.Node
