import CapnpEs.Node.EncoderAgreement
import CapnpEs.Node.NodeRpcTransport
import CapnpEs.Node.WriteQueue
import CapnpEs.Serialization.Pointers.ReadOnlyMessages

/-! Two `NodeRpcTransport` objects at the ends of one stream: what one sends the other receives. -/

open Framing (completeWithin)

namespace CapnpEs.Node

open Outcome Transition CapnpFrameDecoder

/-! What comes out of a frame. -/

/-- The segments of a message that has arrived hold what those of the sent one did. -/
def Copies (m received : Message) : Prop := received.segments.map Segment.contents = m.segments.map Segment.contents

/-- The stream has room for the message, its lengths are not garbled, and the other end accepts its root. -/
structure Deliverable (m : Message) : Prop extends Framable m where
  small : ∀ s ∈ m.segments, s.byteLength < 2 ^ 31
  accepted : ∀ frame, EncodedAs m frame → ¬ NodeRpcTransport.Refuses frame

theorem Deliverable.encodable {m : Message} (deliverable : Deliverable m) : Encodable m where
  some := deliverable.some
  few := deliverable.few
  allocated s member :=
    ⟨(deliverable.inside s member).1, (deliverable.inside s member).2, deliverable.aligned s member⟩

theorem newMessage_readonly {buf : Bytes} {m : Message} (opened : newMessage (.buffer buf) false = .ok m) :
    m.readonly = true := by
  rw [newMessage, except_bind_eq_ok] at opened
  obtain ⟨bare, begun, opened⟩ := opened
  have readonly : bare.readonly = true := by
    simp only [initMessage] at begun
    obtain ⟨_, _, begun⟩ := except_bind_eq_ok.mp begun
    obtain ⟨arena, _, begun⟩ := except_bind_eq_ok.mp begun
    cases begun
    rfl
  dsimp only at opened
  unfold preallocateSegments at opened
  split at opened
  · split at opened
    · cases opened
    · cases opened
      exact readonly
  · cases opened
    exact readonly

theorem getRoot_uses : Uses (fun _ => True) getRoot := by
  apply Built.bind (Built.basic (.getSegment ..))
  intro segment
  apply Built.bind (newPointer_uses _ _ _ _)
  intro root
  apply Built.bind (root.validate_uses _)
  intro _
  exact Built.bind root.getTargetStructSize_uses fun _ => Built.pure _

theorem decodeFrame_segments {frame : Bytes} {m decoded : Message} (opened : newMessage (.buffer frame) false = .ok m)
    (some : m.segments ≠ []) (found : decodeFrame frame = .ok decoded) : decoded.segments = m.segments := by
  rw [decodeFrame, opened, Outcome.except_ok_bind] at found
  have stays := (stays_of_uses getRoot_uses : Moves (World.Stays 0) getRoot) fun _ => m
  unfold Meets at stays
  cases ran : getRoot fun _ => m with
  | error reason after =>
      rw [ran] at found
      cases found
  | ok value after =>
      rw [ran] at found stays
      cases found
      exact (stays (newMessage_readonly opened)).2 some

theorem Deliverable.decodes {m : Message} {frame : Bytes} (deliverable : Deliverable m) (encoded : EncodedAs m frame) :
    ∃ decoded, decodeFrame frame = .ok decoded ∧ Copies m decoded := by
  obtain ⟨decoded, found⟩ := NodeRpcTransport.not_refuses (deliverable.accepted frame encoded)
  obtain ⟨chunks, after, done, rfl⟩ := encoded
  obtain ⟨header, bodies, written, copied, joined⟩ := messageToBufferChunks_eq_ok deliverable.some done
  have fits : ∀ s ∈ m.segments, s.byteLength % 2 ^ 35 < 2 ^ 31 := by
    intro s member
    have lower := (deliverable.inside s member).1
    have small := deliverable.small s member
    omega
  obtain ⟨views, viewed, same, -⟩ := segmentViews_run deliverable.encodable.allocated fits
  rw [segmentViews_contents deliverable.inside deliverable.aligned deliverable.small] at viewed
  cases viewed
  rw [copied] at same
  cases same
  have framed := getFramedSegments_frame deliverable.toFramable deliverable.small written
  rw [← joined] at framed
  have lengths : ∀ s ∈ m.segments, (s.contents.length : Int) = s.byteLength := fun s member =>
    Segment.contents_length (deliverable.inside s member).1 (deliverable.inside s member).2
  have aligned : ∀ b ∈ m.segments.map Segment.contents, b.length % 8 = 0 := by
    intro b member
    obtain ⟨s, segment, rfl⟩ := List.mem_map.mp member
    have length := lengths s segment
    have words := deliverable.aligned s segment
    omega
  have root : ∃ b ∈ (m.segments.map Segment.contents).head?, 8 ≤ b.length := by
    have some := deliverable.some
    have word := deliverable.root
    cases shape : m.segments with
    | nil => simp [shape] at some
    | cons s segments =>
        rw [shape] at word
        have length := lengths s (by simp [shape])
        have eight := word s rfl
        exact ⟨s.contents, rfl, by omega⟩
  obtain ⟨opened, built, segments⟩ := newMessage_framed framed aligned root
  have some : opened.segments ≠ [] := by
    rw [segments]
    intro empty
    have none := congrArg List.length empty
    have one := deliverable.some
    simp only [List.length_map, List.length_nil] at none
    omega
  refine ⟨decoded, found, ?_⟩
  rw [Copies, decodeFrame_segments built some found, segments, List.map_map, List.map_map]
  apply List.map_congr_left
  intro s _
  change s.contents.take (s.contents.length : Int).toNat = s.contents
  rw [Int.toNat_natCast, List.take_length]

namespace NodeRpcSender

variable {t after : NodeRpcSender} {input : Input}

/-! What is sent, and what is written, only grows. -/

theorem closed_flushWrites : t.flushWrites.closed = t.closed := by
  unfold flushWrites
  split
  · rfl
  · exact closed_writeNext

structure Extends (t after : NodeRpcSender) : Prop where
  sent : t.sent <+: after.sent
  written : t.written <+: after.written

theorem Extends.of_eq (sent : after.sent = t.sent) (written : after.written = t.written) : t.Extends after :=
  ⟨sent ▸ List.prefix_rfl, written ▸ List.prefix_rfl⟩

theorem extends_writeNext (t : NodeRpcSender) : t.Extends t.writeNext := by
  unfold writeNext
  split
  · exact .of_eq rfl rfl
  · exact ⟨List.prefix_rfl, List.prefix_append _ _⟩

theorem extends_flushWrites (t : NodeRpcSender) : t.Extends t.flushWrites := by
  unfold flushWrites
  split
  · exact .of_eq rfl rfl
  · exact extends_writeNext t

@[simp]
theorem sent_fail : t.fail.sent = t.sent := by
  unfold fail
  split <;> rfl

@[simp]
theorem sent_close : t.close.sent = t.sent := by
  unfold close
  split <;> rfl

@[simp]
theorem sent_onClose : t.onClose.sent = t.sent := by
  unfold onClose
  split
  · rfl
  · exact sent_fail

theorem sent_flushWrites : t.flushWrites.sent = t.sent := by
  unfold flushWrites writeNext
  split
  · rfl
  · split <;> rfl

theorem sent_runListener (listener : Nat) : (t.runListener listener).sent = t.sent := by
  unfold runListener
  split
  · rfl
  · exact sent_flushWrites

theorem sent_wrote (canContinue : Bool) : (t.wrote canContinue).sent = t.sent := by
  cases canContinue with
  | false => rfl
  | true =>
      change t.writeNext.sent = t.sent
      unfold writeNext
      split <;> rfl

theorem closed_runListener (listener : Nat) : (t.runListener listener).closed = t.closed := by
  unfold runListener
  split
  · rfl
  · exact closed_flushWrites

theorem closed_wrote (canContinue : Bool) : (t.wrote canContinue).closed = t.closed := by
  cases canContinue with
  | false => rfl
  | true => exact closed_writeNext

theorem extends_runListener (t : NodeRpcSender) (listener : Nat) : t.Extends (t.runListener listener) := by
  refine ⟨sent_runListener listener ▸ List.prefix_rfl, ?_⟩
  unfold runListener
  split
  · exact List.prefix_rfl
  · have drained := extends_flushWrites
      ({ t with
        waitingForDrain := false
        listeners := t.listeners.erase listener
        fired := listener :: t.fired } : NodeRpcSender)
    exact drained.written

theorem extends_wrote (t : NodeRpcSender) (canContinue : Bool) : t.Extends (t.wrote canContinue) := by
  cases canContinue with
  | false => exact .of_eq rfl rfl
  | true => exact extends_writeNext t

theorem step_extends (taken : step t input = some after) : t.Extends after := by
  obtain ⟨m, chunks, encoded, isOpen, framed, fits, rfl⟩ | ⟨calls, canContinue, -, rfl⟩ |
    ⟨listener, rest, calls, -, -, rfl⟩ | ⟨calls, rfl | rfl⟩ | ⟨calls, rfl⟩ | rfl | rfl := step_cases taken
  · obtain ⟨sent, written⟩ := extends_flushWrites (t.queueFrame m chunks)
    exact ⟨(List.prefix_append t.sent [m]).trans sent, written⟩
  · obtain ⟨sent, written⟩ := extends_wrote (t.during calls) canContinue
    exact ⟨sent, written⟩
  · obtain ⟨sent, written⟩ := extends_runListener (t.during (.emit rest :: calls)) listener
    exact ⟨sent, written⟩
  · exact .of_eq rfl rfl
  · exact .of_eq sent_fail written_fail
  · exact .of_eq rfl rfl
  · exact .of_eq sent_close written_close
  · exact .of_eq sent_onClose written_onClose

theorem step_shut (intact : t.Intact) (taken : step t input = some after) (shut : after.closed = true) :
    after.sent = t.sent ∧ after.written = t.written := by
  obtain ⟨m, chunks, encoded, isOpen, framed, fits, rfl⟩ | ⟨calls, canContinue, -, rfl⟩ |
    ⟨listener, rest, calls, -, -, rfl⟩ | ⟨calls, rfl | rfl⟩ | ⟨calls, rfl⟩ | rfl | rfl := step_cases taken
  · rw [closed_flushWrites] at shut
    change t.closed = true at shut
    rw [isOpen] at shut
    cases shut
  · rw [closed_wrote] at shut
    exact ⟨sent_wrote canContinue, (step_closed intact shut taken).2⟩
  · rw [closed_runListener] at shut
    exact ⟨sent_runListener listener, (step_closed intact shut taken).2⟩
  · exact ⟨rfl, rfl⟩
  · exact ⟨sent_fail, written_fail⟩
  · exact ⟨rfl, rfl⟩
  · exact ⟨sent_close, written_close⟩
  · exact ⟨sent_onClose, written_onClose⟩

/-- The stream has been given the first bytes of the frames that were sent. -/
def Streams (t : NodeRpcSender) : Prop :=
  ∃ frames, List.Forall₂ EncodedAs t.sent frames ∧ t.written.flatten <+: frames.flatten

theorem Intact.streams (intact : t.Intact) (isOpen : t.closed = false) : t.Streams := by
  obtain ⟨frames, encoded, joined⟩ := intact.inOrder isOpen
  refine ⟨frames, encoded, ?_⟩
  rw [← joined, List.flatten_append]
  exact List.prefix_append _ _

theorem Streams.step (streams : t.Streams) (intact : t.Intact) (taken : step t input = some after) : after.Streams := by
  cases shut : after.closed with
  | false => exact (intact_step intact taken).streams shut
  | true =>
      obtain ⟨sent, written⟩ := step_shut intact taken shut
      rw [Streams, sent, written]
      exact streams

end NodeRpcSender

namespace NodeRpcTransport

variable {t : NodeRpcTransport}

theorem awaited_of_quiet {input : Input} {after : NodeRpcTransport} (quiet : ∀ chunk, input ≠ .data chunk) :
    RefusalsAwaited t input after :=
  fun chunk same => absurd same (quiet chunk)

/-- While nothing is refused a `recvMessage` fails only once the transport is closed. -/
def FailsClosed (t : NodeRpcTransport) : Prop := t.closed = false → ¬ t.Failed

theorem resolve_pending (t : NodeRpcTransport) (frame : Bytes) : (t.resolve frame).pending = t.pending := by
  cases found : decodeFrame frame with
  | ok msg =>
      rw [resolve_ok found]
      split <;> rfl
  | error error =>
      rw [resolve_refused found]
      split <;> rfl

theorem resolves_emitted (frames : List Bytes) (t : NodeRpcTransport) :
    (frames.foldl resolve t).emitted = t.emitted ++ frames ∧ (frames.foldl resolve t).pending = t.pending ∧
      (frames.foldl resolve t).closed = t.closed := by
  induction frames generalizing t with
  | nil => exact ⟨(List.append_nil _).symm, rfl, rfl⟩
  | cons frame frames ih =>
      obtain ⟨emitted, pending, closed⟩ := ih (t.resolve frame)
      obtain ⟨more, stays, -, -⟩ := resolve_spec t frame
      refine ⟨?_, pending.trans (resolve_pending t frame), closed.trans stays⟩
      rw [List.foldl_cons, emitted, more, List.append_assoc, List.singleton_append]

theorem failed_resolve {frame : Bytes} (accepted : ¬ Refuses frame) (fine : ¬ t.Failed) : ¬ (t.resolve frame).Failed := by
  obtain ⟨msg, found⟩ := not_refuses accepted
  rw [resolve_ok found]
  split
  · rintro ⟨error, member⟩
    rcases List.mem_append.mp member with earlier | last
    · exact fine ⟨error, earlier⟩
    · simp at last
  · exact fine

theorem failed_resolves {frames : List Bytes} (accepted : ∀ frame ∈ frames, ¬ Refuses frame) (fine : ¬ t.Failed) :
    ¬ (frames.foldl resolve t).Failed := by
  induction frames generalizing t with
  | nil => exact fine
  | cons frame frames ih =>
      apply ih fun other member => accepted other (List.mem_cons_of_mem _ member)
      exact failed_resolve (accepted frame (List.mem_cons_self ..)) fine

theorem settle_emitted (t : NodeRpcTransport) (result : Except ReceiveError Message) :
    (t.settle result).emitted = t.emitted ∧ (t.settle result).pending = t.pending ∧
      (t.settle result).closed = t.closed := by
  unfold settle
  split <;> exact ⟨rfl, rfl, rfl⟩

theorem close_emitted (t : NodeRpcTransport) (err : Option String) :
    (t.close err).emitted = t.emitted ∧ (t.close err).pending = t.pending ∧ (t.close err).closed = true :=
  settle_emitted { t with closed := true, closeError := err, queue := [] } _

theorem fail_emitted (t : NodeRpcTransport) (err : String) :
    (t.fail err).emitted = t.emitted ∧ (t.fail err).pending = t.pending ∧ (t.fail err).closed = true := by
  unfold fail
  split
  · rename_i closed
    exact ⟨rfl, rfl, closed⟩
  · exact close_emitted t (some err)

theorem recvMessage_emitted (t : NodeRpcTransport) :
    t.recvMessage.emitted = t.emitted ∧ t.recvMessage.pending = t.pending ∧ t.recvMessage.closed = t.closed := by
  unfold recvMessage
  split
  · exact ⟨rfl, rfl, rfl⟩
  · split <;> exact ⟨rfl, rfl, rfl⟩

theorem FailsClosed.recvMessage (fails : t.FailsClosed) : t.recvMessage.FailsClosed := by
  intro isOpen
  rw [(recvMessage_emitted t).2.2] at isOpen
  have fine := fails isOpen
  unfold NodeRpcTransport.recvMessage
  rw [if_neg (by simp [isOpen])]
  split
  · rintro ⟨error, member⟩
    rcases List.mem_append.mp member with earlier | last
    · exact fine ⟨error, earlier⟩
    · simp at last
  · exact fine

end NodeRpcTransport

/-! The two ends. -/

structure Link where
  sender : NodeRpcSender
  -- how many of the bytes that were written have arrived
  arrived : Nat := 0
  receiver : NodeRpcTransport := {}

inductive Move
  | send (input : NodeRpcSender.Input)
  -- the next bytes of the stream arrive as one chunk
  | arrive (count : Nat)
  | recvMessage
  | close
  | fail (err : String)

namespace Link

variable {link after : Link} {move : Move}

def bytes (link : Link) : Bytes := link.sender.written.flatten

def step (link : Link) : Move → Option Link
  | .send input => (link.sender.step input).map fun sender => { link with sender := sender }
  | .arrive count =>
      let chunk := (link.bytes.drop link.arrived).take count
      (link.receiver.step (.data chunk)).map fun receiver =>
        { link with receiver := receiver, arrived := link.arrived + chunk.length }
  | .recvMessage => (link.receiver.step .recvMessage).map fun receiver => { link with receiver := receiver }
  | .close => (link.receiver.step .close).map fun receiver => { link with receiver := receiver }
  | .fail err => (link.receiver.step (.fail err)).map fun receiver => { link with receiver := receiver }

def start (maxQueuedBytes : Option Nat) : Link := { sender := NodeRpcSender.start maxQueuedBytes }

/-- The receiver has taken the frames off the bytes that have arrived, and refused none. -/
structure Takes (link : Link) : Prop where
  inside : link.arrived ≤ link.bytes.length
  emitted : link.receiver.emitted = (framing.takeFrames (link.bytes.take link.arrived)).frames
  pending : link.receiver.pending = (framing.takeFrames (link.bytes.take link.arrived)).pending
  fine : (framing.takeFrames (link.bytes.take link.arrived)).error = none
  conveys : link.receiver.Conveys
  failsClosed : link.receiver.FailsClosed

structure Works (link : Link) : Prop where
  intact : link.sender.Intact
  streams : link.sender.Streams
  takes : (∀ m ∈ link.sender.sent, Deliverable m) → link.Takes

theorem encodedAs_unique : Relator.RightUnique EncodedAs := by
  rintro m _ _ ⟨chunks, after, run, rfl⟩ ⟨others, later, again, rfl⟩
  rw [run] at again
  cases again
  rfl

theorem whole_frames {messages : List Message} {frames : List Bytes} (encoded : List.Forall₂ EncodedAs messages frames)
    (deliverable : ∀ m ∈ messages, Deliverable m) :
    ∀ frame ∈ frames, frameBytes frame = .ok (some frame.length) ∧ ¬ NodeRpcTransport.Refuses frame := by
  intro frame member
  obtain ⟨m, sent, found⟩ := forall₂_right encoded member
  have fit := deliverable m sent
  refine ⟨?_, fit.accepted frame found⟩
  have fits : ∀ s ∈ m.segments, s.byteLength % 2 ^ 35 < 2 ^ 31 := by
    intro s inside
    have lower := (fit.inside s inside).1
    have small := fit.small s inside
    omega
  have whole := ((found.announces fit.encodable).frameBytes_iff fit.encodable []).mpr fits
  rwa [List.append_nil] at whole

theorem completeWithin_initial (frames : List Bytes) (count : Nat) : completeWithin frames count <+: frames := by
  induction frames generalizing count with
  | nil => exact List.prefix_rfl
  | cons frame frames ih =>
      rw [completeWithin]
      split
      · exact List.prefix_cons_inj frame |>.mpr (ih _)
      · exact List.nil_prefix

theorem taken_of_streams (streams : link.sender.Streams) (deliverable : ∀ m ∈ link.sender.sent, Deliverable m)
    {count : Nat} (inside : count ≤ link.bytes.length) :
    ∃ frames, List.Forall₂ EncodedAs link.sender.sent frames ∧
      (framing.takeFrames (link.bytes.take count)).frames = completeWithin frames count ∧
      (framing.takeFrames (link.bytes.take count)).error = none := by
  obtain ⟨frames, encoded, streamed⟩ := streams
  have whole := whole_frames encoded deliverable
  have nothing : framing.first (([] : Bytes) ++ [0]) = .ok none := rfl
  have parts := framing.takeFrames_take (fun frame member => (whole frame member).1) (List.cons_ne_nil _ _)
    (Or.inl nothing) count
  have same : (frames.flatten ++ []).take count = link.bytes.take count := by
    obtain ⟨rest, joined⟩ := streamed
    rw [List.append_nil, ← joined]
    exact List.take_append_of_le_length inside
  rw [same] at parts
  exact ⟨frames, encoded, parts.1, parts.2⟩

theorem works_start (max : Option Nat) : (start max).Works where
  intact := NodeRpcSender.intact_run (.start : Run NodeRpcSender.step (fun _ _ _ => True) _ _)
  streams := ⟨[], .nil, List.prefix_rfl⟩
  takes _ := by
    have nothing : framing.takeFrames ((start max).bytes.take (start max).arrived) = ⟨[], [], none⟩ :=
      takeFrames_nothing
    refine ⟨Nat.zero_le _, ?_, ?_, ?_, NodeRpcTransport.conveys_initial, ?_⟩
    · rw [nothing]
      rfl
    · rw [nothing]
      rfl
    · rw [nothing]
    · rintro _ ⟨error, member⟩
      cases member

theorem Takes.of_receiver (takes : link.Takes) (sender : after.sender = link.sender) (arrived : after.arrived = link.arrived)
    (emitted : after.receiver.emitted = link.receiver.emitted) (pending : after.receiver.pending = link.receiver.pending)
    (conveys : after.receiver.Conveys) (failsClosed : after.receiver.FailsClosed) : after.Takes := by
  have same : after.bytes.take after.arrived = link.bytes.take link.arrived := by
    rw [bytes, bytes, sender, arrived]
  refine ⟨?_, ?_, ?_, ?_, conveys, failsClosed⟩
  · rw [bytes, sender, arrived]
    exact takes.inside
  · rw [same, emitted]
    exact takes.emitted
  · rw [same, pending]
    exact takes.pending
  · rw [same]
    exact takes.fine

theorem Takes.send {sender : NodeRpcSender} (takes : link.Takes) (extends' : link.sender.Extends sender) :
    Takes { link with sender := sender } := by
  obtain ⟨more, joined⟩ := extends'.written
  have grown : bytes { link with sender := sender } = link.bytes ++ more.flatten := by
    rw [bytes, bytes, ← List.flatten_append, joined]
  have same : (bytes { link with sender := sender }).take link.arrived = link.bytes.take link.arrived := by
    rw [grown, List.take_append_of_le_length takes.inside]
  refine ⟨?_, ?_, ?_, ?_, takes.conveys, takes.failsClosed⟩
  · rw [grown, List.length_append]
    exact Nat.le_add_right_of_le takes.inside
  · rw [same]
    exact takes.emitted
  · rw [same]
    exact takes.pending
  · rw [same]
    exact takes.fine

theorem Takes.arrive (takes : link.Takes) (streams : link.sender.Streams)
    (deliverable : ∀ m ∈ link.sender.sent, Deliverable m) {chunk : Bytes} {receiver : NodeRpcTransport}
    (next : ∃ count, chunk = (link.bytes.drop link.arrived).take count)
    (taken : link.receiver.step (.data chunk) = some receiver) :
    Takes { link with receiver := receiver, arrived := link.arrived + chunk.length } := by
  obtain ⟨count, cut⟩ := next
  have short : chunk.length ≤ link.bytes.length - link.arrived := by
    rw [cut, List.length_take, List.length_drop]
    exact Nat.min_le_right _ _
  have inside := takes.inside
  have joined : link.bytes.take (link.arrived + chunk.length) = link.bytes.take link.arrived ++ chunk := by
    rw [List.take_add]
    congr 1
    rw [cut, List.length_take]
    exact (List.take_eq_take_min).symm
  have further : link.arrived + chunk.length ≤ link.bytes.length := by omega
  obtain ⟨frames, encoded, all, fine⟩ := taken_of_streams streams deliverable further
  rw [joined] at all fine
  have more := Framing.takeFrames_more (link.bytes.take link.arrived) chunk takes.fine
  rw [← takes.pending] at more
  have pushed : push chunk link.receiver.pending = .ok (framing.takeFrames (link.receiver.pending ++ chunk)).frames
      (framing.takeFrames (link.receiver.pending ++ chunk)).pending := by
    rw [more] at fine
    exact push_eq_ok.mpr ⟨fine, rfl, rfl⟩
  have accepted : ∀ frame ∈ (framing.takeFrames (link.receiver.pending ++ chunk)).frames,
      ¬ NodeRpcTransport.Refuses frame := by
    intro frame member
    have among : frame ∈ completeWithin frames (link.arrived + chunk.length) := by
      rw [← all, more]
      exact List.mem_append_right _ member
    exact (whole_frames encoded deliverable frame ((completeWithin_initial _ _).subset among)).2
  rw [NodeRpcTransport.step] at taken
  split at taken
  · cases taken
  · rename_i isOpen
    cases taken
    have isOpen : link.receiver.closed = false := Bool.eq_false_of_not_eq_true isOpen
    have data : link.receiver.onData chunk =
        (framing.takeFrames (link.receiver.pending ++ chunk)).frames.foldl NodeRpcTransport.resolve
          { link.receiver with pending := (framing.takeFrames (link.receiver.pending ++ chunk)).pending } := by
      rw [NodeRpcTransport.onData, pushed]
    have kept : NodeRpcTransport.Conveys
        { link.receiver with pending := (framing.takeFrames (link.receiver.pending ++ chunk)).pending } :=
      ⟨takes.conveys.inOrder, takes.conveys.accepted, takes.conveys.whole, takes.conveys.waiting⟩
    obtain ⟨emitted, pending, closed⟩ := NodeRpcTransport.resolves_emitted
      (framing.takeFrames (link.receiver.pending ++ chunk)).frames
      { link.receiver with pending := (framing.takeFrames (link.receiver.pending ++ chunk)).pending }
    have same : (bytes { link with receiver := link.receiver.onData chunk, arrived := link.arrived + chunk.length }).take
        (link.arrived + chunk.length) = link.bytes.take link.arrived ++ chunk := joined
    refine ⟨?_, ?_, ?_, ?_, ?_, ?_⟩
    · exact further
    · rw [same, data, emitted, more]
      dsimp only
      rw [takes.emitted]
    · rw [same, data, pending, more]
    · rw [same]
      exact fine
    · rw [data]
      exact kept.resolves_accepted accepted
    · intro _
      dsimp only
      rw [data]
      exact NodeRpcTransport.failed_resolves accepted (takes.failsClosed isOpen)

theorem Works.step (works : link.Works) (taken : link.step move = some after) : after.Works := by
  cases move with
  | send input =>
      obtain ⟨sender, sent, rfl⟩ := Option.map_eq_some_iff.mp taken
      have grown := NodeRpcSender.step_extends sent
      refine ⟨NodeRpcSender.intact_step works.intact sent, works.streams.step works.intact sent, fun deliverable => ?_⟩
      exact (works.takes fun m member => deliverable m (grown.sent.subset member)).send grown
  | arrive count =>
      obtain ⟨receiver, received, rfl⟩ := Option.map_eq_some_iff.mp taken
      refine ⟨works.intact, works.streams, fun deliverable => ?_⟩
      exact (works.takes deliverable).arrive works.streams deliverable ⟨count, rfl⟩ received
  | recvMessage =>
      rw [step, Option.map_eq_some_iff] at taken
      obtain ⟨receiver, received, rfl⟩ := taken
      refine ⟨works.intact, works.streams, fun deliverable => ?_⟩
      have takes := works.takes deliverable
      have conveys := takes.conveys.step received (NodeRpcTransport.awaited_of_quiet (by intro chunk same; cases same))
      rw [NodeRpcTransport.step] at received
      split at received
      · cases received
      · cases received
        obtain ⟨emitted, pending, -⟩ := link.receiver.recvMessage_emitted
        exact takes.of_receiver rfl rfl emitted pending conveys takes.failsClosed.recvMessage
  | close =>
      rw [step, Option.map_eq_some_iff] at taken
      obtain ⟨receiver, received, rfl⟩ := taken
      refine ⟨works.intact, works.streams, fun deliverable => ?_⟩
      have takes := works.takes deliverable
      have conveys := takes.conveys.step received (NodeRpcTransport.awaited_of_quiet (by intro chunk same; cases same))
      cases received
      obtain ⟨emitted, pending, closed⟩ := link.receiver.close_emitted none
      refine takes.of_receiver rfl rfl ?_ ?_ conveys ?_
      · dsimp only
        split
        · rfl
        · exact emitted
      · dsimp only
        split
        · rfl
        · exact pending
      · intro isOpen
        dsimp only at isOpen
        split at isOpen
        · rename_i shut
          rw [shut] at isOpen
          cases isOpen
        · rw [closed] at isOpen
          cases isOpen
  | fail err =>
      rw [step, Option.map_eq_some_iff] at taken
      obtain ⟨receiver, received, rfl⟩ := taken
      refine ⟨works.intact, works.streams, fun deliverable => ?_⟩
      have takes := works.takes deliverable
      have conveys := takes.conveys.step received (NodeRpcTransport.awaited_of_quiet (by intro chunk same; cases same))
      cases received
      obtain ⟨emitted, pending, closed⟩ := link.receiver.fail_emitted err
      refine takes.of_receiver rfl rfl emitted pending conveys fun isOpen => ?_
      rw [closed] at isOpen
      cases isOpen

theorem works_of_run {max : Option Nat} (run : Run step (fun _ _ _ => True) (start max) link) : link.Works :=
  run.invariant (works_start max) fun _ _ _ works taken _ => works.step taken

/-! What has arrived, compared with what was sent. -/

theorem delivered_copies {ε : Type} {messages : List Message} {results : List (Except ε Message)}
    (each : List.Forall₂ (fun m result => ∃ decoded, result = .ok decoded ∧ Copies m decoded) messages results) :
    List.Forall₂ Copies messages (NodeRpcTransport.delivered results) := by
  induction each with
  | nil => exact .nil
  | cons first _ ih =>
      obtain ⟨decoded, rfl, copies⟩ := first
      exact .cons copies ih

theorem decoded_copies {messages : List Message} {frames : List Bytes} (encoded : List.Forall₂ EncodedAs messages frames)
    (deliverable : ∀ m ∈ messages, Deliverable m) :
    List.Forall₂ (fun m result => ∃ decoded, result = .ok decoded ∧ Copies m decoded) messages
      (frames.map decodeFrame) := by
  induction encoded with
  | nil => exact .nil
  | cons first _ ih =>
      refine .cons ?_ (ih fun m member => deliverable m (List.mem_cons_of_mem _ member))
      exact (deliverable _ (List.mem_cons_self ..)).decodes first

theorem Works.emitted_copies (works : link.Works) (deliverable : ∀ m ∈ link.sender.sent, Deliverable m) :
    ∃ count, List.Forall₂ Copies (link.sender.sent.take count) (NodeRpcTransport.delivered link.receiver.decoded) ∧
      (link.sender.closed = false → link.sender.writeQueue = [] → link.arrived = link.bytes.length →
        link.sender.sent.take count = link.sender.sent) := by
  have takes := works.takes deliverable
  obtain ⟨frames, encoded, all, -⟩ := taken_of_streams works.streams deliverable takes.inside
  obtain ⟨rest, joined⟩ := completeWithin_initial frames link.arrived
  have emitted : link.receiver.emitted = frames.take (completeWithin frames link.arrived).length := by
    rw [takes.emitted, all]
    conv => rhs; rw [← joined]
    rw [List.take_left']
    rw [joined]
  refine ⟨(completeWithin frames link.arrived).length, ?_, ?_⟩
  · apply delivered_copies
    rw [NodeRpcTransport.decoded, emitted, List.map_take]
    exact List.forall₂_take _ (decoded_copies encoded deliverable)
  · intro isOpen queue whole
    obtain ⟨others, again, flat⟩ := works.intact.inOrder isOpen
    rw [queue, List.append_nil] at flat
    have same : others = frames := List.right_unique_forall₂' encodedAs_unique again encoded
    have complete : completeWithin frames link.arrived = frames := by
      apply Framing.completeWithin_all
      rw [whole, bytes, flat, same]
    rw [complete, ← encoded.length_eq, List.take_length]

/-- Over every run: the messages that are received are copies of the first ones that were sent, in order, and once
everything has arrived none is missing. -/
theorem received_in_order (max : Option Nat) (link : Link) (run : Run step (fun _ _ _ => True) (start max) link)
    (deliverable : ∀ m ∈ link.sender.sent, Deliverable m) :
    (∃ count, List.Forall₂ Copies (link.sender.sent.take count) (NodeRpcTransport.delivered link.receiver.received)) ∧
      (link.sender.closed = false → link.sender.writeQueue = [] → link.arrived = link.bytes.length →
        link.receiver.closed = false →
        List.Forall₂ Copies link.sender.sent
          (NodeRpcTransport.delivered link.receiver.received ++ link.receiver.queue)) := by
  have works := works_of_run run
  have takes := works.takes deliverable
  obtain ⟨count, copies, whole⟩ := works.emitted_copies deliverable
  constructor
  · obtain ⟨rest, joined⟩ := takes.conveys.inOrder
    refine ⟨min (NodeRpcTransport.delivered link.receiver.received).length count, ?_⟩
    have first := List.forall₂_take (NodeRpcTransport.delivered link.receiver.received).length copies
    rwa [← joined, List.take_left' rfl, List.take_take] at first
  · intro isOpen queue arrived listening
    have fine := takes.failsClosed listening
    rw [← takes.conveys.whole fine listening, ← whole isOpen queue arrived]
    exact copies

def nullRootMessage : Message := oneSegmentMessage (List.replicate 8 0)

theorem nullRootMessage_encoded : EncodedAs nullRootMessage NodeRpcTransport.nullFrame :=
  ⟨[NodeRpcTransport.nullFrame], nullRootMessage, by rfl, by rfl⟩

theorem nullRootMessage_deliverable : Deliverable nullRootMessage where
  some := by decide
  few := by decide
  inside := by decide
  aligned := by decide
  root := by decide
  small := by decide
  accepted := by
    rintro frame encoded ⟨error, refused⟩
    obtain ⟨msg, accepted⟩ := NodeRpcTransport.nullFrame_accepted
    rw [encodedAs_unique encoded nullRootMessage_encoded, accepted] at refused
    cases refused

theorem received_in_order_nullRoot :
    ∃ link : Link, link.sender.sent = [nullRootMessage] ∧ link.receiver.received ≠ [] ∧
      (∃ count, List.Forall₂ Copies (link.sender.sent.take count) (NodeRpcTransport.delivered link.receiver.received)) ∧
      (link.sender.closed = false → link.sender.writeQueue = [] → link.arrived = link.bytes.length →
        link.receiver.closed = false →
        List.Forall₂ Copies link.sender.sent
          (NodeRpcTransport.delivered link.receiver.received ++ link.receiver.queue)) := by
  have asked : ∃ link, Run.follow step (start none)
      [.send (.sendMessage nullRootMessage), .send (.answer true), .recvMessage] = some link ∧
      link.sender.sent = [nullRootMessage] ∧ link.bytes = NodeRpcTransport.nullFrame ∧ link.arrived = 0 ∧
      link.receiver = { d := true } := ⟨_, rfl, rfl, rfl, rfl, rfl⟩
  obtain ⟨link, followed, sent, bytes, arrived, waits⟩ := asked
  obtain ⟨msg, accepted⟩ := NodeRpcTransport.nullFrame_accepted
  have resolved : link.receiver.onData NodeRpcTransport.nullFrame =
      { emitted := [NodeRpcTransport.nullFrame], received := [.ok msg] } := by
    rw [waits, NodeRpcTransport.onData_frame rfl rfl, NodeRpcTransport.resolve_ok accepted]
    rfl
  have taken : step link (.arrive 16) =
      some { link with receiver := link.receiver.onData NodeRpcTransport.nullFrame, arrived := 16 } := by
    rw [step, bytes, arrived]
    change (if link.receiver.closed = true then none else some (link.receiver.onData NodeRpcTransport.nullFrame)).map _ = _
    rw [waits]
    rfl
  have run := (Run.of_follow .start followed).step taken trivial
  refine ⟨{ link with receiver := link.receiver.onData NodeRpcTransport.nullFrame, arrived := 16 }, sent, ?_,
    received_in_order none _ run fun m member => ?_⟩
  · dsimp only
    rw [resolved]
    exact List.cons_ne_nil _ _
  · change m ∈ link.sender.sent at member
    rw [sent, List.mem_singleton] at member
    rw [member]
    exact nullRootMessage_deliverable

end Link

end CapnpEs.Node
