import CapnpEs.Rpc.AfterShutdown
import CapnpEs.Rpc.HandlerTurns

/-! The loop that receives messages, and what is left of a connection when it ends. -/

namespace CapnpEs.Rpc

open Outcome Relation SlotTable Transition

variable {conn : Conn} {P : Set Power}

/-- What happens to the loop: a message that is handled, with an error or without, and the end of messages. Between
messages the application goes on. -/
inductive LoopInput
  | input (input : Input)
  -- the message is handled with an error that is no protocol error
  | throws (message : RpcMessage)
  -- `recvMessage` rejects, or what it gives cannot be read
  | fails

/-- Whether `handleMessage` returns. -/
def Conn.handles (conn : Conn) (m : RpcMessage) : Bool :=
  match handleMessage m conn.fresh with
  | .ok _ _ => true
  | .error _ _ => false

def Conn.loopStep (conn : Conn) : LoopInput → Option Conn
  | .input (.act action) => conn.step (.act action)
  | .input (.receive m) => if conn.handles m then conn.step (.receive m) else none
  | .throws m => if conn.handles m then none else conn.step (.receive m)
  | .fails => if conn.receiving then some { conn.fresh with receiving := false } else none

structure Conn.Quieted (conn : Conn) : Prop where
  shut : ∀ i id, (conn.client i).core ≠ .importClient { id := id }
  questions : ∀ id, conn.findQuestion id = none
  imports : ∀ id, find conn.imports id = none
  waiters : ∀ id, find conn.tailAnswerWaiters id = none

/-- What a connection whose loop has ended owes to its callers: it has been shut down, no question is in the table or
waits for an answer, no call for the end of an embargo, and no call becomes a question. -/
structure Conn.HungUp (conn : Conn) : Prop where
  closed : conn.closed = true
  questions : ∀ id, conn.findQuestion id = none
  waiters : ∀ id, find conn.tailAnswerWaiters id = none
  embargoed : ∀ i c, conn.client i = .importClient c → c.embargoQueue = []
  calls : ∀ depth client call, Meets (callClient depth client call) conn (fun answer _ => ∀ q, answer ≠ .question q)
    fun _ _ => True

def RpcMessage.brings : RpcMessage → Bool
  | .call _ target _ _ params => decide (target ≠ .other) && decide (hosted params.capTable ≠ [])
  | _ => false

/-- Errors reach the loop of a connection only after it has been shut down; then no call brings capabilities any more,
and no capability is asked for. -/
def Conn.orderly (conn : Conn) : LoopInput → Bool
  | .input (.receive m) => !conn.closed || !m.brings
  | .input (.act .bootstrap) => !conn.closed
  | .input (.act _) => true
  | .throws m => conn.closed && !m.brings
  | .fails => conn.closed

namespace Conn.Quieted

theorem ask {after : Conn} (quieted : conn.Quieted) (unadopted : Power.adopt ∉ P) (step : Ask P conn after) :
    after.Quieted := by
  obtain ⟨shut, questions, imports, waiters⟩ := quieted
  cases step with
  | idle same =>
      constructor
      · intro i id isOpen
        exact shut i id ((same.client i).opens unadopted id isOpen)
      · intro id
        rw [findQuestion, same.questions]
        exact questions id
      · exact fun id => same.imports unadopted id (imports id)
      · intro id
        rw [same.waiters]
        exact waiters id
  | issue method can outlet =>
      rcases outlet with ⟨i, id, isOpen⟩ | ⟨id, q, found⟩
      · exact absurd isOpen (shut i id)
      · cases (questions id).symm.trans found
  | start isOpen same => cases (questions _).symm.trans isOpen
  | abandon isOpen unneeded => cases (questions _).symm.trans isOpen

theorem turn {after : Conn} (quieted : conn.Quieted) (unadopted : Power.adopt ∉ P) (turn : Turn P conn after) :
    after.Quieted := by
  cases turn with
  | ask step => exact quieted.ask unadopted step
  | giveUp reason mine known pending same =>
      rename_i q change
      have stays : conn.leave q = conn := by simp [Conn.leave, quieted.questions]
      rw [stays]
      exact { quieted with }
  | takeWaiters id =>
      refine { quieted with waiters := ?_ }
      intro other
      simp only [Conn.setWaiters, find_put]
      split
      · rfl
      · exact quieted.waiters other
  | _ => exact { quieted with }

theorem turns {after : Conn} (quieted : conn.Quieted) (unadopted : Power.adopt ∉ P) (turns : Turns P conn after) :
    after.Quieted := by
  induction turns with
  | refl => exact quieted
  | tail _ turn ih => exact ih.turn unadopted turn

theorem idle {after : Conn} (quieted : conn.Quieted) (same : Idle ∅ conn after) : after.Quieted :=
  quieted.turn (Set.notMem_empty _) (.idle same)

end Conn.Quieted

/-- What runs after the connection has gone quiet asks nothing. -/
def Unasking (program : ConnM Answer) : Prop :=
  ∀ conn : Conn, conn.Quieted → Meets program conn (fun answer _ => ∀ q, answer ≠ .question q) fun _ _ => True

theorem pushCall_unasking (owner : Nat) (call : Call) : Unasking (pushCall owner call) := by
  intro conn _
  apply Meets.get
  dsimp only
  split
  · exact nofun
  · exact nofun

theorem resolution_unasking {next : Nat → ConnM Answer} (unasking : ∀ client, Unasking (next client))
    (transform : Transform) (obj : Option Struct) (err : Option String) :
    Unasking (clientFromResolution transform obj err >>= next) := by
  intro conn quieted
  apply Meets.bind
  apply (clientFromResolution_idle transform obj err conn).mono
  · exact fun client after same => unasking client after (quieted.idle same)
  · exact fun _ _ _ => trivial

theorem callClient_unasking (depth client : Nat) (call : Call) : Unasking (callClient depth client call) := by
  induction depth generalizing client call with
  | zero => exact fun _ _ => trivial
  | succ depth ih =>
      intro conn quieted
      apply Meets.get
      cases shape : conn.client client with
      | server methods =>
          change ∀ q, (if call.method ∈ methods then Answer.fulfiller else _) ≠ .question q
          split
          · intro _ same
            cases same
          · intro _ same
            cases same
      | error reason =>
          intro _ same
          cases same
      | ref rc closed => exact ih _ call conn quieted
      | importClient c =>
          have closed : c.closed = true := by
            cases isOpen : c.closed with
            | true => rfl
            | false => exact absurd (by simp [shape, Client.core, isOpen]) (quieted.shut client c.id)
          dsimp only
          rw [if_pos closed]
          intro _ same
          cases same
      | pipeline q transform =>
          apply Meets.get
          dsimp only
          split
          · rw [if_neg (by rw [quieted.questions]; intro same; cases same)]
            split
            · exact trivial
            · exact resolution_unasking (fun client => ih client call) transform _ _ conn quieted
          · split
            · intro _ same
              cases same
            · exact resolution_unasking (fun client => ih client call) transform _ _ conn quieted
      | fixedPipeline answer transform =>
          cases answer with
          | error reason =>
              intro _ same
              cases same
          | ok struct =>
              apply Meets.bind
              apply (findClient_idle struct transform conn).mono
              · exact fun next after same => ih next call after (quieted.idle same)
              · exact fun _ _ _ => trivial
      | localAnswer a transform =>
          dsimp only
          split
          · exact resolution_unasking (fun client => ih client call) transform _ _ conn quieted
          · intro _ same
            cases same
      | promiseExport c =>
          dsimp only
          split
          · intro _ same
            cases same
          · cases c.resolved with
            | some next => exact ih next call conn quieted
            | none => exact pushCall_unasking client call conn quieted
      | queue c =>
          dsimp only
          split
          · exact ih c.client call conn quieted
          · exact pushCall_unasking client call conn quieted
      | null => exact trivial
      | other =>
          intro _ same
          cases same

structure Conn.Listening (conn : Conn) : Prop where
  wellFormed : conn.WellFormed
  works : conn.closed = false → conn.working = true
  ended : conn.receiving = false → conn.closed = true
  quieted : conn.closed = true → conn.Quieted

theorem Conn.Listening.hungUp (listening : conn.Listening) (ended : conn.receiving = false) : conn.HungUp := by
  have closed := listening.ended ended
  have quieted := listening.quieted closed
  refine ⟨closed, quieted.questions, quieted.waiters, ?_, fun depth client call =>
    callClient_unasking depth client call conn quieted⟩
  intro i c shape
  apply listening.wellFormed.drained i c shape
  cases isOpen : c.closed with
  | true => rfl
  | false => exact absurd (by simp [shape, Client.core, isOpen]) (quieted.shut i c.id)

def Conn.loop (conn : Conn) : Bool × Bool × Bool := (conn.receiving, conn.working, conn.closed)

/-- The loop runs on as before, or the connection has been shut down. -/
def Conn.Passes (before after : Conn) : Prop :=
  after.loop = before.loop ∨ after.closed = true ∧ after.Quieted

theorem shutdown_quiets (wellFormed : conn.WellFormed) (notClosed : conn.closed = false) (reason : String) :
    ∃ after, shutdown reason conn = .ok () after ∧ after.closed = true ∧ after.Quieted := by
  let begun : Conn := { conn with closed := true, working := false }
  have drained : ∀ i, begun.ClosedImport i → begun.Drained i := by
    rintro i ⟨c, shape, closed⟩ c' same
    cases shape.symm.trans same
    exact wellFormed.drained i c shape closed
  have embargoed : begun.Embargoed := wellFormed.embargoed
  obtain ⟨after, tears, tornDown⟩ := shutdownTables_run reason embargoed (wellFormed.held notClosed) drained
  have runs : shutdown reason conn = .ok () after := by
    unfold shutdown
    rw [bind_apply, get_apply]
    dsimp only
    rw [if_neg (by simp [notClosed])]
    exact tears
  have closes := shutdown_closes reason wellFormed
  unfold Meets at closes
  rw [runs] at closes
  refine ⟨after, runs, closes, ?_, tornDown.empty.questions, tornDown.empty.imports, tornDown.empty.waiters⟩
  intro i w isOpen
  obtain ⟨c, shape, _, unclosed⟩ := Client.core_importClient (c := { id := w }) isOpen
  cases (tornDown.closed i c shape).symm.trans unclosed

theorem abort_quiets (wellFormed : conn.WellFormed) (notClosed : conn.closed = false) (kind : ProtocolErrorKind)
    (message : String) :
    ∃ after, abortForProtocolError kind message conn = .ok () after ∧ after.closed = true ∧ after.Quieted := by
  have told : ((conn.say (.aborted kind)).send (.abort message)).WellFormed := (wellFormed.say _).send _
  obtain ⟨after, runs, closed, quieted⟩ := shutdown_quiets told notClosed message
  refine ⟨after, ?_, closed, quieted⟩
  unfold abortForProtocolError
  rw [bind_apply, get_apply]
  dsimp only
  rw [if_neg (by simp [notClosed])]
  exact runs

theorem Turn.steady {after : Conn} (turn : Turn P conn after) (stays : Power.shut ∉ P) : after.loop = conn.loop := by
  cases turn with
  | ask step =>
      cases step with
      | idle same => exact Prod.ext same.receiving (Prod.ext same.working same.closed)
      | _ => rfl
  | shut can => exact absurd can stays
  | giveUp reason mine known pending same =>
      unfold Conn.leave
      split
      · rfl
      · rfl
  | _ => rfl

theorem Turns.steady {after : Conn} (turns : Turns P conn after) (stays : Power.shut ∉ P) : after.loop = conn.loop := by
  induction turns with
  | refl => rfl
  | tail _ turn ih => exact (turn.steady stays).trans ih

def Power.open : Set Power := {.ask, .read, .adopt}

theorem fixes_of_turns {α : Type} {program : ConnM α} (moves : Moves (Turns Power.open) program) :
    Fixes Conn.loop program := by
  intro conn
  have stays : Power.shut ∉ Power.open := by simp [Power.open]
  exact (moves conn).mono (fun _ _ turns => turns.steady stays) fun _ _ turns => turns.steady stays

theorem readContent_fixes (content : Content) : Fixes Conn.loop (readContent content) :=
  fixes_of_turns (turns_of_idle (readContent_idle content))

theorem settleQuestion_fixes (q id : Nat) (body : ReturnBody) (m : RpcMessage) :
    Fixes Conn.loop (settleQuestion q id body m) := by
  have rejects : ∀ reason, Fixes Conn.loop (Question.reject q reason) :=
    fun reason => fixes_of_turns (Question.reject_turns q reason)
  have adopt : Power.adopt ∈ Power.open := by simp [Power.open]
  cases body with
  | results payload =>
      have reads : Fixes Conn.loop (tryCatch (do
          let obj ← readPayload payload
          return Except.ok obj)
          fun error => return Except.error error : ConnM (Except RpcError Struct)) := by
        apply Fixes.tryCatch
        · exact Fixes.bind (fixes_of_turns (turns_of_idle (readPayload_idle payload fun _ => adopt))) fun _ => Fixes.pure _
        · exact fun _ => Fixes.pure _
      apply Fixes.bind reads
      intro outcome
      cases outcome with
      | ok obj => exact Fixes.bind (readContent_fixes payload.content) fun _ => fixes_of_turns (Question.fulfill_turns q obj)
      | error error =>
          cases error with
          | protocol kind message => exact Fixes.bind (rejects message) fun _ => Fixes.throw _
          | error message =>
              apply Fixes.tryCatch
              · exact Fixes.bind (fixes_of_turns (turns_of_idle (sendMessage_idle rfl))) fun _ => rejects message
              · exact fun later => Fixes.bind (rejects later.message) fun _ => Fixes.throw _
  | exception reason => exact rejects reason
  | canceled => exact rejects _
  | takeFromOtherQuestion other =>
      apply Fixes.get
      intro conn
      split
      · exact rejects _ conn
      · cases find conn.answers other with
        | none => exact rejects _ conn
        | some source =>
            dsimp only
            split
            · cases (conn.answer source).err with
              | some reason => exact rejects reason conn
              | none =>
                  cases (conn.answer source).obj with
                  | some obj => exact fixes_of_turns (Question.fulfill_turns q obj) conn
                  | none => exact rejects _ conn
            · exact rfl
  | resultsSentElsewhere => exact rejects _
  | other => exact rejects _
  | unreadable reason => exact Fixes.throw _

theorem handleReturnMessage_passes (wellFormed : conn.WellFormed) (notClosed : conn.closed = false) (id : WireId)
    (releaseParamCaps noFinishNeeded : Bool) (body : ReturnBody) (m : RpcMessage) :
    Meets (handleReturnMessage id releaseParamCaps noFinishNeeded body m) conn (fun _ after => conn.Passes after)
      fun _ after => after.loop = conn.loop := by
  cases found : conn.findQuestion id.id with
  | none =>
      have nothing : popQuestion id.id conn = .ok none conn := by
        unfold popQuestion
        rw [bind_apply, get_apply]
        dsimp only
        rw [found]
        rfl
      obtain ⟨after, aborts, closed, quieted⟩ := abort_quiets wellFormed notClosed .returnForUnknownQuestion
        (RPC_RETURN_FOR_UNKNOWN_QUESTION id.id)
      unfold handleReturnMessage
      apply Meets.bind
      unfold Meets
      rw [nothing]
      dsimp only
      rw [aborts]
      exact Or.inr ⟨closed, quieted⟩
  | some q =>
      have settles : Fixes Conn.loop (do
          emit (.returnUsed q id)
          let conn ← get
          (if releaseParamCaps then (conn.question q).paramCaps else []).forM fun cap => releaseExport cap.id 1
          settleQuestion q id.id body m
          if noFinishNeeded then
            return ()
          else
            sendMessage (newFinishMessage ⟨id.id, q⟩ (!body.keepsResultCaps))) := by
        apply Fixes.bind (fixes_of_turns (turns_of_idle (emit_idle _)))
        intro _
        apply Fixes.get
        intro conn
        have releases : Fixes Conn.loop ((if releaseParamCaps then (conn.question q).paramCaps else []).forM
            fun cap => releaseExport cap.id 1) :=
          fixes_of_turns (Moves.forM fun cap _ => releaseExport_turns cap.id 1)
        refine Fixes.bind releases ?_ conn
        intro _
        apply Fixes.bind (settleQuestion_fixes q id.id body m)
        intro _
        split
        · exact Fixes.pure _
        · exact fixes_of_turns (turns_of_idle (sendMessage_idle rfl))
      unfold handleReturnMessage
      apply Meets.bind
      unfold Meets
      rw [popQuestion_run found]
      apply (settles (conn.dropQuestion id.id)).mono
      · exact fun _ _ same => Or.inl same
      · exact fun _ _ same => same

theorem handleCallMessage_passes (wellFormed : conn.WellFormed) (notClosed : conn.closed = false) (id : WireId)
    (target : MessageTarget) (method : Method) (sendResultsTo : SendResultsTo) (params : Payload) :
    Meets (handleCallMessage id target method sendResultsTo params) conn (fun _ after => conn.Passes after)
      fun _ after => after.loop = conn.loop := by
  have ask : Power.ask ∈ Power.open := by simp [Power.open]
  have read : Power.read ∈ Power.open := by simp [Power.open]
  have adopt : Power.adopt ∈ Power.open := by simp [Power.open]
  unfold handleCallMessage
  split
  · exact rfl
  · have reads := readPayload_runs conn (Hand.receiving (.call id target method sendResultsTo params)) params rfl rfl rfl
    have steady : Fixes Conn.loop (readNonProtocol (readPayload params)) :=
      fixes_of_turns (turns_of_idle (readNonProtocol_idle (readPayload_idle params fun _ => adopt)))
    apply Meets.bind
    apply ((steady conn).and (readNonProtocol_runs reads wellFormed)).mono
    · rintro outcome after ⟨same, left, _, formed, _⟩
      have kept : ∀ {last : Conn}, last.loop = after.loop → conn.Passes last :=
        fun later => Or.inl (later.trans same)
      have stillOpen : after.closed = false := (congrArg (·.2.2) same).trans notClosed
      cases outcome with
      | error reason => exact kept rfl
      | ok struct =>
          apply Meets.bind
          apply Meets.get
          cases free : find after.answers id.id with
          | some a =>
              obtain ⟨last, aborts, closed, quieted⟩ := abort_quiets formed stillOpen .questionIdReused
                (RPC_QUESTION_ID_REUSED id.id)
              change Meets (abortForProtocolError _ _) after _ _
              unfold Meets
              rw [aborts]
              exact Or.inr ⟨closed, quieted⟩
          | none =>
              have starts : Fixes Conn.loop (startCall after.objects id target method sendResultsTo params struct.message) :=
                fixes_of_turns (startCall_turns ask read _ id target method sendResultsTo params struct.message)
              apply (starts _).mono
              · exact fun _ _ later => kept later
              · exact fun _ _ later => later.trans same
    · exact fun _ _ failed => failed.1

theorem dispatchMessage_passes (wellFormed : conn.WellFormed) (notClosed : conn.closed = false) (m : RpcMessage) :
    Meets (dispatchMessage m) conn (fun _ after => conn.Passes after) fun _ after => after.loop = conn.loop := by
  have ask : Power.ask ∈ Power.open := by simp [Power.open]
  have read : Power.read ∈ Power.open := by simp [Power.open]
  have steady : ∀ {program : ConnM Unit}, Moves (Turns Power.open) program →
      Meets program conn (fun _ after => conn.Passes after) fun _ after => after.loop = conn.loop := by
    intro program moves
    apply (fixes_of_turns moves conn).mono
    · exact fun _ _ same => Or.inl same
    · exact fun _ _ same => same
  cases m with
  | unimplemented message => exact steady (Moves.pure _)
  | bootstrap id => exact steady (handleBootstrapMessage_turns ask read id)
  | abort reason =>
      obtain ⟨after, shuts, closed, quieted⟩ := shutdown_quiets wellFormed notClosed reason
      change Meets (shutdown reason) conn _ _
      unfold Meets
      rw [shuts]
      exact Or.inr ⟨closed, quieted⟩
  | finish id releaseResultCaps => exact steady (handleFinishMessage_turns read id releaseResultCaps)
  | resolve promiseId resolution => exact steady (handleResolveMessage_turns promiseId resolution _ fun _ => by simp [Power.open])
  | release id referenceCount => exact steady (releaseExport_turns id.id referenceCount)
  | disembargo target context => exact steady (handleDisembargoMessage_turns ask target context _)
  | unsupported => exact steady (turns_of_idle (sendMessage_idle rfl))
  | ret id releaseParamCaps noFinishNeeded body =>
      exact handleReturnMessage_passes wellFormed notClosed id releaseParamCaps noFinishNeeded body _
  | call id target method sendResultsTo params =>
      exact handleCallMessage_passes wellFormed notClosed id target method sendResultsTo params
  | unknown => exact steady (Moves.pure _)

theorem handleMessage_passes (wellFormed : conn.WellFormed) (notClosed : conn.closed = false) (m : RpcMessage) :
    Meets (handleMessage m) conn.fresh (fun _ after => conn.Passes after) fun _ _ => True := by
  have formed : conn.fresh.WellFormed := { wellFormed with }
  apply Meets.tryCatch
  apply ((dispatchMessage_passes formed notClosed m).and (dispatchMessage_handles m formed)).mono
  · exact fun _ _ passes => passes.1
  · rintro error middle ⟨same, left, _, middleFormed, _⟩
    cases error with
    | error message => exact trivial
    | protocol kind message =>
        have stillOpen : middle.closed = false := (congrArg (·.2.2) same).trans notClosed
        obtain ⟨last, aborts, closed, quieted⟩ := abort_quiets middleFormed stillOpen kind message
        change Meets (abortForProtocolError kind message) middle _ _
        unfold Meets
        rw [aborts]
        exact Or.inr ⟨closed, quieted⟩

def Conn.Hushed (conn : Conn) : Prop := conn.closed = true ∧ conn.Quieted

theorem Conn.Hushed.turns {after : Conn} (hushed : conn.Hushed) (unadopted : Power.adopt ∉ P) (turns : Turns P conn after) :
    after.Hushed := by
  refine ⟨?_, hushed.2.turns unadopted turns⟩
  induction turns with
  | refl => exact hushed.1
  | tail _ turn ih =>
      cases turn with
      | ask step =>
          cases step with
          | idle same => exact same.closed.trans ih
          | _ => exact ih
      | shut can => rfl
      | giveUp reason mine known pending same =>
          unfold Conn.leave
          split
          · exact ih
          · exact ih
      | _ => exact ih

def Power.homely : Set Power := {.ask, .read, .shut}

theorem Power.homely_unadopted : Power.adopt ∉ Power.homely := by
  simp [Power.homely]

theorem abort_hushed (hushed : conn.Hushed) (kind : ProtocolErrorKind) (message : String) :
    abortForProtocolError kind message conn = .ok () conn := by
  unfold abortForProtocolError
  rw [bind_apply, get_apply]
  dsimp only
  rw [if_pos hushed.1]
  rfl

theorem dispatchMessage_hushed (hushed : conn.Hushed) {m : RpcMessage} (plain : m.brings = false) :
    Meets (dispatchMessage m) conn (fun _ after => after.Hushed) fun _ after => after.Hushed := by
  have ask : Power.ask ∈ Power.homely := by simp [Power.homely]
  have read : Power.read ∈ Power.homely := by simp [Power.homely]
  have shut : Power.shut ∈ Power.homely := by simp [Power.homely]
  have moved : ∀ {program : ConnM Unit}, Moves (Turns Power.homely) program →
      Meets program conn (fun _ after => after.Hushed) fun _ after => after.Hushed := by
    intro program moves
    apply (moves conn).mono
    · exact fun _ _ turns => hushed.turns Power.homely_unadopted turns
    · exact fun _ _ turns => hushed.turns Power.homely_unadopted turns
  have plainly : m.isReturn = false → hosted m.descriptors = [] →
      Meets (dispatchMessage m) conn (fun _ after => after.Hushed) fun _ after => after.Hushed :=
    fun other none => moved (dispatchMessage_turns ask read shut other fun some => absurd none some)
  cases m with
  | ret id releaseParamCaps noFinishNeeded body =>
      have nothing : popQuestion id.id conn = .ok none conn := by
        unfold popQuestion
        rw [bind_apply, get_apply]
        dsimp only
        rw [hushed.2.questions]
        rfl
      change Meets (handleReturnMessage id releaseParamCaps noFinishNeeded body _) conn _ _
      unfold handleReturnMessage
      apply Meets.bind
      unfold Meets
      rw [nothing]
      dsimp only
      rw [abort_hushed hushed]
      exact hushed
  | resolve promiseId resolution =>
      have late : handleResolveMessage promiseId resolution (.resolve promiseId resolution) conn =
          discardLateResolve resolution (.resolve promiseId resolution) conn := by
        unfold handleResolveMessage
        rw [bind_apply, get_apply]
        dsimp only
        rw [hushed.2.imports]
      change Meets (handleResolveMessage promiseId resolution (.resolve promiseId resolution)) conn _ _
      unfold Meets
      rw [late]
      exact moved (discardLateResolve_turns resolution _)
  | call id target method sendResultsTo params =>
      by_cases none : hosted params.capTable = []
      · exact plainly rfl none
      · have bad : target = .other := by
          by_contra present
          simp [RpcMessage.brings, none, present] at plain
        change Meets (handleCallMessage id target method sendResultsTo params) conn _ _
        unfold handleCallMessage
        rw [if_pos bad]
        exact hushed
  | _ => exact plainly rfl rfl

theorem work_hushed (hushed : conn.Hushed) {m : RpcMessage} (plain : m.brings = false) :
    (conn.run (work m)).Hushed := by
  have fresh : conn.fresh.Hushed := ⟨hushed.1, { hushed.2 with }⟩
  apply run_meets
  apply work_meets
  · apply Meets.tryCatch
    apply (dispatchMessage_hushed fresh plain).mono
    · exact fun _ _ still => still
    · intro error after still
      cases error with
      | error message => exact still
      | protocol kind message =>
          change Meets (abortForProtocolError kind message) after _ _
          unfold Meets
          rw [abort_hushed still]
          exact still
  · exact fun _ _ still => ⟨still.1, { still.2 with }⟩

theorem shutdown_hushed (hushed : conn.Hushed) (reason : String) : shutdown reason conn = .ok () conn := by
  unfold shutdown
  rw [bind_apply, get_apply]
  dsimp only
  rw [if_pos hushed.1]
  rfl

theorem perform_passes (wellFormed : conn.WellFormed) {action : Action} (allowed : conn.allows action = true)
    (orderly : conn.orderly (.input (.act action)) = true) :
    (conn.Hushed → (conn.run (perform action)).Hushed) ∧
      (conn.closed = false → conn.Passes (conn.run (perform action))) := by
  have begun : conn.fresh.WellFormed := { wellFormed with }
  have hush : conn.Hushed → conn.fresh.Hushed := fun hushed => ⟨hushed.1, { hushed.2 with }⟩
  have steps : action.isTurns = true → (∀ reason, action ≠ .shutdown reason) →
      (conn.Hushed → (conn.run (perform action)).Hushed) ∧ (conn.closed = false → conn.Passes (conn.run (perform action))) := by
    intro plain other
    have turns : Turns {.ask} conn.fresh (conn.run (perform action)) := by
      apply run_meets
      exact perform_turns (Set.mem_singleton _) (fun reason same => absurd same (other reason)) plain allowed
    exact ⟨fun hushed => (hush hushed).turns (by simp) turns, fun _ => Or.inl (turns.steady (by simp))⟩
  cases action with
  | bootstrap =>
      constructor
      · intro hushed
        simp [Conn.orderly, hushed.1] at orderly
      · exact fun _ => Or.inl rfl
  | newPipeline q transform =>
      constructor
      · intro hushed
        refine ⟨hushed.1, { hushed.2 with shut := ?_ }⟩
        intro i id isOpen
        change (Function.update conn.client conn.objects (.pipeline q transform) i).core = _ at isOpen
        by_cases here : i = conn.objects
        · rw [here, Function.update_self] at isOpen
          cases isOpen
        · rw [Function.update_of_ne here] at isOpen
          exact hushed.2.shut i id isOpen
      · exact fun _ => Or.inl rfl
  | newForeignQuestion =>
      constructor
      · exact fun hushed => ⟨hushed.1, { hushed.2 with }⟩
      · exact fun _ => Or.inl rfl
  | shutdown reason =>
      constructor
      · intro hushed
        have stays : conn.run (perform (.shutdown reason)) = conn.fresh :=
          Conn.run_of_ok (shutdown_hushed (hush hushed) reason)
        rw [stays]
        exact hush hushed
      · intro notClosed
        obtain ⟨after, shuts, closed, quieted⟩ := shutdown_quiets begun notClosed reason
        have ends : conn.run (perform (.shutdown reason)) = after := Conn.run_of_ok shuts
        rw [ends]
        exact Or.inr ⟨closed, quieted⟩
  | _ => exact steps rfl (by intro _ same; cases same)

theorem Conn.Listening.of_passes {after : Conn} (listening : conn.Listening) (formed : after.WellFormed)
    (notClosed : conn.closed = false) (passes : conn.Passes after) : after.Listening := by
  rcases passes with same | ⟨closed, quieted⟩
  · obtain ⟨receiving, working, closed⟩ : after.receiving = conn.receiving ∧ after.working = conn.working ∧
        after.closed = conn.closed := by
      simpa [Conn.loop] using same
    constructor
    · exact formed
    · exact fun _ => working.trans (listening.works notClosed)
    · intro ended
      exact closed.trans (listening.ended (receiving.symm.trans ended))
    · intro shut
      cases (closed.symm.trans shut).symm.trans notClosed
  · constructor
    · exact formed
    · intro isOpen
      cases isOpen.symm.trans closed
    · exact fun _ => closed
    · exact fun _ => quieted

theorem Conn.Listening.of_hushed (formed : conn.WellFormed) (hushed : conn.Hushed) : conn.Listening := by
  constructor
  · exact formed
  · intro isOpen
    cases isOpen.symm.trans hushed.1
  · exact fun _ => hushed.1
  · exact fun _ => hushed.2

theorem Conn.Listening.step {after : Conn} {input : LoopInput} (listening : conn.Listening)
    (orderly : conn.orderly input = true) (taken : conn.loopStep input = some after) : after.Listening := by
  have shut : conn.closed = true → conn.Hushed := fun closed => ⟨closed, listening.quieted closed⟩
  -- once the connection is closed it does not matter how a message is handled
  have later : ∀ {m : RpcMessage}, conn.closed = true → m.brings = false → conn.step (.receive m) = some after →
      after.Listening := by
    intro m closed plain taken
    have formed := (Conn.step_effects listening.wellFormed taken).wellFormed
    unfold Conn.step at taken
    dsimp only at taken
    split at taken
    · cases taken
      exact .of_hushed formed (work_hushed (shut closed) plain)
    · cases taken
  cases input with
  | fails =>
      have hushed := shut orderly
      unfold loopStep at taken
      dsimp only at taken
      split at taken
      · cases taken
        exact .of_hushed { listening.wellFormed with } ⟨hushed.1, { hushed.2 with }⟩
      · cases taken
  | throws m =>
      obtain ⟨closed, plain⟩ := Bool.and_eq_true_iff.mp orderly
      unfold loopStep at taken
      dsimp only at taken
      split at taken
      · cases taken
      · exact later closed (by simpa using plain) taken
  | input input =>
      cases input with
      | act action =>
          change conn.step (.act action) = some after at taken
          have formed := (Conn.step_effects listening.wellFormed taken).wellFormed
          unfold Conn.step at taken
          dsimp only at taken
          split at taken
          · rename_i allowed
            cases taken
            obtain ⟨quiet, passes⟩ := perform_passes listening.wellFormed allowed orderly
            cases closed : conn.closed with
            | false => exact listening.of_passes formed closed (passes closed)
            | true => exact .of_hushed formed (quiet (shut closed))
          · cases taken
      | receive m =>
          unfold loopStep at taken
          dsimp only at taken
          split at taken
          · rename_i handled
            cases closed : conn.closed with
            | true => exact later closed (by simpa [Conn.orderly, closed] using orderly) taken
            | false =>
                have formed := (Conn.step_effects listening.wellFormed taken).wellFormed
                unfold Conn.step at taken
                dsimp only at taken
                split at taken
                · rename_i waits
                  cases taken
                  have passes := handleMessage_passes listening.wellFormed closed m
                  unfold Conn.handles at handled
                  cases run : handleMessage m conn.fresh with
                  | error error last =>
                      rw [run] at handled
                      cases handled
                  | ok value last =>
                      unfold Meets at passes
                      rw [run] at passes
                      have ran : conn.run (work m) = { last with receiving := last.receiving && last.working } := by
                        apply Conn.run_of_ok
                        apply tryCatch_of_ok
                        rw [bind_apply, run]
                        rfl
                      rw [ran] at formed ⊢
                      apply listening.of_passes formed closed
                      rcases passes with same | ⟨shut, quieted⟩
                      · left
                        have working : last.working = true :=
                          (congrArg (·.2.1) same).trans (listening.works closed)
                        simp only [Conn.loop, working, Bool.and_true]
                        simpa [Conn.loop, working] using same
                      · exact Or.inr ⟨shut, { quieted with }⟩
                · cases taken
          · cases taken

/-- A capability is asked for, the peer asks for ours and calls it with one of its own, and breaks the protocol. -/
def brokenProtocol : List LoopInput :=
  let method : Method := { interfaceId := 0, methodId := 0 }
  let plain : Content := { caps := [], pointer := fun _ => .ok (.other 0) }
  [.input (.act (.newServer [method])), .input (.act (.initMain 0)), .input (.act .bootstrap),
    .input (.receive (.bootstrap ⟨0, 0⟩)),
    .input (.receive (.call ⟨1, 0⟩ (.importedCap ⟨0, 1⟩) method .caller
      { content := plain, capTable := [.senderHosted ⟨4, 0⟩] })),
    .input (.receive (.ret ⟨7, 0⟩ false false .canceled))]

end CapnpEs.Rpc
