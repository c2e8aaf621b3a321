import CapnpEs.Rpc.Turns

/-! The turns of calls, of settled answers and resolved promises, and of what an application does. -/

namespace CapnpEs.Rpc

open Outcome Relation SlotTable

variable {P : Set Power} {conn : Conn}

theorem issueQuestion_found (conn : Conn) (method : Option Method) :
    (conn.issueQuestion method).findQuestion ((conn.issueQuestion method).question conn.objects).id =
      some conn.objects := by
  simp [Conn.issueQuestion, Conn.say, Conn.allocated, Conn.alterQuestion, Conn.setQuestionSlot, Conn.findQuestion]

theorem issueQuestion_standing (conn : Conn) (method : Option Method) :
    ((conn.issueQuestion method).question conn.objects).standing =
      ((true, conn.questionID.next.1, false), .inProgress, none, none) := by
  simp [Conn.issueQuestion, Conn.say, Conn.allocated, Conn.alterQuestion, Question.standing]

theorem Idle.findQuestion {before after : Conn} (idle : Idle P before after) (q : Nat) :
    after.findQuestion (after.question q).id = before.findQuestion (before.question q).id := by
  have number : (after.question q).id = (before.question q).id := congrArg (fun parts => parts.1.2.1) (idle.question q)
  rw [Conn.findQuestion, Conn.findQuestion, idle.questions, number]

theorem askQuestion_asks {q : Nat} (target : MessageTarget) (method : Method) (params : Payload)
    (isOpen : conn.findQuestion (conn.question q).id = some q) :
    Asks P conn (conn.askQuestion (conn.questionId q) target method params) := by
  let counted := conn.alterQuestion q fun question =>
    { question with paramCaps := collectPayloadSenderHosted params.capTable }
  let sent := counted.send (.call (conn.questionId q) target method .caller params)
  have counts : Idle P conn counted := .alterQuestion conn q rfl
  have idle : Idle P conn sent := counts.trans (.send counted rfl)
  have still : sent.findQuestion (sent.question q).id = some q := (idle.findQuestion q).trans isOpen
  have starts : Ask P sent (sent.alterQuestion q fun question => { question with started := true }) :=
    .start still rfl
  exact (ReflTransGen.single (.idle idle)).tail starts

theorem ask_asks (can : Power.ask ∈ P) (outlet : conn.Outlet) (target : MessageTarget) (call : Call)
    {afterStart : ConnM Unit} (starts : ∀ conn, ∃ after, afterStart conn = .ok () after ∧ Idle P conn after) :
    Meets (ask target call afterStart) conn (fun _ after => Asks P conn after) fun _ after => Asks P conn after := by
  let issued := conn.issueQuestion (some call.method)
  have issues : Asks P conn issued := .single (.issue _ can outlet)
  apply Meets.bind
  change Meets _ issued _ _
  apply Meets.tryCatch
  apply Meets.bind
  apply (fillParams_idle (P := P) call issued).mono
  · intro params middle idle
    have found : middle.findQuestion (middle.question conn.objects).id = some conn.objects :=
      (idle.findQuestion _).trans (issueQuestion_found conn _)
    obtain ⟨last, run, same⟩ := starts (middle.askQuestion (middle.questionId conn.objects) target call.method params)
    have ends : (do
        sendCall conn.objects target call.method params
        afterStart
        return Answer.question conn.objects : ConnM Answer) middle = .ok (.question conn.objects) last := by
      rw [bind_apply, sendCall_run]
      dsimp only
      rw [bind_apply, run]
      rfl
    have turns : Asks P conn last :=
      ((issues.tail (.idle idle)).trans (askQuestion_asks target call.method params found)).tail (.idle same)
    unfold Meets
    rw [ends]
    exact turns
  · intro error middle idle
    have found : middle.findQuestion (middle.question conn.objects).id = some conn.objects :=
      (idle.findQuestion _).trans (issueQuestion_found conn _)
    have unsent : (middle.question conn.objects).started = false := by
      have standing := (idle.question conn.objects).trans (issueQuestion_standing conn _)
      exact congrArg (fun parts => parts.1.2.2) standing
    have turns : Asks P conn (middle.dropQuestion (middle.question conn.objects).id) :=
      (issues.tail (.idle idle)).tail (.abandon found (Or.inl unsent))
    apply Meets.get
    unfold Meets
    rw [bind_apply, popQuestion_run found]
    exact turns

theorem pipelineCall_asks (can : Power.ask ∈ P) {callNext : Nat → Call → ConnM Answer}
    (calls : ∀ client call, Moves (Asks P) (callNext client call)) (q : Nat) (transform : Transform) (call : Call) :
    Moves (Asks P) (pipelineCall callNext q transform call) := by
  have resolves : ∀ obj err, Moves (Asks P) (clientFromResolution transform obj err >>= fun client =>
      callNext client call) := by
    intro obj err
    exact Moves.bind (asks_of_idle (clientFromResolution_idle transform obj err)) fun client => calls client call
  apply Moves.get
  intro conn
  dsimp only
  split
  · split
    · rename_i isOpen
      refine ask_asks can (Or.inr ⟨_, _, isOpen⟩) _ call ?_
      intro conn
      refine ⟨_, rfl, .alterQuestion conn q ?_⟩
      split
      · rfl
      · rfl
    · split
      · exact Moves.throw _ conn
      · exact resolves _ _ conn
  · split
    · exact Moves.pure _ conn
    · exact resolves _ _ conn

theorem callClient_asks (can : Power.ask ∈ P) (depth client : Nat) (call : Call) :
    Moves (Asks P) (callClient depth client call) := by
  induction depth generalizing client call with
  | zero => exact Moves.throw _
  | succ depth ih =>
      apply Moves.get
      intro conn
      cases shape : conn.client client with
      | server methods => exact Moves.pure _ conn
      | error reason => exact Moves.pure _ conn
      | ref rc closed => exact ih _ call conn
      | importClient c =>
          dsimp only
          split
          · exact Moves.pure _ conn
          · rename_i isOpen
            cases c.resolved with
            | some next =>
                dsimp only
                split
                · exact asks_of_idle (pushCall_idle client call) conn
                · exact ih next call conn
            | none =>
                refine ask_asks can (Or.inl ⟨client, c.id, ?_⟩) _ call fun conn => ⟨conn, rfl, .refl conn⟩
                simpa [shape, Client.core] using isOpen
      | pipeline q transform => exact pipelineCall_asks can ih q transform call conn
      | fixedPipeline answer transform =>
          cases answer with
          | error reason => exact Moves.pure _ conn
          | ok struct => exact Moves.bind (asks_of_idle (findClient_idle struct transform)) (fun next => ih next call) conn
      | localAnswer a transform =>
          dsimp only
          split
          · exact Moves.bind (asks_of_idle (clientFromResolution_idle transform _ _)) (fun next => ih next call) conn
          · exact Moves.pure _ conn
      | promiseExport c =>
          dsimp only
          split
          · exact Moves.pure _ conn
          · cases c.resolved with
            | some next => exact ih next call conn
            | none => exact asks_of_idle (pushCall_idle client call) conn
      | queue c =>
          dsimp only
          split
          · exact ih c.client call conn
          · exact asks_of_idle (pushCall_idle client call) conn
      | null => exact Moves.throw _ conn
      | other => exact Moves.pure _ conn

theorem flushTo_asks (can : Power.ask ∈ P) (owner target fuel : Nat) :
    Moves (Asks P) (flushTo owner target fuel) := by
  induction fuel with
  | zero => exact Moves.throw _
  | succ fuel ih =>
      apply Moves.get
      intro conn
      cases (conn.client owner).calls with
      | nil => exact Moves.pure _ conn
      | cons slot slots =>
          cases slot with
          | fromHere call =>
              refine Moves.follow (callClient_asks can conn.stack target call conn) ?_
              intro _
              exact Moves.bind (asks_of_idle (popCall_idle owner)) fun _ => ih
          | remote a call =>
              refine Moves.follow (callClient_asks can conn.stack target call conn) ?_
              intro answer
              apply Moves.bind (asks_of_idle (joinAnswer_idle a answer))
              intro _
              exact Moves.bind (asks_of_idle (popCall_idle owner)) fun _ => ih

theorem rejectAnswerNow_turns (a : Nat) (reason : String) : Moves (Turns P) (rejectAnswer a reason) := by
  apply Moves.get
  intro conn
  exact rejectAnswer_turns conn.stack a reason conn

namespace AnswerEntry

theorem sendResults_turns {a : Nat} (done : (conn.answer a).done = true) (obj : Struct) (content : Content) :
    Meets (sendResults a obj content) conn (fun _ after => Turns P conn after) fun _ after => Turns P conn after := by
  apply Meets.get
  apply Meets.bind
  apply (makeCapTable_idle (P := P) (conn.copiedTable obj) conn).mono
  · intro capTable counted idle
    have still : (counted.answer a).done = true := (congrArg (·.2.1) (idle.answer a)).trans done
    have begins : Turns P conn (counted.alterAnswer a (described obj (collectPayloadSenderHosted capTable))) :=
      ReflTransGen.tail (.single (.idle idle)) (.describe still rfl)
    have settles : Moves (Turns P) (do
        fulfillTailAnswerWaiters (conn.answer a).id.id obj
        sendMessage (.ret (conn.answer a).id false false (.results { content := content, capTable := capTable }))) :=
      Moves.bind (settleWaiters_turns _ fun q => Question.fulfill_turns q obj) fun _ => sendMessage_turns _
    apply Meets.bind
    exact (settles _).mono (fun _ _ turns => begins.trans turns) fun _ _ turns => begins.trans turns
  · intro _ after idle
    exact .single (.idle idle)

theorem sortQueue_moves {R : Conn → Conn → Prop} [IsPreorder Conn R] (rejects : ∀ a reason, Moves R (rejectAnswer a reason))
    (obj : Struct) (groups : List (Nat × List QueuedCall)) (queue : List PipelinedCall) :
    Moves R (sortQueue obj groups queue) := by
  induction queue generalizing groups with
  | nil => exact Moves.pure _
  | cons pc queue ih =>
      have refuses : ∀ reason, Moves R (do
          let first ← attempt (rejectAnswer pc.answer reason)
          let sorted ← sortQueue obj groups queue
          return (sorted.1, first.or sorted.2)) := by
        intro reason
        apply Moves.bind (attempt_moves (rejects pc.answer reason))
        intro first
        exact Moves.bind (ih groups) fun _ => Moves.pure _
      unfold sortQueue
      cases obj.content.capId pc.transform with
      | error reason => exact refuses reason
      | ok found =>
          cases found with
          | none => exact refuses _
          | some capId => exact ih _

theorem installQueues_idle (obj : Struct) (groups : List (Nat × List QueuedCall)) :
    Moves (Idle P) (installQueues obj groups) := by
  induction groups with
  | nil => exact Moves.pure _
  | cons group groups ih =>
      have finds : Moves (Idle P) (slotClient obj group.1) := by
        apply Moves.get
        intro conn
        cases conn.slot obj group.1 with
        | some client => exact Moves.pure _ conn
        | none => exact newClient_idle rfl conn
      apply Moves.bind finds
      intro target
      apply Moves.bind (newClient_idle rfl)
      intro queueClient
      apply Moves.bind (Moves.modify fun _ => .of_eq rfl)
      intro _
      exact Moves.bind ih fun _ => Moves.pure _

/-- What `fulfill` does after its `try`: the calls that waited are sorted, refused or passed on. -/
theorem passQueue_moves {R : Conn → Conn → Prop} [IsPreorder Conn R] (can : Power.ask ∈ P)
    (asks : ∀ {α : Type} {program : ConnM α}, Moves (Asks P) program → Moves R program)
    (rejects : ∀ a reason, Moves R (rejectAnswer a reason)) (a : Nat) (obj : Struct) (firstErr : Option RpcError) :
    Moves R (do
      let (groups, queuesErr) ← emptyQueue a obj
      let queueClients ← installQueues obj groups
      queueClients.forM flushQueue
      throwFirst (firstErr.or queuesErr)) := by
  apply Moves.bind
  · apply Moves.get
    intro conn
    apply Moves.follow (sortQueue_moves rejects obj [] _ conn)
    intro sorted
    apply Moves.bind (asks (asks_of_idle (Moves.modify fun conn => .alterAnswer conn a rfl rfl)))
    exact fun _ => Moves.pure _
  rintro ⟨groups, queuesErr⟩
  apply Moves.bind (asks (asks_of_idle (installQueues_idle obj groups)))
  intro queueClients
  apply Moves.bind
  · apply Moves.forM
    intro queueClient _
    apply Moves.get
    intro conn
    cases conn.client queueClient with
    | queue c => exact asks (flushTo_asks can queueClient c.client conn.stack) conn
    | _ => exact Moves.pure _ conn
  · exact fun _ => throwFirst_moves _

theorem fulfill_turns (can : Power.ask ∈ P) (a : Nat) (obj : Struct) : Moves (Turns P) (fulfill a obj) := by
  apply Moves.get
  intro conn
  cases isOpen : (conn.answer a).done with
  | true => exact Moves.throw _ conn
  | false =>
      rw [if_neg Bool.false_ne_true]
      let marked := conn.alterAnswer a (fulfilled obj)
      have marks : Turns P conn marked := .single (.answer isOpen rfl rfl)
      have done : (marked.answer a).done = true := by simp [marked, Conn.alterAnswer, fulfilled]
      apply Meets.bind
      change Meets _ marked _ _
      split
      · have settles : Moves (Turns P) (do
            fulfillTailAnswerWaiters (conn.answer a).id.id obj
            sendMessage (.ret (conn.answer a).id false false .resultsSentElsewhere)) :=
          Moves.bind (settleWaiters_turns _ fun q => Question.fulfill_turns q obj) fun _ => sendMessage_turns _
        exact (settles marked).mono (fun _ _ turns => marks.trans turns) fun _ _ turns => marks.trans turns
      · apply Meets.bind
        apply (setContent_idle (P := P) obj marked).mono
        · intro content copied idle
          have still : (copied.answer a).done = true := (congrArg (·.2.1) (idle.answer a)).trans done
          have copies : Turns P conn copied := marks.tail (.idle idle)
          apply Meets.bind
          apply Meets.mono (attempt_ends (sendResults_turns still obj content))
          · intro firstErr sent turns
            have passes := passQueue_moves can (R := Turns P) turns_of_asks rejectAnswerNow_turns a obj firstErr sent
            exact passes.mono (fun _ _ later => (copies.trans turns).trans later) fun _ _ later =>
              (copies.trans turns).trans later
          · intro _ _ never
            exact never.elim
        · intro _ after idle
          exact marks.tail (.idle idle)

theorem queueCall_idle (pa : Nat) (call : Call) (transform : Transform) (a : Nat) :
    Moves (Idle P) (queueCall pa call transform a) := by
  apply Moves.get
  intro conn
  split
  · exact Moves.throw _ conn
  · apply Moves.follow
    · exact Idle.alterAnswer conn a rfl rfl
    · exact fun _ => Moves.modify fun conn => .alterAnswer conn pa rfl rfl

end AnswerEntry

theorem withResolved_follows (client : Client) (target : Nat) : client.Follows P (client.withResolved target) := by
  apply Client.follows_of_core
  cases client with
  | _ => rfl

theorem sendResolve_idle (promise : Continuation) (resolution : Resolution) :
    Moves (Idle P) (sendResolve promise resolution) := by
  apply Moves.get
  intro conn
  exact Moves.bind (emit_idle _) (fun _ => sendMessage_idle rfl) conn

theorem resolvePromise_turns (can : Power.ask ∈ P) (promise client : Nat) :
    Moves (Turns P) (PromiseExportClient.resolve promise client) := by
  apply Moves.get
  intro conn
  cases conn.client promise with
  | promiseExport c =>
      dsimp only
      split
      · exact close_turns client conn
      · apply Moves.follow (closeOptional_turns close_turns c.resolved conn)
        intro _
        apply Moves.bind
        · exact turns_of_idle (Moves.modify fun conn => .setClient conn promise (withResolved_follows _ client))
        · exact fun _ => turns_of_asks (flushTo_asks can promise client conn.stack)
  | _ => exact Moves.pure _ conn

theorem resolveExportPromiseCap_turns (can : Power.ask ∈ P) (promise : Continuation) (client : Nat) :
    Moves (Turns P) (resolveExportPromiseCap promise client) := by
  apply Moves.get
  intro conn
  cases conn.pendingPromise promise.id.id with
  | none => exact close_turns client conn
  | some entry =>
      apply Moves.follow
      · exact ReflTransGen.single (.idle (.of_eq rfl))
      intro _
      apply Moves.bind (resolvePromise_turns can entry.client client)
      intro _
      apply Moves.bind (turns_of_idle (descriptorForClient_idle client))
      exact fun _ => turns_of_idle (sendResolve_idle promise _)

theorem resolveExportPromiseException_turns (promise : Continuation) (reason : String) :
    Moves (Turns P) (resolveExportPromiseException promise reason) := by
  apply Moves.get
  intro conn
  cases conn.pendingPromise promise.id.id with
  | none => exact Moves.pure _ conn
  | some entry =>
      apply Moves.follow
      · exact ReflTransGen.single (.idle (.of_eq rfl))
      intro _
      apply Moves.bind (rejectAll_turns entry.client reason)
      exact fun _ => turns_of_idle (sendResolve_idle promise _)

theorem resolveFromQuestion_turns (can : Power.ask ∈ P) (promise : Continuation) :
    Moves (Turns P) (resolveFromQuestion promise) := by
  apply Moves.get
  intro conn
  cases (conn.question promise.question).err with
  | some reason => exact resolveExportPromiseException_turns promise reason conn
  | none =>
      have resolves : Moves (Turns P) (tryCatch (do
          let client ← clientFromResolution promise.transform (conn.question promise.question).obj none
          resolveExportPromiseCap promise client)
          fun error => resolveExportPromiseException promise error.message) := by
        apply Moves.tryCatch
        · apply Moves.bind (turns_of_idle (clientFromResolution_idle _ _ _))
          exact fun client => resolveExportPromiseCap_turns can promise client
        · exact fun error => resolveExportPromiseException_turns promise error.message
      exact resolves conn

theorem settleAnswer_turns (can : Power.ask ∈ P) (a : Nat) (outcome : Except (Option String) Struct) :
    Moves (Turns P) (settleAnswer a outcome) := by
  apply Moves.get
  intro conn
  cases (conn.answer a).joined.bind (conn.outcomeOf outcome) with
  | none => exact Moves.pure _ conn
  | some outcome =>
      apply Moves.follow
      · exact ReflTransGen.single (.idle (.alterAnswer conn a rfl rfl))
      intro _
      apply Moves.bind
      · apply attempt_moves
        cases outcome with
        | ok obj => exact AnswerEntry.fulfill_turns can a obj
        | error reason =>
            apply Moves.get
            intro conn
            cases reason with
            | some reason => exact rejectAnswer_turns conn.stack a reason conn
            | none =>
                obtain ⟨error, same⟩ := rejectAnswer_nil conn.stack a
                rw [same]
                exact Moves.throw _ conn
      · exact fun _ => Moves.pure _

theorem rejectUnsettled_turns (reason : String) (q : Nat) : Moves (Turns P) (rejectUnsettled reason q) := by
  apply Moves.get
  intro conn
  split
  · exact Question.reject_turns q reason conn
  · exact Moves.pure _ conn

variable (conn) in
theorem rejectUnsettled_settles (reason : String) (q : Nat) : ∃ after, rejectUnsettled reason q conn = .ok () after ∧
    Turns P conn after ∧ after.questions = conn.questions ∧ (after.question q).state ≠ .inProgress := by
  unfold rejectUnsettled
  by_cases pending : (conn.question q).state = .inProgress
  · let settled := conn.alterQuestion q fun question => { question with err := some reason, state := .resolved }
    refine ⟨settled, ?_, .single (.settle pending rfl rfl), rfl, ?_⟩
    · rw [bind_apply, get_apply]
      dsimp only
      rw [if_pos pending]
      unfold Question.reject
      rw [bind_apply, get_apply]
      dsimp only
      rw [if_pos pending]
      rfl
    · simp [settled, Conn.alterQuestion]
  · refine ⟨conn, ?_, .refl, rfl, pending⟩
    rw [bind_apply, get_apply]
    dsimp only
    rw [if_neg pending]
    rfl

theorem shutdownQuestion_turns (reason : String) (id : Nat) : Moves (Turns P) (shutdownQuestion reason id) := by
  apply Moves.get
  intro conn
  cases found : conn.findQuestion id with
  | none => exact Moves.pure _ conn
  | some q =>
      obtain ⟨after, run, turns, same, settled⟩ := rejectUnsettled_settles (P := P) conn reason q
      have still : after.findQuestion id = some q := by rw [Conn.findQuestion, same]; exact found
      have ends : Turns P conn (after.dropQuestion id) := turns.tail (.ask (.abandon still (Or.inr settled)))
      dsimp only
      unfold Meets
      rw [bind_apply, run]
      dsimp only
      rw [bind_apply, popQuestion_run still]
      exact ends

theorem shutdownAnswer_turns (can : Power.shut ∈ P) (reason : String) (id : Nat) :
    Moves (Turns P) (shutdownAnswer reason id) := by
  have pops : Moves (Turns P) (popAnswer id) := by
    apply Moves.get
    intro conn
    apply Moves.follow
    · exact ReflTransGen.single (.forgetAnswer id (Or.inr can))
    · exact fun _ => Moves.pure _
  apply Moves.bind pops
  intro popped
  cases popped with
  | none => exact Moves.pure _
  | some a => exact Moves.modify fun conn => ReflTransGen.single (.markAnswer can rfl rfl)

theorem withoutResolved_follows (client : Client) :
    client.Follows P client.withoutResolved.withoutEmbargo := by
  apply Client.follows_of_core
  cases client with
  | _ => rfl

theorem shutdownImport_turns (reason : String) (id : Nat) (entry : ImportEntry) :
    Moves (Turns P) (shutdownImport reason id entry) := by
  apply Moves.get
  intro conn
  have shuts : ∀ client, Moves (Turns P) (shutdownImportClient reason client) := by
    intro client
    apply Moves.get
    intro conn
    cases conn.client client with
    | importClient c =>
        apply Moves.follow (setClient_turns client rfl conn)
        intro _
        apply Moves.bind (rejectAll_turns client reason)
        intro _
        apply Moves.bind (closeOptional_turns close_turns c.resolved)
        intro _
        exact turns_of_idle (Moves.modify fun conn => .setClient conn client (withoutResolved_follows _))
    | _ => exact Moves.pure _ conn
  apply Moves.follow (attempt_moves (shuts _) conn)
  exact fun _ => turns_of_idle (Moves.modify fun conn => .setImport conn id (Or.inr (Or.inl rfl)))

theorem shutdownTables_turns (can : Power.shut ∈ P) (reason : String) : Moves (Turns P) (shutdownTables reason) := by
  apply Moves.get
  intro conn
  apply Moves.follow (Moves.forM (fun id _ => shutdownQuestion_turns reason id) conn)
  intro _
  apply Moves.get
  intro conn
  apply Moves.follow (Moves.forM (fun id _ => shutdownAnswer_turns can reason id) conn)
  intro _
  apply Moves.get
  intro conn
  apply Moves.follow
  · apply Moves.forM
    intro id _
    apply Moves.get
    intro conn
    cases conn.findExport id with
    | none => exact Moves.pure _ conn
    | some e =>
        apply Moves.follow (attempt_moves (close_turns e.client) conn)
        exact fun _ => turns_of_idle (Moves.modify fun _ => .of_eq rfl)
  intro _
  apply Moves.bind (turns_of_idle (Moves.modify fun _ => .of_eq rfl))
  intro _
  apply Moves.get
  intro conn
  apply Moves.follow (Moves.forM (fun entry _ => shutdownImport_turns reason entry.1 entry.2) conn)
  intro _
  apply Moves.get
  intro conn
  apply Moves.follow
  · apply Moves.forM
    intro id _
    exact settleWaiters_turns id (rejectUnsettled_turns reason)
  intro _
  apply Moves.get
  intro conn
  apply Moves.follow
  · apply Moves.forM
    intro id _
    exact turns_of_idle (Moves.modify fun _ => .of_eq rfl)
  · exact fun _ => Moves.modify fun _ => .single (.hangUp can)

theorem shutdown_turns (can : Power.shut ∈ P) (reason : String) : Moves (Turns P) (shutdown reason) := by
  apply Moves.get
  intro conn
  split
  · exact Moves.pure _ conn
  · apply Moves.follow
    · exact ReflTransGen.single (.shut can)
    · exact fun _ => shutdownTables_turns can reason

/-- A step of an application is a sequence of turns, but for the first question, a new pipeline and a new question of
another connection. -/
def Action.isTurns : Action → Bool
  | .bootstrap => false
  | .newPipeline _ _ => false
  | .newForeignQuestion => false
  | _ => true

theorem perform_turns (ask : Power.ask ∈ P) {action : Action}
    (shut : ∀ reason, action = .shutdown reason → Power.shut ∈ P) (plain : action.isTurns = true) (allowed : conn.allows action = true) :
    Meets (perform action) conn.fresh (fun _ after => Turns P conn.fresh after)
      fun _ after => Turns P conn.fresh after := by
  have from_moves : ∀ {program : ConnM Unit}, Moves (Turns P) program → Meets program conn.fresh
      (fun _ after => Turns P conn.fresh after) fun _ after => Turns P conn.fresh after :=
    fun moves => moves conn.fresh
  cases action with
  | newServer methods => exact from_moves (Moves.bind (turns_of_idle (newClient_idle rfl)) fun _ => Moves.pure _)
  | newOtherClient => exact from_moves (Moves.bind (turns_of_idle (newClient_idle rfl)) fun _ => Moves.pure _)
  | newPipeline q transform => cases plain
  | newFixedPipeline answer transform =>
      exact from_moves (Moves.bind (turns_of_idle (newClient_idle rfl)) fun _ => Moves.pure _)
  | newCapTable table =>
      apply from_moves
      apply Moves.bind
      · apply turns_of_idle
        exact Moves.modifyGet fun conn => (Idle.of_eq (by rfl)).trans (.allocated _)
      · exact fun _ => Moves.pure _
  | newForeignQuestion => cases plain
  | settleForeign q outcome =>
      apply from_moves
      cases outcome with
      | ok obj => exact Question.fulfill_turns q obj
      | error reason => exact Question.reject_turns q reason
  | bootstrap => cases plain
  | initMain client =>
      apply from_moves
      apply Moves.bind (turns_of_idle (Moves.modify fun _ => .of_eq rfl))
      intro _
      exact Moves.bind (turns_of_idle (addExport_idle client)) fun _ => Moves.pure _
  | call client call =>
      apply from_moves
      apply Moves.get
      intro conn
      exact Moves.follow (turns_of_asks (callClient_asks ask conn.stack client call) conn) fun _ => Moves.pure _
  | close client => exact from_moves (close_turns client)
  | cancel q reason =>
      simp only [Conn.allows, Bool.and_eq_true] at allowed
      have cancels : Meets (Question.cancel q reason) conn.fresh (fun _ after => Turns P conn.fresh after)
          fun _ after => Turns P conn.fresh after := Question.cancel_turns reason allowed.1 (Or.inl allowed.2)
      exact Moves.follow cancels fun _ => Moves.pure _
  | settle a outcome => exact from_moves (settleAnswer_turns ask a outcome)
  | resume promise =>
      apply from_moves
      apply Moves.bind (turns_of_idle (Moves.modify fun _ => .of_eq rfl))
      exact fun _ => resolveFromQuestion_turns ask promise
  | shutdown reason => exact from_moves (shutdown_turns (shut reason rfl) reason)

end CapnpEs.Rpc
