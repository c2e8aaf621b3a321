import CapnpEs.Rpc.QuestionSlots

/-! What settling an answer does: one Return, and the questions that wait for it settled. -/

namespace CapnpEs.Rpc

open Outcome Relation SlotTable Transition

variable {P : Set Power} {conn : Conn}

/-- A change that brings no question into progress but one that is made, and promises nothing for an answer that
has not settled. -/
structure Making (before after : Conn) : Prop where
  objects : before.objects ≤ after.objects
  stack : after.stack = before.stack
  question : ∀ q, (after.question q).state = .inProgress →
    (before.question q).state = .inProgress ∨ q < after.objects
  deferred : ∀ a, (after.answer a).done = false →
    (after.answer a).deferred = none ∨
      (before.answer a).done = false ∧ (after.answer a).deferred = (before.answer a).deferred

section Making

namespace Making

theorem refl (conn : Conn) : Making conn conn :=
  ⟨Nat.le_refl _, rfl, fun _ pending => Or.inl pending, fun _ pending => Or.inr ⟨pending, rfl⟩⟩

theorem trans {first second third : Conn} (sooner : Making first second) (later : Making second third) :
    Making first third := by
  refine ⟨Nat.le_trans sooner.objects later.objects, later.stack.trans sooner.stack, ?_, ?_⟩
  · intro q pending
    rcases later.question q pending with pending | made
    · rcases sooner.question q pending with pending | made
      · exact Or.inl pending
      · exact Or.inr (Nat.lt_of_lt_of_le made later.objects)
    · exact Or.inr made
  · intro a pending
    rcases later.deferred a pending with none | ⟨pending, same⟩
    · exact Or.inl none
    · rw [same]
      exact sooner.deferred a pending

instance : IsPreorder Conn Making where
  refl := refl
  trans _ _ _ := trans

theorem of_eq {before after : Conn} (questions : after.question = before.question)
    (answers : after.answer = before.answer) (stack : after.stack = before.stack)
    (objects : before.objects ≤ after.objects) : Making before after where
  objects := objects
  stack := stack
  question q pending := Or.inl (by rwa [questions] at pending)
  deferred a pending := Or.inr ⟨by rwa [answers] at pending, by rw [answers]⟩

theorem alterAnswer (conn : Conn) (a : Nat) {change : AnswerEntry → AnswerEntry}
    (fine : (change (conn.answer a)).done = true ∨ (change (conn.answer a)).deferred = none) :
    Making conn (conn.alterAnswer a change) := by
  refine { refl conn with deferred := ?_ }
  intro other pending
  by_cases here : other = a
  · subst here
    simp only [Conn.alterAnswer, Function.update_self] at pending ⊢
    rcases fine with done | none
    · cases pending.symm.trans done
    · exact Or.inl none
  · right
    simpa [Conn.alterAnswer, here] using pending

theorem alterQuestion (conn : Conn) (q : Nat) {change : Question → Question}
    (same : (change (conn.question q)).state = .inProgress → (conn.question q).state = .inProgress) :
    Making conn (conn.alterQuestion q change) := by
  refine { refl conn with question := ?_ }
  intro other pending
  left
  by_cases here : other = q
  · subst here
    exact same (by simpa [Conn.alterQuestion] using pending)
  · simpa [Conn.alterQuestion, here] using pending

theorem leave (conn : Conn) (q : Nat) : Making conn (conn.leave q) := by
  unfold Conn.leave
  split
  · exact of_eq rfl rfl rfl (Nat.le_refl _)
  · exact refl conn

theorem issue {after : Conn} (objects : after.objects = conn.objects + 1)
    (stack : after.stack = conn.stack) (answers : after.answer = conn.answer)
    (others : ∀ q, q ≠ conn.objects → after.question q = conn.question q) : Making conn after := by
  refine ⟨by omega, stack, ?_, ?_⟩
  · intro q pending
    by_cases here : q = conn.objects
    · exact Or.inr (by omega)
    · rw [others q here] at pending
      exact Or.inl pending
  · intro a pending
    rw [answers] at pending ⊢
    exact Or.inr ⟨pending, rfl⟩

end Making

theorem issueQuestion_making (conn : Conn) (method : Option Method) : Making conn (conn.issueQuestion method) := by
  apply Making.issue
  · rfl
  · rfl
  · rfl
  · intro q other
    simp [Conn.issueQuestion, Conn.say, Conn.allocated, Conn.alterQuestion, Conn.setQuestionSlot, other]

theorem Ask.making {before after : Conn} (step : Ask P before after) : Making before after := by
  cases step with
  | idle same =>
      refine ⟨same.objects, same.stack, ?_, ?_⟩
      · intro q pending
        left
        rwa [show (after.question q).state = (before.question q).state from congrArg (·.2.1) (same.question q)]
          at pending
      · intro a pending
        have done : (after.answer a).done = (before.answer a).done := congrArg (·.2.1) (same.answer a)
        rw [done] at pending
        exact Or.inr ⟨pending, same.deferred a⟩
  | issue method can outlet => exact issueQuestion_making _ method
  | start isOpen same =>
      apply Making.alterQuestion
      intro pending
      exact (congrArg (·.2.1) same).symm.trans pending
  | abandon isOpen unneeded => exact .of_eq rfl rfl rfl (Nat.le_refl _)

theorem Turn.making {before after : Conn} (turn : Turn P before after) : Making before after := by
  cases turn with
  | ask step => exact step.making
  | giveUp reason mine known pending same =>
      rename_i q change
      refine (Making.leave before q).trans (Making.alterQuestion _ q ?_)
      have kept : (before.leave q).question q = before.question q := by
        unfold Conn.leave
        split
        · rfl
        · rfl
      intro _
      rw [kept]
      exact pending
  | settle pending same resolved => exact Making.alterQuestion _ _ fun _ => pending
  | answer isOpen same done => exact Making.alterAnswer _ _ (Or.inl done)
  | describe done same => exact Making.alterAnswer _ _ (Or.inl ((congrArg (·.2.1) same).trans done))
  | markAnswer can same done => exact Making.alterAnswer _ _ (Or.inl done)
  | openAnswer id can free =>
      let listed := before.setAnswerSlot id.id (some before.objects)
      have lists : Making before listed := .of_eq rfl rfl rfl (Nat.le_refl _)
      have opens : Making listed (listed.alterAnswer before.objects fun _ => { id := id }) :=
        .alterAnswer listed before.objects (Or.inr rfl)
      exact (lists.trans opens).trans (.of_eq rfl rfl rfl (Nat.le_succ _))
  | _ => exact .of_eq rfl rfl rfl (Nat.le_refl _)

theorem Turns.making {before after : Conn} (turns : Turns P before after) : Making before after := by
  induction turns with
  | refl => exact .refl before
  | tail _ turn ih => exact ih.trans turn.making

theorem making_of_turns {α : Type} {program : ConnM α} (turns : Moves (Turns P) program) : Moves Making program :=
  fun conn => (turns conn).mono (fun _ _ turns => turns.making) fun _ _ turns => turns.making

theorem making_of_idle {α : Type} {program : ConnM α} (idle : Moves (Idle P) program) : Moves Making program :=
  making_of_turns (turns_of_idle idle)

theorem takeFromOther_making (q id other : Nat) : Moves Making (takeFromOther q id other) := by
  have rejects : ∀ reason, Moves Making (Question.reject q reason) :=
    fun reason => making_of_turns (P := ∅) (Question.reject_turns q reason)
  apply Moves.get
  intro conn
  split
  · exact rejects _ conn
  · cases find conn.answers other with
    | none => exact rejects _ conn
    | some source =>
        dsimp only
        split
        · cases (conn.answer source).err with
          | some reason => exact rejects _ conn
          | none =>
              cases (conn.answer source).obj with
              | some obj => exact making_of_turns (P := ∅) (Question.fulfill_turns q obj) conn
              | none => exact rejects _ conn
        · exact Making.of_eq rfl rfl rfl (Nat.le_refl _)

theorem rejectUnread_making (q : Nat) (m : RpcMessage) (error : RpcError) : Moves Making (rejectUnread q m error) := by
  have rejects : ∀ reason, Moves Making (Question.reject q reason) :=
    fun reason => making_of_turns (P := ∅) (Question.reject_turns q reason)
  cases error with
  | protocol kind message => exact Moves.bind (rejects _) fun _ => Moves.throw _
  | error message =>
      apply Moves.tryCatch
      · exact Moves.bind (Moves.modify fun _ => .of_eq rfl rfl rfl (Nat.le_refl _)) fun _ => rejects _
      · intro later
        exact Moves.bind (rejects _) fun _ => Moves.throw _

theorem settleQuestion_making (q id : Nat) (body : ReturnBody) (m : RpcMessage) :
    Moves Making (settleQuestion q id body m) := by
  have rejects : ∀ reason, Moves Making (Question.reject q reason) :=
    fun reason => making_of_turns (P := ∅) (Question.reject_turns q reason)
  cases body with
  | results payload =>
      apply Moves.bind
      · apply Moves.tryCatch
        · exact Moves.bind (making_of_idle (readPayload_idle payload fun _ => Set.mem_singleton Power.adopt)) fun _ => Moves.pure _
        · exact fun _ => Moves.pure _
      · intro read
        cases read with
        | ok obj =>
            apply Moves.bind (making_of_idle (P := ∅) (readContent_idle payload.content))
            exact fun _ => making_of_turns (P := ∅) (Question.fulfill_turns q obj)
        | error error => exact rejectUnread_making q m error
  | exception reason => exact rejects _
  | canceled => exact rejects _
  | takeFromOtherQuestion other => exact takeFromOther_making q id other
  | resultsSentElsewhere => exact rejects _
  | other => exact rejects _
  | unreadable reason => exact Moves.throw _

theorem handleReturnMessage_making (id : WireId) (releaseParamCaps noFinishNeeded : Bool) (body : ReturnBody)
    (m : RpcMessage) : Moves Making (handleReturnMessage id releaseParamCaps noFinishNeeded body m) := by
  have pops : Moves Making (popQuestion id.id) := by
    apply Moves.get
    intro conn
    cases conn.findQuestion id.id with
    | none => exact Moves.pure _ conn
    | some q => exact Making.of_eq rfl rfl rfl (Nat.le_refl _)
  apply Moves.bind pops
  intro popped
  cases popped with
  | none => exact making_of_turns (abortForProtocolError_turns (Set.mem_singleton Power.shut) _ _)
  | some q =>
      apply Moves.bind (Moves.modify fun _ => .of_eq rfl rfl rfl (Nat.le_refl _))
      intro _
      apply Moves.get
      intro conn
      refine Moves.follow (Moves.forM (fun cap _ => making_of_turns (P := ∅) (releaseExport_turns cap.id 1)) conn) ?_
      intro _
      apply Moves.bind (settleQuestion_making q id.id body m)
      intro _
      split
      · exact Moves.pure _
      · exact Moves.modify fun _ => .of_eq rfl rfl rfl (Nat.le_refl _)

theorem work_making (m : RpcMessage) : Moves Making (work m) := by
  have dispatches : Moves Making (dispatchMessage m) := by
    cases isReturn : m.isReturn with
    | true =>
        cases m with
        | ret id releaseParamCaps noFinishNeeded body => exact handleReturnMessage_making _ _ _ _ _
        | _ => cases isReturn
    | false =>
        exact making_of_turns (dispatchMessage_turns (P := Power.all) (Set.mem_univ _) (Set.mem_univ _) (Set.mem_univ _)
          isReturn fun _ => Set.mem_univ _)
  have handles : Moves Making (handleMessage m) := by
    apply Moves.tryCatch dispatches
    intro error
    cases error with
    | error message => exact Moves.throw _
    | protocol kind message => exact making_of_turns (abortForProtocolError_turns (Set.mem_singleton Power.shut) _ _)
  apply Moves.tryCatch
  · exact Moves.bind handles fun _ => Moves.modify fun _ => .of_eq rfl rfl rfl (Nat.le_refl _)
  · exact fun _ => Moves.modify fun _ => .of_eq rfl rfl rfl (Nat.le_refl _)

theorem perform_making {action : Action} (allowed : conn.allows action = true) :
    Meets (perform action) conn.fresh (fun _ after => Making conn.fresh after) fun _ after => Making conn.fresh after := by
  cases plain : action.isTurns with
  | true =>
      have turns : Meets (perform action) conn.fresh (fun _ after => Turns Power.all conn.fresh after)
          fun _ after => Turns Power.all conn.fresh after :=
        perform_turns (Set.mem_univ _) (fun _ _ => Set.mem_univ _) plain allowed
      exact turns.mono (fun _ _ turns => turns.making) fun _ _ turns => turns.making
  | false =>
      cases action with
      | bootstrap =>
          let issued := conn.fresh.issueQuestion none
          let sent := issued.send (.bootstrap (issued.questionId conn.objects))
          have sends : Making issued sent := .of_eq rfl rfl rfl (Nat.le_refl _)
          have starts : Making sent (sent.alterQuestion conn.objects fun question => { question with started := true }) :=
            .alterQuestion sent conn.objects fun pending => pending
          exact (issueQuestion_making conn.fresh none).trans (sends.trans starts)
      | newPipeline q transform => exact Making.of_eq rfl rfl rfl (Nat.le_succ _)
      | newForeignQuestion =>
          apply Making.issue
          · rfl
          · rfl
          · rfl
          · intro q other
            simp [Conn.allocated, Conn.alterQuestion, show q ≠ conn.objects from other, Conn.fresh]
      | _ => cases plain

theorem Conn.step_making {after : Conn} {input : Input} (taken : conn.step input = some after) :
    Making conn.fresh after := by
  unfold Conn.step at taken
  cases input with
  | act action =>
      dsimp only at taken
      split at taken
      · rename_i allowed
        cases taken
        exact run_meets (perform_making allowed)
      · cases taken
  | receive m =>
      dsimp only at taken
      split at taken
      · cases taken
        exact run_meets (work_making m conn.fresh)
      · cases taken

theorem made_of_run {registry : Nat → Option (List Method)} {stack : Nat}
    {allowed : Conn → Input → Conn → Prop}
    (run : Run Conn.step allowed { registry := registry, stack := stack } conn) {q : Nat}
    (pending : (conn.question q).state = .inProgress) : q < conn.objects := by
  revert q
  apply run.invariant
  · nofun
  · intro before input after made taken _ q pending
    have step := Conn.step_making taken
    rcases step.question q pending with pending | made'
    · exact Nat.lt_of_lt_of_le (made pending) step.objects
    · exact made'

theorem stack_of_run {registry : Nat → Option (List Method)} {stack : Nat} {allowed : Conn → Input → Conn → Prop}
    (run : Run Conn.step allowed { registry := registry, stack := stack } conn) : conn.stack = stack := by
  apply run.invariant
  · rfl
  · intro before input after same taken _
    exact (Conn.step_making taken).stack.trans same

theorem undeferred_of_run {registry : Nat → Option (List Method)} {stack : Nat}
    {allowed : Conn → Input → Conn → Prop}
    (run : Run Conn.step allowed { registry := registry, stack := stack } conn) {a : Nat}
    (pending : (conn.answer a).done = false) : (conn.answer a).deferred = none := by
  revert a
  apply run.invariant
  · nofun
  · intro before input after undeferred taken _ a pending
    rcases (Conn.step_making taken).deferred a pending with none | ⟨earlier, same⟩
    · exact none
    · exact same.trans (undeferred earlier)

end Making

section Refuses

/-- An exception that answers a call which has not been answered yet. -/
def Conn.Refusal (conn : Conn) (m : RpcMessage) : Prop :=
  ∃ a reason, (conn.answer a).done = false ∧ m = .ret (conn.answer a).id false false (.exception reason)

/-- A change that settles nothing twice, and answers calls by refusing them only. -/
structure Refuses (before after : Conn) : Prop where
  objects : before.objects ≤ after.objects
  transport : after.transportClosed = before.transportClosed
  question : ∀ q < before.objects, (before.question q).state ≠ .inProgress →
    (after.question q).standing.2 = (before.question q).standing.2
  id : ∀ a, (after.answer a).id = (before.answer a).id
  answer : ∀ a, (before.answer a).done = true → (after.answer a).standing = (before.answer a).standing
  deferred : ∀ a, (before.answer a).done = true → (before.answer a).deferred ≠ none →
    (after.answer a).deferred = (before.answer a).deferred
  replies : ∃ refusals, after.replies = before.replies ++ refusals ∧ ∀ m ∈ refusals, before.Refusal m

namespace Refuses

theorem refl (conn : Conn) : Refuses conn conn where
  objects := Nat.le_refl _
  transport := rfl
  question _ _ _ := rfl
  id _ := rfl
  answer _ _ := rfl
  deferred _ _ _ := rfl
  replies := ⟨[], by simp, nofun⟩

theorem refusal {before after : Conn} (refuses : Refuses before after) {m : RpcMessage} (refusal : after.Refusal m) :
    before.Refusal m := by
  obtain ⟨a, reason, pending, rfl⟩ := refusal
  refine ⟨a, reason, ?_, by rw [refuses.id a]⟩
  cases earlier : (before.answer a).done with
  | false => rfl
  | true =>
      have still : (after.answer a).done = (before.answer a).done := congrArg (·.2.1) (refuses.answer a earlier)
      cases pending.symm.trans (still.trans earlier)

theorem trans {first second third : Conn} (sooner : Refuses first second) (later : Refuses second third) :
    Refuses first third where
  objects := Nat.le_trans sooner.objects later.objects
  transport := later.transport.trans sooner.transport
  question q made settled := by
    have same := sooner.question q made settled
    have still : (second.question q).state ≠ .inProgress := by
      rw [show (second.question q).state = (first.question q).state from congrArg (·.1) same]
      exact settled
    exact (later.question q (Nat.lt_of_lt_of_le made sooner.objects) still).trans same
  id a := (later.id a).trans (sooner.id a)
  answer a done := by
    have same := sooner.answer a done
    have still : (second.answer a).done = true := (congrArg (·.2.1) same).trans done
    exact (later.answer a still).trans same
  deferred a done promised := by
    have same := sooner.deferred a done promised
    have still : (second.answer a).done = true := (congrArg (·.2.1) (sooner.answer a done)).trans done
    exact (later.deferred a still (by rwa [same])).trans same
  replies := by
    obtain ⟨some, soonerReplies, soonerRefusals⟩ := sooner.replies
    obtain ⟨more, laterReplies, laterRefusals⟩ := later.replies
    refine ⟨some ++ more, by rw [laterReplies, soonerReplies, List.append_assoc], ?_⟩
    intro m member
    rcases List.mem_append.mp member with member | member
    · exact soonerRefusals m member
    · exact sooner.refusal (laterRefusals m member)

instance : IsPreorder Conn Refuses where
  refl := refl
  trans _ _ _ := trans

theorem of_idle {before after : Conn} (idle : Idle P before after) : Refuses before after where
  objects := idle.objects
  transport := idle.transport
  question q _ _ := congrArg (·.2) (idle.question q)
  id a := congrArg (·.1) (idle.answer a)
  answer a _ := idle.answer a
  deferred a _ _ := idle.deferred a
  replies := ⟨[], by simp [idle.replies], nofun⟩

theorem of_questions {before after : Conn}
    (same : after = { before with question := after.question, tailAnswerWaiters := after.tailAnswerWaiters })
    (question : ∀ q, (before.question q).state ≠ .inProgress → after.question q = before.question q) :
    Refuses before after := by
  rw [same]
  refine { refl before with question := ?_ }
  intro q _ settled
  exact congrArg (fun question => question.standing.2) (question q settled)

theorem of_ask {before after : Conn} (step : Ask P before after) : Refuses before after := by
  cases step with
  | idle same => exact of_idle same
  | issue method can outlet =>
      refine { refl before with objects := Nat.le_succ _, question := ?_ }
      intro q made _
      have other : q ≠ before.objects := Nat.ne_of_lt made
      simp [Conn.issueQuestion, Conn.say, Conn.allocated, Conn.alterQuestion, Conn.setQuestionSlot, other]
  | start isOpen same =>
      rename_i q change
      refine { refl before with question := ?_ }
      intro other _ _
      by_cases here : other = q
      · subst here
        simpa [Conn.alterQuestion] using congrArg (·.2) same
      · simp [Conn.alterQuestion, here]
  | abandon isOpen unneeded => exact { refl before with }

theorem of_asks {before after : Conn} (asks : Asks P before after) : Refuses before after := by
  induction asks with
  | refl => exact refl before
  | tail _ step ih => exact ih.trans (of_ask step)

theorem send {before after : Conn} (refuses : Refuses before after) {a : Nat} (reason : String)
    (pending : (before.answer a).done = false) :
    Refuses before (after.send (.ret (before.answer a).id false false (.exception reason))) := by
  refine { refuses with replies := ?_ }
  obtain ⟨some, replies, refusals⟩ := refuses.replies
  unfold Conn.replies Conn.send
  dsimp only
  split
  · exact ⟨some, replies, refusals⟩
  · refine ⟨some ++ [.ret (before.answer a).id false false (.exception reason)], ?_, ?_⟩
    · rw [List.filter_append, ← List.append_assoc]
      exact congrArg (· ++ _) replies
    · intro m member
      rcases List.mem_append.mp member with member | member
      · exact refusals m member
      · exact ⟨a, reason, pending, List.mem_singleton.mp member⟩

theorem describe (conn : Conn) {a : Nat} (obj : Struct) (resultCaps : List WireId)
    (undeferred : (conn.answer a).deferred = none) :
    Refuses conn (conn.alterAnswer a (AnswerEntry.described obj resultCaps)) := by
  refine { refl conn with id := ?_, answer := ?_, deferred := ?_ }
  · intro other
    by_cases here : other = a
    · subst here
      simp [Conn.alterAnswer, AnswerEntry.described]
    · simp [Conn.alterAnswer, here]
  · intro other _
    by_cases here : other = a
    · subst here
      simp [Conn.alterAnswer, AnswerEntry.described, AnswerEntry.standing]
    · simp [Conn.alterAnswer, here]
  · intro other _ promised
    have there : other ≠ a := by
      rintro rfl
      exact promised undeferred
    simp [Conn.alterAnswer, there]

theorem mark (conn : Conn) {a : Nat} {change : AnswerEntry → AnswerEntry} (pending : (conn.answer a).done = false)
    (same : (change (conn.answer a)).id = (conn.answer a).id) : Refuses conn (conn.alterAnswer a change) := by
  have others : ∀ other, (conn.answer other).done = true →
      (conn.alterAnswer a change).answer other = conn.answer other := by
    intro other done
    have there : other ≠ a := by
      rintro rfl
      cases pending.symm.trans done
    simp [Conn.alterAnswer, there]
  refine { refl conn with id := ?_, answer := ?_, deferred := ?_ }
  · intro other
    by_cases here : other = a
    · subst here
      simpa [Conn.alterAnswer] using same
    · simp [Conn.alterAnswer, here]
  · intro other done
    rw [others other done]
  · intro other done _
    rw [others other done]

end Refuses

theorem refuses_of_asks {α : Type} {program : ConnM α} (asks : Moves (Asks P) program) : Moves Refuses program :=
  fun conn => (asks conn).mono (fun _ _ asks => .of_asks asks) fun _ _ asks => .of_asks asks

theorem refuses_of_idle {α : Type} {program : ConnM α} (idle : Moves (Idle P) program) : Moves Refuses program :=
  refuses_of_asks (asks_of_idle idle)

end Refuses

section Waiters

def Conn.waitersOf (conn : Conn) (id : Nat) : List Nat := (find conn.tailAnswerWaiters id).getD []

/-- Every question of the list can still be settled, one after the other. -/
def Conn.Unsettled (conn : Conn) (waiters : List Nat) : Prop :=
  waiters.Nodup ∧ ∀ q ∈ waiters, (conn.question q).state = .inProgress

def Question.SettledTo (question : Question) : Except String Struct → Prop
  | .ok obj => question.state = .resolved ∧ question.obj = some obj
  | .error reason => question.state = .resolved ∧ question.err = some reason

def AnswerEntry.Holds (entry : AnswerEntry) : Except String Struct → Prop
  | .ok obj => entry.done = true ∧ entry.obj = some obj
  | .error reason => entry.done = true ∧ entry.err = some reason

def AnswerEntry.SettledTo (entry : AnswerEntry) (outcome : Except String Struct) : Prop :=
  entry.Holds outcome ∧ entry.deferred = some outcome

theorem Question.SettledTo.state {question : Question} {outcome : Except String Struct}
    (settled : question.SettledTo outcome) : question.state = .resolved := by
  cases outcome with
  | ok obj => exact settled.1
  | error reason => exact settled.1

theorem Question.SettledTo.congr {question later : Question} {outcome : Except String Struct}
    (settled : question.SettledTo outcome) (same : later.standing.2 = question.standing.2) :
    later.SettledTo outcome := by
  have state : later.state = question.state := congrArg (·.1) same
  cases outcome with
  | ok obj => exact ⟨state.trans settled.1, (congrArg (·.2.1) same).trans settled.2⟩
  | error reason => exact ⟨state.trans settled.1, (congrArg (·.2.2) same).trans settled.2⟩

theorem AnswerEntry.Holds.done {entry : AnswerEntry} {outcome : Except String Struct} (holds : entry.Holds outcome) :
    entry.done = true := by
  cases outcome with
  | ok obj => exact holds.1
  | error reason => exact holds.1

theorem AnswerEntry.Holds.congr {entry later : AnswerEntry} {outcome : Except String Struct}
    (holds : entry.Holds outcome) (same : later.standing = entry.standing) : later.Holds outcome := by
  have done : later.done = entry.done := congrArg (·.2.1) same
  cases outcome with
  | ok obj => exact ⟨done.trans holds.1, (congrArg (·.2.2.1) same).trans holds.2⟩
  | error reason => exact ⟨done.trans holds.1, (congrArg (·.2.2.2) same).trans holds.2⟩

theorem AnswerEntry.SettledTo.of_refuses {before after : Conn} {a : Nat} {outcome : Except String Struct}
    (settled : (before.answer a).SettledTo outcome) (refuses : Refuses before after) :
    (after.answer a).SettledTo outcome := by
  have done := settled.1.done
  have promised : (before.answer a).deferred ≠ none := by
    rw [settled.2]
    nofun
  exact ⟨settled.1.congr (refuses.answer a done), (refuses.deferred a done promised).trans settled.2⟩

/-- Only waiting questions change, and none that was settled before. -/
structure Conn.Waits (before after : Conn) : Prop where
  same : after = { before with question := after.question, tailAnswerWaiters := after.tailAnswerWaiters }
  question : ∀ q, (before.question q).state ≠ .inProgress → after.question q = before.question q

theorem Conn.Waits.refl (conn : Conn) : conn.Waits conn := ⟨rfl, fun _ _ => rfl⟩

theorem Conn.Waits.replies {before after : Conn} (waits : before.Waits after) : after.replies = before.replies := by
  rw [waits.same]
  rfl

theorem Conn.Waits.refuses {before after : Conn} (waits : before.Waits after) : Refuses before after :=
  .of_questions waits.same waits.question

variable (conn) in
theorem settleForeign_run (q : Nat) (outcome : Except String Struct) (pending : (conn.question q).state = .inProgress) :
    ∃ question : Question, question.SettledTo outcome ∧
      settleForeign q outcome conn = .ok () (conn.alterQuestion q fun _ => question) := by
  cases outcome with
  | ok obj =>
      refine ⟨{ conn.question q with obj := some obj, state := .resolved }, ⟨rfl, rfl⟩, ?_⟩
      change Question.fulfill q obj conn = _
      unfold Question.fulfill
      rw [bind_apply, get_apply]
      dsimp only
      rw [if_pos pending]
      rfl
  | error reason =>
      refine ⟨{ conn.question q with err := some reason, state := .resolved }, ⟨rfl, rfl⟩, ?_⟩
      change Question.reject q reason conn = _
      unfold Question.reject
      rw [bind_apply, get_apply]
      dsimp only
      rw [if_pos pending]
      rfl

variable (conn) in
theorem settleForeign_refused (q : Nat) (outcome : Except String Struct)
    (settled : (conn.question q).state ≠ .inProgress) :
    ∃ error, settleForeign q outcome conn = .error error conn := by
  cases outcome with
  | ok obj =>
      refine ⟨.error "CAPNP-TS120 Fulfill called more than once for question (%s).", ?_⟩
      change Question.fulfill q obj conn = _
      unfold Question.fulfill
      rw [bind_apply, get_apply]
      dsimp only
      rw [if_neg settled]
      rfl
  | error reason =>
      refine ⟨.error "Question.reject called more than once", ?_⟩
      change Question.reject q reason conn = _
      unfold Question.reject
      rw [bind_apply, get_apply]
      dsimp only
      rw [if_neg settled]
      rfl

theorem settleWaiters_meets (outcome : Except String Struct) (waiters : List Nat) (conn : Conn) :
    Meets (waiters.forM fun q => settleForeign q outcome) conn
      (fun _ after => conn.Unsettled waiters ∧ conn.Waits after ∧ ∀ q ∈ waiters, (after.question q).SettledTo outcome)
      fun _ after => ¬ conn.Unsettled waiters ∧ conn.Waits after := by
  induction waiters generalizing conn with
  | nil => exact ⟨⟨List.nodup_nil, (by intros; contradiction)⟩, .refl conn, (by intros; contradiction)⟩
  | cons q waiters ih =>
      rw [List.forM_eq_forM, List.forM_cons]
      apply Meets.bind
      by_cases pending : (conn.question q).state = .inProgress
      · obtain ⟨question, settled, run⟩ := settleForeign_run conn q outcome pending
        let middle := conn.alterQuestion q fun _ => question
        have here : middle.question q = question := by simp [middle, Conn.alterQuestion]
        have there : ∀ p, p ≠ q → middle.question p = conn.question p := by
          intro p other
          simp [middle, Conn.alterQuestion, other]
        have sooner : conn.Waits middle := by
          refine ⟨rfl, ?_⟩
          intro p finished
          apply there
          rintro rfl
          exact finished pending
        have onward : ∀ {after : Conn}, middle.Waits after → conn.Waits after := by
          intro after later
          refine ⟨later.same.trans rfl, ?_⟩
          intro p finished
          rw [later.question p (by rwa [sooner.question p finished]), sooner.question p finished]
        have unsettled : middle.Unsettled waiters ↔ conn.Unsettled (q :: waiters) := by
          unfold Conn.Unsettled
          rw [List.nodup_cons, List.forall_mem_cons]
          constructor
          · rintro ⟨distinct, others⟩
            have absent : q ∉ waiters := by
              intro member
              have again := others q member
              rw [here, settled.state] at again
              cases again
            refine ⟨⟨absent, distinct⟩, pending, ?_⟩
            intro p member
            rw [← there p (ne_of_mem_of_not_mem member absent)]
            exact others p member
          · rintro ⟨⟨absent, distinct⟩, _, others⟩
            refine ⟨distinct, ?_⟩
            intro p member
            rw [there p (ne_of_mem_of_not_mem member absent)]
            exact others p member
        unfold Meets
        rw [run]
        apply (ih middle).mono
        · rintro _ after ⟨rest, later, others⟩
          refine ⟨unsettled.mp rest, onward later, ?_⟩
          intro p member
          rcases List.mem_cons.mp member with rfl | member
          · rw [later.question p (by rw [here, settled.state]; intro same; cases same), here]
            exact settled
          · exact others p member
        · rintro _ after ⟨rest, later⟩
          exact ⟨fun all => rest (unsettled.mpr all), onward later⟩
      · obtain ⟨error, run⟩ := settleForeign_refused conn q outcome pending
        unfold Meets
        rw [run]
        exact ⟨fun all => pending (all.2 q (List.mem_cons_self ..)), .refl conn⟩

theorem settleTail_meets (id : Nat) (outcome : Except String Struct) (conn : Conn) :
    Meets (takeTailAnswerWaiters id >>= fun waiters => waiters.forM fun q => settleForeign q outcome) conn
      (fun _ after => conn.Unsettled (conn.waitersOf id) ∧ conn.Waits after ∧
        ∀ q ∈ conn.waitersOf id, (after.question q).SettledTo outcome)
      fun _ after => ¬ conn.Unsettled (conn.waitersOf id) ∧ conn.Waits after := by
  unfold Conn.waitersOf
  cases found : find conn.tailAnswerWaiters id with
  | none =>
      have taken : takeTailAnswerWaiters id conn = .ok [] conn := by
        unfold takeTailAnswerWaiters
        rw [bind_apply, get_apply]
        dsimp only
        rw [found]
        rfl
      apply Meets.bind
      unfold Meets
      rw [taken]
      exact settleWaiters_meets outcome [] conn
  | some waiters =>
      have taken : takeTailAnswerWaiters id conn = .ok waiters (conn.setWaiters id none) := by
        unfold takeTailAnswerWaiters
        rw [bind_apply, get_apply]
        dsimp only
        rw [found]
        rfl
      apply Meets.bind
      unfold Meets
      rw [taken]
      apply (settleWaiters_meets outcome waiters (conn.setWaiters id none)).mono
      · rintro _ after ⟨all, later, settled⟩
        exact ⟨all, ⟨later.same.trans rfl, later.question⟩, settled⟩
      · rintro _ after ⟨all, later⟩
        exact ⟨all, later.same.trans rfl, later.question⟩

end Waiters

section Completion

theorem settleTail_refuses (id : Nat) (outcome : Except String Struct) :
    Moves Refuses (takeTailAnswerWaiters id >>= fun waiters => waiters.forM fun q => settleForeign q outcome) := by
  intro conn
  apply (settleTail_meets id outcome conn).mono
  · exact fun _ _ ended => ended.2.1.refuses
  · exact fun _ _ ended => ended.2.refuses

theorem reject_refuses (depth a : Nat) (reason : String) : Moves Refuses (AnswerEntry.reject depth a (some reason)) := by
  induction depth generalizing a reason with
  | zero => exact Moves.throw _
  | succ depth ih =>
      apply Moves.get
      intro conn
      cases pending : (conn.answer a).done with
      | true => exact Moves.throw _ conn
      | false =>
          rw [if_neg Bool.false_ne_true]
          have marks : Refuses conn (conn.alterAnswer a (AnswerEntry.rejected reason)) :=
            .mark conn pending rfl
          apply Meets.bind
          change Meets _ (conn.alterAnswer a (AnswerEntry.rejected reason)) _ _
          apply Meets.bind
          apply (settleTail_refuses (conn.answer a).id.id (.error reason) _).mono
          · intro _ settled sooner
            have sends := (marks.trans sooner).send reason pending
            apply Meets.bind
            change Meets _ (settled.send (.ret (conn.answer a).id false false (.exception reason))) _ _
            apply (rejectRest_moves (P := ∅) refuses_of_idle ih a reason (conn.answer a).queue _).mono
            · exact fun _ _ later => sends.trans later
            · exact fun _ _ later => sends.trans later
          · exact fun _ _ sooner => marks.trans sooner

theorem rejectAnswer_refuses (a : Nat) (reason : String) : Moves Refuses (rejectAnswer a reason) := by
  apply Moves.get
  intro conn
  exact reject_refuses conn.stack a reason conn

def AnswerEntry.marked : Except String Struct → AnswerEntry → AnswerEntry
  | .ok obj => fulfilled obj
  | .error reason => rejected reason

variable (conn) in
/-- The answer with its outcome noted, before anything is sent. -/
def Conn.marked (a : Nat) (outcome : Except String Struct) : Conn := conn.alterAnswer a (AnswerEntry.marked outcome)

def Conn.Reports (conn : Conn) (a : Nat) (outcome : Except String Struct) (body : ReturnBody) : Prop :=
  match outcome with
  | .error reason => body = .exception reason
  | .ok obj =>
      if (conn.answer a).sendResultsElsewhere then
        body = .resultsSentElsewhere
      else
        ∃ capTable described, makeCapTable (conn.copiedTable obj) (conn.marked a outcome) = .ok capTable described ∧
          body = .results { content := conn.copied obj, capTable := capTable }

/-- An answer has settled: it has sent its one Return, besides it only calls that waited for it have been refused,
and the questions that waited have the same outcome. -/
structure Conn.Completes (before : Conn) (a : Nat) (outcome : Except String Struct) (after : Conn) : Prop where
  settled : (after.answer a).SettledTo outcome
  returned : ∃ body refusals, before.Reports a outcome body ∧
    after.replies = before.replies ++ .ret (before.answer a).id false false body :: refusals ∧
    ∀ m ∈ refusals, ∃ other reason, other ≠ a ∧ (before.answer other).done = false ∧
      m = .ret (before.answer other).id false false (.exception reason)
  waiters : ∀ q ∈ before.waitersOf (before.answer a).id.id, (before.question q).state = .inProgress →
    (after.question q).SettledTo outcome

def Conn.Unreturned (before : Conn) (a : Nat) (outcome : Except String Struct) (after : Conn) : Prop :=
  ∃ refusals, after.replies = before.replies ++ refusals ∧
    ∀ body, before.Reports a outcome body → .ret (before.answer a).id false false body ∉ refusals

theorem Conn.Completes.returns {before after : Conn} {a : Nat} {outcome : Except String Struct}
    (completes : before.Completes a outcome after) : ¬ before.Unreturned a outcome after := by
  rintro ⟨refusals, replies, none⟩
  obtain ⟨body, later, reports, sends, _⟩ := completes.returned
  rw [replies] at sends
  apply none body reports
  rw [List.append_cancel_left sends]
  exact List.mem_cons_self ..

theorem Conn.marked_holds (a : Nat) (outcome : Except String Struct) :
    ((conn.marked a outcome).answer a).Holds outcome := by
  cases outcome with
  | ok obj => simp [Conn.marked, Conn.alterAnswer, AnswerEntry.Holds, AnswerEntry.marked, AnswerEntry.fulfilled]
  | error reason => simp [Conn.marked, Conn.alterAnswer, AnswerEntry.Holds, AnswerEntry.marked, AnswerEntry.rejected]

theorem Conn.marked_answer {a other : Nat} (different : other ≠ a) (outcome : Except String Struct) :
    (conn.marked a outcome).answer other = conn.answer other := by
  simp [Conn.marked, Conn.alterAnswer, different]

theorem Conn.Completes.of_send {settled after : Conn} {a : Nat} {outcome : Except String Struct} {body : ReturnBody}
    (connected : conn.transportClosed = false)
    (made : ∀ q, (conn.question q).state = .inProgress → q < conn.objects)
    (sooner : Refuses (conn.marked a outcome) settled) (settles : (settled.answer a).SettledTo outcome)
    (quiet : settled.replies = conn.replies)
    (waiters : ∀ q ∈ conn.waitersOf (conn.answer a).id.id, (settled.question q).SettledTo outcome)
    (reports : conn.Reports a outcome body)
    (later : Refuses (settled.send (.ret (conn.answer a).id false false body)) after) :
    conn.Completes a outcome after := by
  constructor
  · have stays : ((settled.send (.ret (conn.answer a).id false false body)).answer a).SettledTo outcome := settles
    exact stays.of_refuses later
  · obtain ⟨refusals, replies, refused⟩ := later.replies
    refine ⟨body, refusals, reports, ?_, ?_⟩
    · have sends : (settled.send (.ret (conn.answer a).id false false body)).replies =
          settled.replies ++ [.ret (conn.answer a).id false false body] := by
        have isOpen : settled.transportClosed = false := sooner.transport.trans connected
        unfold Conn.replies Conn.send
        simp [isOpen, RpcMessage.isReturn]
      rw [replies, sends, quiet]
      simp
    · intro m member
      obtain ⟨other, reason, pending, rfl⟩ := sooner.refusal (refused m member)
      have different : other ≠ a := by
        rintro rfl
        cases pending.symm.trans (conn.marked_holds other outcome).done
      have same := conn.marked_answer different outcome
      rw [same] at pending
      exact ⟨other, reason, different, pending, by rw [same]⟩
  · intro q waits pending
    have settles := waiters q waits
    have early : q < settled.objects := Nat.lt_of_lt_of_le (made q pending) sooner.objects
    refine settles.congr (later.question q early ?_)
    rw [show ((settled.send _).question q).state = _ from settles.state]
    intro same
    cases same

/-- Nothing stands in the way of a settlement: every question that waits for the answer is in progress, a reason
is none of the falsy ones, and results that are sent can be copied and their capabilities described. -/
def Conn.Unhindered (conn : Conn) (a : Nat) (outcome : Except (Option String) Struct) : Prop :=
  conn.Unsettled (conn.waitersOf (conn.answer a).id.id) ∧
    match outcome with
    | .ok obj => (conn.answer a).sendResultsElsewhere = false → obj.content.copyFault 0 = none ∧
        ∃ capTable after, makeCapTable (conn.copiedTable obj) (conn.marked a (.ok obj)) = .ok capTable after
    -- the call of `reject` fits on the stack
    | .error (some _) => 0 < conn.stack
    | .error none => False

def Conn.Settles (before : Conn) (a : Nat) (outcome : Except (Option String) Struct) (after : Conn) : Prop :=
  match outcome with
  | .ok obj => before.Completes a (.ok obj) after
  | .error (some reason) => before.Completes a (.error reason) after
  | .error none => ∃ reason, before.Completes a (.error reason) after

/-- How a settlement ends: with everything done, or without its Return. -/
def Conn.Ends (before : Conn) (a : Nat) (outcome : Except String Struct) (fine : Prop) (after : Conn) : Prop :=
  (fine ∧ before.Completes a outcome after) ∨ (¬ fine ∧ before.Unreturned a outcome after)

theorem Conn.Ends.iff {before after : Conn} {a : Nat} {outcome : Except String Struct} {fine : Prop}
    (ends : before.Ends a outcome fine after) : before.Completes a outcome after ↔ fine := by
  constructor
  · intro completes
    rcases ends with ⟨fine, _⟩ | ⟨_, unreturned⟩
    · exact fine
    · exact absurd unreturned completes.returns
  · intro fine
    rcases ends with ⟨_, completes⟩ | ⟨hindered, _⟩
    · exact completes
    · exact absurd fine hindered

theorem reject_ends (depth a : Nat) (reason : String) (pending : (conn.answer a).done = false)
    (undeferred : (conn.answer a).deferred = none) (connected : conn.transportClosed = false)
    (made : ∀ q, (conn.question q).state = .inProgress → q < conn.objects) :
    Meets (AnswerEntry.reject (depth + 1) a (some reason)) conn
      (fun _ after => conn.Ends a (.error reason) (conn.Unsettled (conn.waitersOf (conn.answer a).id.id)) after)
      fun _ after => conn.Ends a (.error reason) (conn.Unsettled (conn.waitersOf (conn.answer a).id.id)) after := by
  have marks : ((conn.marked a (.error reason)).answer a).SettledTo (.error reason) := by
    refine ⟨conn.marked_holds a _, ?_⟩
    simp [Conn.marked, Conn.alterAnswer, AnswerEntry.marked, AnswerEntry.rejected, undeferred]
  apply Meets.get
  rw [if_neg (by rw [pending]; exact Bool.false_ne_true)]
  apply Meets.bind
  change Meets _ (conn.marked a (.error reason)) _ _
  apply Meets.bind
  apply (settleTail_meets (conn.answer a).id.id (.error reason) (conn.marked a (.error reason))).mono
  · rintro _ settled ⟨fine, waits, waiters⟩
    apply Meets.bind
    change Meets _ (settled.send (.ret (conn.answer a).id false false (.exception reason))) _ _
    have completes : ∀ after, Refuses (settled.send (.ret (conn.answer a).id false false (.exception reason))) after →
        conn.Ends a (.error reason) (conn.Unsettled (conn.waitersOf (conn.answer a).id.id)) after := by
      intro after later
      exact Or.inl ⟨fine, .of_send connected made waits.refuses (marks.of_refuses waits.refuses) waits.replies waiters
        rfl later⟩
    apply (rejectRest_moves (P := ∅) refuses_of_idle (reject_refuses depth) a reason (conn.answer a).queue _).mono
    · exact fun _ after later => completes after later
    · exact fun _ after later => completes after later
  · rintro _ after ⟨hindered, waits⟩
    exact Or.inr ⟨hindered, [], by rw [List.append_nil]; exact waits.replies, fun _ _ => List.not_mem_nil⟩

theorem sendResults_meets {a : Nat} {obj : Struct} {content : Content} {marked : Conn}
    (holds : (marked.answer a).Holds (.ok obj)) (undeferred : (marked.answer a).deferred = none) :
    Meets (AnswerEntry.sendResults a obj content) marked
      (fun _ after => marked.Unsettled (marked.waitersOf (marked.answer a).id.id) ∧
        ∃ capTable described settled, makeCapTable (marked.copiedTable obj) marked = .ok capTable described ∧
          Refuses marked settled ∧ (settled.answer a).SettledTo (.ok obj) ∧ settled.replies = marked.replies ∧
          (∀ q ∈ marked.waitersOf (marked.answer a).id.id, (settled.question q).SettledTo (.ok obj)) ∧
          after = settled.send (.ret (marked.answer a).id false false
            (.results { content := content, capTable := capTable })))
      fun _ after => (¬ marked.Unsettled (marked.waitersOf (marked.answer a).id.id) ∨
        ¬ ∃ capTable described, makeCapTable (marked.copiedTable obj) marked = .ok capTable described) ∧
        Refuses marked after := by
  apply Meets.get
  apply Meets.bind
  have describes : Meets (makeCapTable (marked.copiedTable obj)) marked
      (fun capTable described => makeCapTable (marked.copiedTable obj) marked = .ok capTable described ∧
        Idle ∅ marked described)
      fun _ after => (¬ ∃ capTable described, makeCapTable (marked.copiedTable obj) marked = .ok capTable described) ∧
        Idle ∅ marked after := by
    have idle := makeCapTable_idle (P := ∅) (marked.copiedTable obj) marked
    unfold Meets at idle ⊢
    cases run : makeCapTable (marked.copiedTable obj) marked with
    | error error after =>
        rw [run] at idle
        exact ⟨nofun, idle⟩
    | ok capTable described =>
        rw [run] at idle
        exact ⟨rfl, idle⟩
  apply describes.mono
  · rintro capTable described ⟨run, idle⟩
    let counted := described.alterAnswer a (AnswerEntry.described obj (collectPayloadSenderHosted capTable))
    have promised : (described.answer a).deferred = none := (idle.deferred a).trans undeferred
    have counts : Refuses marked counted :=
      (Refuses.of_idle idle).trans (.describe described obj (collectPayloadSenderHosted capTable) promised)
    have settles : (counted.answer a).SettledTo (.ok obj) := by
      constructor
      · exact holds.congr (counts.answer a holds.done)
      · simp [counted, Conn.alterAnswer, AnswerEntry.described, promised]
    have pending : ∀ q, (counted.question q).state = (marked.question q).state :=
      fun q => congrArg (·.2.1) (idle.question q)
    have waiting : counted.waitersOf (marked.answer a).id.id = marked.waitersOf (marked.answer a).id.id := by
      unfold Conn.waitersOf
      rw [show counted.tailAnswerWaiters = marked.tailAnswerWaiters from idle.waiters]
    have unsettled : ∀ waiters, counted.Unsettled waiters ↔ marked.Unsettled waiters := by
      intro waiters
      unfold Conn.Unsettled
      simp only [pending]
    apply Meets.bind
    change Meets _ counted _ _
    apply Meets.bind
    apply (settleTail_meets (marked.answer a).id.id (.ok obj) counted).mono
    · rintro _ settled ⟨fine, waits, waiters⟩
      rw [waiting] at fine waiters
      refine ⟨(unsettled _).mp fine, capTable, described, settled, run, ?_, ?_, ?_, waiters, rfl⟩
      · exact counts.trans waits.refuses
      · exact settles.of_refuses waits.refuses
      · exact waits.replies.trans idle.replies
    · rintro _ after ⟨hindered, waits⟩
      rw [waiting] at hindered
      exact ⟨Or.inl fun fine => hindered ((unsettled _).mpr fine), counts.trans waits.refuses⟩
  · rintro error after ⟨undescribed, idle⟩
    exact ⟨Or.inr undescribed, .of_idle idle⟩

theorem fulfill_ends (a : Nat) (obj : Struct) (pending : (conn.answer a).done = false)
    (undeferred : (conn.answer a).deferred = none) (connected : conn.transportClosed = false)
    (made : ∀ q, (conn.question q).state = .inProgress → q < conn.objects) :
    Meets (AnswerEntry.fulfill a obj) conn (fun _ after => conn.Ends a (.ok obj) (conn.Unhindered a (.ok obj)) after)
      fun _ after => conn.Ends a (.ok obj) (conn.Unhindered a (.ok obj)) after := by
  let marked := conn.marked a (.ok obj)
  have number : (marked.answer a).id = (conn.answer a).id := by
    simp [marked, Conn.marked, Conn.alterAnswer, AnswerEntry.marked, AnswerEntry.fulfilled]
  have holds := conn.marked_holds a (.ok obj)
  have unreturned : ∀ {after : Conn}, ¬ conn.Unhindered a (.ok obj) → Refuses marked after →
      (conn.answer a).sendResultsElsewhere = false → conn.Ends a (.ok obj) (conn.Unhindered a (.ok obj)) after := by
    intro after hindered refuses here
    obtain ⟨refusals, replies, refused⟩ := refuses.replies
    refine Or.inr ⟨hindered, refusals, replies, ?_⟩
    intro body reports member
    obtain ⟨other, reason, _, same⟩ := refused _ member
    simp only [Conn.Reports, here, Bool.false_eq_true, if_false] at reports
    obtain ⟨capTable, described, _, rfl⟩ := reports
    cases (RpcMessage.ret.inj same).2.2.2
  apply Meets.get
  rw [if_neg (by rw [pending]; exact Bool.false_ne_true)]
  apply Meets.bind
  change Meets _ marked _ _
  cases elsewhere : (conn.answer a).sendResultsElsewhere with
  | true =>
      rw [if_pos rfl]
      have reports : conn.Reports a (.ok obj) .resultsSentElsewhere := by
        simp [Conn.Reports, elsewhere]
      have marks : (marked.answer a).SettledTo (.ok obj) := by
        refine ⟨holds, ?_⟩
        simp [marked, Conn.marked, Conn.alterAnswer, AnswerEntry.marked, AnswerEntry.fulfilled, elsewhere, undeferred]
      apply Meets.bind
      apply (settleTail_meets (conn.answer a).id.id (.ok obj) marked).mono
      · rintro _ settled ⟨fine, waits, waiters⟩
        refine Or.inl ⟨⟨fine, fun here => ?_⟩, ?_⟩
        · cases elsewhere.symm.trans here
        · exact .of_send connected made waits.refuses (marks.of_refuses waits.refuses) waits.replies waiters reports
            (.refl _)
      · rintro _ after ⟨hindered, waits⟩
        exact Or.inr ⟨fun fine => hindered fine.1, [], by rw [List.append_nil]; exact waits.replies, fun _ _ => List.not_mem_nil⟩
  | false =>
      rw [if_neg Bool.false_ne_true]
      have unpromised : (marked.answer a).deferred = none := by
        simp [marked, Conn.marked, Conn.alterAnswer, AnswerEntry.marked, AnswerEntry.fulfilled, elsewhere, undeferred]
      apply Meets.bind
      cases copies : obj.content.copyFault 0 with
      | some reason =>
          unfold Meets
          rw [setContent_throws copies]
          exact unreturned (fun fine => by cases (fine.2 elsewhere).1.symm.trans copies) (.refl marked) elsewhere
      | none =>
          unfold Meets
          rw [setContent_run copies]
          have sends : Meets (attempt (AnswerEntry.sendResults a obj (marked.copied obj))) marked
              (fun _ sent => ∀ after, Refuses sent after → conn.Ends a (.ok obj) (conn.Unhindered a (.ok obj)) after)
              fun _ _ => False := by
            apply Meets.tryCatch
            apply Meets.bind
            apply (sendResults_meets holds unpromised).mono
            · rintro _ sent ⟨fine, capTable, described, settled, run, sooner, settles, quiet, waiters, rfl⟩ after later
              rw [number] at fine waiters later
              have reports : conn.Reports a (.ok obj)
                  (.results { content := conn.copied obj, capTable := capTable }) := by
                simp only [Conn.Reports, elsewhere, Bool.false_eq_true, if_false]
                exact ⟨capTable, described, run, rfl⟩
              refine Or.inl ⟨⟨fine, fun _ => ⟨copies, capTable, described, run⟩⟩, ?_⟩
              exact .of_send connected made sooner settles quiet waiters reports later
            · rintro error failed ⟨hindered, sooner⟩ after later
              rw [number] at hindered
              refine unreturned ?_ (sooner.trans later) elsewhere
              rintro ⟨fine, describes⟩
              rcases hindered with hindered | hindered
              · exact hindered fine
              · exact hindered (describes elsewhere).2
          apply Meets.bind
          apply sends.mono
          · intro firstErr sent ends
            apply (AnswerEntry.passQueue_moves (Set.mem_singleton Power.ask) refuses_of_asks rejectAnswer_refuses a obj
              firstErr sent).mono
            · exact fun _ after later => ends after later
            · exact fun _ after later => ends after later
          · exact fun _ _ never => never.elim

end Completion

end CapnpEs.Rpc
