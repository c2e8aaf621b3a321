import CapnpEs.Rpc.SettledAnswers

/-! What a connection never takes back: how a question ended, that an answer is done, and that it is closed. -/

namespace CapnpEs.Rpc

open Outcome Relation SlotTable Transition

variable {P : Set Power} {conn : Conn}

section Covers

/-- A relation that every change of a step stays within: the turns, what settles or issues no question and changes
no answer, and a question that takes the next number. -/
structure Covers (R : Conn → Conn → Prop) : Prop where
  turn : ∀ {before after}, Turn Power.all before after → R before after
  aside : ∀ {before after : Conn}, after.question = before.question → after.answer = before.answer →
    before.objects ≤ after.objects → after.closed = before.closed → after.transportClosed = before.transportClosed →
    after.working = before.working → (before.receiving = false → after.receiving = false) → R before after
  question : ∀ (conn : Conn) (change : Question → Question), R conn (conn.alterQuestion conn.objects change).allocated
  start : ∀ (conn : Conn) (q : Nat), R conn (conn.alterQuestion q fun question => { question with started := true })

variable {R : Conn → Conn → Prop} [IsPreorder Conn R]

namespace Covers

theorem turns (covers : Covers R) {before after : Conn} (turns : Turns Power.all before after) : R before after := by
  induction turns with
  | refl => exact refl_of R before
  | tail _ turn ih => exact trans_of R ih (covers.turn turn)

theorem of_turns (covers : Covers R) {α : Type} {program : ConnM α} (turns : Moves (Turns Power.all) program) :
    Moves R program :=
  fun conn => (turns conn).mono (fun _ _ turns => covers.turns turns) fun _ _ turns => covers.turns turns

theorem rejects (covers : Covers R) (q : Nat) (reason : String) : Moves R (Question.reject q reason) :=
  covers.of_turns (Question.reject_turns q reason)

theorem issueQuestion (covers : Covers R) (conn : Conn) (method : Option Method) : R conn (conn.issueQuestion method) := by
  let id := conn.questionID.next.1
  let opened := { conn.setQuestionSlot id (some conn.objects) with questionID := conn.questionID.next.2 }
  let asked := (opened.alterQuestion opened.objects fun _ => { own := true, id := id, method := method }).allocated
  have opens : R conn opened := covers.aside rfl rfl (Nat.le_refl _) rfl rfl rfl fun same => same
  have asks : R opened asked := covers.question opened _
  have tells : R asked (conn.issueQuestion method) :=
    covers.aside rfl rfl (Nat.le_refl _) rfl rfl rfl fun same => same
  exact trans_of R opens (trans_of R asks tells)

theorem takeFromOther (covers : Covers R) (q id other : Nat) : Moves R (takeFromOther q id other) := by
  apply Moves.get
  intro conn
  split
  · exact covers.rejects q _ conn
  · cases find conn.answers other with
    | none => exact covers.rejects q _ conn
    | some source =>
        dsimp only
        split
        · cases (conn.answer source).err with
          | some reason => exact covers.rejects q _ conn
          | none =>
              cases (conn.answer source).obj with
              | some obj => exact covers.of_turns (Question.fulfill_turns q obj) conn
              | none => exact covers.rejects q _ conn
        · exact covers.aside rfl rfl (Nat.le_refl _) rfl rfl rfl fun same => same

theorem rejectUnread (covers : Covers R) (q : Nat) (m : RpcMessage) (error : RpcError) :
    Moves R (rejectUnread q m error) := by
  cases error with
  | protocol kind message => exact Moves.bind (covers.rejects q _) fun _ => Moves.throw _
  | error message =>
      apply Moves.tryCatch
      · exact Moves.bind (Moves.modify (R := R) fun _ => covers.aside rfl rfl (Nat.le_refl _) rfl rfl rfl fun same => same) fun _ =>
          covers.rejects q _
      · intro later
        exact Moves.bind (covers.rejects q _) fun _ => Moves.throw _

theorem settleQuestion (covers : Covers R) (q id : Nat) (body : ReturnBody) (m : RpcMessage) :
    Moves R (settleQuestion q id body m) := by
  cases body with
  | results payload =>
      have reads : Moves (Turns Power.all) (readPayload payload) := turns_of_idle (readPayload_idle payload fun _ => Set.mem_univ _)
      apply Moves.bind
      · apply Moves.tryCatch
        · exact Moves.bind (covers.of_turns reads) fun _ => Moves.pure _
        · exact fun _ => Moves.pure _
      · intro read
        cases read with
        | ok obj =>
            apply Moves.bind (covers.of_turns (turns_of_idle (readContent_idle payload.content)))
            exact fun _ => covers.of_turns (Question.fulfill_turns q obj)
        | error error => exact covers.rejectUnread q m error
  | exception reason => exact covers.rejects q _
  | canceled => exact covers.rejects q _
  | takeFromOtherQuestion other => exact covers.takeFromOther q id other
  | resultsSentElsewhere => exact covers.rejects q _
  | other => exact covers.rejects q _
  | unreadable reason => exact Moves.throw _

theorem handleReturnMessage (covers : Covers R) (id : WireId) (releaseParamCaps noFinishNeeded : Bool)
    (body : ReturnBody) (m : RpcMessage) : Moves R (handleReturnMessage id releaseParamCaps noFinishNeeded body m) := by
  have pops : Moves R (popQuestion id.id) := by
    apply Moves.get
    intro conn
    cases conn.findQuestion id.id with
    | none => exact Moves.pure _ conn
    | some q => exact covers.aside rfl rfl (Nat.le_refl _) rfl rfl rfl fun same => same
  apply Moves.bind pops
  intro popped
  cases popped with
  | none => exact covers.of_turns (abortForProtocolError_turns (Set.mem_univ _) _ _)
  | some q =>
      have tells : ∀ conn : Conn, R conn (conn.say (.returnUsed q id)) :=
        fun _ => covers.aside rfl rfl (Nat.le_refl _) rfl rfl rfl fun same => same
      apply Moves.bind (Moves.modify tells)
      intro _
      apply Moves.get
      intro conn
      refine Moves.follow (Moves.forM (fun cap _ => covers.of_turns (releaseExport_turns cap.id 1)) conn) ?_
      intro _
      apply Moves.bind (covers.settleQuestion q id.id body m)
      intro _
      split
      · exact Moves.pure _
      · exact Moves.modify (R := R) fun _ => covers.aside rfl rfl (Nat.le_refl _) rfl rfl rfl fun same => same

theorem handleMessage (covers : Covers R) (m : RpcMessage) : Moves R (handleMessage m) := by
  have dispatches : Moves R (dispatchMessage m) := by
    cases isReturn : m.isReturn with
    | true =>
        cases m with
        | ret id releaseParamCaps noFinishNeeded body => exact covers.handleReturnMessage _ _ _ _ _
        | _ => cases isReturn
    | false =>
        exact covers.of_turns (dispatchMessage_turns (Set.mem_univ _) (Set.mem_univ _) (Set.mem_univ _) isReturn fun _ => Set.mem_univ _)
  apply Moves.tryCatch dispatches
  intro error
  cases error with
  | error message => exact Moves.throw _
  | protocol kind message => exact covers.of_turns (abortForProtocolError_turns (Set.mem_univ _) _ _)

theorem work (covers : Covers R) (m : RpcMessage) : Moves R (work m) := by
  apply Moves.tryCatch
  · apply Moves.bind (covers.handleMessage m)
    exact fun _ => Moves.modify (R := R) fun _ => covers.aside rfl rfl (Nat.le_refl _) rfl rfl rfl fun ended => by simp [ended]
  · exact fun _ => Moves.modify (R := R) fun _ => covers.aside rfl rfl (Nat.le_refl _) rfl rfl rfl fun _ => rfl

theorem perform (covers : Covers R) {action : Action} (allowed : conn.allows action = true) :
    Meets (perform action) conn.fresh (fun _ after => R conn.fresh after) fun _ after => R conn.fresh after := by
  cases plain : action.isTurns with
  | true =>
      have turns : Meets (Rpc.perform action) conn.fresh (fun _ after => Turns Power.all conn.fresh after)
          fun _ after => Turns Power.all conn.fresh after :=
        perform_turns (Set.mem_univ _) (fun _ _ => Set.mem_univ _) plain allowed
      exact turns.mono (fun _ _ turns => covers.turns turns) fun _ _ turns => covers.turns turns
  | false =>
      cases action with
      | bootstrap =>
          let issued := conn.fresh.issueQuestion none
          let sent := issued.send (.bootstrap (issued.questionId conn.objects))
          have issues : R conn.fresh issued := covers.issueQuestion conn.fresh none
          have sends : R issued sent := covers.aside rfl rfl (Nat.le_refl _) rfl rfl rfl fun same => same
          exact trans_of R issues (trans_of R sends (covers.start sent conn.objects))
      | newPipeline q transform => exact covers.aside rfl rfl (Nat.le_succ _) rfl rfl rfl fun same => same
      | newForeignQuestion => exact covers.question conn.fresh _
      | _ => cases plain

theorem step (covers : Covers R) {after : Conn} {input : Input} (taken : conn.step input = some after) :
    R conn.fresh after := by
  unfold Conn.step at taken
  cases input with
  | act action =>
      dsimp only at taken
      split at taken
      · rename_i allowed
        cases taken
        exact run_meets (covers.perform allowed)
      · cases taken
  | receive m =>
      dsimp only at taken
      split at taken
      · cases taken
        exact run_meets (covers.work m conn.fresh)
      · cases taken

end Covers

end Covers

/-- A connection that is closed waits for no message after the one it handles. -/
def Conn.Idling (conn : Conn) : Prop := conn.closed = true → conn.working = false

/-- What is settled stays as it is, and what is shut down stays shut down. -/
structure Lasting (before after : Conn) : Prop where
  objects : before.objects ≤ after.objects
  question : ∀ q < before.objects, (before.question q).state ≠ .inProgress →
    (after.question q).standing.2 = (before.question q).standing.2
  answer : ∀ a < before.objects, (before.answer a).done = true →
    (after.answer a).done = true ∧ (after.answer a).id = (before.answer a).id
  closed : before.closed = true → after.closed = true
  working : before.working = false → after.working = false
  shut : before.Idling → after.Idling
  receiving : before.receiving = false → after.receiving = false
  transport : before.transportClosed = true → after.transportClosed = true

namespace Lasting

theorem refl (conn : Conn) : Lasting conn conn where
  objects := Nat.le_refl _
  question _ _ _ := rfl
  answer _ _ done := ⟨done, rfl⟩
  closed same := same
  working same := same
  shut same := same
  receiving same := same
  transport same := same

theorem trans {first second third : Conn} (sooner : Lasting first second) (later : Lasting second third) :
    Lasting first third where
  objects := Nat.le_trans sooner.objects later.objects
  question q made settled := by
    have same := sooner.question q made settled
    have still : (second.question q).state ≠ .inProgress := by
      rw [show (second.question q).state = (first.question q).state from congrArg (·.1) same]
      exact settled
    exact (later.question q (Nat.lt_of_lt_of_le made sooner.objects) still).trans same
  answer a made done := by
    obtain ⟨still, number⟩ := sooner.answer a made done
    obtain ⟨yet, same⟩ := later.answer a (Nat.lt_of_lt_of_le made sooner.objects) still
    exact ⟨yet, same.trans number⟩
  closed same := later.closed (sooner.closed same)
  working same := later.working (sooner.working same)
  shut same := later.shut (sooner.shut same)
  receiving same := later.receiving (sooner.receiving same)
  transport same := later.transport (sooner.transport same)

instance : IsPreorder Conn Lasting where
  refl := refl
  trans _ _ _ := trans

theorem aside {before after : Conn} (questions : after.question = before.question)
    (answers : after.answer = before.answer) (objects : before.objects ≤ after.objects)
    (closed : after.closed = before.closed) (transport : after.transportClosed = before.transportClosed)
    (working : after.working = before.working) (receiving : before.receiving = false → after.receiving = false) :
    Lasting before after where
  objects := objects
  question q _ _ := by rw [questions]
  answer a _ done := by
    rw [answers]
    exact ⟨done, rfl⟩
  closed same := closed.trans same
  working same := working.trans same
  shut same := by
    intro now
    exact working.trans (same (closed.symm.trans now))
  receiving := receiving
  transport same := transport.trans same

theorem alterQuestion (conn : Conn) (q : Nat) {change : Question → Question}
    (same : q < conn.objects → (conn.question q).state ≠ .inProgress →
      (change (conn.question q)).standing.2 = (conn.question q).standing.2) :
    Lasting conn (conn.alterQuestion q change) := by
  refine { refl conn with question := ?_ }
  intro other made settled
  by_cases here : other = q
  · subst here
    simpa [Conn.alterQuestion] using same made settled
  · simp [Conn.alterQuestion, here]

theorem alterAnswer (conn : Conn) (a : Nat) {change : AnswerEntry → AnswerEntry}
    (same : (change (conn.answer a)).id = (conn.answer a).id) (done : (change (conn.answer a)).done = true) :
    Lasting conn (conn.alterAnswer a change) := by
  refine { refl conn with answer := ?_ }
  intro other _ was
  by_cases here : other = a
  · subst here
    simp [Conn.alterAnswer, same, done]
  · simp [Conn.alterAnswer, here, was]

theorem leave (conn : Conn) (q : Nat) : Lasting conn (conn.leave q) := by
  unfold Conn.leave
  split
  · exact aside rfl rfl (Nat.le_refl _) rfl rfl rfl fun same => same
  · exact refl conn

end Lasting

theorem Ask.lasting {before after : Conn} (step : Ask P before after) : Lasting before after := by
  cases step with
  | idle same =>
      constructor
      · exact same.objects
      · exact fun q _ _ => congrArg (·.2) (same.question q)
      · intro a _ done
        exact ⟨(congrArg (·.2.1) (same.answer a)).trans done, congrArg (·.1) (same.answer a)⟩
      · exact fun closed => same.closed.trans closed
      · exact fun working => same.working.trans working
      · intro shut now
        exact same.working.trans (shut (same.closed.symm.trans now))
      · exact fun receiving => same.receiving.trans receiving
      · exact fun transport => same.transport.trans transport
  | issue method can outlet =>
      refine { Lasting.refl before with objects := Nat.le_succ _, question := ?_ }
      intro q made _
      have other : q ≠ before.objects := Nat.ne_of_lt made
      simp [Conn.issueQuestion, Conn.say, Conn.allocated, Conn.alterQuestion, Conn.setQuestionSlot, other]
  | start isOpen same => exact .alterQuestion _ _ fun _ _ => congrArg (·.2) same
  | abandon isOpen unneeded => exact .aside rfl rfl (Nat.le_refl _) rfl rfl rfl fun same => same

theorem Turn.lasting {before after : Conn} (turn : Turn P before after) : Lasting before after := by
  cases turn with
  | ask step => exact step.lasting
  | @giveUp q change reason mine known pending same =>
      refine (Lasting.leave before q).trans (Lasting.alterQuestion _ q ?_)
      have kept : (before.leave q).question q = before.question q := by
        unfold Conn.leave
        split
        · rfl
        · rfl
      intro _ settled
      rw [kept] at settled
      exact absurd pending settled
  | settle pending same resolved => exact .alterQuestion _ _ fun _ settled => absurd pending settled
  | answer isOpen same done => exact .alterAnswer _ _ same done
  | describe done same =>
      exact .alterAnswer _ _ (congrArg (·.1) same) ((congrArg (·.2.1) same).trans done)
  | markAnswer can same done => exact .alterAnswer _ _ same done
  | openAnswer id can free =>
      refine { Lasting.refl before with objects := Nat.le_succ _, answer := ?_ }
      intro a made done
      have other : a ≠ before.objects := Nat.ne_of_lt made
      simp [Conn.allocated, Conn.alterAnswer, Conn.setAnswerSlot, other, done]
  | shut can =>
      exact { Lasting.refl before with closed := fun _ => rfl, working := fun _ => rfl, shut := fun _ _ => rfl }
  | hangUp can => exact { Lasting.refl before with transport := fun _ => rfl }
  | _ => exact .aside rfl rfl (Nat.le_refl _) rfl rfl rfl fun same => same

theorem lasting_covers : Covers Lasting where
  turn := Turn.lasting
  aside := Lasting.aside
  question conn change := by
    refine { Lasting.refl conn with objects := Nat.le_succ _, question := ?_ }
    intro q made _
    have other : q ≠ conn.objects := Nat.ne_of_lt made
    simp [Conn.allocated, Conn.alterQuestion, other]
  start conn q := .alterQuestion conn q fun _ _ => rfl

theorem Conn.step_lasting {after : Conn} {input : Input} (taken : conn.step input = some after) : Lasting conn after := by
  have fresh : Lasting conn conn.fresh := .aside rfl rfl (Nat.le_refl _) rfl rfl rfl fun same => same
  exact fresh.trans (lasting_covers.step taken)

theorem Conn.step_stops {m : RpcMessage} {after : Conn} (idle : conn.working = false)
    (taken : conn.step (.receive m) = some after) : after.receiving = false := by
  unfold Conn.step at taken
  dsimp only at taken
  split at taken
  · cases taken
    apply run_meets (P := fun after => after.receiving = false)
    apply Meets.tryCatch
    apply Meets.bind
    apply (lasting_covers.handleMessage m conn.fresh).mono
    · intro _ handled lasting
      change (handled.receiving && handled.working) = false
      rw [lasting.working idle, Bool.and_false]
    · intro _ _ _
      rfl
  · cases taken

/-- In every run, whatever a peer sends, a question that has ended keeps its state, its result and its error, an
answer that is done stays done, and a connection that is closed stays closed and reads no more than the message it
has already taken. -/
theorem settled_for_good {allowed : Conn → Input → Conn → Prop} {start state : Conn}
    (run : Run Conn.step allowed start state) :
    Lasting start state ∧
      ∀ m after, state.working = false → state.step (.receive m) = some after → after.receiving = false := by
  refine ⟨?_, fun m after idle taken => Conn.step_stops idle taken⟩
  apply run.invariant (.refl start)
  intro before input after lasting taken _
  exact lasting.trans (before.step_lasting taken)

/-- A question that fails and is canceled afterwards. -/
theorem settled_for_good_failed :
    ∃ settled later, Run.follow Conn.step { registry := fun _ => none }
        [.act .bootstrap, .receive (.ret ⟨0, 0⟩ false false (.exception "none"))] = some settled ∧
      (settled.question 0).err = some "none" ∧
      Run.follow Conn.step settled [.act (.shutdown "bye"), .act (.cancel 0 "late")] = some later ∧
      later.closed = true ∧ Lasting settled later ∧
      ∀ m after, later.working = false → later.step (.receive m) = some after → after.receiving = false := by
  have runs : ((Run.follow Conn.step { registry := fun _ => none }
      [.act .bootstrap, .receive (.ret ⟨0, 0⟩ false false (.exception "none"))]).bind fun settled =>
        (Run.follow Conn.step settled [.act (.shutdown "bye"), .act (.cancel 0 "late")]).map fun later =>
          ((settled.question 0).err, later.closed)) = some (some "none", true) := by
    decide +kernel
  obtain ⟨settled, followed, next⟩ := Option.bind_eq_some_iff.mp runs
  obtain ⟨later, canceled, shape⟩ := Option.map_eq_some_iff.mp next
  simp only [Prod.mk.injEq] at shape
  obtain ⟨failed, closed⟩ := shape
  exact ⟨settled, later, followed, failed, canceled, closed, settled_for_good (.of_follow .start canceled)⟩

end CapnpEs.Rpc
