import CapnpEs.Rpc.ReferenceLedger
import CapnpEs.Rpc.TableInvariants

/-! How often a connection asks, finishes and takes the Return of a question: for each number at most as often as
it has been issued. -/

namespace CapnpEs.Rpc

open Relation SlotTable Transition

variable {conn : Conn} {hand : Hand} {n : Nat}

/-- Whether a number is `n`, as a count. -/
def WireId.counts (n : Nat) (id : WireId) : Nat := if id.id = n then 1 else 0

def RpcMessage.asks (n : Nat) (m : RpcMessage) : Nat := m.question.elim 0 (WireId.counts n)

def RpcMessage.finishes (n : Nat) : RpcMessage → Nat
  | .finish id _ => id.counts n
  | _ => 0

def Event.issues (n : Nat) : Event → Nat
  | .questionIssued id _ => id.counts n
  | _ => 0

def Event.uses (n : Nat) : Event → Nat
  | .returnUsed _ answerId => answerId.counts n
  | _ => 0

/-- Every question of the table is one that has been made, under its own number. -/
def Conn.QuestionsHeld (conn : Conn) : Prop :=
  ∀ id q, conn.findQuestion id = some q → (conn.question q).id = id ∧ q < conn.objects

def Conn.unsent (conn : Conn) (n : Nat) : Nat :=
  (conn.findQuestion n).elim 0 fun q => if (conn.question q).started then 0 else 1

def Conn.opened (conn : Conn) (n : Nat) : Nat := (conn.findQuestion n).elim 0 fun _ => 1

/-- What has been done in a step with questions of number `n`, and what still can be. -/
structure Books where
  asked : Nat
  finished : Nat
  issued : Nat
  used : Nat
  unsent : Nat
  opened : Nat
  taken : Nat

def books (n : Nat) (state : Conn × Hand) : Books where
  asked := tally (RpcMessage.asks n) state.1.sent
  finished := tally (RpcMessage.finishes n) state.1.sent
  issued := tally (Event.issues n) state.1.trace
  used := tally (Event.uses n) state.1.trace
  unsent := state.1.unsent n
  opened := state.1.opened n
  taken := state.2.taken.elim 0 (WireId.counts n)

/-- Nothing is asked, finished or used beyond what has been issued in between. -/
structure Books.Kept (before after : Books) : Prop where
  asked : after.asked + after.unsent + before.issued ≤ before.asked + before.unsent + after.issued
  finished : after.finished + after.opened + after.taken + before.issued ≤
    before.finished + before.opened + before.taken + after.issued
  used : after.used + after.opened + before.issued ≤ before.used + before.opened + after.issued

namespace Books.Kept

theorem refl (books : Books) : books.Kept books :=
  ⟨Nat.le_refl _, Nat.le_refl _, Nat.le_refl _⟩

theorem trans {first second third : Books} (sooner : first.Kept second) (later : second.Kept third) :
    first.Kept third := by
  obtain ⟨asked, finished, used⟩ := sooner
  obtain ⟨askedLater, finishedLater, usedLater⟩ := later
  constructor <;> omega

end Books.Kept

theorem books_send (conn : Conn) (hand : Hand) {m : RpcMessage} (asks : m.asks n = 0) (finishes : m.finishes n = 0) :
    (books n (conn, hand)).Kept (books n (conn.send m, hand)) := by
  have asked := tally_send conn (RpcMessage.asks n) m
  have finished := tally_send conn (RpcMessage.finishes n) m
  constructor
  · show tally (RpcMessage.asks n) (conn.send m).sent + conn.unsent n + _ ≤
      tally (RpcMessage.asks n) conn.sent + conn.unsent n + _
    exact Nat.add_le_add_right (by omega) _
  · show tally (RpcMessage.finishes n) (conn.send m).sent + conn.opened n + _ + _ ≤
      tally (RpcMessage.finishes n) conn.sent + conn.opened n + _ + _
    exact Nat.add_le_add_right (Nat.add_le_add_right (by omega) _) _
  · exact Nat.le_refl _

theorem books_say (conn : Conn) (hand : Hand) (event : Event) (issues : event.issues n = 0) (uses : event.uses n = 0) :
    (books n (conn, hand)).Kept (books n (conn.say event, hand)) := by
  have issued : tally (Event.issues n) (conn.say event).trace = tally (Event.issues n) conn.trace := by
    simp [Conn.say, issues]
  have used : tally (Event.uses n) (conn.say event).trace = tally (Event.uses n) conn.trace := by
    simp [Conn.say, uses]
  have same : books n (conn.say event, hand) = books n (conn, hand) := by
    simp only [books, issued, used]
    rfl
  rw [same]
  exact .refl _

theorem books_sayRejected (conn : Conn) (hand : Hand) (owner : Nat) (reason : String) (calls : List QueuedCall) :
    (books n (conn, hand)).Kept (books n (conn.sayRejected owner reason calls, hand)) := by
  have silent : ∀ count : Event → Nat, (∀ call, count (.callRejected owner call reason) = 0) →
      tally count (conn.sayRejected owner reason calls).trace = tally count conn.trace := by
    intro count none
    rw [Conn.sayRejected, tally_append, Nat.add_eq_left]
    induction calls with
    | nil => rfl
    | cons slot calls ih =>
        cases slot with
        | fromHere call => simp [QueuedCall.rejection, none, ih]
        | remote a call => exact ih
  have same : books n (conn.sayRejected owner reason calls, hand) = books n (conn, hand) := by
    simp only [books]
    rw [silent _ fun _ => rfl, silent _ fun _ => rfl]
    rfl
  rw [same]
  exact .refl _

theorem findQuestion_dropQuestion (conn : Conn) (id n : Nat) :
    (conn.dropQuestion id).findQuestion n = if n = id then none else conn.findQuestion n :=
  find_put _ _ _ _

theorem opened_dropQuestion (conn : Conn) (id n : Nat) :
    (conn.dropQuestion id).opened n = if n = id then 0 else conn.opened n := by
  unfold Conn.opened
  rw [findQuestion_dropQuestion]
  split <;> rfl

theorem unsent_dropQuestion (conn : Conn) (id n : Nat) :
    (conn.dropQuestion id).unsent n = if n = id then 0 else conn.unsent n := by
  unfold Conn.unsent
  rw [findQuestion_dropQuestion]
  split <;> rfl

theorem opened_of_found {q : Nat} (found : conn.findQuestion n = some q) : conn.opened n = 1 := by
  simp [Conn.opened, found]

theorem books_dropQuestion (conn : Conn) (hand : Hand) (id : Nat) :
    (books n (conn, hand)).Kept (books n (conn.dropQuestion id, hand)) := by
  have opened := opened_dropQuestion conn id n
  have unsent := unsent_dropQuestion conn id n
  constructor
  · show _ + (conn.dropQuestion id).unsent n + _ ≤ _ + conn.unsent n + _
    apply Nat.add_le_add_right
    apply Nat.add_le_add_left
    split at unsent <;> omega
  · show _ + (conn.dropQuestion id).opened n + _ + _ ≤ _ + conn.opened n + _ + _
    apply Nat.add_le_add_right
    apply Nat.add_le_add_right
    apply Nat.add_le_add_left
    split at opened <;> omega
  · show _ + (conn.dropQuestion id).opened n + _ ≤ _ + conn.opened n + _
    apply Nat.add_le_add_right
    apply Nat.add_le_add_left
    split at opened <;> omega

theorem books_cancelQuestion (conn : Conn) (hand : Hand) {q p : Nat}
    (isOpen : conn.findQuestion (conn.question q).id = some p) :
    (books n (conn, hand)).Kept (books n (conn.cancelQuestion q, hand)) := by
  let said := conn.say (.questionCanceled (conn.questionId q))
  let finish := newFinishMessage (conn.questionId q) true
  have asked : tally (RpcMessage.asks n) (said.send finish).sent ≤ tally (RpcMessage.asks n) conn.sent + 0 :=
    tally_send said (RpcMessage.asks n) finish
  have finished : tally (RpcMessage.finishes n) (said.send finish).sent ≤
      tally (RpcMessage.finishes n) conn.sent + if (conn.question q).id = n then 1 else 0 :=
    tally_send said (RpcMessage.finishes n) finish
  have issued : tally (Event.issues n) said.trace = tally (Event.issues n) conn.trace := by
    simp [said, Conn.say, Event.issues]
  have used : tally (Event.uses n) said.trace = tally (Event.uses n) conn.trace := by
    simp [said, Conn.say, Event.uses]
  have opened : (conn.cancelQuestion q).opened n = if n = (conn.question q).id then 0 else conn.opened n :=
    opened_dropQuestion conn (conn.question q).id n
  have unsent : (conn.cancelQuestion q).unsent n = if n = (conn.question q).id then 0 else conn.unsent n :=
    unsent_dropQuestion conn (conn.question q).id n
  have sent : (conn.cancelQuestion q).sent = (said.send finish).sent := rfl
  have trace : (conn.cancelQuestion q).trace = said.trace := rfl
  by_cases here : n = (conn.question q).id
  · have wasOpen := opened_of_found isOpen
    rw [← here] at wasOpen
    rw [if_pos here.symm] at finished
    rw [if_pos here] at opened unsent
    constructor <;> simp only [books, sent, trace, issued, used, opened, unsent] <;> omega
  · rw [if_neg (Ne.symm here)] at finished
    rw [if_neg here] at opened unsent
    constructor <;> simp only [books, sent, trace, issued, used, opened, unsent] <;> omega

theorem QuietEffect.books_kept {before after : Conn × Hand} (effect : QuietEffect before after)
    (held : before.1.QuestionsHeld) : (books n before).Kept (books n after) := by
  cases effect with
  | @quiet conn after hand same =>
      have found : after.findQuestion n = conn.findQuestion n := by
        rw [Conn.findQuestion, same.questions]
        rfl
      have opened : after.opened n = conn.opened n := by
        rw [Conn.opened, found]
        rfl
      have unsent : after.unsent n = conn.unsent n := by
        unfold Conn.unsent
        rw [found]
        cases shape : conn.findQuestion n with
        | none => rfl
        | some q =>
            have started : (after.question q).started = (conn.question q).started :=
              congrArg (fun core => core.2.2.2) (same.question q (held n q shape).2)
            simp [started]
      have kept : books n (after, hand) = books n (conn, hand) := by
        simp only [books, opened, unsent, same.sent, same.trace]
      rw [kept]
      exact .refl _
  | @forget conn hand less fewer =>
      have taken : less.taken.elim 0 (WireId.counts n) ≤ hand.taken.elim 0 (WireId.counts n) := by
        rcases fewer.taken with same | dropped
        · exact Nat.le_of_eq (by rw [same])
        · rw [dropped]
          exact Nat.zero_le _
      constructor <;> simp only [books] <;> omega

theorem books_takeReturn (conn : Conn) (hand taking : Hand) {id : WireId} {q : Nat}
    (isOpen : conn.findQuestion id.id = some q) (took : taking.taken = some ⟨id.id, q⟩) :
    (books n (conn, hand)).Kept (books n ((conn.dropQuestion id.id).say (.returnUsed q id), taking)) := by
  let after := (conn.dropQuestion id.id).say (.returnUsed q id)
  have issued : tally (Event.issues n) after.trace = tally (Event.issues n) conn.trace := by
    simp [after, Conn.say, Conn.dropQuestion, Conn.setQuestionSlot, Event.issues]
  have used : tally (Event.uses n) after.trace =
      tally (Event.uses n) conn.trace + if id.id = n then 1 else 0 := by
    simp [after, Conn.say, Conn.dropQuestion, Conn.setQuestionSlot, Event.uses, WireId.counts]
  have opened : after.opened n = if n = id.id then 0 else conn.opened n := opened_dropQuestion conn id.id n
  have unsent : after.unsent n = if n = id.id then 0 else conn.unsent n := unsent_dropQuestion conn id.id n
  have sent : after.sent = conn.sent := rfl
  have taken : taking.taken.elim 0 (WireId.counts n) = if id.id = n then 1 else 0 := by
    rw [took]
    rfl
  by_cases here : n = id.id
  · have wasOpen := opened_of_found isOpen
    rw [← here] at wasOpen
    rw [if_pos here.symm] at used taken
    rw [if_pos here] at opened unsent
    constructor <;> simp only [books] <;> rw [show (conn.dropQuestion id.id).say (.returnUsed q id) = after from rfl] <;>
      simp only [sent, issued, used, opened, unsent, taken] <;> omega
  · rw [if_neg (Ne.symm here)] at used taken
    rw [if_neg here] at opened unsent
    constructor <;> simp only [books] <;> rw [show (conn.dropQuestion id.id).say (.returnUsed q id) = after from rfl] <;>
      simp only [sent, issued, used, opened, unsent, taken] <;> omega

theorem books_issueQuestion (conn : Conn) (hand : Hand) (method : Option Method) (held : conn.QuestionsHeld) :
    (books n (conn, hand)).Kept (books n (conn.issueQuestion method, hand)) := by
  let id := conn.questionID.next.1
  have issued : tally (Event.issues n) (conn.issueQuestion method).trace =
      tally (Event.issues n) conn.trace + if id = n then 1 else 0 := by
    show tally (Event.issues n) (conn.trace ++ [_]) = _
    simp [Event.issues, WireId.counts, id]
  have used : tally (Event.uses n) (conn.issueQuestion method).trace = tally (Event.uses n) conn.trace := by
    show tally (Event.uses n) (conn.trace ++ [_]) = _
    simp [Event.uses]
  have sent : (conn.issueQuestion method).sent = conn.sent := rfl
  have found : (conn.issueQuestion method).findQuestion n = if n = id then some conn.objects else conn.findQuestion n :=
    find_put _ _ _ _
  by_cases here : n = id
  · have opened : (conn.issueQuestion method).opened n ≤ 1 := by
      rw [Conn.opened, found, if_pos here]
      exact Nat.le_refl _
    have unsent : (conn.issueQuestion method).unsent n ≤ 1 := by
      rw [Conn.unsent, found, if_pos here]
      dsimp only [Option.elim_some]
      split <;> omega
    rw [if_pos here.symm] at issued
    constructor <;> simp only [books, sent, issued, used] <;> omega
  · have opened : (conn.issueQuestion method).opened n = conn.opened n := by
      rw [Conn.opened, found, if_neg here]
      rfl
    have unsent : (conn.issueQuestion method).unsent n = conn.unsent n := by
      rw [Conn.unsent, found, if_neg here]
      cases shape : conn.findQuestion n with
      | none => simp [Conn.unsent, shape]
      | some q =>
          have other : q ≠ conn.objects := Nat.ne_of_lt (held n q shape).2
          simp [Conn.unsent, shape, Conn.issueQuestion, Conn.say, Conn.allocated, Conn.alterQuestion,
            Conn.setQuestionSlot, other]
    rw [if_neg (Ne.symm here)] at issued
    constructor <;> simp only [books, sent, issued, used, opened, unsent] <;> omega

theorem books_ask (conn : Conn) (hand : Hand) {id : WireId} {m : RpcMessage} {after : Conn}
    (isOpen : conn.findQuestion id.id = some id.object) (unsent : (conn.question id.object).started = false)
    (asks : m.question = some id) (finishes : m.finishes n = 0) (sent : after.sent = (conn.send m).sent)
    (trace : after.trace = conn.trace) (questions : after.questions = conn.questions)
    (started : ∀ q, (after.question q).started = if q = id.object then true else (conn.question q).started) :
    (books n (conn, hand)).Kept (books n (after, hand)) := by
  have asked := tally_send conn (RpcMessage.asks n) m
  have finished := tally_send conn (RpcMessage.finishes n) m
  have one : m.asks n = if id.id = n then 1 else 0 := by
    simp [RpcMessage.asks, asks, WireId.counts]
  have found : after.findQuestion n = conn.findQuestion n := by
    rw [Conn.findQuestion, questions]
    rfl
  have opened : after.opened n = conn.opened n := by
    rw [Conn.opened, found]
    rfl
  have fewer : after.unsent n ≤ conn.unsent n := by
    unfold Conn.unsent
    rw [found]
    cases conn.findQuestion n with
    | none => exact Nat.le_refl _
    | some q =>
        simp only [Option.elim_some, started]
        by_cases same : q = id.object
        · simp [same]
        · simp [same]
  rw [one] at asked
  rw [finishes] at finished
  by_cases here : id.id = n
  · have was : conn.unsent n = 1 := by
      rw [← here]
      simp [Conn.unsent, isOpen, unsent]
    have is : after.unsent n = 0 := by
      rw [Conn.unsent, found, ← here, isOpen]
      simp [started]
    rw [if_pos here] at asked
    constructor <;> simp only [books, sent, trace, opened] <;> omega
  · rw [if_neg here] at asked
    constructor <;> simp only [books, sent, trace, opened] <;> omega

theorem books_finish (conn : Conn) (hand : Hand) {taken : WireId} (release : Bool) (took : hand.taken = some taken) :
    (books n (conn, hand)).Kept
      (books n (conn.send (newFinishMessage taken release), { hand with taken := none })) := by
  have asked := tally_send conn (RpcMessage.asks n) (newFinishMessage taken release)
  have finished := tally_send conn (RpcMessage.finishes n) (newFinishMessage taken release)
  have silent : (newFinishMessage taken release).asks n = 0 := rfl
  have one : (newFinishMessage taken release).finishes n = taken.counts n := rfl
  have had : hand.taken.elim 0 (WireId.counts n) = taken.counts n := by
    rw [took]
    rfl
  have opened : (conn.send (newFinishMessage taken release)).opened n = conn.opened n := rfl
  have unsent : (conn.send (newFinishMessage taken release)).unsent n = conn.unsent n := rfl
  have trace : (conn.send (newFinishMessage taken release)).trace = conn.trace := rfl
  constructor <;> simp only [books, trace, opened, unsent, had, Option.elim_none] <;> omega

theorem RpcMessage.isNotice_plain {m : RpcMessage} (plain : m.isNotice) : m.asks n = 0 ∧ m.finishes n = 0 := by
  cases m with
  | bootstrap => cases plain
  | call => cases plain
  | finish => cases plain
  | _ => exact ⟨rfl, rfl⟩

theorem CloseEffect.books_kept {before after : Conn × Hand} (effect : CloseEffect before after)
    (held : before.1.QuestionsHeld) : (books n before).Kept (books n after) := by
  cases effect with
  | quiet effect => exact effect.books_kept held
  | cancel q isOpen => exact books_cancelQuestion _ _ isOpen
  | abandon q isOpen unsent => exact books_dropQuestion _ _ _
  | reject reason owed => exact books_send _ _ (m := .ret _ _ _ _) rfl rfl
  | @release conn hand id entry found counted =>
      exact books_send (conn.setImport id none) hand (m := newReleaseMessage ⟨id, entry.origin⟩ entry.refs) rfl rfl
  | rejectHere owner reason calls => exact books_sayRejected _ _ owner reason calls
  | @closeImport conn hand id c client reason found closed =>
      exact books_sayRejected (conn.setClient id client) hand id reason c.embargoQueue
  | _ => exact .refl _

theorem DescribeEffect.books_kept {before after : Conn × Hand} (effect : DescribeEffect before after)
    (held : before.1.QuestionsHeld) : (books n before).Kept (books n after) := by
  cases effect with
  | quiet effect => exact effect.books_kept held
  | mention found => exact books_say _ _ _ rfl rfl
  | create made free =>
      rw [Conn.withExport_eq]
      exact .refl _
  | promise question transform free =>
      rw [Conn.withPromise_eq]
      exact .refl _
  | exported current number found sameExport origin => exact books_say _ _ _ rfl rfl
  | _ => exact .refl _

theorem Effect.books_kept {before after : Conn × Hand} (effect : Effect before after)
    (held : before.1.QuestionsHeld) : (books n before).Kept (books n after) := by
  cases effect with
  | close effect => exact effect.books_kept held
  | describe effect => exact effect.books_kept held
  | issue method => exact books_issueQuestion _ _ method held
  | unissue isOpen unsent => exact books_dropQuestion _ _ _
  | @ask conn hand id target rest method params isOpen unsent =>
      refine books_ask conn hand (m := .call id target method .caller params) isOpen unsent rfl rfl rfl rfl rfl ?_
      intro q
      by_cases same : q = id.object
      · simp [Conn.askQuestion, Conn.alterQuestion, same]
      · simp [Conn.askQuestion, Conn.alterQuestion, Conn.send, same]
  | @bootstrap conn hand id isOpen unsent =>
      refine books_ask conn hand (m := .bootstrap id) isOpen unsent rfl rfl rfl rfl rfl ?_
      intro q
      by_cases same : q = id.object
      · simp [Conn.askBootstrap, Conn.alterQuestion, same]
      · simp [Conn.askBootstrap, Conn.alterQuestion, Conn.send, same]
  | newImport isPromise unknown given =>
      rw [Conn.withImport_eq]
      exact .refl _
  | discard given => exact books_send _ _ (m := newReleaseMessage _ 1) rfl rfl
  | @forgetAnswer conn hand id target method sendResultsTo params a reason =>
      exact (books_say (conn.setAnswerSlot id.id none) hand (.callRefused id params.capTable) rfl rfl).trans
        (books_send _ _ (m := newReturnMessage id _) rfl rfl)
  | @refuse conn hand id target method sendResultsTo params reason =>
      exact (books_say conn hand (.callRefused id params.capTable) rfl rfl).trans
        (books_send _ _ (m := newReturnMessage id _) rfl rfl)
  | refuseBootstrap reason asked => exact books_send _ _ (m := newReturnMessage _ _) rfl rfl
  | results owed same prepared => exact books_send _ _ (m := .ret _ _ _ _) rfl rfl
  | elsewhere owed => exact books_send _ _ (m := .ret _ _ _ _) rfl rfl
  | takeReturn returned isOpen => exact books_takeReturn _ _ _ isOpen rfl
  | finish returned took => exact books_finish _ _ _ took
  | releaseFailed releasing => exact books_say _ _ _ rfl rfl
  | @resolve conn hand promise resolution rest =>
      exact (books_say conn hand (.promiseResolved promise _ _) rfl rfl).trans
        (books_send _ _ (m := .resolve promise.id resolution) rfl rfl)
  | notice plain => exact books_send _ _ (RpcMessage.isNotice_plain plain).1 (RpcMessage.isNotice_plain plain).2
  | embargo target client => exact books_send _ _ (m := .disembargo _ _) rfl rfl
  | abort violated isOpen => exact books_say _ _ _ rfl rfl
  | clearQuestion closed isOpen => exact books_dropQuestion _ _ _
  | _ => exact .refl _

theorem Effect.questionsHeld {before after : Conn × Hand} (effect : Effect before after)
    (held : before.1.QuestionsHeld) : after.1.QuestionsHeld := by
  have grows := effect.objects_le
  have old : ∀ id q, before.1.findQuestion id = some q → (after.1.question q).id = id ∧ q < after.1.objects := by
    intro id q found
    obtain ⟨number, made⟩ := held id q found
    rw [effect.question_id made]
    exact ⟨number, Nat.lt_of_lt_of_le made grows⟩
  intro id q found
  unfold Conn.findQuestion at found
  cases effect.questionChange with
  | same gen slots =>
      rw [slots] at found
      exact old id q found
  | issue gen slots question made =>
      rw [slots, find_put] at found
      split at found
      · rename_i here
        cases found
        rw [here]
        exact ⟨question, made⟩
      · exact old id q found
  | drop isOpen gen slots =>
      rw [slots, find_put] at found
      split at found
      · cases found
      · exact old id q found

theorem books_reached {before after : Conn × Hand} (steps : ReflTransGen Effect before after)
    (held : before.1.QuestionsHeld) : after.1.QuestionsHeld ∧ (books n before).Kept (books n after) := by
  induction steps with
  | refl => exact ⟨held, .refl _⟩
  | tail _ effect ih =>
      obtain ⟨later, kept⟩ := ih
      exact ⟨effect.questionsHeld later, kept.trans (effect.books_kept later)⟩

def doings (_ : Conn) (_ : Input) (after : Conn) : List (RpcMessage ⊕ Event) :=
  after.sent.map .inl ++ after.trace.map .inr

theorem tally_doings (ofMessage : RpcMessage → Nat) (ofEvent : Event → Nat) (conn : Conn) (input : Input)
    (after : Conn) : tally (Sum.elim ofMessage ofEvent) (doings conn input after) =
      tally ofMessage after.sent + tally ofEvent after.trace := by
  rw [doings, tally_append, tally_map, tally_map]
  rfl

theorem tally_zero {ω : Type} (record : List ω) : tally (fun _ => 0) record = 0 :=
  tally_eq_zero fun _ _ => rfl

/-- What a step asks, finishes and uses it has issued, or could ask, finish and use before. -/
structure StepBooks (conn : Conn) (n : Nat) (after : Conn) : Prop where
  asked : tally (RpcMessage.asks n) after.sent + after.unsent n ≤ tally (Event.issues n) after.trace + conn.unsent n
  finished : tally (RpcMessage.finishes n) after.sent + after.opened n ≤
    tally (Event.issues n) after.trace + conn.opened n
  used : tally (Event.uses n) after.trace + after.opened n ≤ tally (Event.issues n) after.trace + conn.opened n

theorem Conn.step_books {input : Input} {after : Conn} (wellFormed : conn.WellFormed) (held : conn.QuestionsHeld)
    (taken : conn.step input = some after) : after.QuestionsHeld ∧ StepBooks conn n after := by
  obtain ⟨⟨left, steps, _⟩, _⟩ := conn.step_effects wellFormed taken
  obtain ⟨later, kept⟩ := books_reached (n := n) steps held
  have started : books n (conn.fresh, input.hand) = ⟨0, 0, 0, 0, conn.unsent n, conn.opened n, 0⟩ := by
    cases input <;> rfl
  rw [started] at kept
  obtain ⟨asked, finished, used⟩ := kept
  refine ⟨later, ?_⟩
  constructor <;> simp only [books] at asked finished used <;> omega

/-- Between the steps: the connection is well formed and its questions have their numbers. -/
structure Conn.Asking (conn : Conn) : Prop where
  wellFormed : conn.WellFormed
  held : conn.QuestionsHeld

theorem Conn.asking_initial (registry : Nat → Option (List Method)) (stack : Nat) :
    Conn.Asking { registry := registry, stack := stack } where
  wellFormed := .initial registry stack
  held := by
    intro id q found
    simp [Conn.findQuestion] at found

theorem Conn.Asking.step {input : Input} {after : Conn} (asking : conn.Asking)
    (taken : conn.step input = some after) : after.Asking where
  wellFormed := (conn.step_effects asking.wellFormed taken).wellFormed
  held := (conn.step_books (n := 0) asking.wellFormed asking.held taken).1

def issued (n : Nat) (record : List (RpcMessage ⊕ Event)) : Nat := tally (Sum.elim (fun _ => 0) (Event.issues n)) record

theorem spent_le_issued {registry : Nat → Option (List Method)} {stack : Nat} {state : Conn}
    {record : List (RpcMessage ⊕ Event)} (recording : Recording Conn.step doings (fun _ _ _ => True)
      { registry := registry, stack := stack } state record) (stock : Conn → Nat)
    (ofMessage : RpcMessage → Nat) (ofEvent : Event → Nat)
    (empty : stock { registry := registry, stack := stack } = 0)
    (kept : ∀ before input after, before.Asking → before.step input = some after →
      tally ofMessage after.sent + tally ofEvent after.trace + stock after ≤
        tally (Event.issues n) after.trace + stock before) :
    tally (Sum.elim ofMessage ofEvent) record ≤ issued n record := by
  have balance := recording.balanced Conn.Asking stock (Sum.elim ofMessage ofEvent)
    (Sum.elim (fun _ => 0) (Event.issues n)) (Conn.asking_initial registry stack) (by
      intro before input after asking taken _
      refine ⟨asking.step taken, ?_⟩
      rw [tally_doings, tally_doings, tally_zero, Nat.zero_add]
      exact kept before input after asking taken)
  unfold issued
  omega

/-- Whatever a peer sends, a question is asked at most once, finished at most once, and takes at most one Return: of
every number no more than there are questions issued under it. -/
theorem questions_once_of_run {registry : Nat → Option (List Method)} {stack : Nat} {state : Conn}
    {record : List (RpcMessage ⊕ Event)} (recording : Recording Conn.step doings (fun _ _ _ => True)
      { registry := registry, stack := stack } state record) (n : Nat) :
    tally (Sum.elim (RpcMessage.asks n) fun _ => 0) record ≤ issued n record ∧
    tally (Sum.elim (RpcMessage.finishes n) fun _ => 0) record ≤ issued n record ∧
    tally (Sum.elim (fun _ => 0) (Event.uses n)) record ≤ issued n record := by
  refine ⟨?_, ?_, ?_⟩
  · refine spent_le_issued recording (fun conn => conn.unsent n) _ _ rfl ?_
    intro before input after asking taken
    rw [tally_zero, Nat.add_zero]
    exact (before.step_books asking.wellFormed asking.held taken).2.asked
  · refine spent_le_issued recording (fun conn => conn.opened n) _ _ rfl ?_
    intro before input after asking taken
    rw [tally_zero, Nat.add_zero]
    exact (before.step_books asking.wellFormed asking.held taken).2.finished
  · refine spent_le_issued recording (fun conn => conn.opened n) _ _ rfl ?_
    intro before input after asking taken
    rw [tally_zero, Nat.zero_add]
    exact (before.step_books asking.wellFormed asking.held taken).2.used

/-- A question that is asked, answered and finished. -/
theorem questions_once_of_run_answered :
    ∃ state record, Run.follow (recorded Conn.step doings) ({ registry := fun _ => none }, [])
        [.act .bootstrap, .receive (.ret ⟨0, 0⟩ false false (.exception "none"))] = some (state, record) ∧
      issued 0 record = 1 ∧ tally (Sum.elim (RpcMessage.finishes 0) fun _ => 0) record = 1 ∧
      (tally (Sum.elim (RpcMessage.asks 0) fun _ => 0) record ≤ issued 0 record ∧
        tally (Sum.elim (RpcMessage.finishes 0) fun _ => 0) record ≤ issued 0 record ∧
        tally (Sum.elim (fun _ => 0) (Event.uses 0)) record ≤ issued 0 record) := by
  have counts : (Run.follow (recorded Conn.step doings) ({ registry := fun _ => none }, [])
      [.act .bootstrap, .receive (.ret ⟨0, 0⟩ false false (.exception "none"))]).map (fun reached =>
        (issued 0 reached.2, tally (Sum.elim (RpcMessage.finishes 0) fun _ => 0) reached.2)) = some (1, 1) := by
    decide +kernel
  obtain ⟨⟨state, record⟩, followed, once⟩ := Option.map_eq_some_iff.mp counts
  have recording : Recording Conn.step doings (fun _ _ _ => True) { registry := fun _ => none } state record :=
    Run.of_follow .start followed
  exact ⟨state, record, followed, congrArg Prod.fst once, congrArg Prod.snd once, questions_once_of_run recording 0⟩

end CapnpEs.Rpc
