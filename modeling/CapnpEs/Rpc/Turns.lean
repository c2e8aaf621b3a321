import CapnpEs.Rpc.Closing
import Mathlib.Data.Set.Insert

/-! What a connection does to its questions, one turn at a time, and the changes that are no turn at all. -/

namespace CapnpEs.Rpc

open Outcome Relation SlotTable

/-- What a program may do besides settling and giving up what is there. -/
inductive Power
  | ask
  | read
  | adopt
  | shut

/-- What of a question says whose it is and how it ended. -/
def Question.standing (question : Question) : (Bool × Nat × Bool) × QuestionState × Option Struct × Option String :=
  ((question.own, question.id, question.started), question.state, question.obj, question.err)

def AnswerEntry.standing (entry : AnswerEntry) : WireId × Bool × Option Struct × Option String :=
  (entry.id, entry.done, entry.obj, entry.err)

/-- A client that takes the place of another: no new pipeline, and no import that opens unless one is adopted. -/
structure Client.Follows (P : Set Power) (before after : Client) : Prop where
  pipeline : ∀ q transform, after = .pipeline q transform → before = .pipeline q transform
  opens : Power.adopt ∉ P → ∀ id, after.core = .importClient { id := id } → before.core = .importClient { id := id }

def RpcMessage.isReturn : RpcMessage → Bool
  | .ret _ _ _ _ => true
  | _ => false

def Conn.replies (conn : Conn) : List RpcMessage := conn.sent.filter RpcMessage.isReturn

/-- A change that no question, answer or waiter takes notice of. -/
structure Idle (P : Set Power) (before after : Conn) : Prop where
  objects : before.objects ≤ after.objects
  questionID : after.questionID = before.questionID
  questions : after.questions = before.questions
  answers : after.answers = before.answers
  waiters : after.tailAnswerWaiters = before.tailAnswerWaiters
  imports : Power.adopt ∉ P → ∀ id, find before.imports id = none → find after.imports id = none
  closed : after.closed = before.closed
  working : after.working = before.working
  receiving : after.receiving = before.receiving
  transport : after.transportClosed = before.transportClosed
  stack : after.stack = before.stack
  replies : after.replies = before.replies
  question : ∀ q, (after.question q).standing = (before.question q).standing
  answer : ∀ a, (after.answer a).standing = (before.answer a).standing
  deferred : ∀ a, (after.answer a).deferred = (before.answer a).deferred
  client : ∀ i, (before.client i).Follows P (after.client i)

section Idle

variable {P : Set Power} {conn : Conn}

theorem Client.Follows.refl (client : Client) : client.Follows P client :=
  ⟨fun _ _ same => same, fun _ _ isOpen => isOpen⟩

theorem Client.Follows.trans {first second third : Client} (sooner : first.Follows P second)
    (later : second.Follows P third) : first.Follows P third :=
  ⟨fun q transform same => sooner.pipeline q transform (later.pipeline q transform same),
    fun no id isOpen => sooner.opens no id (later.opens no id isOpen)⟩

/-- A client that stands for no question and no open import. -/
def Client.isPlain : Client → Bool
  | .pipeline _ _ => false
  | .importClient c => c.closed
  | _ => true

theorem Client.follows_plain {client : Client} (plain : client.isPlain = true) (before : Client) :
    before.Follows P client := by
  constructor
  · rintro q transform rfl
    cases plain
  · intro _ id isOpen
    obtain ⟨c, rfl, _, unclosed⟩ := Client.core_importClient (c := { id := id }) isOpen
    cases plain.symm.trans unclosed

theorem Client.follows_of_core {before after : Client} (same : after.core = before.core) :
    before.Follows P after := by
  constructor
  · rintro q transform rfl
    cases before with
    | pipeline q' transform' => exact same.symm
    | _ => cases same
  · intro _ id isOpen
    rw [← same]
    exact isOpen

namespace Idle

theorem refl (conn : Conn) : Idle P conn conn where
  objects := Nat.le_refl _
  questionID := rfl
  questions := rfl
  answers := rfl
  waiters := rfl
  imports _ _ none := none
  closed := rfl
  working := rfl
  receiving := rfl
  transport := rfl
  stack := rfl
  replies := rfl
  question _ := rfl
  answer _ := rfl
  deferred _ := rfl
  client _ := .refl _

theorem trans {first second third : Conn} (sooner : Idle P first second) (later : Idle P second third) :
    Idle P first third where
  objects := Nat.le_trans sooner.objects later.objects
  questionID := later.questionID.trans sooner.questionID
  questions := later.questions.trans sooner.questions
  answers := later.answers.trans sooner.answers
  waiters := later.waiters.trans sooner.waiters
  imports no id none := later.imports no id (sooner.imports no id none)
  closed := later.closed.trans sooner.closed
  working := later.working.trans sooner.working
  receiving := later.receiving.trans sooner.receiving
  transport := later.transport.trans sooner.transport
  stack := later.stack.trans sooner.stack
  replies := later.replies.trans sooner.replies
  question q := (later.question q).trans (sooner.question q)
  answer a := (later.answer a).trans (sooner.answer a)
  deferred a := (later.deferred a).trans (sooner.deferred a)
  client i := (sooner.client i).trans (later.client i)

instance : IsPreorder Conn (Idle P) where
  refl := refl
  trans _ _ _ := trans

theorem alterQuestion (conn : Conn) (q : Nat) {change : Question → Question}
    (same : (change (conn.question q)).standing = (conn.question q).standing) :
    Idle P conn (conn.alterQuestion q change) := by
  refine { refl conn with question := ?_ }
  intro other
  by_cases here : other = q
  · subst here
    simpa [Conn.alterQuestion] using same
  · simp [Conn.alterQuestion, here]

theorem alterAnswer (conn : Conn) (a : Nat) {change : AnswerEntry → AnswerEntry}
    (same : (change (conn.answer a)).standing = (conn.answer a).standing)
    (deferred : (change (conn.answer a)).deferred = (conn.answer a).deferred) :
    Idle P conn (conn.alterAnswer a change) := by
  refine { refl conn with answer := ?_, deferred := ?_ }
  · intro other
    by_cases here : other = a
    · subst here
      simpa [Conn.alterAnswer] using same
    · simp [Conn.alterAnswer, here]
  · intro other
    by_cases here : other = a
    · subst here
      simpa [Conn.alterAnswer] using deferred
    · simp [Conn.alterAnswer, here]

theorem setClient (conn : Conn) (id : Nat) {client : Client} (follows : (conn.client id).Follows P client) :
    Idle P conn (conn.setClient id client) := by
  refine { refl (P := P) conn with client := ?_ }
  intro other
  by_cases here : other = id
  · subst here
    simpa [Conn.setClient] using follows
  · have same : (conn.setClient id client).client other = conn.client other := by simp [Conn.setClient, here]
    rw [same]
    exact .refl _

theorem allocated (conn : Conn) : Idle P conn conn.allocated :=
  { refl conn with objects := Nat.le_succ _ }

theorem withClient (conn : Conn) {client : Client} (plain : client.isPlain = true) :
    Idle P conn (conn.withClient client) :=
  (setClient conn conn.objects (Client.follows_plain plain _)).trans (allocated _)

theorem send (conn : Conn) {message : RpcMessage} (plain : message.isReturn = false) :
    Idle P conn (conn.send message) := by
  refine { refl conn with replies := ?_ }
  unfold Conn.replies Conn.send
  dsimp only
  split
  · rfl
  · rw [List.filter_append, List.filter_singleton, plain]
    exact List.append_nil _

theorem of_eq {before after : Conn} (same : after = { before with
    exportID := after.exportID, exports := after.exports, disembargoID := after.disembargoID,
    disembargoes := after.disembargoes, exportPromises := after.exportPromises,
    exportPromiseIndex := after.exportPromiseIndex, main := after.main, continuations := after.continuations,
    refCount := after.refCount, capTable := after.capTable, trace := after.trace }) : Idle P before after := by
  rw [same]
  exact { refl before with }

theorem setImport (conn : Conn) (id : Nat) {slot : Option ImportEntry}
    (known : Power.adopt ∈ P ∨ slot = none ∨ find conn.imports id ≠ none) : Idle P conn (conn.setImport id slot) := by
  refine { refl conn with imports := ?_ }
  intro cannot other none
  rw [Conn.setImport, find_put]
  split
  · rename_i same
    subst same
    rcases known with can | gone | held
    · exact absurd can cannot
    · exact gone
    · exact absurd none held
  · exact none

end Idle

theorem emit_idle (event : Event) : Moves (Idle P) (emit event) := Moves.modify fun _ => .of_eq rfl

theorem sendMessage_idle {message : RpcMessage} (plain : message.isReturn = false) :
    Moves (Idle P) (sendMessage message) :=
  Moves.modify fun conn => .send conn plain

theorem newClient_idle {client : Client} (plain : client.isPlain = true) : Moves (Idle P) (newClient client) :=
  Moves.modifyGet fun conn => .withClient conn plain

theorem findClient_idle (struct : Struct) (transform : Transform) : Moves (Idle P) (findClient struct transform) := by
  apply Moves.get
  intro conn
  cases struct.content.capIndex transform with
  | error reason => exact Moves.throw _ conn
  | ok capId =>
      dsimp only
      cases capId.bind (conn.slot struct) with
      | some client => exact Moves.pure _ conn
      | none => exact newClient_idle rfl conn

theorem clientFromResolution_idle (transform : Transform) (obj : Option Struct) (err : Option String) :
    Moves (Idle P) (clientFromResolution transform obj err) := by
  cases err with
  | some reason => exact newClient_idle rfl
  | none =>
      cases obj with
      | none => exact newClient_idle rfl
      | some struct => exact findClient_idle struct transform

theorem refCountNew_idle (client : Nat) : Moves (Idle P) (RefCount.new client) := by
  apply Moves.bind
  · exact Moves.modifyGet fun conn => (Idle.of_eq (by rfl)).trans (.allocated _)
  · intro rc
    apply Moves.bind (newClient_idle rfl)
    intro ref
    exact Moves.pure _

theorem createExport_idle (client : Nat) : Moves (Idle P) (createExport client) := by
  apply Moves.get
  intro conn
  apply Moves.follow
  · exact Idle.of_eq rfl
  · intro _
    apply Moves.bind (refCountNew_idle client)
    intro made
    apply Moves.bind (Moves.modify fun conn => .of_eq rfl)
    intro _
    exact Moves.pure _

theorem addExport_idle (client : Nat) : Moves (Idle P) (addExport client) := by
  apply Moves.get
  intro conn
  cases conn.exportOf client with
  | none => exact createExport_idle client conn
  | some i =>
      dsimp only
      cases conn.findExport i with
      | none => exact createExport_idle client conn
      | some e =>
          apply Moves.follow
          · exact Idle.of_eq rfl
          · exact fun _ => Moves.pure _

theorem newExportPromise_idle (question : Nat) (transform : Transform) :
    Moves (Idle P) (newExportPromise question transform) := by
  apply Moves.bind (newClient_idle rfl)
  intro client
  apply Moves.bind (addExport_idle client)
  intro id
  apply Moves.bind (Moves.modify fun conn => .of_eq rfl)
  intro _
  apply Moves.get
  intro conn
  split
  · exact Moves.pure _ conn
  · apply Moves.follow
    · exact Idle.of_eq rfl
    · exact fun _ => Moves.pure _

theorem addExportPromise_idle (question : Nat) (transform : Transform) :
    Moves (Idle P) (addExportPromise question transform) := by
  apply Moves.get
  intro before
  have describes : Moves (Idle P) (indexedExportPromise question transform) := by
    apply Moves.get
    intro conn
    cases conn.exportPromiseIndex question transform with
    | none => exact newExportPromise_idle question transform conn
    | some id =>
        dsimp only
        cases conn.findExport id.id with
        | some e =>
            apply Moves.follow
            · exact Idle.of_eq rfl
            · exact fun _ => Moves.pure _
        | none =>
            apply Moves.follow
            · exact Idle.of_eq rfl
            · exact fun _ => newExportPromise_idle question transform
  apply Moves.follow (describes before)
  intro id
  apply Moves.get
  intro conn
  exact Moves.bind (emit_idle _) (fun _ => Moves.pure _) conn

theorem dig_idle (fuel client : Nat) : Moves (Idle P) (dig fuel client) := by
  induction fuel generalizing client with
  | zero => exact Moves.throw _
  | succ fuel ih =>
      apply Moves.get
      intro conn
      cases conn.client client with
      | importClient c => exact Moves.bind (emit_idle _) (fun _ => Moves.pure _) conn
      | ref rc closed => exact ih _ conn
      | fixedPipeline answer transform =>
          have follows : Moves (Idle P) (clientFromFixed transform answer) := by
            cases answer with
            | ok struct => exact clientFromResolution_idle transform (some struct) none
            | error reason => exact clientFromResolution_idle transform none (some reason)
          exact Moves.bind follows ih conn
      | pipeline q transform =>
          dsimp only
          split
          · split
            · exact Moves.pure _ conn
            · exact Moves.bind (addExportPromise_idle q transform) (fun _ => Moves.pure _) conn
          · exact Moves.bind (clientFromResolution_idle transform _ _) ih conn
      | _ => exact Moves.pure _ conn

theorem descriptorForClient_idle (client : Nat) : Moves (Idle P) (descriptorForClient client) := by
  apply Moves.get
  intro conn
  apply Moves.follow (dig_idle conn.stack client conn)
  intro found
  cases found with
  | some descriptor => exact Moves.pure _
  | none => exact Moves.bind (addExport_idle client) fun _ => Moves.pure _

theorem makeCapTable_idle (table : List (Option Nat)) : Moves (Idle P) (makeCapTable table) := by
  induction table with
  | nil => exact Moves.pure _
  | cons slot table ih =>
      apply Moves.bind
      · cases slot with
        | none => exact Moves.pure _
        | some client => exact descriptorForClient_idle client
      · intro first
        exact Moves.bind ih fun _ => Moves.pure _

theorem setContent_idle (struct : Struct) : Moves (Idle P) (setContent struct) := by
  apply Moves.get
  intro conn
  cases struct.content.copyFault 0 with
  | some reason => exact Moves.throw _ conn
  | none => exact Moves.pure _ conn

theorem readContent_idle (content : Content) : Moves (Idle P) (readContent content) := by
  unfold readContent
  cases content.readFault 0 with
  | some reason => exact Moves.throw _
  | none => exact Moves.pure _

theorem fillParams_idle (call : Call) : Moves (Idle P) (fillParams call) := by
  apply Moves.bind (setContent_idle call.params)
  intro content
  apply Moves.get
  intro conn
  exact Moves.bind (makeCapTable_idle _) (fun _ => Moves.pure _) conn

theorem releaseImportAll_idle (id : Nat) : Moves (Idle P) (releaseImportAll id) := by
  apply Moves.get
  intro conn
  cases find conn.imports id with
  | none => exact Moves.pure _ conn
  | some entry =>
      apply Moves.get
      intro conn
      cases found : find conn.imports id with
      | none => exact Moves.pure _ conn
      | some entry =>
          dsimp only
          split
          · exact Moves.pure _ conn
          · split
            · exact Idle.setImport conn id (Or.inr (Or.inr (by simp [found])))
            · have clears : Moves (Idle P) (clearDisembargo (conn.refCount entry.rc).client) := by
                apply Moves.modify
                intro conn
                unfold Conn.clearDisembargo
                generalize List.range conn.disembargoes.length = ids
                induction ids generalizing conn with
                | nil => exact .refl conn
                | cons id ids ih =>
                    rw [List.foldl_cons]
                    refine Idle.trans ?_ (ih _)
                    unfold Conn.clearDisembargoAt
                    split
                    · exact .of_eq rfl
                    · exact .refl conn
              apply Moves.follow (clears conn)
              intro _
              apply Moves.bind (Moves.modify fun conn => .setImport conn id (Or.inr (Or.inl rfl)))
              intro _
              split
              · exact sendMessage_idle rfl
              · exact Moves.pure _

theorem joinAnswer_idle (a : Nat) (answer : Answer) : Moves (Idle P) (joinAnswer a answer) :=
  Moves.modify fun conn => .alterAnswer conn a rfl rfl

theorem Client.setCalls_follows (client : Client) (calls : List QueuedCall) : client.Follows P (client.setCalls calls) := by
  apply Client.follows_of_core
  cases client with
  | _ => rfl

theorem pushCall_idle (owner : Nat) (call : Call) : Moves (Idle P) (pushCall owner call) := by
  apply Moves.get
  intro conn
  dsimp only
  split
  · apply Moves.follow
    · exact Idle.setClient conn owner (Client.setCalls_follows _ _)
    · exact fun _ => Moves.pure _
  · exact Moves.pure _ conn

theorem popCall_idle (owner : Nat) : Moves (Idle P) (popCall owner) :=
  Moves.modify fun conn => .setClient conn owner (Client.setCalls_follows _ _)

end Idle

def Conn.leave (conn : Conn) (q : Nat) : Conn :=
  if (conn.findQuestion (conn.question q).id).isSome then conn.dropQuestion (conn.question q).id else conn

def Conn.Known (conn : Conn) (q : Nat) : Prop :=
  (conn.question q).started = true ∨ ∃ i transform, conn.client i = .pipeline q transform

def Conn.Outlet (conn : Conn) : Prop :=
  (∃ i id, (conn.client i).core = .importClient { id := id }) ∨ ∃ id q, conn.findQuestion id = some q

/-- What a call does to the questions of a connection, one change at a time. -/
inductive Ask (P : Set Power) : Conn → Conn → Prop
  | idle {before after : Conn} (same : Idle P before after) : Ask P before after
  | issue {conn : Conn} (method : Option Method) (can : Power.ask ∈ P) (outlet : conn.Outlet) :
      Ask P conn (conn.issueQuestion method)
  | start {conn : Conn} {q : Nat} {change : Question → Question}
      (isOpen : conn.findQuestion (conn.question q).id = some q)
      (same : (change (conn.question q)).standing =
        (((conn.question q).own, (conn.question q).id, true), (conn.question q).standing.2)) :
      Ask P conn (conn.alterQuestion q change)
  | abandon {conn : Conn} {id q : Nat} (isOpen : conn.findQuestion id = some q)
      (unneeded : (conn.question q).started = false ∨ (conn.question q).state ≠ .inProgress) :
      Ask P conn (conn.dropQuestion id)

/-- What becomes of the questions and answers of a connection, one change at a time. -/
inductive Turn (P : Set Power) : Conn → Conn → Prop
  | ask {before after : Conn} (step : Ask P before after) : Turn P before after
  | giveUp {conn : Conn} {q : Nat} {change : Question → Question} (reason : String)
      (mine : (conn.question q).own = true) (known : conn.Known q)
      (pending : (conn.question q).state = .inProgress)
      (same : (change (conn.question q)).standing =
        ((conn.question q).standing.1, .canceled, (conn.question q).obj, some reason)) :
      Turn P conn ((conn.leave q).alterQuestion q change)
  | settle {conn : Conn} {q : Nat} {change : Question → Question} (pending : (conn.question q).state = .inProgress)
      (same : (change (conn.question q)).standing.1 = (conn.question q).standing.1)
      (resolved : (change (conn.question q)).state = .resolved) : Turn P conn (conn.alterQuestion q change)
  | answer {conn : Conn} {a : Nat} {change : AnswerEntry → AnswerEntry} (isOpen : (conn.answer a).done = false)
      (same : (change (conn.answer a)).id = (conn.answer a).id) (done : (change (conn.answer a)).done = true) :
      Turn P conn (conn.alterAnswer a change)
  | describe {conn : Conn} {a : Nat} {change : AnswerEntry → AnswerEntry} (done : (conn.answer a).done = true)
      (same : (change (conn.answer a)).standing = (conn.answer a).standing) : Turn P conn (conn.alterAnswer a change)
  | takeWaiters {conn : Conn} (id : Nat) : Turn P conn (conn.setWaiters id none)
  | openAnswer {conn : Conn} (id : WireId) (can : Power.read ∈ P) (free : find conn.answers id.id = none) :
      Turn P conn
        ((conn.setAnswerSlot id.id (some conn.objects)).alterAnswer conn.objects fun _ => { id := id }).allocated
  | forgetAnswer {conn : Conn} (id : Nat) (can : Power.read ∈ P ∨ Power.shut ∈ P) :
      Turn P conn (conn.setAnswerSlot id none)
  | reply {conn : Conn} (message : RpcMessage) : Turn P conn (conn.send message)
  | shut {conn : Conn} (can : Power.shut ∈ P) : Turn P conn { conn with closed := true, working := false }
  | hangUp {conn : Conn} (can : Power.shut ∈ P) : Turn P conn { conn with transportClosed := true }
  | markAnswer {conn : Conn} {a : Nat} {change : AnswerEntry → AnswerEntry} (can : Power.shut ∈ P)
      (same : (change (conn.answer a)).id = (conn.answer a).id) (done : (change (conn.answer a)).done = true) :
      Turn P conn (conn.alterAnswer a change)

abbrev Asks (P : Set Power) : Conn → Conn → Prop := ReflTransGen (Ask P)

abbrev Turns (P : Set Power) : Conn → Conn → Prop := ReflTransGen (Turn P)

section Turns

variable {P : Set Power} {conn : Conn} {α β : Type}

theorem Turn.idle {before after : Conn} (same : Idle P before after) : Turn P before after := .ask (.idle same)

theorem asks_of_idle {program : ConnM α} (idle : Moves (Idle P) program) : Moves (Asks P) program :=
  fun conn => (idle conn).mono (fun _ _ same => .single (.idle same)) fun _ _ same => .single (.idle same)

theorem turns_of_asks {program : ConnM α} (asks : Moves (Asks P) program) : Moves (Turns P) program :=
  fun conn => (asks conn).mono (fun _ _ steps => ReflTransGen.mono (fun _ _ => .ask) _ _ steps)
    fun _ _ steps => ReflTransGen.mono (fun _ _ => .ask) _ _ steps

theorem turns_of_idle {program : ConnM α} (idle : Moves (Idle P) program) : Moves (Turns P) program :=
  turns_of_asks (asks_of_idle idle)

theorem sendMessage_turns (message : RpcMessage) : Moves (Turns P) (sendMessage message) :=
  Moves.modify fun _ => .single (.reply message)

section Attempts

variable {R : Conn → Conn → Prop} [IsPreorder Conn R]

theorem attempt_moves {program : ConnM Unit} (moves : Moves R program) : Moves R (attempt program) := by
  apply Moves.tryCatch
  · exact Moves.bind moves fun _ => Moves.pure _
  · exact fun _ => Moves.pure _

theorem attemptAll_moves {programs : List (ConnM Unit)} (moves : ∀ program ∈ programs, Moves R program) :
    Moves R (attemptAll programs) := by
  induction programs with
  | nil => exact Moves.pure _
  | cons program programs ih =>
      apply Moves.bind (attempt_moves (moves program (List.mem_cons_self ..)))
      intro first
      exact Moves.bind (ih fun other member => moves other (List.mem_cons_of_mem _ member)) fun _ => Moves.pure _

theorem throwFirst_moves (error : Option RpcError) : Moves R (throwFirst error) := by
  cases error with
  | none => exact Moves.pure _
  | some error => exact Moves.throw _

end Attempts

namespace Question

theorem fulfill_turns (q : Nat) (obj : Struct) : Moves (Turns P) (fulfill q obj) := by
  apply Moves.get
  intro conn
  split
  · rename_i pending
    exact ReflTransGen.single (.settle pending rfl rfl)
  · exact Moves.throw _ conn

theorem reject_turns (q : Nat) (reason : String) : Moves (Turns P) (reject q reason) := by
  apply Moves.get
  intro conn
  split
  · rename_i pending
    exact ReflTransGen.single (.settle pending rfl rfl)
  · exact Moves.throw _ conn

variable (conn) in
theorem leaveTable_run (q : Nat) (tellPeer : Bool) :
    ∃ told, leaveTable q tellPeer conn = .ok () (told.leave q) ∧ Idle P conn told ∧
      told.question = conn.question ∧ told.client = conn.client := by
  unfold leaveTable
  rw [bind_apply, get_apply]
  dsimp only
  cases found : conn.findQuestion (conn.question q).id with
  | none =>
      refine ⟨conn, ?_, .refl conn, rfl, rfl⟩
      rw [Conn.leave, found]
      rfl
  | some p =>
      cases tellPeer with
      | false =>
          refine ⟨conn, ?_, .refl conn, rfl, rfl⟩
          rw [Conn.leave, found]
          change (popQuestion (conn.question q).id >>= fun _ => pure PUnit.unit) conn = _
          rw [bind_apply, popQuestion_run found]
          rfl
      | true =>
          let told := (conn.say (.questionCanceled (conn.questionId q))).send (newFinishMessage (conn.questionId q) true)
          have still : told.findQuestion (told.question q).id = some p := found
          refine ⟨told, ?_, (Idle.of_eq rfl).trans (.send _ rfl), rfl, rfl⟩
          rw [Conn.leave, still]
          change (popQuestion (told.question q).id >>= fun _ => pure PUnit.unit) told = _
          rw [bind_apply, popQuestion_run still]
          rfl

theorem giveUp_turns {q : Nat} (tellPeer : Bool) (reason : String) {change : Question → Question} {value : Bool}
    (mine : (conn.question q).own = true) (known : conn.Known q) (pending : (conn.question q).state = .inProgress)
    (same : ∀ question : Question, (change question).standing =
      (question.standing.1, .canceled, question.obj, some reason)) :
    Meets (do leaveTable q tellPeer; alterQuestion q change; return value) conn
      (fun _ after => Turns P conn after) fun _ after => Turns P conn after := by
  obtain ⟨told, leaves, idle, questions, clients⟩ := leaveTable_run (P := P) conn q tellPeer
  have turn : Turn P told ((told.leave q).alterQuestion q change) := by
    refine .giveUp reason ?_ ?_ ?_ ?_
    · rw [questions]
      exact mine
    · unfold Conn.Known
      rw [questions, clients]
      exact known
    · rw [questions]
      exact pending
    · exact same _
  have ends : Turns P conn ((told.leave q).alterQuestion q change) := (ReflTransGen.single (.idle idle)).tail turn
  unfold Meets
  rw [bind_apply, leaves]
  exact ends

theorem cancel_turns {q : Nat} (reason : String) (mine : (conn.question q).own = true) (known : conn.Known q) :
    Meets (cancel q reason) conn (fun _ after => Turns P conn after) fun _ after => Turns P conn after := by
  apply Meets.get
  split
  · rename_i pending
    exact giveUp_turns _ reason mine known pending fun _ => rfl
  · exact Moves.pure _ conn

theorem closePendingRoot_turns {q : Nat} (mine : (conn.question q).own = true) (known : conn.Known q) :
    Meets (closePendingRoot q) conn (fun _ after => Turns P conn after) fun _ after => Turns P conn after := by
  apply Meets.get
  split
  · rename_i pending
    exact giveUp_turns _ "pipeline closed" mine known pending fun _ => rfl
  · exact Moves.pure _ conn

end Question

theorem settleWaiters_turns (id : Nat) {settle : Nat → ConnM Unit} (settles : ∀ q, Moves (Turns P) (settle q)) :
    Moves (Turns P) (takeTailAnswerWaiters id >>= fun waiters => waiters.forM settle) := by
  have takes : Moves (Turns P) (takeTailAnswerWaiters id) := by
    apply Moves.get
    intro conn
    cases find conn.tailAnswerWaiters id with
    | none => exact Moves.pure _ conn
    | some waiters =>
        apply Moves.follow
        · exact ReflTransGen.single (.takeWaiters id)
        · exact fun _ => Moves.pure _
  exact Moves.bind takes fun waiters => Moves.forM fun q _ => settles q

theorem rejectRest_moves {R : Conn → Conn → Prop} [IsPreorder Conn R]
    (idle : ∀ {program : ConnM Unit}, Moves (Idle P) program → Moves R program) {depth : Nat}
    (rejects : ∀ a (reason : String), Moves R (AnswerEntry.reject depth a reason)) (a : Nat) (reason : String)
    (queue : List PipelinedCall) : Moves R (do
      let firstErr ← attemptAll (queue.map fun pc => AnswerEntry.reject depth pc.answer reason)
      alterAnswer a fun entry => { entry with queue := [] }
      throwFirst firstErr) := by
  apply Moves.bind
  · apply attemptAll_moves
    intro program member
    obtain ⟨pc, _, rfl⟩ := List.mem_map.mp member
    exact rejects pc.answer reason
  · intro firstErr
    apply Moves.bind (idle (Moves.modify fun conn => .alterAnswer conn a rfl rfl))
    intro _
    exact throwFirst_moves firstErr

/-- `answer.reject called with nil`, if the stack lets it. -/
theorem rejectAnswer_nil (depth a : Nat) : ∃ error, AnswerEntry.reject depth a none = throw error := by
  cases depth with
  | zero => exact ⟨_, rfl⟩
  | succ depth => exact ⟨_, rfl⟩

theorem rejectAnswer_turns (depth a : Nat) (reason : String) : Moves (Turns P) (AnswerEntry.reject depth a reason) := by
  induction depth generalizing a reason with
  | zero => exact Moves.throw _
  | succ depth ih =>
      apply Moves.get
      intro conn
      cases isOpen : (conn.answer a).done with
      | true => exact Moves.throw _ conn
      | false =>
          rw [if_neg Bool.false_ne_true]
          apply Moves.follow
          · exact ReflTransGen.single (.answer isOpen rfl rfl)
          intro _
          apply Moves.bind (settleWaiters_turns _ fun q => Question.reject_turns q reason)
          intro _
          apply Moves.bind (sendMessage_turns _)
          intro _
          exact rejectRest_moves turns_of_idle ih a reason (conn.answer a).queue

theorem rejectAll_turns (owner : Nat) (reason : String) : Moves (Turns P) (rejectAll owner reason) := by
  apply Moves.get
  intro conn
  have rejects : Moves (Turns P) ((conn.client owner).calls.forM fun slot => do
      rejectCall owner reason slot
      popCall owner) := by
    apply Moves.forM
    intro slot _
    apply Moves.bind
    · cases slot with
      | fromHere call => exact turns_of_idle (emit_idle _)
      | remote a call =>
          apply Moves.get
          intro conn
          exact rejectAnswer_turns conn.stack a reason conn
    · exact fun _ => turns_of_idle (popCall_idle owner)
  exact rejects conn

section Close

variable {closeNext : Nat → ConnM Unit}

theorem closeResolution_turns (closes : ∀ client, Moves (Turns P) (closeNext client)) (transform : Transform)
    (obj : Option Struct) (err : Option String) : Moves (Turns P) (closeResolution closeNext transform obj err) :=
  Moves.bind (turns_of_idle (clientFromResolution_idle transform obj err)) closes

theorem closeOptional_turns (closes : ∀ client, Moves (Turns P) (closeNext client)) (client : Option Nat) :
    Moves (Turns P) (closeOptional closeNext client) := by
  cases client with
  | none => exact Moves.pure _
  | some client => exact closes client

theorem pipelineClose_turns (closes : ∀ client, Moves (Turns P) (closeNext client)) {q : Nat} (transform : Transform)
    {i : Nat} {handle : Transform} (held : conn.client i = .pipeline q handle) :
    Meets (pipelineClose closeNext q transform) conn (fun _ after => Turns P conn after)
      fun _ after => Turns P conn after := by
  have resolves : ∀ obj err, Moves (Turns P)
      (attempt (closeResolution closeNext transform obj err) >>= fun _ => pure PUnit.unit) := by
    intro obj err
    exact Moves.bind (attempt_moves (closeResolution_turns closes transform obj err)) fun _ => Moves.pure _
  have gives : ∀ {conn : Conn}, (conn.question q).own = true → conn.Known q →
      Meets (Question.closePendingRoot q >>= fun _ => pure PUnit.unit) conn (fun _ after => Turns P conn after)
        fun _ after => Turns P conn after := by
    intro conn mine known
    exact Moves.follow (Question.closePendingRoot_turns mine known) fun _ => Moves.pure _
  apply Meets.get
  split
  · rename_i mine
    split
    · split
      · split
        · exact gives mine (Or.inr ⟨i, handle, held⟩)
        · exact resolves _ _ conn
      · exact ReflTransGen.single (.idle (.alterQuestion conn q rfl))
    · apply Meets.bind
      change Meets _ (conn.alterQuestion q fun question =>
        { question with derived := question.derived.filter (· ≠ transform) }) _ _
      let filtered := conn.alterQuestion q fun question =>
        { question with derived := question.derived.filter (· ≠ transform) }
      have first : Turns P conn filtered := ReflTransGen.single (.idle (.alterQuestion conn q rfl))
      have mine' : (filtered.question q).own = true := by simpa [filtered, Conn.alterQuestion] using mine
      have rest : Meets (do
          let conn ← get
          if (conn.question q).state = .inProgress then
            if (conn.question q).rootClosePending && (conn.question q).derived.isEmpty then do
              let _ ← Question.closePendingRoot q
            else
              return ()
          else do
            let _ ← attempt (closeResolution closeNext transform (conn.question q).obj (conn.question q).err)) filtered
          (fun _ after => Turns P filtered after) fun _ after => Turns P filtered after := by
        apply Meets.get
        split
        · split
          · exact gives mine' (Or.inr ⟨i, handle, held⟩)
          · exact Moves.pure _ filtered
        · exact resolves _ _ filtered
      exact rest.mono (fun _ _ later => first.trans later) fun _ _ later => first.trans later
  · split
    · exact Moves.pure _ conn
    · exact resolves _ _ conn

end Close

theorem setClient_turns (client : Nat) {after : Client} (plain : after.isPlain = true) :
    Moves (Turns P) (setClient client after) :=
  turns_of_idle (Moves.modify fun conn => .setClient conn client (Client.follows_plain plain _))

theorem closeClient_turns (depth client : Nat) : Moves (Turns P) (closeClient depth client) := by
  induction depth generalizing client with
  | zero => exact Moves.throw _
  | succ depth ih =>
      apply Moves.get
      intro conn
      cases shape : conn.client client with
      | server methods => exact Moves.pure _ conn
      | error reason => exact Moves.pure _ conn
      | other => exact Moves.pure _ conn
      | null => exact Moves.throw _ conn
      | ref rc closed =>
          cases closed with
          | true => exact Moves.pure _ conn
          | false =>
              apply Moves.follow (setClient_turns client rfl conn)
              intro _
              apply Moves.bind (turns_of_idle (Moves.modify fun _ => .of_eq rfl))
              intro _
              split
              · exact ih _
              · exact Moves.pure _
      | importClient c =>
          dsimp only
          split
          · exact Moves.pure _ conn
          · apply Moves.follow (setClient_turns client rfl conn)
            intro _
            apply Moves.bind (rejectAll_turns client _)
            intro _
            apply Moves.bind
            · apply turns_of_idle
              apply Moves.modify
              intro conn
              apply Idle.setClient
              apply Client.follows_of_core
              cases conn.client client with
              | _ => rfl
            intro _
            apply Moves.bind (closeOptional_turns ih c.resolved)
            intro _
            exact turns_of_idle (releaseImportAll_idle _)
      | pipeline q transform => exact pipelineClose_turns ih transform shape
      | fixedPipeline answer transform =>
          cases answer with
          | error reason => exact Moves.throw _ conn
          | ok struct => exact Moves.bind (turns_of_idle (findClient_idle struct transform)) ih conn
      | localAnswer a transform =>
          dsimp only
          split
          · exact closeResolution_turns ih transform _ _ conn
          · exact Moves.pure _ conn
      | promiseExport c =>
          dsimp only
          split
          · exact Moves.pure _ conn
          · apply Moves.follow (setClient_turns client rfl conn)
            intro _
            apply Moves.bind (closeOptional_turns ih c.resolved)
            intro _
            exact rejectAll_turns client _
      | queue c => exact Moves.bind (rejectAll_turns client _) (fun _ => ih c.client) conn

theorem close_turns (client : Nat) : Moves (Turns P) (close client) := by
  apply Moves.get
  intro conn
  exact closeClient_turns conn.stack client conn

theorem releaseExport_turns (id refs : Nat) : Moves (Turns P) (releaseExport id refs) := by
  apply Moves.get
  intro conn
  cases conn.findExport id with
  | none => exact Moves.pure _ conn
  | some e =>
      dsimp only
      split
      · exact Moves.pure _ conn
      · apply Moves.follow
        · exact ReflTransGen.single (.idle (.of_eq rfl))
        intro _
        split
        · exact Moves.pure _
        · apply Moves.bind (turns_of_idle (Moves.modify fun _ => .of_eq rfl))
          intro _
          apply Moves.bind
          · apply Moves.tryCatch (close_turns e.client)
            intro error
            exact Moves.bind (turns_of_idle (emit_idle _)) fun _ => Moves.throw _
          · exact fun _ => turns_of_idle (Moves.modify fun _ => .of_eq rfl)

end Turns

end CapnpEs.Rpc
