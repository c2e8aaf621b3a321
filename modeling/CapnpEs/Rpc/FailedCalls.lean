import CapnpEs.Rpc.CapReferences
import Mathlib.Data.List.TakeWhile

/-! Calls that fail before they are sent, and what they leave in the tables. -/

namespace CapnpEs.Rpc

open Outcome SlotTable

variable {conn : Conn}

/-- Where a call can fail outside the connection: in placing its parameters, and in the transport. -/
structure Faults where
  placing : Option String := none
  sending : Option String := none

def raise : Option String → ConnM Unit
  | none => return ()
  | some reason => throw (.error reason)

inductive CallSite
  -- `ImportClient.call`
  | importClient (id : WireId)
  -- `Question.pipelineCall`
  | question (q : Nat) (transform : Transform)

def CallSite.target (conn : Conn) : CallSite → MessageTarget
  | .importClient id => .importedCap id
  | .question q transform => .promisedAnswer (conn.questionId q) transform

def CallSite.afterStart : CallSite → ConnM Unit
  | .importClient _ => return ()
  | .question q transform => Question.addPromise q transform

def sendCallThrough (faults : Faults) (q : Nat) (target : MessageTarget) (method : Method) (params : Payload) :
    ConnM Unit := do
  alterQuestion q fun question => { question with paramCaps := collectPayloadSenderHosted params.capTable }
  raise faults.sending
  let conn ← get
  sendMessage (.call (conn.questionId q) target method .caller params)
  alterQuestion q fun question => { question with started := true }

/-- `ask`, with the failures that come from outside. -/
def askThrough (faults : Faults) (target : MessageTarget) (call : Call) (afterStart : ConnM Unit) : ConnM Answer := do
  let q ← newQuestion (some call.method)
  tryCatch
    (do
      raise faults.placing
      let params ← fillParams call
      sendCallThrough faults q target call.method params
      afterStart
      return .question q)
    fun error => do
      let conn ← get
      let _ ← popQuestion (conn.question q).id
      return .error error.message

def callOut (faults : Faults) (site : CallSite) (call : Call) : ConnM Answer := do
  let conn ← get
  askThrough faults (site.target conn) call site.afterStart

theorem askThrough_without_faults (target : MessageTarget) (call : Call) (afterStart : ConnM Unit) :
    askThrough {} target call afterStart = ask target call afterStart := by
  rfl

theorem Describes.sameExports_iff {ids : List Nat} {before after : Conn} (describes : Describes ids before after) :
    SameExports before after ↔ ids = [] := by
  refine ⟨?_, describes.untouched⟩
  intro same
  rw [List.eq_nil_iff_forall_not_mem]
  intro id member
  have raised := describes.references id
  have count : 0 < ids.count id := List.count_pos_iff.mpr member
  rw [same.wireRefs] at raised
  omega

theorem walks_issueQuestion (wellFormed : conn.WellFormed)
    (handles : ∀ i q transform, conn.client i = .pipeline q transform → q < conn.objects) (method : Option Method)
    {table : List (Option Nat)} (made : ∀ client, some client ∈ table → client < conn.objects) :
    (conn.issueQuestion method).walks table = conn.walks table := by
  apply List.map_congr_left
  intro slot member
  cases slot with
  | none => rfl
  | some client =>
      change (conn.issueQuestion method).walk conn.stack client = conn.walk conn.stack client
      refine Conn.walk_congr wellFormed ?_ ?_ ?_ ?_ _ (made client member)
      · exact fun _ _ => rfl
      · exact fun _ _ => rfl
      · rfl
      · intro i q transform shape
        have below := handles i q transform shape
        simp [Conn.issueQuestion, Conn.say, Conn.allocated, Conn.alterQuestion, Conn.setQuestionSlot,
          Function.update_of_ne (Nat.ne_of_lt below)]

structure Conn.LeavesNoTrace (before after : Conn) : Prop extends SameExports before after where
  questions : ∀ id, after.findQuestion id = before.findQuestion id

/-- A call that failed and still has its question, when the exports were kept just if `kept`. -/
structure Conn.Stopped (before after : Conn) (kept : Prop) : Prop where
  number : (after.question before.objects).id = before.questionID.next.1
  questions : after.questions = put before.questions before.questionID.next.1 (some before.objects)
  exports : SameExports before after ↔ kept

theorem Conn.Stopped.popQuestion (wellFormed : conn.WellFormed) {stopped : Conn} {kept : Prop}
    (stops : conn.Stopped stopped kept) :
    Meets (popQuestion (stopped.question conn.objects).id) stopped (fun _ after => conn.LeavesNoTrace after ↔ kept)
      fun _ _ => False := by
  have slot : stopped.findQuestion (stopped.question conn.objects).id = some conn.objects := by
    rw [findQuestion, stops.questions, stops.number, find_put_same]
  apply Meets.get
  rw [slot]
  have free := wellFormed.questionIds.next_unused
  rw [Bool.not_eq_true, Option.isSome_eq_false_iff, Option.isNone_iff_eq_none] at free
  have questions : ∀ id, (stopped.dropQuestion (stopped.question conn.objects).id).findQuestion id =
      conn.findQuestion id := by
    intro id
    simp only [findQuestion, dropQuestion, setQuestionSlot, stops.questions, stops.number, find_put]
    split
    · rename_i same
      rw [same]
      exact free.symm
    · rfl
  rw [← stops.exports]
  constructor
  · intro untraced
    exact ⟨untraced.exports, untraced.promises, untraced.index⟩
  · intro same
    exact ⟨⟨same.exports, same.promises, same.index⟩, questions⟩

theorem described_of_walks {capTable : List CapDescriptor} {walks : List Walk}
    (same : capTable.map CapDescriptor.walk = walks) : described walks = walks := by
  apply List.takeWhile_eq_self_iff.mpr
  intro walk member
  rw [← same] at member
  obtain ⟨descriptor, _, rfl⟩ := List.mem_map.mp member
  cases descriptor with
  | _ => rfl

theorem counted_eq_nil_iff (capTable : List CapDescriptor) :
    counted capTable = [] ↔ ∀ walk ∈ capTable.map CapDescriptor.walk, walk.exports = false := by
  rw [List.forall_mem_map, counted, List.map_eq_nil_iff, hosted, List.filterMap_eq_nil_iff]
  apply forall₂_congr
  intro descriptor _
  rw [CapDescriptor.exports_walk, Option.isSome_eq_false_iff, Option.isNone_iff_eq_none]

/-- Whether what was described of a table before a call failed is no export. -/
def Conn.exportsNothing (conn : Conn) (table : List (Option Nat)) : Prop :=
  ∀ walk ∈ described (conn.walks table), walk.exports = false

theorem fillParams_stops (wellFormed : conn.WellFormed)
    (handles : ∀ i q transform, conn.client i = .pipeline q transform → q < conn.objects) (call : Call) :
    Meets (fillParams call) (conn.issueQuestion (some call.method))
      (fun _ after => conn.Stopped after (call.params.content.copyFault 0 = none →
        conn.exportsNothing (conn.copiedTable call.params)))
      fun _ after => conn.Stopped after (call.params.content.copyFault 0 = none →
        conn.exportsNothing (conn.copiedTable call.params)) := by
  have formed := wellFormed.issueQuestion (some call.method)
  have made := wellFormed.copiedTable call.params
  have walks := walks_issueQuestion wellFormed handles (some call.method) made
  have stops : ∀ {ids : List Nat} {after : Conn} {kept : Prop},
      Describes ids (conn.issueQuestion (some call.method)) after → (ids = [] ↔ kept) → conn.Stopped after kept := by
    intro ids after kept describes nothing
    refine ⟨?_, ?_, ?_⟩
    · rw [describes.question]
      simp [Conn.issueQuestion, Conn.say, Conn.allocated, Conn.alterQuestion]
    · rw [describes.questions]
      rfl
    · rw [← nothing, ← describes.sameExports_iff]
      exact ⟨fun same => ⟨same.exports, same.promises, same.index⟩,
        fun same => ⟨same.exports, same.promises, same.index⟩⟩
  apply Meets.bind
  cases copies : call.params.content.copyFault 0 with
  | some reason =>
      unfold Meets
      rw [setContent_throws copies]
      exact stops (.refl _) ⟨fun _ copied => (by cases copied), fun _ => rfl⟩
  | none =>
      unfold Meets
      rw [setContent_run copies]
      apply Meets.get
      apply Meets.bind
      apply (makeCapTable_walks formed (formed.copiedTable call.params)).mono
      · rintro capTable after ⟨kinds, describes⟩
        apply stops describes
        have all := described_of_walks (kinds.trans walks)
        rw [counted_eq_nil_iff, kinds, forall_prop_of_true rfl]
        unfold Conn.exportsNothing
        rw [all, ← walks]
        rfl
      · rintro _ after ⟨ids, describes, nothing⟩
        apply stops describes
        rw [nothing, forall_prop_of_true rfl]
        unfold Conn.exportsNothing
        rw [← walks]
        rfl

theorem callOut_traces (wellFormed : conn.WellFormed)
    (handles : ∀ i q transform, conn.client i = .pipeline q transform → q < conn.objects) (faults : Faults)
    (site : CallSite) (call : Call) :
    Meets (callOut faults site call) conn
      (fun answer after => ∀ reason, answer = .error reason → (conn.LeavesNoTrace after ↔
        faults.placing.isSome ∨
          (call.params.content.copyFault 0 = none → conn.exportsNothing (conn.copiedTable call.params))))
      fun _ _ => False := by
  apply Meets.get
  apply Meets.bind
  apply Meets.tryCatch
  have fails : ∀ {error : RpcError} {stopped : Conn} {kept : Prop}, conn.Stopped stopped kept →
      Meets (do
        let conn' ← get
        let _ ← popQuestion (conn'.question conn.objects).id
        return Answer.error error.message : ConnM Answer) stopped
        (fun answer after => ∀ reason, answer = .error reason → (conn.LeavesNoTrace after ↔ kept))
        fun _ _ => False := by
    intro error stopped kept stops
    apply Meets.get
    apply Meets.bind
    apply (stops.popQuestion wellFormed).mono
    · intro _ after traces reason _
      exact traces
    · intro _ _ failed
      exact failed
  apply Meets.bind
  cases placing : faults.placing with
  | some reason =>
      apply fails
      refine ⟨?_, rfl, ?_⟩
      · simp [Conn.issueQuestion, Conn.say, Conn.allocated, Conn.alterQuestion]
      · exact ⟨fun _ => Or.inl rfl, fun _ => ⟨fun _ => rfl, fun _ => rfl, rfl⟩⟩
  | none =>
      apply Meets.bind
      apply (fillParams_stops wellFormed handles call).mono
      · intro params middle stops
        apply Meets.bind
        apply Meets.bind
        have counts : conn.Stopped (middle.alterQuestion conn.objects fun question =>
            { question with paramCaps := collectPayloadSenderHosted params.capTable })
            (call.params.content.copyFault 0 = none → conn.exportsNothing (conn.copiedTable call.params)) := by
          refine ⟨?_, stops.questions, ?_⟩
          · rw [← stops.number]
            simp [Conn.alterQuestion]
          · rw [← stops.exports]
            exact ⟨fun same => ⟨same.exports, same.promises, same.index⟩,
              fun same => ⟨same.exports, same.promises, same.index⟩⟩
        cases sending : faults.sending with
        | some reason =>
            apply fails
            simpa using counts
        | none =>
            cases site with
            | importClient id =>
                intro _ failed
                cases failed
            | question q transform =>
                intro _ failed
                cases failed
      · intro error stopped stops
        apply fails
        simpa using stops

/-- A call that returns a failure has left the tables alone just if it exported nothing before it failed. -/
theorem failed_call_leaves_no_trace_iff (wellFormed : conn.WellFormed)
    (handles : ∀ i q transform, conn.client i = .pipeline q transform → q < conn.objects) (faults : Faults)
    (site : CallSite) (call : Call) {reason : String} {after : Conn}
    (failed : callOut faults site call conn = .ok (.error reason) after) :
    conn.LeavesNoTrace after ↔ faults.placing.isSome ∨
      (call.params.content.copyFault 0 = none → conn.exportsNothing (conn.copiedTable call.params)) := by
  have traces := callOut_traces wellFormed handles faults site call
  unfold Meets at traces
  rw [failed] at traces
  exact traces reason rfl

def servedCall : Call := { method := { interfaceId := 0, methodId := 0 }, params := servedParams }

theorem failed_call_leaves_no_trace_iff_server :
    ∃ after, callOut { placing := some "params" } (.importClient ⟨0, 0⟩) servedCall servedConn =
      .ok (.error "params") after ∧ servedConn.LeavesNoTrace after := by
  refine ⟨_, rfl, ?_⟩
  refine (failed_call_leaves_no_trace_iff servedConn_wellFormed ?_ { placing := some "params" }
    (.importClient ⟨0, 0⟩) servedCall rfl).mpr (Or.inl rfl)
  intro i q transform shape
  by_cases here : i = 0
  · subst here
    cases shape
  · have unset : servedConn.client i = .other := Function.update_of_ne here _ _
    rw [unset] at shape
    cases shape

/-- A question in progress, and a message that mentions a server of the application. -/
def pendingBootstrap : List Input := [.act .bootstrap, .act (.newServer []), .act (.newCapTable [some 1])]

def pipelinedCall : Call :=
  { method := { interfaceId := 0, methodId := 0 }, params := { content := .interface, message := 2 } }

theorem failed_call_not_always_without_trace :
    ¬ ∀ conn, Transition.Run Conn.step (fun _ _ _ => True) { registry := fun _ => none } conn →
      ∀ faults site call reason after, callOut faults site call conn = .ok (.error reason) after →
        conn.LeavesNoTrace after := by
  intro always
  have kept : ((Transition.Run.follow Conn.step { registry := fun _ => none } pendingBootstrap).map fun conn =>
      match callOut { sending := some "closed" } (.question 0 []) pipelinedCall conn with
      | .ok (.error _) after => decide (after.wireRefs 0 = 1 ∧ conn.wireRefs 0 = 0)
      | _ => false) = some true := by
    decide +kernel
  obtain ⟨conn, followed, kept⟩ := Option.map_eq_some_iff.mp kept
  split at kept
  · rename_i reason after failed
    obtain ⟨raised, before⟩ := of_decide_eq_true kept
    have same := (always conn (.of_follow .start followed) _ _ _ reason after failed).toSameExports.wireRefs 0
    rw [raised, before] at same
    cases same
  · cases kept

end CapnpEs.Rpc
