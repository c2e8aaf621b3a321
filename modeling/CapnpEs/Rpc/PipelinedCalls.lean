import CapnpEs.Library.Transition
import CapnpEs.Rpc.Embargoes
import CapnpEs.Rpc.RedirectedQuestions
import CapnpEs.Rpc.TableInvariants

/-! Calls on the answer of an earlier call: the answer keeps its place until the peer finishes it, unless the
earlier call was refused at once. -/

namespace CapnpEs.Rpc

open Relation SlotTable Outcome

variable {conn : Conn} {hand : Hand}

/-- An answer number that is not free to be forgotten: it has its place, or the connection is closed, or its call
was refused. -/
def Conn.Opened (conn : Conn) (id : Nat) : Prop :=
  conn.closed = true ∨ (find conn.answers id).isSome ∨ ∃ asked capTable, asked.id = id ∧
    .callRefused asked capTable ∈ conn.trace

/-- The answer number that an effect takes from the table. -/
inductive AnswerChange (before after : Conn × Hand) (id : Nat) : Prop
  | kept (slots : (find before.1.answers id).isSome → (find after.1.answers id).isSome)
  | finished {asked : WireId} {releaseResultCaps : Bool} (message : before.2.message = some (.finish asked releaseResultCaps))
      (same : asked.id = id)
  | refused {asked : WireId} {capTable : List CapDescriptor} (same : asked.id = id)
      (said : .callRefused asked capTable ∈ after.1.trace)
  | closed (closed : before.1.closed = true)

theorem Effect.answerChange {before after : Conn × Hand} (effect : Effect before after) (id : Nat) :
    AnswerChange before after id := by
  have same : ∀ {before after : Conn × Hand}, after.1.answers = before.1.answers → AnswerChange before after id := by
    intro before after slots
    exact .kept fun found => by rwa [slots]
  have quiets : ∀ {before after : Conn × Hand}, QuietEffect before after → AnswerChange before after id := by
    intro before after effect
    cases effect with
    | quiet quiet => exact same quiet.answers
    | forget fewer => exact same rfl
  cases effect with
  | close effect =>
      cases effect with
      | quiet effect => exact quiets effect
      | _ => exact same rfl
  | describe effect =>
      cases effect with
      | quiet effect => exact quiets effect
      | create made free =>
          rw [Conn.withExport_eq]
          exact same rfl
      | promise question transform free =>
          rw [Conn.withPromise_eq]
          exact same rfl
      | _ => exact same rfl
  | newImport isPromise unknown given =>
      rw [Conn.withImport_eq]
      exact same rfl
  | insertAnswer asked free =>
      apply AnswerChange.kept
      intro found
      simp only [Conn.withAnswer, Conn.allocated, Conn.alterAnswer, Conn.setAnswerSlot, find_put]
      split
      · rfl
      · exact found
  | finishAnswer finished =>
      rename_i conn hand asked releaseResultCaps
      by_cases own : asked.id = id
      · exact .finished finished own
      · apply AnswerChange.kept
        intro found
        rwa [Conn.setAnswerSlot, find_put_other _ _ (Ne.symm own)]
  | forgetAnswer reason asked found unrouted =>
      rename_i conn hand refused target method sendResultsTo params a
      by_cases own : refused.id = id
      · exact .refused own (List.mem_append_right _ (List.mem_singleton.mpr rfl))
      · apply AnswerChange.kept
        intro found
        change (find (put conn.answers refused.id none) id).isSome
        rwa [find_put_other _ _ (Ne.symm own)]
  | clearAnswer closed id => exact .closed closed
  | _ => exact same rfl

theorem Effect.opened {before after : Conn × Hand} (effect : Effect before after) {id : Nat}
    (unfinished : ∀ asked releaseResultCaps, before.2.message = some (.finish asked releaseResultCaps) → asked.id ≠ id)
    (opened : before.1.Opened id) : after.1.Opened id := by
  rcases opened with closed | found | ⟨asked, capTable, same, said⟩
  · exact Or.inl (effect.closed closed)
  · cases effect.answerChange id with
    | kept slots => exact Or.inr (Or.inl (slots found))
    | finished message same => exact absurd same (unfinished _ _ message)
    | refused same said => exact Or.inr (Or.inr ⟨_, _, same, said⟩)
    | closed closed => exact Or.inl (effect.closed closed)
  · exact Or.inr (Or.inr ⟨asked, capTable, same, effect.trace said⟩)

theorem opened_of_effects {before after : Conn × Hand} (steps : ReflTransGen Effect before after) {id : Nat}
    (unfinished : ∀ asked releaseResultCaps, before.2.message = some (.finish asked releaseResultCaps) → asked.id ≠ id)
    (opened : before.1.Opened id) : after.1.Opened id ∧ after.2.message = before.2.message := by
  induction steps with
  | refl => exact ⟨opened, rfl⟩
  | tail _ effect ih =>
      obtain ⟨opened, same⟩ := ih
      constructor
      · apply effect.opened ?_ opened
        rw [same]
        exact unfinished
      · exact effect.message.trans same

def Conn.answering (conn : Conn) : List (Option Nat) × Bool × List Event × (Nat → AnswerEntry) × (Nat → Option (List Method)) ×
    List (Option (List Nat)) × Bool :=
  (conn.answers, conn.closed, conn.trace, conn.answer, conn.registry, conn.tailAnswerWaiters, conn.transportClosed)

theorem RefCount.ref_fixes (rc : Nat) : Fixes Conn.answering (RefCount.ref rc) := by
  apply Fixes.get
  intro conn
  dsimp only
  split
  · rfl
  · rfl

theorem newClient_fixes (client : Client) : Fixes Conn.answering (newClient client) :=
  Fixes.modifyGet fun _ => rfl

theorem RefCount.new_fixes (client : Nat) : Fixes Conn.answering (RefCount.new client) := by
  apply Fixes.bind (Fixes.modifyGet fun _ => rfl)
  intro rc
  exact Fixes.bind (newClient_fixes _) fun ref => Fixes.pure _

theorem addImport_fixes (id : WireId) (isPromise : Bool) : Fixes Conn.answering (addImport id isPromise) := by
  apply Fixes.get
  intro conn
  cases find conn.imports id.id with
  | none =>
      apply Fixes.bind (newClient_fixes _)
      intro client
      apply Fixes.bind (RefCount.new_fixes client)
      intro made
      apply Fixes.bind (Fixes.modifyGet fun _ => rfl)
      intro _
      exact Fixes.pure _
  | some entry =>
      exact RefCount.ref_fixes entry.rc (conn.setImport id.id
        (some { entry with refs := entry.refs + 1, isPromise := entry.isPromise || isPromise }))

theorem refExport_fixes (e : Export) : Fixes Conn.answering (refExport e) := by
  apply Fixes.tryCatch (RefCount.ref_fixes e.rc)
  intro error
  exact Fixes.throw _

theorem clientFromCapDescriptor_fixes (descriptor : CapDescriptor) :
    Fixes Conn.answering (clientFromCapDescriptor descriptor) := by
  cases descriptor with
  | senderHosted id => exact addImport_fixes id false
  | senderPromise id => exact addImport_fixes id true
  | receiverHosted id =>
      apply Fixes.get
      intro conn
      cases conn.findExport id.id with
      | none => rfl
      | some e => exact refExport_fixes e conn
  | receiverAnswer id transform =>
      apply Fixes.get
      intro conn
      cases find conn.answers id.id with
      | none => rfl
      | some a => rfl
  | none => exact Fixes.throw _
  | thirdPartyHosted => exact Fixes.throw _

theorem populateMessageCapTable_fixes (capTable : List CapDescriptor) :
    Fixes Conn.answering (populateMessageCapTable capTable) := by
  induction capTable with
  | nil => exact Fixes.pure _
  | cons descriptor capTable ih =>
      have reads : Fixes Conn.answering (do
          let client ← clientFromCapDescriptor descriptor
          let rest ← populateMessageCapTable capTable
          return some client :: rest) := by
        apply Fixes.bind (clientFromCapDescriptor_fixes descriptor)
        intro client
        exact Fixes.bind ih fun rest => Fixes.pure _
      cases descriptor with
      | none => exact Fixes.bind ih fun rest => Fixes.pure _
      | _ => exact reads

theorem readPayload_fixes (payload : Payload) : Fixes Conn.answering (readPayload payload) := by
  apply Fixes.bind (populateMessageCapTable_fixes payload.capTable)
  intro table
  apply Fixes.bind (Fixes.modifyGet fun conn => rfl)
  intro message
  exact Fixes.pure _

theorem readNonProtocol_faults {α : Type} {program : ConnM α} {returns : α → Conn → Hand → Prop}
    (runs : Runs Effect program conn hand returns fun error _ left => left = hand.fault error) :
    Runs Effect (readNonProtocol program) conn hand
      (fun outcome _ left => match outcome with
        | .ok _ => True
        | .error _ => left = { hand with incoming := [] })
      fun error _ _ => error.isPlain = false := by
  apply Runs.tryCatch (G := fun error _ left => left = hand.fault error)
  · apply Runs.bind runs
    intro value after left _ _ holds
    exact Runs.pure trivial
  · rintro error after left _ _ rfl
    cases error with
    | protocol kind message => exact Runs.throw rfl
    | error message => exact Runs.pure rfl

theorem abort_closes (kind : ProtocolErrorKind) (message : String) (wellFormed : conn.WellFormed) :
    Meets (abortForProtocolError kind message) conn (fun _ after => after.closed = true)
      fun _ after => after.closed = true := by
  by_cases closed : conn.closed = true
  · have stays : abortForProtocolError kind message conn = .ok () conn := by
      change (if conn.closed = true then (pure () : ConnM Unit) else _) conn = _
      rw [if_pos closed]
      rfl
    unfold Meets
    rw [stays]
    exact closed
  · have shuts : abortForProtocolError kind message conn =
        shutdown message ((conn.say (.aborted kind)).send (.abort message)) := by
      change (if conn.closed = true then (pure () : ConnM Unit) else _) conn = _
      rw [if_neg closed]
      rfl
    unfold Meets
    rw [shuts]
    exact shutdown_closes message ((wellFormed.say _).send _)

variable (conn) in
theorem handleCallMessage_opens (id : WireId) (target : MessageTarget) (method : Method)
    (sendResultsTo : SendResultsTo) (params : Payload) :
    Runs Effect (handleCallMessage id target method sendResultsTo params) conn
      (Hand.receiving (.call id target method sendResultsTo params)) (fun _ after _ => after.Opened id.id)
      fun error after _ => error.isPlain = true → after.Opened id.id := by
  unfold handleCallMessage
  split
  · exact Runs.throw (by intro plain; cases plain)
  · rename_i present
    have reads := readPayload_runs conn (Hand.receiving (.call id target method sendResultsTo params)) params rfl rfl rfl
    apply Runs.bind (Q := fun _ _ left => left =
      { Hand.receiving (.call id target method sendResultsTo params) with incoming := [] })
    · intro wellFormed
      have outcomes := readNonProtocol_runs reads wellFormed
      have faults := readNonProtocol_faults reads wellFormed
      unfold Meets at outcomes faults ⊢
      cases run : readNonProtocol (readPayload params) conn with
      | ok outcome after =>
          rw [run] at outcomes
          obtain ⟨left, steps, formed, held⟩ := outcomes
          cases outcome with
          | _ => exact ⟨left, steps, formed, held⟩
      | error error after =>
          rw [run] at faults
          obtain ⟨left, steps, formed, impure⟩ := faults
          refine ⟨left, steps, formed, ?_⟩
          intro plain
          rw [impure] at plain
          cases plain
    · rintro outcome after left _ _ rfl
      cases outcome with
      | error reason =>
          apply Runs.of_ok (v := ()) (h := { Hand.receiving (.call id target method sendResultsTo params) with
              incoming := [] })
            (n := (after.say (.callRefused id params.capTable)).send (newReturnMessage id (.exception reason)))
          · rfl
          · exact .single (.refuse reason rfl)
          · intro formed
            exact (formed.say _).send _
          · exact Or.inr (Or.inr ⟨id, params.capTable, rfl, List.mem_append_right _ (List.mem_singleton.mpr rfl)⟩)
      | ok struct =>
          apply Runs.bind (insertAnswer_runs rfl)
          rintro inserted last left _ _ ⟨rfl, outcome⟩
          have stays : ∀ {middle : Conn} {last : Conn} {left : Hand}, middle.Opened id.id →
              ReflTransGen Effect (middle, { Hand.receiving (.call id target method sendResultsTo params) with
                incoming := [] }) (last, left) → last.Opened id.id := by
            intro middle last left opened steps
            exact (opened_of_effects steps (by rintro asked releaseResultCaps ⟨⟩) opened).1
          cases inserted with
          | none =>
              obtain ⟨rfl, a, found⟩ := outcome
              have opened : last.Opened id.id := Or.inr (Or.inl (by simp [found]))
              apply Runs.mono (abort_handles _ rfl (.reused found) rfl rfl)
              · intro _ last' left steps _ _
                exact stays opened steps
              · intro error last' left steps _ _ _
                exact stays opened steps
          | some a =>
              obtain ⟨rfl, rfl⟩ := outcome
              have opened : (after.withAnswer id).Opened id.id := by
                refine Or.inr (Or.inl ?_)
                simp [Conn.withAnswer, Conn.allocated, Conn.alterAnswer, Conn.setAnswerSlot]
              apply Runs.mono (startCall_handles struct.message rfl rfl rfl present
                ⟨Nat.lt_succ_self _, by rw [Conn.withAnswer_answer], rfl⟩ (by
                  simp [Conn.withAnswer, Conn.allocated, Conn.alterAnswer, Conn.setAnswerSlot])
                (by rw [Conn.withAnswer_answer]))
              · intro _ last' left steps _ _
                exact stays opened steps
              · intro error last' left steps _ _ _
                exact stays opened steps

theorem call_opens (wellFormed : conn.WellFormed) (id : WireId) (target : MessageTarget) (method : Method)
    (sendResultsTo : SendResultsTo) (params : Payload) :
    (conn.run (work (.call id target method sendResultsTo params))).Opened id.id := by
  apply run_meets (P := fun after => after.Opened id.id)
  have handled := handleCallMessage_opens conn.fresh id target method sendResultsTo params { wellFormed with }
  have message : Meets (handleMessage (.call id target method sendResultsTo params)) conn.fresh
      (fun _ after => after.Opened id.id) fun _ after => after.Opened id.id := by
    apply Meets.tryCatch
    apply handled.mono
    · rintro _ after ⟨left, _, _, opened⟩
      exact opened
    · rintro error after ⟨left, _, formed, opened⟩
      cases error with
      | protocol kind message =>
          apply (abort_closes kind message formed).mono
          · intro _ last closed
            exact Or.inl closed
          · intro _ last closed
            exact Or.inl closed
      | error message => exact opened rfl
  exact work_meets message fun _ _ opened => opened

def Event.isAbort : Event → Bool
  | .aborted _ => true
  | _ => false

theorem mem_of_aborted_mem {trace : List Event} {kind : ProtocolErrorKind} (event : Event)
    (other : event.isAbort = false) (said : .aborted kind ∈ trace ++ [event]) : .aborted kind ∈ trace := by
  rcases List.mem_append.mp said with earlier | same
  · exact earlier
  · rw [← List.mem_singleton.mp same] at other
    cases other

theorem Effect.aborted {before after : Conn × Hand} (effect : Effect before after) {kind : ProtocolErrorKind}
    (said : .aborted kind ∈ after.1.trace) :
    .aborted kind ∈ before.1.trace ∨ before.2.violated ≠ none ∧ before.1.closed = false := by
  have quiets : ∀ {before after : Conn × Hand}, QuietEffect before after → .aborted kind ∈ after.1.trace →
      .aborted kind ∈ before.1.trace := by
    intro before after effect said
    cases effect with
    | quiet same => exact same.trace ▸ said
    | forget fewer => exact said
  cases effect with
  | abort violated isOpen =>
      rename_i conn hand kind
      exact Or.inr ⟨by rw [violated]; nofun, isOpen⟩
  | close effect =>
      left
      cases effect with
      | quiet effect => exact quiets effect said
      | cancel q isOpen => exact mem_of_aborted_mem (.questionCanceled _) rfl said
      | rejectHere owner reason calls =>
          rcases Conn.mem_sayRejected said with earlier | ⟨call, same⟩
          · exact earlier
          · cases same
      | closeImport reason found closed =>
          rcases Conn.mem_sayRejected said with earlier | ⟨call, same⟩
          · exact earlier
          · cases same
      | _ => exact said
  | describe effect =>
      left
      cases effect with
      | quiet effect => exact quiets effect said
      | mention found => exact mem_of_aborted_mem (.importDescribed _ _) rfl said
      | create made free =>
          rw [Conn.withExport_eq] at said
          exact said
      | promise question transform free =>
          rw [Conn.withPromise_eq] at said
          exact said
      | exported current number found sameExport origin =>
          exact mem_of_aborted_mem (.promiseExported _ _ _ _ _) rfl said
      | _ => exact said
  | issue method => exact Or.inl (mem_of_aborted_mem (.questionIssued _ _) rfl said)
  | refuse reason asked => exact Or.inl (mem_of_aborted_mem (.callRefused _ _) rfl said)
  | forgetAnswer reason asked found unrouted => exact Or.inl (mem_of_aborted_mem (.callRefused _ _) rfl said)
  | takeReturn returned isOpen => exact Or.inl (mem_of_aborted_mem (.returnUsed _ _) rfl said)
  | releaseFailed releasing => exact Or.inl (mem_of_aborted_mem (.releaseFailed _) rfl said)
  | resolve resumed prepared => exact Or.inl (mem_of_aborted_mem (.promiseResolved _ _ _) rfl said)
  | newImport isPromise unknown given =>
      rw [Conn.withImport_eq] at said
      exact Or.inl said
  | _ => exact Or.inl said

theorem Effect.unviolated {before after : Conn × Hand} (effect : Effect before after)
    (clean : after.2.violated = none) : before.2.violated = none := by
  have quiets : ∀ {before after : Conn × Hand}, QuietEffect before after → after.2.violated = none →
      before.2.violated = none := by
    intro before after effect clean
    cases effect with
    | quiet same => exact clean
    | forget fewer => exact fewer.violated.symm.trans clean
  cases effect with
  | close effect =>
      cases effect with
      | quiet effect => exact quiets effect clean
      | _ => exact clean
  | describe effect =>
      cases effect with
      | quiet effect => exact quiets effect clean
      | _ => exact clean
  | violate received broken => cases clean
  | _ => exact clean

theorem unviolated_of_effects {before after : Conn × Hand} (steps : ReflTransGen Effect before after)
    (clean : after.2.violated = none) :
    before.2.violated = none ∧ ∀ kind, .aborted kind ∈ after.1.trace → .aborted kind ∈ before.1.trace := by
  induction steps with
  | refl => exact ⟨clean, fun kind said => said⟩
  | tail _ effect ih =>
      have unviolated := effect.unviolated clean
      obtain ⟨clean, earlier⟩ := ih unviolated
      refine ⟨clean, fun kind said => earlier kind ?_⟩
      exact (effect.aborted said).resolve_right fun violation => violation.1 unviolated

theorem hushed_of_effects {before after : Conn × Hand} (steps : ReflTransGen Effect before after)
    (closed : before.1.closed = true) :
    after.1.closed = true ∧ ∀ kind, .aborted kind ∈ after.1.trace → .aborted kind ∈ before.1.trace := by
  induction steps with
  | refl => exact ⟨closed, fun kind said => said⟩
  | tail _ effect ih =>
      obtain ⟨still, earlier⟩ := ih
      refine ⟨effect.closed still, fun kind said => earlier kind ?_⟩
      refine (effect.aborted said).resolve_right fun violation => ?_
      cases still.symm.trans violation.2

def Conn.Unaborted (conn : Conn) : Prop := ∀ kind, .aborted kind ∉ conn.trace

theorem unaborted_of_closed (wellFormed : conn.WellFormed) {input : Input} {after : Conn}
    (taken : conn.step input = some after) (closed : conn.closed = true) : after.Unaborted := by
  obtain ⟨left, steps, _⟩ := (Conn.step_effects wellFormed taken).reached
  intro kind said
  cases (hushed_of_effects steps closed).2 kind said

section Routing

variable {id promised : WireId} {transform : Transform} {method : Method} {sendResultsTo : SendResultsTo}
  {params : Payload} {a pa : Nat}

theorem routePromised_keeps (call : Call) (answering : conn.Answering hand id a) (other : promised.id ≠ id.id)
    (found : find conn.answers promised.id = some pa) :
    Keeps Effect (routeCallMessage a (.promisedAnswer promised transform) call) conn hand fun _ _ => True := by
  apply Keeps.get
  rw [answering.same, if_neg other, found]
  dsimp only
  split
  · apply Keeps.bind ((clientFromResolution_keeps transform _ _).lift fun _ _ => QuietEffect.effect)
    intro client after steps _ _
    apply Keeps.bind (callClient_keeps conn.stack client call)
    intro answer last more _ _
    have later := answering.after (steps.trans more)
    exact joinAnswer_keeps answer later.made later.may
  · exact queueCall_keeps call transform answering.made answering.may

theorem startPipelined_keeps (message : Nat)
    (received : hand.message = some (.call id (.promisedAnswer promised transform) method sendResultsTo params))
    (answering : conn.Answering hand id a) (inserted : find conn.answers id.id = some a)
    (unrouted : (conn.answer a).routed = false) (other : promised.id ≠ id.id)
    (found : find conn.answers promised.id = some pa) :
    Keeps Effect (startCall a id (.promisedAnswer promised transform) method sendResultsTo params message) conn hand
      fun _ _ => True := by
  have refuses : Keeps Effect (do
      let _ ← popAnswer id.id
      refuseCall id params RPC_UNIMPLEMENTED) conn hand fun _ _ => True := by
    apply Keeps.of_ok (v := ()) (n := ((conn.setAnswerSlot id.id none).say
      (.callRefused id params.capTable)).send (newReturnMessage id (.exception RPC_UNIMPLEMENTED)))
    · rfl
    · exact .single (.forgetAnswer _ received inserted unrouted)
    · intro formed
      exact ((formed.clearAnswerSlot id.id).say _).send _
    · trivial
  have routes : ∀ method', Keeps Effect (do
      alterAnswer a fun entry => { entry with sendResultsElsewhere := decide (sendResultsTo = .yourself) }
      readContent params.content
      catchNonProtocol
        (routeCallMessage a (.promisedAnswer promised transform)
          { method := method', params := { content := params.content, message := message } })
        fun reason => rejectAnswer a reason) conn hand fun _ _ => True := by
    intro method'
    apply Keeps.bind (Q := fun _ after => after.Answering hand id a ∧ find after.answers promised.id = some pa)
    · apply Keeps.modify (.single (QuietEffect.quiet (Quiet.alterAnswer rfl)).effect)
      · intro formed
        exact formed.touchAnswer rfl (fun waits => waits) fun _ member => member
      · exact ⟨answering.after (.single (QuietEffect.quiet (Quiet.alterAnswer rfl)).effect), found⟩
    · rintro _ after _ _ ⟨answering, found⟩
      apply Keeps.bind (readContent_keeps params.content)
      rintro _ read _ _ rfl
      apply Runs.tryCatch (routePromised_keeps _ answering other found)
      rintro error last left steps _ ⟨rfl, plain⟩
      cases error with
      | protocol kind message => cases plain
      | error message =>
          have later := answering.after steps
          exact (rejectAnswer_keeps a message fun _ => later.may).lift fun _ _ => Effect.close
  apply Keeps.get
  cases sendResultsTo with
  | thirdParty =>
      cases conn.lookupMethod method with
      | _ => exact refuses
  | caller =>
      cases conn.lookupMethod method with
      | none => exact refuses
      | some method' => exact routes method'
  | yourself =>
      cases conn.lookupMethod method with
      | none => exact refuses
      | some method' => exact routes method'

end Routing

/-- A further call of the peer: its number is not in use, and its payload names what the tables have. -/
structure Conn.Proper (conn : Conn) (id : WireId) (params : Payload) : Prop where
  unused : find conn.answers id.id = none
  readable : ∀ kind reason after, readPayload params conn.fresh ≠ .error (.protocol kind reason) after

theorem readNonProtocol_ok {α : Type} {program : ConnM α} {value : α} {after : Conn}
    (run : program conn = .ok value after) : readNonProtocol program conn = .ok (.ok value) after := by
  change EStateM.tryCatch (program >>= fun value => pure (Except.ok value)) _ conn = _
  unfold EStateM.tryCatch
  rw [bind_apply, run]
  rfl

theorem readNonProtocol_error {α : Type} {program : ConnM α} {reason : String} {after : Conn}
    (run : program conn = .error (.error reason) after) :
    readNonProtocol program conn = .ok (.error reason) after := by
  change EStateM.tryCatch (program >>= fun value => pure (Except.ok value)) _ conn = _
  unfold EStateM.tryCatch
  rw [bind_apply, run]
  rfl

theorem insertAnswer_free {id : WireId} (free : find conn.answers id.id = none) :
    insertAnswer id conn = .ok (some conn.objects) (conn.withAnswer id) := by
  rw [insertAnswer, Outcome.bind_apply, Outcome.get_apply]
  dsimp only
  rw [free]
  rfl

theorem handlePipelined_unaborted (wellFormed : conn.WellFormed) {id promised : WireId} {transform : Transform}
    {method : Method} {sendResultsTo : SendResultsTo} {params : Payload} (proper : conn.Proper id params)
    (placed : (find conn.answers promised.id).isSome) :
    Meets (handleCallMessage id (.promisedAnswer promised transform) method sendResultsTo params) conn.fresh
      (fun _ after => after.Unaborted) fun error after => error.isPlain = true ∧ after.Unaborted := by
  obtain ⟨pa, found⟩ := Option.isSome_iff_exists.mp placed
  have other : promised.id ≠ id.id := by
    intro same
    rw [same, proper.unused] at found
    cases found
  have fixes := readPayload_fixes params conn.fresh
  have reads := readPayload_runs conn.fresh
    (Hand.receiving (.call id (.promisedAnswer promised transform) method sendResultsTo params)) params rfl rfl rfl
    { wellFormed with }
  unfold Meets at fixes reads
  have refused : ∀ reason (after : Conn), after.trace = [] →
      Meets (refuseCall id params reason) after (fun _ last => last.Unaborted)
        fun error last => error.isPlain = true ∧ last.Unaborted := by
    intro reason after silent kind said
    change .aborted kind ∈ after.trace ++ [.callRefused id params.capTable] at said
    rw [silent] at said
    cases List.mem_singleton.mp said
  unfold handleCallMessage
  rw [if_neg (by nofun)]
  apply Meets.bind
  unfold Meets
  cases run : readPayload params conn.fresh with
  | ok struct after =>
      rw [run] at fixes reads
      simp only [Conn.answering, Conn.fresh, Prod.mk.injEq] at fixes
      obtain ⟨answers, closed, silent, _⟩ := fixes
      obtain ⟨left, _, formed, rfl⟩ := reads
      rw [readNonProtocol_ok run]
      dsimp only
      apply Meets.bind
      have free : find after.answers id.id = none := by
        rw [answers]
        exact proper.unused
      unfold Meets
      rw [insertAnswer_free free]
      dsimp only
      have begins : find (after.withAnswer id).answers promised.id = some pa := by
        simp only [Conn.withAnswer, Conn.allocated, Conn.alterAnswer, Conn.setAnswerSlot]
        rw [find_put_other _ _ other, answers]
        exact found
      have answering : (after.withAnswer id).Answering
          { Hand.receiving (.call id (.promisedAnswer promised transform) method sendResultsTo params) with
            incoming := [] } id after.objects :=
        ⟨Nat.lt_succ_self _, by rw [Conn.withAnswer_answer], rfl⟩
      have unrouted : ((after.withAnswer id).answer after.objects).routed = false := by
        rw [Conn.withAnswer_answer]
      have inserted : find (after.withAnswer id).answers id.id = some after.objects := by
        simp [Conn.withAnswer, Conn.allocated, Conn.alterAnswer, Conn.setAnswerSlot]
      have keeps := startPipelined_keeps struct.message rfl answering inserted unrouted other begins
        (formed.withAnswer id)
      apply keeps.mono
      · rintro _ last ⟨left, steps, _, rfl, _⟩ kind said
        have earlier := (unviolated_of_effects steps rfl).2 kind said
        change .aborted kind ∈ after.trace at earlier
        rw [silent] at earlier
        cases earlier
      · rintro error last ⟨left, steps, _, rfl, plain⟩
        refine ⟨plain, ?_⟩
        intro kind said
        have earlier := (unviolated_of_effects steps rfl).2 kind said
        change .aborted kind ∈ after.trace at earlier
        rw [silent] at earlier
        cases earlier
  | error error after =>
      rw [run] at fixes
      simp only [Conn.answering, Conn.fresh, Prod.mk.injEq] at fixes
      cases error with
      | protocol kind reason => exact absurd run (proper.readable kind reason after)
      | error reason =>
          rw [readNonProtocol_error run]
          exact refused reason after fixes.2.2.1

theorem pipelined_unaborted (wellFormed : conn.WellFormed) {id promised : WireId} {transform : Transform}
    {method : Method} {sendResultsTo : SendResultsTo} {params : Payload} (proper : conn.Proper id params)
    (placed : (find conn.answers promised.id).isSome) :
    (conn.run (work (.call id (.promisedAnswer promised transform) method sendResultsTo params))).Unaborted := by
  apply run_meets (P := Conn.Unaborted)
  apply work_meets _ fun _ _ unaborted => unaborted
  apply Meets.tryCatch
  apply (handlePipelined_unaborted wellFormed proper placed).mono
  · exact fun _ _ unaborted => unaborted
  · rintro error after ⟨plain, unaborted⟩
    cases error with
    | protocol kind reason => cases plain
    | error reason => exact unaborted

section Passing

/-- A call on the answer `pa` has joined its queue, or has been made on the client that the path leads to. -/
inductive Conn.Passed (pa : Nat) (entry : AnswerEntry) (id : Nat) (transform : Transform) (call : Call) (after : Conn) : Prop
  | queued {a : Nat} (listed : find after.answers id = some a) (pending : entry.done = false)
      (queue : (after.answer pa).queue = entry.queue ++ [{ answer := a, call := call, transform := transform }])
  | routed {a client depth : Nat} {answer : Answer} {start found last : Conn} (listed : find after.answers id = some a)
      (done : entry.done = true) (leads : clientFromResolution transform entry.obj entry.err start = .ok client found)
      (made : callClient depth client call found = .ok answer last) (joined : (after.answer a).joined = some answer)

/-- A call on an answer is queued, or routed, or answered with an exception. -/
def Conn.Deals (before : Conn) (id promised : WireId) (transform : Transform) (method : Method) (params : Payload)
    (after : Conn) : Prop :=
  (∃ pa call, find before.answers promised.id = some pa ∧ before.lookupMethod method = some call.method ∧
    call.params.content = params.content ∧ after.Passed pa (before.answer pa) id.id transform call) ∨
    ∃ releaseParamCaps reason, .ret id releaseParamCaps false (.exception reason) ∈ after.sent

variable {id promised : WireId} {transform : Transform} {call : Call} {a pa : Nat}

theorem routePromised_passes (number : (conn.answer a).id = id) (other : promised.id ≠ id.id) (apart : pa ≠ a)
    (listed : find conn.answers id.id = some a) (found : find conn.answers promised.id = some pa) :
    Meets (routeCallMessage a (.promisedAnswer promised transform) call) conn
      (fun _ after => after.Passed pa (conn.answer pa) id.id transform call)
      fun _ after => Asks {Power.ask} conn after := by
  apply Meets.get
  rw [number, if_neg other, found]
  dsimp only
  cases done : (conn.answer pa).done with
  | false =>
      rw [if_neg Bool.false_ne_true]
      apply Meets.get
      split
      · exact .refl
      · change Conn.Passed pa (conn.answer pa) id.id transform call ((conn.alterAnswer a _).alterAnswer pa _)
        refine .queued (a := a) listed done ?_
        simp [Conn.alterAnswer, apart]
  | true =>
      rw [if_pos rfl]
      have leads := asks_of_idle (P := {Power.ask})
        (clientFromResolution_idle transform (conn.answer pa).obj (conn.answer pa).err) conn
      apply Meets.bind
      apply leads.ran.mono
      · rintro client held ⟨leads, sooner⟩
        apply Meets.bind
        apply (callClient_asks (Set.mem_singleton Power.ask) conn.stack client call held).ran.mono
        · rintro answer last ⟨made, later⟩
          have still : find last.answers id.id = some a := by
            rw [(Aside.of_asks (sooner.trans later)).answers]
            exact listed
          change Conn.Passed pa (conn.answer pa) id.id transform call (last.alterAnswer a _)
          refine .routed (a := a) still done leads made ?_
          simp [Conn.alterAnswer]
        · rintro error last ⟨_, later⟩
          exact sooner.trans later
      · rintro error last ⟨_, sooner⟩
        exact sooner

/-- An answer that can be rejected: it is pending, its Return can be sent, and every question that waits under its
number is in progress. -/
structure Conn.Refusable (conn : Conn) (id : WireId) (a : Nat) : Prop where
  number : (conn.answer a).id = id
  pending : (conn.answer a).done = false
  undeferred : (conn.answer a).deferred = none
  connected : conn.transportClosed = false
  made : ∀ q, (conn.question q).state = .inProgress → q < conn.objects
  unsettled : conn.Unsettled (conn.waitersOf id.id)
  fits : 0 < conn.stack

theorem Conn.Refusable.asks {after : Conn} (refusable : conn.Refusable id a) (asks : Asks P conn after) :
    after.Refusable id a := by
  obtain ⟨number, pending, undeferred, connected, made, ⟨distinct, waiting⟩, fits⟩ := refusable
  have aside := Aside.of_asks asks
  have making : Making conn after := Turns.making (ReflTransGen.mono (fun _ _ => Turn.ask) _ _ asks)
  have still : (after.answer a).done = false := (congrArg (·.2.1) (aside.answer a)).trans pending
  have waiters : after.waitersOf id.id = conn.waitersOf id.id := by
    rw [Conn.waitersOf, aside.waiters]
    rfl
  refine ⟨(congrArg (·.1) (aside.answer a)).trans number, still, ?_, (Refuses.of_asks asks).transport.trans connected,
    ?_, ?_, by rwa [making.stack]⟩
  · rcases making.deferred a still with none | ⟨_, same⟩
    · exact none
    · exact same.trans undeferred
  · intro q inProgress
    rcases making.question q inProgress with earlier | fresh
    · exact Nat.lt_of_lt_of_le (made q earlier) making.objects
    · exact fresh
  · rw [waiters]
    refine ⟨distinct, ?_⟩
    intro q waits
    have inProgress := waiting q waits
    exact (congrArg (·.1) (aside.question q (made q inProgress))).trans inProgress

theorem rejectAnswer_returns (refusable : conn.Refusable id a) (reason : String) :
    Meets (rejectAnswer a reason) conn (fun _ after => .ret id false false (.exception reason) ∈ after.sent)
      fun _ after => .ret id false false (.exception reason) ∈ after.sent := by
  obtain ⟨number, pending, undeferred, connected, made, unsettled, fits⟩ := refusable
  have returns : ∀ after, conn.Ends a (.error reason) (conn.Unsettled (conn.waitersOf (conn.answer a).id.id)) after →
      .ret id false false (.exception reason) ∈ after.sent := by
    intro after ends
    rw [number] at ends
    obtain ⟨body, refusals, rfl, replies, _⟩ := (ends.iff.mpr unsettled).returned
    rw [number] at replies
    have member : .ret id false false (.exception reason) ∈ after.replies := by simp [replies]
    exact (List.mem_filter.mp member).1
  obtain ⟨depth, deep⟩ := Nat.exists_eq_add_of_lt fits
  apply Meets.get
  rw [show conn.stack = depth + 1 by omega]
  apply (reject_ends depth a reason pending undeferred connected made).mono
  · exact fun _ after ends => returns after ends
  · exact fun _ after ends => returns after ends

theorem routePromised_deals (refusable : conn.Refusable id a) (other : promised.id ≠ id.id) (apart : pa ≠ a)
    (listed : find conn.answers id.id = some a) (found : find conn.answers promised.id = some pa) :
    Meets (catchNonProtocol (routeCallMessage a (.promisedAnswer promised transform) call) fun reason => rejectAnswer a reason)
      conn
      (fun _ after => after.Passed pa (conn.answer pa) id.id transform call ∨
        ∃ reason, .ret id false false (.exception reason) ∈ after.sent)
      fun error after => error.isPlain = true → after.Passed pa (conn.answer pa) id.id transform call ∨
        ∃ reason, .ret id false false (.exception reason) ∈ after.sent := by
  apply Meets.tryCatch
  apply (routePromised_passes refusable.number other apart listed found).mono
  · exact fun _ after passed => Or.inl passed
  · intro error failed asks
    cases error with
    | protocol kind message => exact (by nofun)
    | error message =>
        apply (rejectAnswer_returns (refusable.asks asks) message).mono
        · exact fun _ after sent => Or.inr ⟨message, sent⟩
        · exact fun _ after sent _ => Or.inr ⟨message, sent⟩

variable {method : Method} {sendResultsTo : SendResultsTo} {params : Payload}

theorem refuseCall_returns (connected : conn.transportClosed = false) (reason : String) :
    Meets (refuseCall id params reason) conn (fun _ after => .ret id true false (.exception reason) ∈ after.sent)
      fun _ _ => False := by
  change RpcMessage.ret id true false (.exception reason) ∈ ((conn.say _).send _).sent
  unfold Conn.send
  rw [if_neg (by rw [show (conn.say _).transportClosed = false from connected]; exact Bool.false_ne_true)]
  exact List.mem_append_right _ (List.mem_singleton_self _)

theorem startPipelined_deals (message : Nat) (refusable : conn.Refusable id a) (other : promised.id ≠ id.id)
    (apart : pa ≠ a) (listed : find conn.answers id.id = some a) (found : find conn.answers promised.id = some pa)
    (readable : params.content.readFault 0 = none) :
    Meets (startCall a id (.promisedAnswer promised transform) method sendResultsTo params message) conn
      (fun _ after => conn.Deals id promised transform method params after)
      fun error after => error.isPlain = true → conn.Deals id promised transform method params after := by
  have refuses : Meets (do
      let _ ← popAnswer id.id
      refuseCall id params RPC_UNIMPLEMENTED) conn
      (fun _ after => conn.Deals id promised transform method params after)
      fun error after => error.isPlain = true → conn.Deals id promised transform method params after := by
    apply Meets.bind
    have popped : Meets (popAnswer id.id) conn (fun _ after => after.transportClosed = false)
        fun _ _ => False := refusable.connected
    apply popped.mono
    · intro _ after connected
      apply (refuseCall_returns connected RPC_UNIMPLEMENTED).mono
      · exact fun _ last sent => Or.inr ⟨true, _, sent⟩
      · exact fun _ _ never => never.elim
    · exact fun _ _ never => never.elim
  have routes : ∀ method', conn.lookupMethod method = some method' → Meets (do
      alterAnswer a fun entry => { entry with sendResultsElsewhere := decide (sendResultsTo = .yourself) }
      readContent params.content
      catchNonProtocol
        (routeCallMessage a (.promisedAnswer promised transform)
          { method := method', params := { content := params.content, message := message } })
        fun reason => rejectAnswer a reason) conn
      (fun _ after => conn.Deals id promised transform method params after)
      fun error after => error.isPlain = true → conn.Deals id promised transform method params after := by
    intro method' known
    let start := conn.alterAnswer a fun entry => { entry with sendResultsElsewhere := decide (sendResultsTo = .yourself) }
    have ready : start.Refusable id a :=
      refusable.asks (P := ∅) (.single (.idle (.alterAnswer conn a rfl rfl)))
    have entry : start.answer pa = conn.answer pa := by simp [start, Conn.alterAnswer, apart]
    have reads : readContent params.content = pure () := by
      unfold readContent
      rw [readable]
    apply Meets.bind
    change Meets _ start _ _
    rw [reads]
    apply Meets.bind
    apply (routePromised_deals ready other apart listed found).mono
    · rintro _ after (passed | ⟨reason, sent⟩)
      · rw [entry] at passed
        exact Or.inl ⟨pa, _, found, known, rfl, passed⟩
      · exact Or.inr ⟨false, reason, sent⟩
    · intro error after deals plain
      rcases deals plain with passed | ⟨reason, sent⟩
      · rw [entry] at passed
        exact Or.inl ⟨pa, _, found, known, rfl, passed⟩
      · exact Or.inr ⟨false, reason, sent⟩
  apply Meets.get
  cases sendResultsTo with
  | thirdParty =>
      cases conn.lookupMethod method with
      | _ => exact refuses
  | caller =>
      cases known : conn.lookupMethod method with
      | none => exact refuses
      | some method' => exact routes method' known
  | yourself =>
      cases known : conn.lookupMethod method with
      | none => exact refuses
      | some method' => exact routes method' known

theorem handlePipelined_deals (wellFormed : conn.WellFormed) (proper : conn.Proper id params)
    (found : find conn.answers promised.id = some pa) (connected : conn.transportClosed = false)
    (made : ∀ q, (conn.question q).state = .inProgress → q < conn.objects)
    (unsettled : conn.Unsettled (conn.waitersOf id.id)) (fits : 0 < conn.stack)
    (readable : params.content.readFault 0 = none) :
    Meets (handleCallMessage id (.promisedAnswer promised transform) method sendResultsTo params) conn.fresh
      (fun _ after => conn.Deals id promised transform method params after)
      fun error after => error.isPlain = true → conn.Deals id promised transform method params after := by
  have other : promised.id ≠ id.id := by
    intro same
    rw [same, proper.unused] at found
    cases found
  have fixes := readPayload_fixes params conn.fresh
  have idles := readPayload_idle (P := {Power.adopt}) params (fun _ => Set.mem_singleton _) conn.fresh
  unfold Meets at fixes idles
  unfold handleCallMessage
  rw [if_neg (by nofun)]
  apply Meets.bind
  unfold Meets
  cases run : readPayload params conn.fresh with
  | error error after =>
      rw [run] at idles
      cases error with
      | protocol kind reason => exact absurd run (proper.readable kind reason after)
      | error reason =>
          have refuses : Meets (refuseCall id params reason) after
              (fun _ last => conn.Deals id promised transform method params last)
              fun error last => error.isPlain = true → conn.Deals id promised transform method params last :=
            (refuseCall_returns (idles.transport.trans connected) reason).mono
              (fun _ _ sent => Or.inr ⟨true, _, sent⟩) fun _ _ never => never.elim
          rw [readNonProtocol_error run]
          exact refuses
  | ok struct read =>
      rw [run] at fixes idles
      simp only [Conn.answering, Conn.fresh, Prod.mk.injEq] at fixes
      obtain ⟨answers, _, _, entries, registry, waiters, _⟩ := fixes
      rw [readNonProtocol_ok run]
      dsimp only
      apply Meets.bind
      have free : find read.answers id.id = none := by
        rw [answers]
        exact proper.unused
      have early : conn.objects ≤ read.objects := idles.objects
      have apart : pa ≠ read.objects := Nat.ne_of_lt (Nat.lt_of_lt_of_le (wellFormed.answers promised.id pa found) early)
      unfold Meets
      rw [insertAnswer_free free]
      dsimp only
      have number : (read.withAnswer id).answer read.objects = { id := id } := Conn.withAnswer_answer read id
      have state : ∀ q, ((read.withAnswer id).question q).state = (conn.question q).state :=
        fun q => congrArg (·.2.1) (idles.question q)
      have refusable : (read.withAnswer id).Refusable id read.objects := by
        refine ⟨by rw [number], by rw [number], by rw [number], idles.transport.trans connected, ?_, ?_, ?_⟩
        · intro q inProgress
          rw [state] at inProgress
          exact Nat.lt_succ_of_lt (Nat.lt_of_lt_of_le (made q inProgress) early)
        · have listed : (read.withAnswer id).waitersOf id.id = conn.waitersOf id.id := by
            rw [Conn.waitersOf, show (read.withAnswer id).tailAnswerWaiters = conn.tailAnswerWaiters from waiters]
            rfl
          rw [listed]
          exact ⟨unsettled.1, fun q waits => (state q).trans (unsettled.2 q waits)⟩
        · rw [show (read.withAnswer id).stack = conn.stack from idles.stack]
          exact fits
      have placed : find (read.withAnswer id).answers promised.id = find conn.answers promised.id := by
        simp only [Conn.withAnswer, Conn.allocated, Conn.alterAnswer, Conn.setAnswerSlot]
        rw [find_put_other _ _ other, answers]
      have entry : (read.withAnswer id).answer pa = conn.answer pa := by
        simp [Conn.withAnswer, Conn.allocated, Conn.alterAnswer, Conn.setAnswerSlot, apart, entries]
      have inserted : find (read.withAnswer id).answers id.id = some read.objects := by
        simp [Conn.withAnswer, Conn.allocated, Conn.alterAnswer, Conn.setAnswerSlot]
      have same : ∀ after, (read.withAnswer id).Deals id promised transform method params after →
          conn.Deals id promised transform method params after := by
        rintro after (⟨pa', call, found', known, content, passed⟩ | sent)
        · cases (placed.symm.trans found').symm.trans found
          rw [entry] at passed
          refine Or.inl ⟨pa, call, found, ?_, content, passed⟩
          rwa [Conn.lookupMethod, show (read.withAnswer id).registry = conn.registry from registry] at known
        · exact Or.inr sent
      change Meets (startCall _ id _ method sendResultsTo params struct.message) (read.withAnswer id) _ _
      apply (startPipelined_deals struct.message refusable other apart inserted (placed.trans found) readable).mono
      · exact fun _ after deals => same after deals
      · exact fun _ after deals plain => same after (deals plain)

end Passing

theorem pipelined_deals (wellFormed : conn.WellFormed) {id promised : WireId} {transform : Transform}
    {method : Method} {sendResultsTo : SendResultsTo} {params : Payload} (proper : conn.Proper id params)
    (placed : (find conn.answers promised.id).isSome) (connected : conn.transportClosed = false)
    (made : ∀ q, (conn.question q).state = .inProgress → q < conn.objects)
    (unsettled : conn.Unsettled (conn.waitersOf id.id)) (fits : 0 < conn.stack)
    (readable : params.content.readFault 0 = none) :
    conn.Deals id promised transform method params
      (conn.run (work (.call id (.promisedAnswer promised transform) method sendResultsTo params))) := by
  obtain ⟨pa, found⟩ := Option.isSome_iff_exists.mp placed
  apply run_meets (P := conn.Deals id promised transform method params)
  apply work_meets
  · apply Meets.tryCatch
    have deals : Meets (handleCallMessage id (.promisedAnswer promised transform) method sendResultsTo params) conn.fresh
        (fun _ after => conn.Deals id promised transform method params after)
        fun error after => error.isPlain = true → conn.Deals id promised transform method params after :=
      handlePipelined_deals wellFormed proper found connected made unsettled fits readable
    apply (deals.and (handlePipelined_unaborted wellFormed proper placed)).mono
    · exact fun _ _ ended => ended.1
    · rintro error after ⟨deals, plain, _⟩
      cases error with
      | protocol kind reason => cases plain
      | error reason => exact deals rfl
  · rintro last receiving (⟨pa, call, found, known, content, passed⟩ | sent)
    · refine Or.inl ⟨pa, call, found, known, content, ?_⟩
      cases passed with
      | queued listed pending queue => exact .queued listed pending queue
      | routed listed done leads made joined => exact .routed listed done leads made joined
    · exact Or.inr sent

def refusals (trace : List Event) : List Nat :=
  trace.filterMap fun
    | .callRefused id _ => some id.id
    | _ => none

structure Conversation where
  conn : Conn
  -- whose Call has arrived and whose Finish has not
  unfinished : List Nat := []
  -- whose Call was refused at once
  refused : List Nat := []

def Conversation.step (state : Conversation) (input : Input) : Option Conversation :=
  (state.conn.step input).map fun after =>
    match input with
    | .receive (.call id _ _ _ _) => {
        conn := after
        unfinished := id.id :: state.unfinished
        refused := state.refused.filter (· ≠ id.id) ++ refusals after.trace
      }
    | .receive (.finish id _) => {
        conn := after
        unfinished := state.unfinished.filter (· ≠ id.id)
        refused := state.refused.filter (· ≠ id.id) ++ refusals after.trace
      }
    | _ => { state with conn := after, refused := state.refused ++ refusals after.trace }

/-- A proper call on the answer of an unfinished question that was not refused does not abort the connection. While
the connection is open, it is queued, routed or answered with an exception, as long as its parameters can be read and
the questions that wait under its own number are in progress. -/
def Conversation.Pipelines (state : Conversation) : Prop :=
  ∀ (id promised : WireId) (transform : Transform) (method : Method) (sendResultsTo : SendResultsTo)
    (params : Payload) (after : Conn), promised.id ∈ state.unfinished → promised.id ∉ state.refused →
    state.conn.Proper id params →
    state.conn.step (.receive (.call id (.promisedAnswer promised transform) method sendResultsTo params)) = some after →
    after.Unaborted ∧ (state.conn.closed = false → params.content.readFault 0 = none →
      state.conn.Unsettled (state.conn.waitersOf id.id) → state.conn.Deals id promised transform method params after)

structure Conversation.Invariant (state : Conversation) : Prop where
  wellFormed : state.conn.WellFormed
  winding : Winding state.conn
  placed : ∀ id ∈ state.unfinished, id ∉ state.refused →
    state.conn.closed = true ∨ (find state.conn.answers id).isSome

theorem Conn.Opened.placed {id : Nat} (opened : conn.Opened id) (unrefused : id ∉ refusals conn.trace) :
    conn.closed = true ∨ (find conn.answers id).isSome := by
  rcases opened with closed | found | ⟨asked, capTable, same, said⟩
  · exact Or.inl closed
  · exact Or.inr found
  · have member : id ∈ refusals conn.trace := by
      unfold refusals
      rw [List.mem_filterMap]
      exact ⟨_, said, congrArg some same⟩
    exact absurd member unrefused

theorem Conversation.Invariant.kept {state : Conversation} (invariant : state.Invariant) {after : Conn} {input : Input}
    (taken : state.conn.step input = some after) {id : Nat} (member : id ∈ state.unfinished)
    (unrefused : id ∉ state.refused) (still : id ∉ refusals after.trace)
    (unfinished : ∀ asked releaseResultCaps, input = .receive (.finish asked releaseResultCaps) → asked.id ≠ id) :
    after.closed = true ∨ (find after.answers id).isSome := by
  obtain ⟨left, steps, idle⟩ := (Conn.step_effects invariant.wellFormed taken).reached
  have opened : state.conn.fresh.Opened id := by
    rcases invariant.placed id member unrefused with closed | found
    · exact Or.inl closed
    · exact Or.inr (Or.inl found)
  apply Conn.Opened.placed _ still
  apply (opened_of_effects steps ?_ opened).1
  intro asked releaseResultCaps message
  cases input with
  | act action => cases message
  | receive m =>
      cases message
      exact unfinished asked releaseResultCaps rfl

theorem Conversation.Invariant.step {state after : Conversation} {input : Input} (invariant : state.Invariant)
    (taken : state.step input = some after) : after.Invariant := by
  obtain ⟨conn, stepped, rfl⟩ := Option.map_eq_some_iff.mp taken
  have effects := Conn.step_effects invariant.wellFormed stepped
  have winding : Winding conn := by
    obtain ⟨left, steps, idle⟩ := effects.reached
    exact winding_of_effects steps ⟨invariant.winding.stopped, invariant.winding.closing⟩
  have others : (∀ id releaseResultCaps, input ≠ .receive (.finish id releaseResultCaps)) → ∀ id ∈ state.unfinished,
      id ∉ state.refused → id ∉ refusals conn.trace → conn.closed = true ∨ (find conn.answers id).isSome := by
    intro unfinishing id member unrefused still
    exact invariant.kept stepped member unrefused still fun asked releaseResultCaps same =>
      absurd same (unfinishing asked releaseResultCaps)
  cases input with
  | act action =>
      refine ⟨effects.wellFormed, winding, ?_⟩
      intro id member unrefused
      simp only [List.mem_append, not_or] at unrefused
      exact others nofun id member unrefused.1 unrefused.2
  | receive m =>
      cases m with
      | call asked target method sendResultsTo params =>
          refine ⟨effects.wellFormed, winding, ?_⟩
          intro id member unrefused
          simp only [List.mem_append, List.mem_filter, decide_eq_true_eq, not_or, not_and] at unrefused
          by_cases own : id = asked.id
          · subst own
            have waits : state.conn.receiving = true := by
              by_contra idle
              simp [Conn.step, idle] at stepped
            simp only [Conn.step, waits, if_true, Option.some.injEq] at stepped
            subst stepped
            exact (call_opens invariant.wellFormed asked target method sendResultsTo params).placed unrefused.2
          · have before := (List.mem_cons.mp member).resolve_left own
            exact others nofun id before (fun old => unrefused.1 old own) unrefused.2
      | finish asked releaseResultCaps =>
          refine ⟨effects.wellFormed, winding, ?_⟩
          intro id member unrefused
          simp only [List.mem_append, List.mem_filter, decide_eq_true_eq, not_or, not_and] at unrefused member
          apply invariant.kept stepped member.1 (fun old => unrefused.1 old member.2) unrefused.2
          rintro asked' releaseResultCaps' ⟨⟩
          exact Ne.symm member.2
      | _ =>
          refine ⟨effects.wellFormed, winding, ?_⟩
          intro id member unrefused
          simp only [List.mem_append, not_or] at unrefused
          exact others nofun id member unrefused.1 unrefused.2

theorem Conversation.step_conn {state after : Conversation} {input : Input} (taken : state.step input = some after) :
    state.conn.step input = some after.conn := by
  obtain ⟨conn, stepped, rfl⟩ := Option.map_eq_some_iff.mp taken
  cases input with
  | act action => exact stepped
  | receive m =>
      cases m with
      | _ => exact stepped

theorem Conversation.run_conn {start state : Conversation}
    (run : Transition.Run Conversation.step (fun _ _ _ => True) start state) :
    Transition.Run Conn.step (fun _ _ _ => True) start.conn state.conn := by
  induction run with
  | start => exact .start
  | step _ taken _ ih => exact .step ih (Conversation.step_conn taken) trivial

def smallConn : Conn where
  registry := fun interfaceId => if interfaceId = 7 then some [{ interfaceId := 7, methodId := 0 }] else none

def callMain (interfaceId : Nat) : List Input :=
  [.act (.newServer [{ interfaceId := 7, methodId := 0 }]), .act (.initMain 0),
    .receive (.call { id := 0, object := 0 } (.importedCap { id := 0, object := 1 })
      { interfaceId := interfaceId, methodId := 0 } .caller { content := .interface, capTable := [] })]

def callPipelined : RpcMessage :=
  .call { id := 1, object := 1 } (.promisedAnswer { id := 0, object := 0 } [])
    { interfaceId := 7, methodId := 0 } .caller { content := .interface, capTable := [] }

theorem proper_of_unused {id : WireId} {content : Content} (unused : find conn.answers id.id = none) :
    conn.Proper id { content := content, capTable := [] } := by
  have reads : ∃ struct after, readPayload { content := content, capTable := [] } conn.fresh = .ok struct after :=
    ⟨_, _, rfl⟩
  obtain ⟨struct, made, run⟩ := reads
  refine ⟨unused, ?_⟩
  intro kind reason after
  rw [run]
  nofun

end CapnpEs.Rpc
