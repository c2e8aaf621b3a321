import CapnpEs.Library.Transition
import CapnpEs.Rpc.TableInvariants

/-! A connection whose peer answers every loopback: which import an answer lifts the embargo of. -/

namespace CapnpEs.Rpc

open Relation SlotTable

def RpcMessage.loopback : RpcMessage → Option WireId
  | .disembargo _ (.senderLoopback id) => some id
  | _ => none

def loopbacks (sent : List RpcMessage) : List WireId := sent.filterMap RpcMessage.loopback

theorem loopbacks_append (first second : List RpcMessage) :
    loopbacks (first ++ second) = loopbacks first ++ loopbacks second :=
  List.filterMap_append

theorem loopbacks_send (conn : Conn) {message : RpcMessage} (other : message.loopback = none) :
    loopbacks (conn.send message).sent = loopbacks conn.sent := by
  unfold Conn.send
  dsimp only
  split
  · rfl
  · simp [loopbacks, other]

theorem loopbacks_prefix_send (conn : Conn) (message : RpcMessage) :
    loopbacks conn.sent <+: loopbacks (conn.send message).sent := by
  unfold Conn.send
  dsimp only
  split
  · exact List.prefix_refl _
  · rw [loopbacks_append]
    exact List.prefix_append _ _

theorem RpcMessage.loopback_notice {message : RpcMessage} (plain : message.isNotice) : message.loopback = none := by
  cases message with
  | disembargo target context =>
      cases context with
      | senderLoopback id => cases plain
      | receiverLoopback id => rfl
      | other => rfl
  | _ => rfl

/-- A connection that is shutting down takes no messages. -/
structure Winding (conn : Conn) : Prop where
  stopped : conn.closed = true → conn.working = false
  closing : conn.transportClosed = true → conn.closed = true

theorem Effect.winding {before after : Conn × Hand} (effect : Effect before after) (winding : Winding before.1) :
    Winding after.1 := by
  obtain ⟨stopped, closing⟩ := winding
  have quiets : ∀ {before after : Conn × Hand}, QuietEffect before after →
      (before.1.closed = true → before.1.working = false) →
      (before.1.transportClosed = true → before.1.closed = true) → Winding after.1 := by
    intro before after effect stopped closing
    cases effect with
    | quiet same =>
        constructor
        · intro closed
          rw [same.closed] at closed
          have halted := stopped closed
          by_contra works
          rw [same.working (by simpa using works)] at halted
          cases halted
        · intro closed
          rw [same.transportClosed] at closed
          rw [same.closed]
          exact closing closed
    | forget fewer => exact ⟨stopped, closing⟩
  cases effect with
  | close effect =>
      cases effect with
      | quiet effect => exact quiets effect stopped closing
      | _ => exact ⟨stopped, closing⟩
  | describe effect =>
      cases effect with
      | quiet effect => exact quiets effect stopped closing
      | create made free =>
          rw [Conn.withExport_eq]
          exact ⟨stopped, closing⟩
      | promise question transform free =>
          rw [Conn.withPromise_eq]
          exact ⟨stopped, closing⟩
      | _ => exact ⟨stopped, closing⟩
  | newImport isPromise unknown given =>
      rw [Conn.withImport_eq]
      exact ⟨stopped, closing⟩
  | shut => exact ⟨fun _ => rfl, fun _ => rfl⟩
  | closeTransport closed => exact ⟨stopped, fun _ => closed⟩
  | _ => exact ⟨stopped, closing⟩

theorem winding_of_effects {before after : Conn × Hand} (steps : ReflTransGen Effect before after)
    (winding : Winding before.1) : Winding after.1 := by
  induction steps with
  | refl => exact winding
  | tail _ effect ih => exact effect.winding ih

theorem Effect.message {before after : Conn × Hand} (effect : Effect before after) :
    after.2.message = before.2.message := by
  have quiets : ∀ {before after : Conn × Hand}, QuietEffect before after → after.2.message = before.2.message := by
    intro before after effect
    cases effect with
    | quiet same => rfl
    | forget fewer => exact fewer.message
  cases effect with
  | close effect =>
      cases effect with
      | quiet effect => exact quiets effect
      | _ => rfl
  | describe effect =>
      cases effect with
      | quiet effect => exact quiets effect
      | _ => rfl
  | _ => rfl

inductive EmbargoChange (before after : Conn × Hand) : Prop
  | same (slots : ∀ id, find after.1.disembargoes id = none ∨
        find after.1.disembargoes id = find before.1.disembargoes id)
      (sent : loopbacks after.1.sent = loopbacks before.1.sent)
  | embargo {target : MessageTarget} {client : Nat} {promiseId : WireId} {resolution : Resolution}
      (made : after.1 = before.1.withEmbargo target client)
      (received : before.2.message = some (.resolve promiseId resolution))

theorem Effect.embargoChange {before after : Conn × Hand} (effect : Effect before after) :
    EmbargoChange before after := by
  have kept : ∀ {before after : Conn × Hand}, after.1.disembargoes = before.1.disembargoes →
      loopbacks after.1.sent = loopbacks before.1.sent → EmbargoChange before after := by
    intro before after slots sent
    exact .same (fun id => Or.inr (by rw [slots])) sent
  have quiets : ∀ {before after : Conn × Hand}, QuietEffect before after → EmbargoChange before after := by
    intro before after effect
    cases effect with
    | quiet same => exact .same same.disembargoes (by rw [same.sent])
    | forget fewer => exact kept rfl rfl
  cases effect with
  | close effect =>
      cases effect with
      | quiet effect => exact quiets effect
      | cancel q isOpen => exact kept rfl (loopbacks_send _ rfl)
      | reject reason owed => exact kept rfl (loopbacks_send _ rfl)
      | release held counted => exact kept rfl (loopbacks_send _ rfl)
      | _ => exact kept rfl rfl
  | describe effect =>
      cases effect with
      | quiet effect => exact quiets effect
      | create made free =>
          rw [Conn.withExport_eq]
          exact kept rfl rfl
      | promise question transform free =>
          rw [Conn.withPromise_eq]
          exact kept rfl rfl
      | _ => exact kept rfl rfl
  | newImport isPromise unknown given =>
      rw [Conn.withImport_eq]
      exact kept rfl rfl
  | ask method params isOpen unsent targets prepared => exact kept rfl (loopbacks_send _ rfl)
  | bootstrap isOpen unsent => exact kept rfl (loopbacks_send _ rfl)
  | discard given => exact kept rfl (loopbacks_send _ rfl)
  | refuse reason asked => exact kept rfl (loopbacks_send _ rfl)
  | forgetAnswer reason asked found unrouted => exact kept rfl (loopbacks_send _ rfl)
  | refuseBootstrap reason asked => exact kept rfl (loopbacks_send _ rfl)
  | results owed same prepared => exact kept rfl (loopbacks_send _ rfl)
  | elsewhere owed => exact kept rfl (loopbacks_send _ rfl)
  | finish returned took => exact kept rfl (loopbacks_send _ rfl)
  | resolve resumed prepared => exact kept rfl (loopbacks_send _ rfl)
  | notice plain => exact kept rfl (loopbacks_send _ (RpcMessage.loopback_notice plain))
  | embargo target client received => exact .embargo rfl received
  | _ => exact kept rfl rfl

theorem Effect.loopbacks_prefix {before after : Conn × Hand} (effect : Effect before after) :
    loopbacks before.1.sent <+: loopbacks after.1.sent := by
  cases effect.embargoChange with
  | same slots sent => exact sent ▸ List.prefix_refl _
  | embargo made received =>
      rw [made]
      exact loopbacks_prefix_send _ _

theorem Effect.working {before after : Conn × Hand} (effect : Effect before after)
    (works : after.1.working = true) : before.1.working = true := by
  have quiets : ∀ {before after : Conn × Hand}, QuietEffect before after → after.1.working = true →
      before.1.working = true := by
    intro before after effect works
    cases effect with
    | quiet same => exact same.working works
    | forget fewer => exact works
  cases effect with
  | close effect =>
      cases effect with
      | quiet effect => exact quiets effect works
      | _ => exact works
  | describe effect =>
      cases effect with
      | quiet effect => exact quiets effect works
      | create made free =>
          rw [Conn.withExport_eq] at works
          exact works
      | promise question transform free =>
          rw [Conn.withPromise_eq] at works
          exact works
      | _ => exact works
  | newImport isPromise unknown given =>
      rw [Conn.withImport_eq] at works
      exact works
  | shut => cases works
  | _ => exact works

/-- A loopback that is on its way finds the import it was sent for, or none. -/
def Conn.Lifts (conn : Conn) (id : WireId) : Prop :=
  find conn.disembargoes id.id = none ∨ find conn.disembargoes id.id = some id.object

theorem Effect.lifts {before after : Conn × Hand} (effect : Effect before after) {waiting : List WireId}
    (winding : Winding before.1) (distinct : ((waiting ++ loopbacks after.1.sent).map (·.id)).Nodup)
    (lifts : before.1.working = true → ∀ id ∈ waiting ++ loopbacks before.1.sent, before.1.Lifts id)
    (works : after.1.working = true) : ∀ id ∈ waiting ++ loopbacks after.1.sent, after.1.Lifts id := by
  have worked := effect.working works
  have old := lifts worked
  cases effect.embargoChange with
  | same slots sent =>
      intro id member
      rw [sent] at member
      unfold Conn.Lifts
      rcases slots id.id with gone | same
      · exact Or.inl gone
      · rw [same]
        exact old id member
  | embargo made received =>
      rename_i target client promiseId resolution
      have stillOpen : before.1.transportClosed = false := by
        by_contra shut
        have halted := winding.stopped (winding.closing (by simpa using shut))
        rw [worked] at halted
        cases halted
      have sent : loopbacks after.1.sent =
          loopbacks before.1.sent ++ [⟨before.1.disembargoID.next.1, client⟩] := by
        rw [made]
        simp [Conn.withEmbargo, Conn.send, stillOpen, loopbacks, RpcMessage.loopback, Conn.setDisembargo]
      have slots : after.1.disembargoes =
          put before.1.disembargoes before.1.disembargoID.next.1 (some client) := by
        rw [made]
        rfl
      rw [sent] at distinct ⊢
      rw [← List.append_assoc] at distinct ⊢
      rw [List.map_append, List.nodup_append] at distinct
      intro id member
      unfold Conn.Lifts
      rw [slots, find_put]
      rcases List.mem_append.mp member with earlier | same
      · have other : id.id ≠ before.1.disembargoID.next.1 := by
          intro same
          exact distinct.2.2 id.id (List.mem_map_of_mem earlier) _ (by simp) same
        rw [if_neg other]
        exact old id earlier
      · cases List.mem_singleton.mp same
        exact Or.inr (by simp)

theorem lifts_of_effects {before after : Conn × Hand} (steps : ReflTransGen Effect before after)
    {waiting : List WireId} (winding : Winding before.1)
    (distinct : ((waiting ++ loopbacks after.1.sent).map (·.id)).Nodup)
    (lifts : before.1.working = true → ∀ id ∈ waiting ++ loopbacks before.1.sent, before.1.Lifts id) :
    Winding after.1 ∧
      (after.1.working = true → ∀ id ∈ waiting ++ loopbacks after.1.sent, after.1.Lifts id) := by
  induction steps with
  | refl => exact ⟨winding, lifts⟩
  | tail _ effect ih =>
      have sublist := (effect.loopbacks_prefix.sublist.append_left waiting).map (·.id)
      obtain ⟨winding, lifts⟩ := ih (distinct.sublist sublist)
      exact ⟨effect.winding winding, effect.lifts winding distinct lifts⟩

theorem Effect.receiving {before after : Conn × Hand} (effect : Effect before after)
    (waits : after.1.receiving = true) : before.1.receiving = true := by
  have quiets : ∀ {before after : Conn × Hand}, QuietEffect before after → after.1.receiving = true →
      before.1.receiving = true := by
    intro before after effect waits
    cases effect with
    | quiet same => exact same.receiving waits
    | forget fewer => exact waits
  cases effect with
  | close effect =>
      cases effect with
      | quiet effect => exact quiets effect waits
      | _ => exact waits
  | describe effect =>
      cases effect with
      | quiet effect => exact quiets effect waits
      | create made free =>
          rw [Conn.withExport_eq] at waits
          exact waits
      | promise question transform free =>
          rw [Conn.withPromise_eq] at waits
          exact waits
      | _ => exact waits
  | newImport isPromise unknown given =>
      rw [Conn.withImport_eq] at waits
      exact waits
  | _ => exact waits

theorem receiving_of_effects {before after : Conn × Hand} (steps : ReflTransGen Effect before after)
    (waits : after.1.receiving = true) : before.1.receiving = true := by
  induction steps with
  | refl => exact waits
  | tail _ effect ih => exact ih (effect.receiving waits)

theorem message_of_effects {before after : Conn × Hand} (steps : ReflTransGen Effect before after) :
    after.2.message = before.2.message := by
  induction steps with
  | refl => rfl
  | tail _ effect ih => exact effect.message.trans ih

/-- Embargoes are only laid on while a `Resolve` is handled. -/
theorem slots_of_effects {before after : Conn × Hand} (steps : ReflTransGen Effect before after)
    (other : before.2.message.all fun message => !message.isResolve) :
    (∀ id, find after.1.disembargoes id = none ∨ find after.1.disembargoes id = find before.1.disembargoes id) ∧
      loopbacks after.1.sent = loopbacks before.1.sent := by
  induction steps with
  | refl => exact ⟨fun _ => Or.inr rfl, rfl⟩
  | tail earlier effect ih =>
      obtain ⟨old, said⟩ := ih
      cases effect.embargoChange with
      | same slots sent =>
          refine ⟨fun id => ?_, sent.trans said⟩
          rcases slots id with gone | same
          · exact Or.inl gone
          · rw [same]
            exact old id
      | embargo made received =>
          rw [message_of_effects earlier] at received
          rw [received] at other
          cases other

/-- The embargo that is lifted is the one that the table has under the number of the loopback in hand. -/
theorem lifting_of_effects {before after : Conn × Hand} (steps : ReflTransGen Effect before after)
    (empty : before.2.lifting = none) {i : Nat} (lifting : after.2.lifting = some i) :
    ∃ target id, before.2.message = some (.disembargo target (.receiverLoopback id)) ∧
      find before.1.disembargoes id.id = some i := by
  induction steps with
  | refl => cases empty.symm.trans lifting
  | tail earlier effect ih =>
      have other : ∀ {less more : Hand}, less.Less more → less.lifting = some i → more.lifting = some i :=
        fun fewer lifting => fewer.lifting.symm.trans lifting
      have quiets : ∀ {before after : Conn × Hand}, QuietEffect before after → after.2.lifting = some i →
          before.2.lifting = some i := by
        intro before after effect lifting
        cases effect with
        | quiet same => exact lifting
        | forget fewer => exact other fewer lifting
      cases effect with
      | close effect =>
          cases effect with
          | quiet effect => exact ih (quiets effect lifting)
          | _ => exact ih lifting
      | describe effect =>
          cases effect with
          | quiet effect => exact ih (quiets effect lifting)
          | _ => exact ih lifting
      | lift received found unlifted =>
          rename_i conn hand target id client
          cases lifting
          have same : before.2.message = some (.disembargo target (.receiverLoopback id)) :=
            (message_of_effects earlier).symm.trans received
          refine ⟨target, id, same, ?_⟩
          rcases (slots_of_effects earlier (by rw [same]; rfl)).1 id.id with gone | kept
          · cases gone.symm.trans found
          · exact kept.symm.trans found
      | _ => exact ih lifting

/-- The calls that wait at an import under an embargo. -/
def Client.withheld : Client → Option (List QueuedCall)
  | .importClient c => if c.closed = false ∧ c.embargoId.isSome = true then some c.embargoQueue else none
  | _ => none

theorem Client.withheld_eq_some {client : Client} {calls : List QueuedCall} : client.withheld = some calls ↔
    ∃ c, client = .importClient c ∧ c.closed = false ∧ c.embargoId.isSome = true ∧ c.embargoQueue = calls := by
  cases client with
  | importClient c =>
      simp only [withheld, Option.ite_none_right_eq_some, Option.some.injEq, Client.importClient.injEq,
        exists_eq_left', and_assoc]
  | _ =>
      constructor
      · intro same
        cases same
      · rintro ⟨c, same, _⟩
        cases same

def Conn.Withholds (conn : Conn) (i : Nat) (calls : List QueuedCall) : Prop := (conn.client i).withheld = some calls

/-- An import is closed, and has been so while these calls waited: each is rejected. -/
def Conn.TurnsAway (conn : Conn) (i : Nat) (calls : List QueuedCall) : Prop :=
  conn.ClosedImport i ∧ ∀ call, .fromHere call ∈ calls → ∃ reason, .callRejected i call reason ∈ conn.trace

theorem Conn.TurnsAway.after {before after : Conn × Hand} {i : Nat} {calls : List QueuedCall}
    (away : before.1.TurnsAway i calls) (effect : Effect before after) (made : i < before.1.objects) :
    after.2.lifting = some i ∨ after.1.TurnsAway i calls := by
  obtain ⟨⟨c, shape, closed⟩, rejected⟩ := away
  have stays : ∀ call, .fromHere call ∈ calls → ∃ reason, .callRejected i call reason ∈ after.1.trace := by
    intro call waits
    obtain ⟨reason, said⟩ := rejected call waits
    exact ⟨reason, effect.trace said⟩
  rcases effect.withholds made with lifting | ⟨_, _, shut, _⟩ | holds
  · exact Or.inl lifting
  · exact Or.inr ⟨shut, stays⟩
  · obtain ⟨c', shape', same, _⟩ := holds.embargoed c shape
    exact Or.inr ⟨⟨c', shape', same.trans closed⟩, stays⟩

theorem withholds_of_effects {before after : Conn × Hand} (steps : ReflTransGen Effect before after) {i : Nat}
    {calls : List QueuedCall} (withholds : before.1.Withholds i calls) (made : i < before.1.objects) :
    after.2.lifting = some i ∨ (∃ later, after.1.Withholds i (calls ++ later)) ∨ after.1.TurnsAway i calls := by
  induction steps with
  | refl => exact Or.inr (Or.inl ⟨[], by rwa [List.append_nil]⟩)
  | tail earlier effect ih =>
      have still := Nat.lt_of_lt_of_le made (objects_le_of_effects earlier)
      rcases ih with lifting | ⟨later, withheld⟩ | away
      · exact Or.inl (effect.lifting lifting)
      · obtain ⟨c, shape, isOpen, under, queue⟩ := Client.withheld_eq_some.mp withheld
        rcases effect.withholds still with lifting | ⟨c', shape', closed, rejected⟩ | holds
        · exact Or.inl lifting
        · cases shape.symm.trans shape'
          refine Or.inr (Or.inr ⟨closed, fun call waits => rejected call ?_⟩)
          rw [queue]
          exact List.mem_append_left _ waits
        · obtain ⟨c', shape', same, kept⟩ := holds.embargoed c shape
          obtain ⟨embargoed, more, waits⟩ := kept isOpen under
          have queue' : c'.embargoQueue = calls ++ (later ++ more) := by
            rw [← waits, queue, List.append_assoc]
          exact Or.inr (Or.inl ⟨later ++ more,
            Client.withheld_eq_some.mpr ⟨c', shape', same.trans isOpen, embargoed, queue'⟩⟩)
      · exact (away.after effect still).imp id Or.inr

theorem work_receiving (conn : Conn) (m : RpcMessage) :
    Outcome.Meets (work m) conn (fun _ after => after.receiving = true → after.working = true) fun _ _ => False := by
  apply Outcome.Meets.tryCatch
  unfold Outcome.Meets
  rw [Outcome.bind_apply]
  cases handleMessage m conn with
  | ok value after => exact fun waits => (Bool.and_eq_true_iff.mp waits).2
  | error error after =>
      intro waits
      cases waits

theorem Conn.received {conn after : Conn} {m : RpcMessage} (taken : conn.step (.receive m) = some after) :
    conn.receiving = true := by
  unfold Conn.step at taken
  dsimp only at taken
  split at taken
  · assumption
  · cases taken

theorem Conn.receive_working {conn after : Conn} {m : RpcMessage} (taken : conn.step (.receive m) = some after)
    (waits : after.receiving = true) : conn.receiving = true ∧ after.working = true := by
  unfold Conn.step at taken
  dsimp only at taken
  split at taken
  · rename_i received
    cases taken
    refine ⟨received, ?_⟩
    have meets := work_receiving conn.fresh m
    unfold Outcome.Meets at meets
    cases ran : work m conn.fresh with
    | ok value last =>
        rw [Conn.run_of_ok ran] at waits ⊢
        rw [ran] at meets
        exact meets waits
    | error error last =>
        rw [ran] at meets
        exact meets.elim
  · cases taken

/-- A connection and the loopbacks it has sent that its peer has not answered, in order. -/
structure Echoing where
  conn : Conn
  outstanding : List WireId

def Input.isEcho : Input → Bool
  | .receive (.disembargo _ (.receiverLoopback _)) => true
  | _ => false

/-- The peer answers the oldest loopback, or anything else happens. -/
inductive EchoInput
  | echo (target : MessageTarget)
  | other (input : Input)

def Echoing.after (waiting : List WireId) (conn : Conn) : Echoing where
  conn := conn
  outstanding := waiting ++ loopbacks conn.sent

def Echoing.step (state : Echoing) : EchoInput → Option Echoing
  | .echo target =>
      match state.outstanding with
      | [] => none
      | id :: waiting =>
          (state.conn.step (.receive (.disembargo target (.receiverLoopback id)))).map (Echoing.after waiting)
  | .other input =>
      if input.isEcho then none else (state.conn.step input).map (Echoing.after state.outstanding)

/-- What becomes of an embargo in a step: it stays, and the calls that wait do in their order, the import is closed
and they are rejected, or the loopback is answered that was sent for this import. -/
def Echoing.LiftsOwn (state : Echoing) : Prop :=
  ∀ input after i calls, state.step input = some after → state.conn.Withholds i calls →
    (∃ later, after.conn.Withholds i (calls ++ later)) ∨ after.conn.TurnsAway i calls ∨
      ∃ target id waiting, input = .echo target ∧ state.outstanding = id :: waiting ∧ id.object = i

/-- No number is given to an embargo while a loopback with this number is on its way. -/
def Echoing.Distinct (_ : Echoing) (_ : EchoInput) (after : Echoing) : Prop := (after.outstanding.map (·.id)).Nodup

structure Echoing.Invariant (state : Echoing) : Prop where
  wellFormed : state.conn.WellFormed
  winding : Winding state.conn
  lifts : state.conn.receiving = true → ∀ id ∈ state.outstanding, state.conn.Lifts id

theorem Input.hand_lifting (input : Input) : input.hand.lifting = none := by
  cases input with
  | _ => rfl

theorem Echoing.Invariant.next {conn after : Conn} {waiting : List WireId} {input : Input}
    (wellFormed : conn.WellFormed) (winding : Winding conn)
    (lifts : conn.receiving = true → ∀ id ∈ waiting, conn.Lifts id) (taken : conn.step input = some after)
    (distinct : ((Echoing.after waiting after).outstanding.map (·.id)).Nodup) :
    (Echoing.after waiting after).Invariant := by
  have effects := Conn.step_effects wellFormed taken
  obtain ⟨left, steps, idle⟩ := effects.reached
  have begins : Winding conn.fresh := ⟨winding.stopped, winding.closing⟩
  refine ⟨effects.wellFormed, winding_of_effects steps begins, ?_⟩
  intro waits
  cases input with
  | act action =>
      -- nothing is in hand, so no embargo is laid on
      obtain ⟨slots, sent⟩ := slots_of_effects steps rfl
      have old := lifts (receiving_of_effects steps waits)
      intro id member
      change id ∈ waiting ++ loopbacks after.sent at member
      rw [sent] at member
      rcases slots id.id with gone | same
      · exact Or.inl gone
      · exact (old id (by simpa [Conn.fresh, loopbacks] using member)).imp same.trans same.trans
  | receive m =>
      obtain ⟨waited, works⟩ := Conn.receive_working taken waits
      exact (lifts_of_effects steps begins distinct fun _ id member =>
        lifts waited id (by simpa [Conn.fresh, loopbacks] using member)).2 works

theorem Echoing.Invariant.step {state after : Echoing} {input : EchoInput} (invariant : state.Invariant)
    (taken : state.step input = some after) (distinct : (after.outstanding.map (·.id)).Nodup) :
    after.Invariant := by
  cases input with
  | echo target =>
      unfold Echoing.step at taken
      cases shape : state.outstanding with
      | nil =>
          rw [shape] at taken
          cases taken
      | cons id waiting =>
          rw [shape] at taken
          obtain ⟨conn, stepped, rfl⟩ := Option.map_eq_some_iff.mp taken
          apply Echoing.Invariant.next invariant.wellFormed invariant.winding ?_ stepped distinct
          intro waits id' member
          exact invariant.lifts waits id' (by simp [shape, member])
  | other input =>
      unfold Echoing.step at taken
      dsimp only at taken
      split at taken
      · cases taken
      · obtain ⟨conn, stepped, rfl⟩ := Option.map_eq_some_iff.mp taken
        exact Echoing.Invariant.next invariant.wellFormed invariant.winding invariant.lifts stepped distinct

/-- A step keeps an embargo, unless it takes the answer to the loopback that the table has for the import. -/
theorem Conn.Withholds.step {conn after : Conn} {input : Input} {i : Nat} {calls : List QueuedCall}
    (withholds : conn.Withholds i calls) (wellFormed : conn.WellFormed) (taken : conn.step input = some after) :
    (∃ later, after.Withholds i (calls ++ later)) ∨ after.TurnsAway i calls ∨
      ∃ target id, input = .receive (.disembargo target (.receiverLoopback id)) ∧
        find conn.disembargoes id.id = some i := by
  obtain ⟨left, steps, _⟩ := (Conn.step_effects wellFormed taken).reached
  have made : i < conn.objects := by
    obtain ⟨c, shape, _⟩ := Client.withheld_eq_some.mp withholds
    exact wellFormed.made (by rw [shape]; nofun)
  rcases withholds_of_effects steps withholds made with lifting | kept | away
  · right; right
    obtain ⟨target, id, received, found⟩ := lifting_of_effects steps input.hand_lifting lifting
    cases input with
    | act action => cases received
    | receive m =>
        cases received
        exact ⟨target, id, rfl, found⟩
  · exact Or.inl kept
  · exact Or.inr (Or.inl away)

theorem Echoing.Invariant.liftsOwn {state : Echoing} (invariant : state.Invariant) : state.LiftsOwn := by
  intro input after i calls taken withholds
  cases input with
  | echo target =>
      unfold Echoing.step at taken
      cases shape : state.outstanding with
      | nil =>
          rw [shape] at taken
          cases taken
      | cons id waiting =>
          rw [shape] at taken
          obtain ⟨conn, stepped, rfl⟩ := Option.map_eq_some_iff.mp taken
          rcases withholds.step invariant.wellFormed stepped with kept | closed | ⟨_, _, same, found⟩
          · exact Or.inl kept
          · exact Or.inr (Or.inl closed)
          · cases same
            refine Or.inr (Or.inr ⟨target, id, waiting, rfl, rfl, ?_⟩)
            rcases invariant.lifts (Conn.received stepped) id (by simp [shape]) with none | own
            · cases none.symm.trans found
            · exact Option.some.inj (own.symm.trans found)
  | other input =>
      unfold Echoing.step at taken
      dsimp only at taken
      split at taken
      · cases taken
      · rename_i plain
        obtain ⟨conn, stepped, rfl⟩ := Option.map_eq_some_iff.mp taken
        rcases withholds.step invariant.wellFormed stepped with kept | closed | ⟨_, _, rfl, _⟩
        · exact Or.inl kept
        · exact Or.inr (Or.inl closed)
        · exact absurd rfl plain

theorem embargo_lifted_by_own_loopback {registry : Nat → Option (List Method)} {stack : Nat} {state : Echoing}
    (run : Transition.Run Echoing.step Echoing.Distinct
      { conn := { registry := registry, stack := stack }, outstanding := [] } state) : state.LiftsOwn := by
  apply Echoing.Invariant.liftsOwn
  apply run.invariant
  · refine ⟨Conn.WellFormed.initial registry stack, ⟨nofun, nofun⟩, ?_⟩
    intro _ id member
    cases member
  · intro before input after invariant taken distinct
    exact invariant.step taken distinct

/-- A server, and two promises of the peer that both resolve to it. A call waits for the first, which is closed
before its loopback is answered; a call waits for the second. -/
def lateLoopback : List EchoInput :=
  [.other (.act (.newServer [{ interfaceId := 0, methodId := 0 }])), .other (.act (.initMain 0)),
    .other (.receive (.call { id := 0, object := 0 } (.importedCap { id := 0, object := 1 })
      { interfaceId := 0, methodId := 0 } .caller
      { content := { caps := [0, 1], pointer := fun _ => .ok (.other 0) }
        capTable := [.senderPromise { id := 10, object := 0 }, .senderPromise { id := 11, object := 1 }] })),
    .other (.receive (.resolve { id := 10, object := 0 } (.cap (.receiverHosted { id := 0, object := 1 })))),
    .other (.act (.call 5 { method := { interfaceId := 0, methodId := 0 }
                            params := { content := .interface, message := 0 } })),
    .other (.act (.close 5)),
    .other (.receive (.resolve { id := 11, object := 1 } (.cap (.receiverHosted { id := 0, object := 1 })))),
    .other (.act (.call 8 { method := { interfaceId := 0, methodId := 0 }
                            params := { content := .interface, message := 0 } }))]

/-- The same, but the first loopback is answered before the second promise is resolved. -/
def promptLoopback : List EchoInput := lateLoopback.take 6 ++ .echo .other :: lateLoopback.drop 6

def lateLoopbackStart : Echoing where
  conn := { registry := fun _ => some [{ interfaceId := 0, methodId := 0 }] }
  outstanding := []

theorem embargo_lifted_by_own_loopback_prompt :
    ∃ state calls, Transition.Run.follow Echoing.step lateLoopbackStart promptLoopback = some state ∧
      state.outstanding = [{ id := 0, object := 6 }] ∧ state.conn.Withholds 6 calls ∧ calls.length = 1 ∧
        state.LiftsOwn := by
  have reaches : ((Transition.Run.followTested Echoing.step
      (fun _ _ after => decide (after.outstanding.map (·.id)).Nodup) lateLoopbackStart promptLoopback).map
        fun state => (state.outstanding, (state.conn.client 6).withheld.map List.length)) =
          some ([{ id := 0, object := 6 }], some 1) := by
    decide +kernel
  obtain ⟨state, followed, shape⟩ := Option.map_eq_some_iff.mp reaches
  simp only [Prod.mk.injEq] at shape
  obtain ⟨outstanding, waits⟩ := shape
  obtain ⟨calls, withheld, one⟩ := Option.map_eq_some_iff.mp waits
  refine ⟨state, calls, Transition.Run.follow_of_tested followed, outstanding, withheld, one, ?_⟩
  apply embargo_lifted_by_own_loopback (.of_followTested .start ?_ followed)
  intro before input after passes
  unfold Echoing.Distinct
  exact of_decide_eq_true passes

theorem embargo_not_always_lifted_by_own_loopback :
    ¬ ∀ state, Transition.Run Echoing.step (fun _ _ _ => True) lateLoopbackStart state → state.LiftsOwn := by
  intro always
  have reaches : ((Transition.Run.follow Echoing.step lateLoopbackStart lateLoopback).bind fun state =>
      (state.step (.echo .other)).map fun after =>
        (state.outstanding, (state.conn.client 6).withheld.isSome, (after.conn.client 6).withheld.isSome,
          (after.conn.client 6).isReleased)) =
            some ([{ id := 0, object := 3 }, { id := 0, object := 6 }], true, false, false) := by
    decide +kernel
  obtain ⟨state, followed, taken⟩ := Option.bind_eq_some_iff.mp reaches
  obtain ⟨after, taken, shape⟩ := Option.map_eq_some_iff.mp taken
  simp only [Prod.mk.injEq] at shape
  obtain ⟨outstanding, waits, lifted, unreleased⟩ := shape
  obtain ⟨calls, withheld⟩ := Option.isSome_iff_exists.mp waits
  rcases always state (.of_follow .start followed) _ after 6 calls taken withheld with
    ⟨later, kept⟩ | ⟨closed, _⟩ | ⟨_, id, waiting, _, first, own⟩
  · rw [kept] at lifted
    cases lifted
  · cases closed.isReleased.symm.trans unreleased
  · rw [outstanding] at first
    cases first
    cases own

end CapnpEs.Rpc
