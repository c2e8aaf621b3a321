import CapnpEs.Rpc.Embargoes
import CapnpEs.Rpc.Shutdown

/-! `shutdown` in a run: what it finds in a state that can be reached, and what it leaves for good. -/

namespace CapnpEs.Rpc

open Relation SlotTable Outcome Transition

variable {conn : Conn}

/-- What is left of an import: it has kept its number, and is closed if it was. -/
def Client.Endures (client after : Client) : Prop :=
  ∀ c, client = .importClient c → ∃ later, after = .importClient later ∧ later.id = c.id ∧
    (c.closed = true → later.closed = true)

theorem Client.Endures.of_core {client after : Client} (same : after.core = client.core) : client.Endures after := by
  rintro c rfl
  obtain ⟨later, shape, named, closed⟩ := Client.core_importClient same
  exact ⟨later, shape, named, fun was => closed.trans was⟩

theorem Effect.endures {before after : Conn × Hand} (effect : Effect before after) {i : Nat}
    (made : i < before.1.objects) : (before.1.client i).Endures (after.1.client i) := by
  cases effect with
  | close effect =>
      cases effect.clientChange i with
      | same client => exact .of_core (congrArg Client.core client)
      | quiet same => exact .of_core (same.client i made)
      | ref found closed =>
          intro c shape
          cases found.symm.trans shape
      | importClient found still named closed rejected =>
          intro c shape
          cases found.symm.trans shape
          exact ⟨_, still, named, fun _ => closed⟩
  | describe effect =>
      cases effect with
      | quiet effect =>
          cases effect with
          | quiet same => exact .of_core (same.client i made)
          | forget fewer => exact .of_core rfl
      | create _ =>
          rw [Conn.withExport_eq]
          exact .of_core (congrArg Client.core (Function.update_of_ne (Nat.ne_of_lt (Nat.lt_succ_of_lt made)) _ _))
      | promise question transform free =>
          rw [Conn.withPromise_eq]
          exact .of_core (congrArg Client.core
            ((Function.update_of_ne (Nat.ne_of_lt (Nat.lt_add_right 2 made)) _ _).trans
              (Function.update_of_ne (Nat.ne_of_lt made) _ _)))
      | _ => exact .of_core rfl
  | newRef positive =>
      exact .of_core (congrArg Client.core (Function.update_of_ne (Nat.ne_of_lt made) _ _))
  | newImport isPromise unknown given =>
      rw [Conn.withImport_eq]
      exact .of_core (congrArg Client.core
        ((Function.update_of_ne (Nat.ne_of_lt (Nat.lt_add_right 2 made)) _ _).trans
          (Function.update_of_ne (Nat.ne_of_lt made) _ _)))
  | lifted lifting core => exact .of_core (Conn.setClient_core core i)
  | _ => exact .of_core rfl

theorem endures_of_effects {before after : Conn × Hand} (steps : ReflTransGen Effect before after) {i : Nat}
    (made : i < before.1.objects) : (before.1.client i).Endures (after.1.client i) := by
  induction steps with
  | refl => exact .of_core rfl
  | tail earlier effect ih =>
      intro c shape
      obtain ⟨middle, shape, named, closes⟩ := ih c shape
      have still := effect.endures (Nat.lt_of_lt_of_le made (objects_le_of_steps (fun _ _ => Effect.objects_le) earlier))
      obtain ⟨later, shape, named', closes'⟩ := still middle shape
      exact ⟨later, shape, named'.trans named, fun closed => closes' (closes closed)⟩

theorem Conn.step_winding {after : Conn} {input : Input} (wellFormed : conn.WellFormed) (winding : Winding conn)
    (taken : conn.step input = some after) : after.WellFormed ∧ Winding after := by
  have effects := Conn.step_effects wellFormed taken
  obtain ⟨left, steps, _⟩ := effects.reached
  exact ⟨effects.wellFormed, winding_of_effects steps ⟨winding.stopped, winding.closing⟩⟩

theorem winding_of_run {registry : Nat → Option (List Method)} {stack : Nat}
    (run : Run Conn.step (fun _ _ _ => True) { registry := registry, stack := stack } conn) :
    conn.WellFormed ∧ Winding conn := by
  apply run.invariant
  · exact ⟨Conn.WellFormed.initial registry stack, nofun, nofun⟩
  · rintro before input after ⟨wellFormed, winding⟩ taken _
    exact Conn.step_winding wellFormed winding taken

theorem Conn.ClosedImport.of_run {later : Conn} {i : Nat} (wellFormed : conn.WellFormed) (closed : conn.ClosedImport i)
    (run : Run Conn.step (fun _ _ _ => True) conn later) : later.ClosedImport i := by
  have keeps : later.WellFormed ∧ later.ClosedImport i := by
    apply run.invariant ⟨wellFormed, closed⟩
    rintro before input after ⟨wellFormed, c, shape, closed⟩ taken _
    have effects := Conn.step_effects wellFormed taken
    obtain ⟨left, steps, _⟩ := effects.reached
    have made : i < before.objects := wellFormed.made (by rw [shape]; nofun)
    obtain ⟨later, shape, _, closes⟩ := endures_of_effects steps made c shape
    exact ⟨effects.wellFormed, later, shape, closes closed⟩
  exact keeps.2

/-- Closing a reference to this client calls nothing that would send a message, not even on an open transport. -/
def Conn.ClosesQuietly (conn : Conn) (i : Nat) : Prop :=
  ∀ ref rc closed, conn.client ref = .ref rc closed → (conn.refCount rc).client = i →
    Meets (close ref) { conn with transportClosed := false } (fun _ after => after.sent = conn.sent)
      fun _ after => after.sent = conn.sent

theorem Conn.ClosedImport.closesQuietly {i : Nat} (closedImport : conn.ClosedImport i) : conn.ClosesQuietly i := by
  obtain ⟨c, imported, isClosed⟩ := closedImport
  rintro ref rc closed shape rfl
  have other : (conn.refCount rc).client ≠ ref := by
    intro same
    rw [same, shape] at imported
    cases imported
  have closes : ∀ depth, Meets (closeClient depth ref) { conn with transportClosed := false }
      (fun _ after => after.sent = conn.sent) fun _ after => after.sent = conn.sent := by
    intro depth
    cases depth with
    | zero => exact rfl
    | succ depth =>
        apply Meets.get
        dsimp only
        rw [shape]
        cases closed with
        | true => exact rfl
        | false =>
            let marked := (Conn.setClient { conn with transportClosed := false } ref (.ref rc true)).setRefs rc
              ((conn.refCount rc).refs - 1)
            have found : marked.client (conn.refCount rc).client = .importClient c := by
              simp only [marked, Conn.setRefs, Conn.setRefCount, Conn.setClient]
              rw [Function.update_of_ne other]
              exact imported
            dsimp only
            rw [if_neg Bool.false_ne_true]
            apply Meets.bind
            change Meets (_ >>= _) (Conn.setClient { conn with transportClosed := false } ref (.ref rc true)) _ _
            apply Meets.bind
            change Meets (ite _ _ _) marked _ _
            split
            · cases depth with
              | zero => exact rfl
              | succ depth =>
                  apply Meets.get
                  rw [found]
                  dsimp only
                  rw [if_pos isClosed]
                  exact rfl
            · exact rfl
  exact closes conn.stack

/-- All that `shutdown` promises of a connection that was open. -/
structure Conn.ShutsDown (before : Conn) (reason : String) (after : Conn) : Prop where
  runs : shutdown reason before = .ok () after
  tornDown : before.TornDown reason after
  questionIds : after.questionID.Serves fun _ => False
  exportIds : after.exportID.Serves fun _ => False
  disembargoIds : after.disembargoID.Serves fun _ => False
  transport : before.transportClosed = false ∧ after.transportClosed = true
  again : ∀ other, shutdown other after = .ok () after
  silent : ∀ i c, before.client i = .importClient c → ∀ later, Run Conn.step (fun _ _ _ => True) after later →
    later.ClosesQuietly i

theorem freed {gen : IdGen} {used : Nat → Bool} (serves : gen.Serves fun id => used id = true)
    (unused : ∀ id, used id = false) : gen.Serves fun _ => False := by
  have same : (fun id => used id = true) = fun _ => False := by
    funext id
    simp [unused]
  rw [← same]
  exact serves

theorem shutdown_of_open (wellFormed : conn.WellFormed) (winding : Winding conn) (notClosed : conn.closed = false)
    (reason : String) : ∃ after, conn.ShutsDown reason after := by
  let begun : Conn := { conn with closed := true, working := false }
  have embargoed : begun.Embargoed := wellFormed.embargoed
  have held : begun.Held := wellFormed.held notClosed
  have drained : ∀ i, begun.ClosedImport i → begun.Drained i := by
    rintro i ⟨c, shape, closed⟩ c' same
    cases shape.symm.trans same
    exact wellFormed.drained i c shape closed
  obtain ⟨after, tears, tornDown⟩ := shutdownTables_run reason embargoed held drained
  have runs : shutdown reason conn = .ok () after := by
    unfold shutdown
    rw [bind_apply, get_apply]
    dsimp only
    rw [if_neg (by simp [notClosed])]
    exact tears
  have keeps : Keeps Effect (shutdown reason) conn {} fun _ _ => True := shutdown_keeps reason rfl
  have ends := keeps wellFormed
  unfold Meets at ends
  rw [runs] at ends
  obtain ⟨left, steps, formed, _⟩ := ends
  have closes := shutdown_closes reason wellFormed
  unfold Meets at closes
  rw [runs] at closes
  refine ⟨after, runs, { tornDown with }, ?_, ?_, ?_, ⟨?_, tornDown.transport⟩, ?_, ?_⟩
  · exact freed formed.questionIds fun id => by simp [Conn.findQuestion, tornDown.empty.questions id]
  · exact freed formed.exportIds fun id => by simp [Conn.findExport, tornDown.empty.exports id]
  · exact freed formed.disembargoIds fun id => by simp [tornDown.empty.disembargoes id]
  · cases transport : conn.transportClosed with
    | false => rfl
    | true =>
        have closed := winding.closing transport
        rw [notClosed] at closed
        cases closed
  · intro other
    unfold shutdown
    rw [bind_apply, get_apply]
    dsimp only
    rw [if_pos closes]
    rfl
  · intro i c shape later run
    have made : i < conn.objects := wellFormed.made (by rw [shape]; intro same; cases same)
    obtain ⟨shut, shape, _⟩ := endures_of_effects steps made c shape
    have closed : after.ClosedImport i := ⟨shut, shape, tornDown.closed i shut shape⟩
    exact (closed.of_run formed run).closesQuietly

def hostConn : Conn := { registry := fun _ => some [{ interfaceId := 0, methodId := 0 }] }

/-- A call of the peer that is not answered yet, a promise of the peer that resolves to the server it called, a call
that waits for the loopback, and a question. -/
def heldCall : List Input :=
  let method : Method := { interfaceId := 0, methodId := 0 }
  let plain : Content := { caps := [], pointer := fun _ => .ok (.other 0) }
  [.act (.newServer [method]), .act (.initMain 0),
    .receive (.call ⟨0, 0⟩ (.importedCap ⟨0, 1⟩) method .caller
      { content := plain, capTable := [.senderPromise ⟨10, 0⟩] }),
    .receive (.resolve ⟨10, 0⟩ (.cap (.receiverHosted ⟨0, 1⟩))),
    .act (.newCapTable []), .act (.call 5 { method := method, params := { content := plain, message := 9 } }),
    .act .bootstrap]

def stillInProgress (q : Nat) : EStateM.Result RpcError Conn Unit → Bool
  | .ok _ after => decide ((after.question q).state = .inProgress)
  | .error _ _ => false

def staysGiven (a : Nat) : EStateM.Result RpcError Conn Unit → Bool
  | .ok _ after =>
      match (after.answer a).deferred with
      | some (.ok _) => true
      | _ => false
  | .error _ _ => false

/-- Two questions wait for an answer that is queued behind another. One is canceled, the answers lose their places
in the table, and an export still leads to the queue. -/
def lostWaiter : List Input :=
  let method : Method := { interfaceId := 0, methodId := 0 }
  let plain : Payload := { content := { caps := [], pointer := fun _ => .ok (.other 0) }, capTable := [] }
  let echo : Payload := { content := .interface, capTable := [.receiverAnswer ⟨1, 0⟩ []] }
  [.act (.newServer [method]), .act (.initMain 0),
    .receive (.call ⟨1, 0⟩ (.importedCap ⟨0, 1⟩) method .caller plain),
    .receive (.call ⟨2, 0⟩ (.promisedAnswer ⟨1, 0⟩ []) method .caller plain),
    .act .bootstrap, .act .bootstrap,
    .receive (.ret ⟨0, 0⟩ false true (.takeFromOtherQuestion 2)),
    .receive (.ret ⟨1, 0⟩ false true (.takeFromOtherQuestion 2)),
    .receive (.call ⟨3, 0⟩ (.importedCap ⟨0, 1⟩) method .caller echo),
    .act (.cancel 7 ""), .act (.newCapTable [none]),
    .act (.settle 4 (.ok { content := .interface, message := 12 })),
    .act (.newCapTable [some 9]), .act (.settle 11 (.ok { content := .interface, message := 15 })),
    .receive (.finish ⟨1, 0⟩ false), .receive (.finish ⟨2, 0⟩ false)]

theorem waiters_not_always_settled :
    ¬ ∀ conn, Run Conn.step (fun _ _ _ => True) hostConn conn → conn.closed = false → ∀ reason after,
      shutdown reason conn = .ok () after → ∀ id waiters, find conn.tailAnswerWaiters id = some waiters →
        ∀ q ∈ waiters, after.Settled q := by
  intro always
  have reaches : ((Run.follow Conn.step hostConn lostWaiter).map fun conn =>
      (conn.closed, find conn.tailAnswerWaiters 2, stillInProgress 8 (shutdown "over" conn))) =
        some (false, some [7, 8], true) := by
    decide +kernel
  obtain ⟨conn, followed, shape⟩ := Option.map_eq_some_iff.mp reaches
  simp only [Prod.mk.injEq] at shape
  obtain ⟨notClosed, waits, unsettled⟩ := shape
  have settles := always conn (.of_follow .start followed) notClosed "over"
  cases runs : shutdown "over" conn with
  | ok _ after =>
      rw [runs] at unsettled
      exact settles after runs 2 [7, 8] waits 8 (by simp) (of_decide_eq_true unsettled)
  | error _ _ =>
      rw [runs] at unsettled
      cases unsettled

end CapnpEs.Rpc
