import CapnpEs.Rpc.RefinementHandlers
import CapnpEs.Rpc.System

/-! Every step of a connection, an action of its own side or the arrival of a message, is a sequence of
effects. -/

namespace CapnpEs.Rpc

open Relation SlotTable

def Action.resumed : Action → Option Continuation
  | .resume promise => some promise
  | _ => none

def Input.resumed : Input → Option Continuation
  | .act action => action.resumed
  | .receive _ => none

def Input.hand : Input → Hand
  | .act action => { resumed := action.resumed }
  | .receive m => .receiving m

variable {conn : Conn} {hand : Hand}

theorem bootstrap_keeps : Keeps Effect bootstrap conn hand fun _ _ => True := by
  have issued := conn.issueQuestion_unsent none
  apply Keeps.of_ok (v := ())
    (n := (conn.issueQuestion none).askBootstrap ((conn.issueQuestion none).questionId conn.objects))
  · rfl
  · exact (ReflTransGen.single (.issue none)).tail (.bootstrap issued.isOpen issued.unsent)
  · intro formed
    exact ((formed.issueQuestion none).send _).alterQuestion _ _
  · trivial

theorem Conn.made_of_handsOut {client : Nat} (held : conn.handsOut client) : client < conn.objects := by
  simp only [handsOut, Bool.and_eq_true, decide_eq_true_eq] at held
  exact held.1.1

theorem initMain_keeps {client : Nat} (made : client < conn.objects) :
    Keeps Effect (initMain client) conn hand fun _ _ => True := by
  have same : Quiet conn { conn with main := some client } := { Quiet.refl conn with }
  apply Keeps.bind (Q := fun _ after => client < after.objects)
  · exact Keeps.modify (.single (QuietEffect.quiet same).effect)
      (fun formed => { formed with
        mainInterface := by
          intro other same
          cases same
          exact made }) made
  · intro _ after _ _ made
    have exports := addExport_runs after hand made
    apply Runs.bind (Q := fun _ _ left => left = hand)
    · apply (Runs.lift exports fun _ _ => Effect.describe).dropping
      · rintro id last left _ ⟨rfl, _⟩
        exact ⟨hand, ReflTransGen.mono (fun _ _ => Effect.describe) _ _ (Hand.forget_prepared _), rfl⟩
      · intro error last left _ failed
        exact ⟨left, .refl, failed⟩
    · rintro id last left _ _ rfl
      exact Keeps.pure trivial

theorem finishAnswer_keeps (a : Nat) (outcome : Except (Option String) Struct)
    (may : (conn.answer a).done = false → conn.MayAnswer hand a) :
    Keeps Effect (finishAnswer a outcome) conn hand fun _ _ => True := by
  cases outcome with
  | ok obj => exact AnswerEntry.fulfill_keeps a obj may
  | error reason => exact (Keeps.get (AnswerEntry.reject_keeps conn.stack a reason may)).lift fun _ _ => Effect.close

theorem settleAnswer_keeps (a : Nat) (outcome : Except (Option String) Struct) :
    Keeps Effect (settleAnswer a outcome) conn hand fun _ _ => True := by
  apply Keeps.given_wellFormed
  intro wellFormed
  apply Keeps.get
  cases settled : (conn.answer a).joined.bind (conn.outcomeOf outcome) with
  | none => exact Keeps.pure trivial
  | some outcome =>
      have waits : (conn.answer a).joined.isSome := by
        cases shape : (conn.answer a).joined with
        | none =>
            rw [shape] at settled
            cases settled
        | some answer => rfl
      have routed := wellFormed.joined a waits
      apply Keeps.bind (Q := fun _ after => (after.answer a).routed)
      · apply Keeps.modify (.single (QuietEffect.quiet (Quiet.alterAnswer rfl)).effect)
          (fun formed => formed.touchAnswer rfl (by simp) fun _ member => member)
        simpa [Conn.alterAnswer] using routed
      · intro _ after _ _ routed
        apply Keeps.bind (finishAnswer_keeps a outcome fun _ => Or.inl routed).attempt
        intro _ last _ _ _
        exact Keeps.pure trivial

theorem newClient_action {client : Client} (ordinary : client.ordinary) (leads : client.references = [])
    (empty : client.calls = []) :
    Keeps Effect (do let _ ← newClient client) conn hand fun _ _ => True := by
  apply Keeps.bind ((newClient_keeps ordinary (by simp [leads]) (by simp [empty])).lift fun _ _ => QuietEffect.effect)
  intro _ after _ _ _
  exact Keeps.pure trivial

theorem newForeignQuestion_keeps : Keeps Effect newForeignQuestion conn hand fun _ _ => True := by
  apply Keeps.modify (.single (QuietEffect.quiet ?_).effect)
    (fun formed => (formed.alterQuestion conn.objects _).allocated) trivial
  have altered : Quiet conn (conn.alterQuestion conn.objects fun _ => { own := false, id := 0 }) :=
    Quiet.alterQuestion fun below => absurd below (Nat.lt_irrefl _)
  exact { altered with objects := Nat.le_succ _ }

theorem resume_keeps {promise : Continuation} (resumed : hand.resumed = some promise) :
    Keeps Effect (resume promise) conn hand fun _ _ => True := by
  apply Keeps.bind (Q := fun _ _ => True)
  · exact Keeps.modify (.single (.resume promise)) (fun formed => { formed with }) trivial
  · intro _ after _ _ _
    exact resolveFromQuestion_keeps hand resumed

theorem perform_runs (action : Action) (allowed : conn.allows action) :
    Runs Effect (perform action) conn (Input.act action).hand (fun _ _ left => left.releasing = none)
      fun _ _ left => left.releasing = none := by
  have of_keeps : ∀ {program : ConnM Unit} {hand : Hand} {Q : Unit → Conn → Prop}, hand.releasing = none →
      Keeps Effect program conn hand Q → Runs Effect program conn hand (fun _ _ left => left.releasing = none)
        fun _ _ left => left.releasing = none := by
    intro program hand Q idle keeps
    apply Runs.mono keeps
    · rintro _ after left _ _ ⟨rfl, _⟩
      exact idle
    · rintro error after left _ _ ⟨rfl, _⟩
      exact idle
  cases action with
  | newServer methods => exact of_keeps rfl (newClient_action rfl rfl rfl)
  | newOtherClient => exact of_keeps rfl (newClient_action rfl rfl rfl)
  | newPipeline q transform => exact of_keeps rfl (newClient_action rfl rfl rfl)
  | newFixedPipeline answer transform => exact of_keeps rfl (newClient_action rfl rfl rfl)
  | newCapTable table =>
      apply of_keeps rfl (Q := fun _ _ => True)
      apply Keeps.bind (Q := fun _ _ => True)
      · apply Keeps.modifyGet (.single (QuietEffect.quiet (Quiet.newMessage table)).effect) ?_ trivial
        intro formed
        apply (formed.setCapTable _ ?_).allocated
        intro client member
        have hands := List.all_eq_true.mp allowed (some client) member
        exact Conn.made_of_handsOut (by simpa using hands)
      · intro _ after _ _ _
        exact Keeps.pure trivial
  | newForeignQuestion => exact of_keeps rfl newForeignQuestion_keeps
  | settleForeign q outcome =>
      apply of_keeps rfl (Q := fun _ _ => True)
      cases outcome with
      | ok obj => exact (Question.fulfill_keeps q obj).lift fun _ _ => QuietEffect.effect
      | error reason => exact (Question.reject_keeps q reason).lift fun _ _ => QuietEffect.effect
  | bootstrap => exact of_keeps rfl bootstrap_keeps
  | initMain client => exact of_keeps rfl (initMain_keeps (Conn.made_of_handsOut allowed))
  | call client call =>
      apply of_keeps rfl (Q := fun _ _ => True)
      apply Keeps.get
      apply Keeps.bind (callClient_keeps conn.stack client call)
      intro _ after _ _ _
      exact Keeps.pure trivial
  | close client => exact of_keeps rfl ((close_keeps client).lift fun _ _ => Effect.close)
  | cancel q reason =>
      apply of_keeps rfl (Q := fun _ _ => True)
      apply Keeps.bind ((Question.cancel_keeps q reason).lift fun _ _ => Effect.close)
      intro _ after _ _ _
      exact Keeps.pure trivial
  | settle a outcome => exact of_keeps rfl (settleAnswer_keeps a outcome)
  | resume promise => exact of_keeps rfl (resume_keeps rfl)
  | shutdown reason => exact of_keeps rfl (shutdown_keeps reason rfl)

def Conn.fresh (conn : Conn) : Conn := { conn with sent := [], trace := [] }

theorem Conn.run_of_ok {program : ConnM Unit} {value : Unit} {after : Conn} (ran : program conn.fresh = .ok value after) :
    conn.run program = after := by
  have begins : program { conn with sent := [], trace := [] } = .ok value after := ran
  rw [run, begins]

theorem Conn.run_of_error {program : ConnM Unit} {error : RpcError} {after : Conn}
    (ran : program conn.fresh = .error error after) : conn.run program = after := by
  have begins : program { conn with sent := [], trace := [] } = .error error after := ran
  rw [run, begins]

theorem run_meets {program : ConnM Unit} {P : Conn → Prop}
    (meets : Outcome.Meets program conn.fresh (fun _ after => P after) fun _ after => P after) :
    P (conn.run program) := by
  unfold Outcome.Meets at meets
  cases run : program conn.fresh with
  | ok value after =>
      rw [run] at meets
      rw [Conn.run_of_ok run]
      exact meets
  | error error after =>
      rw [run] at meets
      rw [Conn.run_of_error run]
      exact meets

theorem work_meets {m : RpcMessage} {P : Conn → Prop}
    (handles : Outcome.Meets (handleMessage m) conn (fun _ after => P after) fun _ after => P after)
    (noted : ∀ conn receiving, P conn → P { conn with receiving := receiving }) :
    Outcome.Meets (work m) conn (fun _ after => P after) fun _ after => P after := by
  apply Outcome.Meets.tryCatch
  apply Outcome.Meets.bind
  apply handles.mono
  · exact fun _ after holds => noted after _ holds
  · exact fun _ after holds => noted after _ holds

/-- What a step of a connection leaves behind is reached by effects. -/
structure Conn.Effects (conn : Conn) (input : Input) (after : Conn) : Prop where
  reached : ∃ left, ReflTransGen Effect (conn.fresh, input.hand) (after, left) ∧ left.releasing = none
  wellFormed : after.WellFormed

theorem Conn.effects_of_runs {program : ConnM Unit} {i : Input} (wellFormed : conn.WellFormed)
    (runs : Runs Effect program conn.fresh i.hand (fun _ _ left => left.releasing = none)
      fun _ _ left => left.releasing = none) : conn.Effects i (conn.run program) := by
  have meets := runs { wellFormed with }
  unfold Outcome.Meets at meets
  cases shape : program conn.fresh with
  | ok value after =>
      rw [shape] at meets
      rw [Conn.run_of_ok shape]
      obtain ⟨left, steps, formed, idle⟩ := meets
      exact ⟨⟨left, steps, idle⟩, formed⟩
  | error error after =>
      rw [shape] at meets
      rw [Conn.run_of_error shape]
      obtain ⟨left, steps, formed, idle⟩ := meets
      exact ⟨⟨left, steps, idle⟩, formed⟩

theorem Conn.step_effects {after : Conn} {input : Input} (wellFormed : conn.WellFormed)
    (step : conn.step input = some after) : conn.Effects input after := by
  cases input with
  | act action =>
      unfold Conn.step at step
      dsimp only at step
      split at step
      · rename_i allowed
        cases step
        exact effects_of_runs (i := .act action) wellFormed (perform_runs action allowed)
      · cases step
  | receive m =>
      unfold Conn.step at step
      dsimp only at step
      split at step
      · cases step
        exact effects_of_runs (i := .receive m) wellFormed
          ((work_runs m).mono (fun _ _ _ _ _ idle => idle) fun _ _ _ _ _ failed => failed.elim)
      · cases step

end CapnpEs.Rpc
