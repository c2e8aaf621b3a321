import CapnpEs.Library.Transition
import CapnpEs.Rpc.HandlerTurns

/-! Whose slot is whose: a question that was sent and is in progress has the slot of its number. -/

namespace CapnpEs.Rpc

open Outcome Relation SlotTable Transition

variable {P : Set Power} {conn : Conn} {held : Option Nat}

/-- Every question in progress has its slot, but the one in hand, whose slot is empty. -/
structure Conn.Owning (held : Option Nat) (conn : Conn) : Prop where
  owned : ∀ q, (conn.question q).own = true → (conn.question q).started = true →
    (conn.question q).state = .inProgress → held ≠ some q → conn.findQuestion (conn.question q).id = some q
  away : ∀ q, held = some q → conn.findQuestion (conn.question q).id = none
  named : ∀ id q, conn.findQuestion id = some q → (conn.question q).id = id ∧ q < conn.objects
  handles : ∀ i q transform, conn.client i = .pipeline q transform →
    q < conn.objects ∧ ((conn.question q).own = true → (conn.question q).started = true)
  unmade : ∀ q, conn.objects ≤ q → (conn.question q).own = false
  serves : conn.questionID.Serves fun id => (conn.findQuestion id).isSome

namespace Conn.Owning

theorem initial (registry : Nat → Option (List Method)) (stack : Nat) :
    Conn.Owning none { registry := registry, stack := stack } := by
  constructor
  · intro q mine
    cases mine
  · intro q isHeld
    cases isHeld
  · intro id q found
    simp [findQuestion] at found
  · intro i q transform shape
    cases shape
  · intro q _
    rfl
  · exact IdGen.serves_empty.of_iff fun id => by simp [findQuestion]

theorem idle {after : Conn} (owning : conn.Owning held) (same : Idle P conn after) : after.Owning held := by
  obtain ⟨owned, away, named, handles, unmade, serves⟩ := owning
  have own : ∀ q, (after.question q).own = (conn.question q).own := fun q => congrArg (·.1.1) (same.question q)
  have id : ∀ q, (after.question q).id = (conn.question q).id := fun q => congrArg (·.1.2.1) (same.question q)
  have started : ∀ q, (after.question q).started = (conn.question q).started :=
    fun q => congrArg (·.1.2.2) (same.question q)
  have state : ∀ q, (after.question q).state = (conn.question q).state := fun q => congrArg (·.2.1) (same.question q)
  have find : ∀ id, after.findQuestion id = conn.findQuestion id := by
    intro id
    rw [findQuestion, same.questions]
    rfl
  constructor
  · intro q mine sent pending other
    rw [find, id]
    exact owned q ((own q).symm.trans mine) ((started q).symm.trans sent) ((state q).symm.trans pending) other
  · intro q isHeld
    rw [find, id]
    exact away q isHeld
  · intro number q found
    rw [find] at found
    obtain ⟨same', made⟩ := named number q found
    exact ⟨(id q).trans same', Nat.lt_of_lt_of_le made same.objects⟩
  · intro i q transform shape
    obtain ⟨made, sent⟩ := handles i q transform ((same.client i).pipeline q transform shape)
    exact ⟨Nat.lt_of_lt_of_le made same.objects, fun mine => (started q).trans (sent ((own q).symm.trans mine))⟩
  · intro q beyond
    exact (own q).trans (unmade q (Nat.le_trans same.objects beyond))
  · rw [same.questionID]
    exact serves.of_iff fun id => by rw [find]

theorem alterQuestion (owning : conn.Owning held) {q : Nat} {change : Question → Question}
    (own : (change (conn.question q)).own = (conn.question q).own)
    (id : (change (conn.question q)).id = (conn.question q).id)
    (started : (conn.question q).started = true → (change (conn.question q)).started = true)
    (fine : (change (conn.question q)).state = .inProgress → conn.findQuestion (conn.question q).id = some q) :
    (conn.alterQuestion q change).Owning held := by
  obtain ⟨owned, away, named, handles, unmade, serves⟩ := owning
  have here : (conn.alterQuestion q change).question q = change (conn.question q) := by simp [Conn.alterQuestion]
  have there : ∀ p, p ≠ q → (conn.alterQuestion q change).question p = conn.question p := by
    intro p other
    simp [Conn.alterQuestion, other]
  have ids : ∀ p, ((conn.alterQuestion q change).question p).id = (conn.question p).id := by
    intro p
    by_cases same : p = q
    · rw [same, here, id]
    · rw [there p same]
  constructor
  · intro p mine sent pending other
    rw [ids]
    by_cases same : p = q
    · subst same
      rw [here] at pending
      exact fine pending
    · rw [there p same] at mine sent pending
      exact owned p mine sent pending other
  · intro p isHeld
    rw [ids]
    exact away p isHeld
  · intro number p found
    rw [ids]
    exact named number p found
  · intro i p transform shape
    obtain ⟨made, sent⟩ := handles i p transform shape
    refine ⟨made, ?_⟩
    by_cases same : p = q
    · subst same
      rw [here, own]
      exact fun mine => started (sent mine)
    · rw [there p same]
      exact sent
  · intro p beyond
    by_cases same : p = q
    · subst same
      rw [here, own]
      exact unmade p beyond
    · rw [there p same]
      exact unmade p beyond
  · exact serves

theorem dropQuestion (owning : conn.Owning held) {id q : Nat} (found : conn.findQuestion id = some q)
    (unneeded : (conn.question q).started = false ∨ (conn.question q).state ≠ .inProgress) :
    (conn.dropQuestion id).Owning held := by
  have slots : ∀ other, (conn.dropQuestion id).findQuestion other =
      if other = id then none else conn.findQuestion other := by
    intro other
    simp [Conn.dropQuestion, Conn.setQuestionSlot, findQuestion, find_put]
  refine { owning with owned := ?_, away := ?_, named := ?_, serves := ?_ }
  · intro p mine sent pending other
    have slot := owning.owned p mine sent pending other
    rw [slots, if_neg]
    · exact slot
    · intro same
      rw [show (conn.question p).id = id from same, found] at slot
      cases slot
      rcases unneeded with unsent | settled
      · cases unsent.symm.trans sent
      · exact settled pending
  · intro p isHeld
    rw [slots]
    split
    · rfl
    · exact owning.away p isHeld
  · intro number p there
    rw [slots] at there
    split at there
    · cases there
    · exact owning.named number p there
  · apply (owning.serves.remove (i := id) (by simp [found])).of_iff
    intro other
    rw [slots]
    split
    · rename_i same
      simp [same]
    · rename_i different
      simp [different]

theorem issueQuestion (owning : conn.Owning none) (method : Option Method) :
    (conn.issueQuestion method).Owning none := by
  obtain ⟨owned, _, named, handles, unmade, serves⟩ := owning
  have unused : conn.findQuestion conn.questionID.next.1 = none := by simpa using serves.next_unused
  have slots : ∀ id, (conn.issueQuestion method).findQuestion id =
      if id = conn.questionID.next.1 then some conn.objects else conn.findQuestion id := by
    intro id
    simp [Conn.issueQuestion, Conn.say, Conn.allocated, Conn.alterQuestion, Conn.setQuestionSlot, findQuestion, find_put]
  have here := issueQuestion_standing conn method
  have there : ∀ q, q ≠ conn.objects → (conn.issueQuestion method).question q = conn.question q := by
    intro q other
    simp [Conn.issueQuestion, Conn.say, Conn.allocated, Conn.alterQuestion, Conn.setQuestionSlot, other]
  constructor
  · intro q mine sent pending other
    by_cases same : q = conn.objects
    · subst same
      exact issueQuestion_found conn method
    · rw [there q same] at mine sent pending ⊢
      have slot := owned q mine sent pending other
      rw [slots, if_neg]
      · exact slot
      · intro taken
        rw [taken, unused] at slot
        cases slot
  · intro q isHeld
    cases isHeld
  · intro id q found
    rw [slots] at found
    split at found
    · rename_i same
      cases found
      refine ⟨?_, Nat.lt_succ_self _⟩
      rw [same]
      exact congrArg (·.1.2.1) here
    · obtain ⟨number, made⟩ := named id q found
      rw [there q (Nat.ne_of_lt made)]
      exact ⟨number, Nat.lt_succ_of_lt made⟩
  · intro i q transform shape
    obtain ⟨made, sent⟩ := handles i q transform shape
    rw [there q (Nat.ne_of_lt made)]
    exact ⟨Nat.lt_succ_of_lt made, sent⟩
  · intro q beyond
    have above : conn.objects < q := beyond
    rw [there q (Nat.ne_of_gt above)]
    exact unmade q (Nat.le_of_lt above)
  · apply serves.next.of_iff
    intro id
    rw [slots]
    split
    · rename_i same
      simp [same]
    · rename_i other
      simp [other]

theorem ask {after : Conn} (owning : conn.Owning held) (idle : held = none ∨ Power.ask ∉ P)
    (step : Ask P conn after) : after.Owning held := by
  cases step with
  | idle same => exact owning.idle same
  | issue method can outlet =>
      rcases idle with rfl | cannot
      · exact owning.issueQuestion method
      · exact absurd can cannot
  | start isOpen same =>
      apply owning.alterQuestion
      · exact congrArg (·.1.1) same
      · exact congrArg (·.1.2.1) same
      · exact fun _ => congrArg (·.1.2.2) same
      · exact fun _ => isOpen
  | abandon isOpen unneeded => exact owning.dropQuestion isOpen unneeded

theorem turn {after : Conn} (owning : conn.Owning held) (idle : held = none ∨ Power.ask ∉ P)
    (turn : Turn P conn after) : after.Owning held := by
  cases turn with
  | ask step => exact owning.ask idle step
  | giveUp reason mine known pending same =>
      rename_i q change
      have sent : (conn.question q).started = true := by
        rcases known with sent | ⟨i, transform, shape⟩
        · exact sent
        · exact (owning.handles i q transform shape).2 mine
      have ended : (conn.alterQuestion q change).Owning held := by
        apply owning.alterQuestion
        · exact congrArg (·.1.1) same
        · exact congrArg (·.1.2.1) same
        · exact fun sent => (congrArg (·.1.2.2) same).trans sent
        · intro still
          have canceled : (change (conn.question q)).state = .canceled := congrArg (·.2.1) same
          cases canceled.symm.trans still
      unfold Conn.leave
      split
      · rename_i isOpen
        have slot : conn.findQuestion (conn.question q).id = some q := by
          by_cases inHand : held = some q
          · rw [owning.away q inHand] at isOpen
            cases isOpen
          · exact owning.owned q mine sent pending inHand
        have settled : ((conn.alterQuestion q change).question q).state ≠ .inProgress := by
          have canceled : (change (conn.question q)).state = .canceled := congrArg (·.2.1) same
          simp [Conn.alterQuestion, canceled]
        have dropped : ((conn.alterQuestion q change).dropQuestion (conn.question q).id).Owning held :=
          ended.dropQuestion slot (Or.inr settled)
        exact dropped
      · exact ended
  | settle pending same resolved =>
      apply owning.alterQuestion
      · exact congrArg (·.1) same
      · exact congrArg (·.2.1) same
      · exact fun sent => (congrArg (·.2.2) same).trans sent
      · intro still
        cases resolved.symm.trans still
  | answer isOpen same done => exact { owning with }
  | describe done same => exact { owning with }
  | takeWaiters id => exact { owning with }
  | openAnswer id can free =>
      have made : conn.objects ≤ conn.objects + 1 := Nat.le_succ _
      refine { owning with named := ?_, handles := ?_, unmade := ?_ }
      · exact fun id q found => ⟨(owning.named id q found).1, Nat.lt_succ_of_lt (owning.named id q found).2⟩
      · intro i q transform shape
        obtain ⟨below, sent⟩ := owning.handles i q transform shape
        exact ⟨Nat.lt_succ_of_lt below, sent⟩
      · exact fun q beyond => owning.unmade q (Nat.le_trans made beyond)
  | forgetAnswer id can => exact { owning with }
  | reply message => exact { owning with }
  | shut can => exact { owning with }
  | hangUp can => exact { owning with }
  | markAnswer can same done => exact { owning with }

theorem turns {after : Conn} (owning : conn.Owning held) (idle : held = none ∨ Power.ask ∉ P)
    (turns : Turns P conn after) : after.Owning held := by
  induction turns with
  | refl => exact owning
  | tail _ turn ih => exact ih.turn idle turn

theorem settled {q : Nat} (owning : conn.Owning (some q)) (settled : (conn.question q).state ≠ .inProgress) :
    conn.Owning none := by
  refine { owning with owned := ?_, away := nofun }
  intro p mine sent pending _
  apply owning.owned p mine sent pending
  intro same
  cases same
  exact settled pending

theorem take (owning : conn.Owning none) {id q : Nat} (found : conn.findQuestion id = some q) :
    (conn.dropQuestion id).Owning (some q) := by
  obtain ⟨number, _⟩ := owning.named id q found
  have slots : ∀ other, (conn.dropQuestion id).findQuestion other =
      if other = id then none else conn.findQuestion other := by
    intro other
    simp [Conn.dropQuestion, Conn.setQuestionSlot, findQuestion, find_put]
  refine { owning with owned := ?_, away := ?_, named := ?_, serves := ?_ }
  · intro p mine sent pending other
    have slot := owning.owned p mine sent pending (by intro same; cases same)
    rw [slots, if_neg]
    · exact slot
    · intro same
      rw [show (conn.question p).id = id from same, found] at slot
      cases slot
      exact other rfl
  · intro p isHeld
    cases isHeld
    rw [slots]
    exact if_pos number
  · intro other p there
    rw [slots] at there
    split at there
    · cases there
    · exact owning.named other p there
  · apply (owning.serves.remove (i := id) (by simp [found])).of_iff
    intro other
    rw [slots]
    split
    · rename_i same
      simp [same]
    · rename_i different
      simp [different]

end Conn.Owning

def Conn.giveBack (conn : Conn) (q : Nat) (releaseParamCaps : Bool) : ConnM Unit :=
  (if releaseParamCaps then (conn.question q).paramCaps else []).forM fun cap => releaseExport cap.id 1

/-- What a Return holds is behind pointers that can be read. -/
def ReturnBody.isReadable : ReturnBody → Bool
  | .results payload => (payload.content.readFault 0).isNone
  | .unreadable _ => false
  | _ => true

/-- A Return can be read, gives the parameter capabilities back without an error, and waits for no other answer. -/
def Conn.Concludes (conn : Conn) : Input → Prop
  | .receive (.ret id releaseParamCaps _ body) => ∀ q, conn.findQuestion id.id = some q → body.isReadable = true ∧
      (∃ after, conn.giveBack q releaseParamCaps ((conn.fresh.dropQuestion id.id).say (.returnUsed q id)) =
        .ok () after) ∧
      ∀ other, body = .takeFromOtherQuestion other → other ≠ id.id →
        ∀ source, find conn.answers other = some source → (conn.answer source).done = true
  | _ => True

theorem reject_owning {q : Nat} (owning : conn.Owning (some q)) (reason : String) :
    Meets (Question.reject q reason) conn (fun _ after => after.Owning none) fun _ after => after.Owning none := by
  apply Meets.get
  split
  · rename_i pending
    have turn : Turn ∅ conn (conn.alterQuestion q fun question =>
        { question with err := some reason, state := .resolved }) := .settle pending rfl rfl
    exact (owning.turn (Or.inr (Set.notMem_empty _)) turn).settled (by simp [Conn.alterQuestion])
  · rename_i settled
    exact owning.settled settled

theorem fulfill_owning {q : Nat} (owning : conn.Owning (some q)) (obj : Struct) :
    Meets (Question.fulfill q obj) conn (fun _ after => after.Owning none) fun _ after => after.Owning none := by
  apply Meets.get
  split
  · rename_i pending
    have turn : Turn ∅ conn (conn.alterQuestion q fun question =>
        { question with obj := some obj, state := .resolved }) := .settle pending rfl rfl
    exact (owning.turn (Or.inr (Set.notMem_empty _)) turn).settled (by simp [Conn.alterQuestion])
  · rename_i settled
    exact owning.settled settled

theorem rejectUnread_owning {q : Nat} (owning : conn.Owning (some q)) (m : RpcMessage) (error : RpcError) :
    Meets (rejectUnread q m error) conn (fun _ after => after.Owning none) fun _ after => after.Owning none := by
  cases error with
  | protocol kind message =>
      apply Meets.bind
      exact (reject_owning owning message).mono (fun _ _ ended => ended) fun _ _ ended => ended
  | error message =>
      apply Meets.tryCatch
      apply Meets.bind
      have told : (conn.send (newUnimplementedMessage m)).Owning (some q) := { owning with }
      apply (reject_owning told message).mono
      · exact fun _ _ ended => ended
      · intro later after ended
        apply Meets.bind
        apply (Question.reject_turns (P := ∅) q later.message after).mono
        · exact fun _ _ turns => ended.turns (Or.inl rfl) turns
        · exact fun _ _ turns => ended.turns (Or.inl rfl) turns

theorem takeFromOther_owning {q id other : Nat} (owning : conn.Owning (some q))
    (settled : other ≠ id → ∀ source, find conn.answers other = some source → (conn.answer source).done = true) :
    Meets (takeFromOther q id other) conn (fun _ after => after.Owning none) fun _ after => after.Owning none := by
  apply Meets.get
  split
  · exact reject_owning owning _
  · rename_i different
    cases found : find conn.answers other with
    | none => exact reject_owning owning _
    | some source =>
        dsimp only
        rw [if_pos (settled different source found)]
        cases (conn.answer source).err with
        | some reason => exact reject_owning owning reason
        | none =>
            cases (conn.answer source).obj with
            | some obj => exact fulfill_owning owning obj
            | none => exact reject_owning owning _

theorem settleQuestion_owning {q id : Nat} {body : ReturnBody} (m : RpcMessage) (owning : conn.Owning (some q))
    (readable : body.isReadable = true)
    (settled : ∀ other, body = .takeFromOtherQuestion other → other ≠ id →
      ∀ source, find conn.answers other = some source → (conn.answer source).done = true) :
    Meets (settleQuestion q id body m) conn (fun _ after => after.Owning none) fun _ after => after.Owning none := by
  cases body with
  | results payload =>
      apply Meets.bind
      have ends : Meets (tryCatch (do
          let obj ← readPayload payload
          return Except.ok obj)
          fun error => return Except.error error : ConnM (Except RpcError Struct)) conn
          (fun _ after => after.Owning (some q)) fun _ _ => False := by
        apply Meets.tryCatch
        apply Meets.bind
        apply (readPayload_idle (P := {.adopt}) payload (fun _ => Set.mem_singleton _) conn).mono
        · exact fun _ _ same => owning.idle same
        · exact fun _ _ same => owning.idle same
      apply ends.mono
      · intro read after taken
        cases read with
        | ok obj =>
            have reads : readContent payload.content = pure () := by
              unfold readContent
              rw [Option.isNone_iff_eq_none.mp readable]
            dsimp only
            rw [reads]
            exact fulfill_owning taken obj
        | error error => exact rejectUnread_owning taken m error
      · exact fun _ _ never => never.elim
  | exception reason => exact reject_owning owning reason
  | canceled => exact reject_owning owning _
  | takeFromOtherQuestion other => exact takeFromOther_owning owning (settled other rfl)
  | resultsSentElsewhere => exact reject_owning owning _
  | other => exact reject_owning owning _
  | unreadable reason => cases readable

theorem Conn.answered_alterAnswer {id : Nat}
    (done : ∀ source, find conn.answers id = some source → (conn.answer source).done = true) {a : Nat}
    {change : AnswerEntry → AnswerEntry} (now : (change (conn.answer a)).done = true) :
    ∀ source, find conn.answers id = some source → ((conn.alterAnswer a change).answer source).done = true := by
  intro source found
  by_cases here : source = a
  · subst here
    simpa [Conn.alterAnswer] using now
  · simpa [Conn.alterAnswer, here] using done source found

theorem Turns.answered {after : Conn} (turns : Turns ∅ conn after) {id : Nat}
    (done : ∀ source, find conn.answers id = some source → (conn.answer source).done = true) :
    ∀ source, find after.answers id = some source → (after.answer source).done = true := by
  induction turns with
  | refl => exact done
  | tail _ turn ih =>
      cases turn with
      | ask step =>
          cases step with
          | idle same =>
              intro source found
              rw [same.answers] at found
              exact (congrArg (·.2.1) (same.answer source)).trans (ih source found)
          | _ => exact ih
      | answer isOpen same now => exact Conn.answered_alterAnswer ih now
      | describe still same => exact Conn.answered_alterAnswer ih ((congrArg (·.2.1) same).trans still)
      | giveUp reason mine known pending same =>
          intro source found
          unfold Conn.leave at found ⊢
          split at found
          · rename_i isOpen
            rw [if_pos isOpen]
            exact ih source found
          · rename_i gone
            rw [if_neg gone]
            exact ih source found
      | forgetAnswer id can =>
          rcases can with can | can
          · cases can
          · cases can
      | openAnswer id can free => cases can
      | markAnswer can same now => cases can
      | _ => exact ih

theorem handleReturnMessage_owning (owning : conn.Owning none) {id : WireId} {releaseParamCaps noFinishNeeded : Bool}
    {body : ReturnBody} (m : RpcMessage)
    (concludes : conn.Concludes (.receive (.ret id releaseParamCaps noFinishNeeded body))) :
    Meets (handleReturnMessage id releaseParamCaps noFinishNeeded body m) conn.fresh
      (fun _ after => after.Owning none) fun _ after => after.Owning none := by
  have begun : conn.fresh.Owning none := { owning with }
  cases found : conn.findQuestion id.id with
  | none =>
      have nothing : popQuestion id.id conn.fresh = .ok none conn.fresh := by
        unfold popQuestion
        rw [bind_apply, get_apply]
        dsimp only
        rw [show conn.fresh.findQuestion id.id = none from found]
        rfl
      unfold handleReturnMessage
      apply Meets.bind
      unfold Meets
      rw [nothing]
      apply (abortForProtocolError_turns (P := {.shut}) (Set.mem_singleton _) _ _ conn.fresh).mono
      · exact fun _ _ turns => begun.turns (Or.inl rfl) turns
      · exact fun _ _ turns => begun.turns (Or.inl rfl) turns
  | some q =>
      obtain ⟨readable, ⟨released, gives⟩, settled⟩ := concludes q found
      have isOpen : conn.fresh.findQuestion id.id = some q := found
      let taken := (conn.fresh.dropQuestion id.id).say (.returnUsed q id)
      have takes : taken.Owning (some q) := (begun.take isOpen).idle (P := ∅) (.of_eq rfl)
      have turns : Turns ∅ taken released := by
        have moves : Moves (Turns ∅) (conn.giveBack q releaseParamCaps) :=
          Moves.forM fun cap _ => releaseExport_turns cap.id 1
        have ends := moves taken
        unfold Meets at ends
        rw [gives] at ends
        exact ends
      have still : released.Owning (some q) := takes.turns (Or.inr (Set.notMem_empty _)) turns
      have runs : handleReturnMessage id releaseParamCaps noFinishNeeded body m conn.fresh = (do
          settleQuestion q id.id body m
          if noFinishNeeded then
            return ()
          else
            sendMessage (newFinishMessage ⟨id.id, q⟩ (!body.keepsResultCaps))) released := by
        unfold handleReturnMessage
        rw [bind_apply, popQuestion_run isOpen]
        change (conn.giveBack q releaseParamCaps >>= _) taken = _
        rw [bind_apply, gives]
      unfold Meets
      rw [runs]
      apply Meets.bind
      apply (settleQuestion_owning m still readable ?_).mono
      · intro _ after ended
        split
        · exact ended
        · exact { ended with }
      · exact fun _ _ ended => ended
      · intro other same different
        exact turns.answered (settled other same different)

def Power.all : Set Power := Set.univ

theorem work_owning (owning : conn.Owning none) {m : RpcMessage} (concludes : conn.Concludes (.receive m)) :
    Meets (work m) conn.fresh (fun _ after => after.Owning none) fun _ after => after.Owning none := by
  have dispatches : Meets (dispatchMessage m) conn.fresh (fun _ after => after.Owning none)
      fun _ after => after.Owning none := by
    cases isReturn : m.isReturn with
    | true =>
        cases m with
        | ret id releaseParamCaps noFinishNeeded body => exact handleReturnMessage_owning owning _ concludes
        | _ => cases isReturn
    | false =>
        have begun : conn.fresh.Owning none := { owning with }
        have moves : Moves (Turns Power.all) (dispatchMessage m) :=
          dispatchMessage_turns (Set.mem_univ _) (Set.mem_univ _) (Set.mem_univ _) isReturn fun _ => Set.mem_univ _
        apply (moves conn.fresh).mono
        · exact fun _ _ turns => begun.turns (Or.inl rfl) turns
        · exact fun _ _ turns => begun.turns (Or.inl rfl) turns
  have handles : Meets (handleMessage m) conn.fresh (fun _ after => after.Owning none)
      fun _ after => after.Owning none := by
    apply Meets.tryCatch
    apply dispatches.mono
    · exact fun _ _ ended => ended
    · intro error after ended
      cases error with
      | error message => exact ended
      | protocol kind message =>
          have moves : Moves (Turns Power.all) (abortForProtocolError kind message) :=
            abortForProtocolError_turns (Set.mem_univ _) kind message
          apply (moves after).mono
          · exact fun _ _ turns => ended.turns (Or.inl rfl) turns
          · exact fun _ _ turns => ended.turns (Or.inl rfl) turns
  exact work_meets handles fun _ _ ended => { ended with }

theorem bootstrap_owning (owning : conn.Owning none) :
    Meets bootstrap conn.fresh (fun _ after => after.Owning none) fun _ after => after.Owning none := by
  have begun : conn.fresh.Owning none := { owning with }
  let issued := conn.fresh.issueQuestion none
  let sent := issued.send (.bootstrap (issued.questionId conn.objects))
  have asks : sent.Owning none := { begun.issueQuestion none with }
  have found : sent.findQuestion (sent.question conn.objects).id = some conn.objects :=
    issueQuestion_found conn.fresh none
  change (sent.alterQuestion conn.objects fun question => { question with started := true }).Owning none
  apply asks.alterQuestion
  · rfl
  · rfl
  · exact fun _ => rfl
  · exact fun _ => found

theorem perform_owning (owning : conn.Owning none) {action : Action} (allowed : conn.allows action = true) :
    Meets (perform action) conn.fresh (fun _ after => after.Owning none) fun _ after => after.Owning none := by
  have begun : conn.fresh.Owning none := { owning with }
  have turns : action.isTurns = true → Meets (perform action) conn.fresh (fun _ after => after.Owning none)
      fun _ after => after.Owning none := by
    intro plain
    have moves : Meets (perform action) conn.fresh (fun _ after => Turns Power.all conn.fresh after)
        fun _ after => Turns Power.all conn.fresh after := perform_turns (Set.mem_univ _) (fun _ _ => Set.mem_univ _) plain allowed
    apply moves.mono
    · exact fun _ _ turns => begun.turns (Or.inl rfl) turns
    · exact fun _ _ turns => begun.turns (Or.inl rfl) turns
  cases action with
  | bootstrap => exact bootstrap_owning owning
  | newPipeline q transform =>
      simp only [Conn.allows, Bool.and_eq_true, decide_eq_true_eq, Bool.or_eq_true, Bool.not_eq_true'] at allowed
      obtain ⟨made, sent⟩ := allowed
      have handles : (conn.fresh.setClient conn.objects (.pipeline q transform)).Owning none := by
        refine { begun with handles := ?_ }
        intro i p handle shape
        by_cases here : i = conn.objects
        · simp only [Conn.setClient, here, Function.update_self, Client.pipeline.injEq] at shape
          obtain ⟨rfl, rfl⟩ := shape
          refine ⟨made, ?_⟩
          intro mine
          rcases sent with foreign | sent
          · cases foreign.symm.trans mine
          · exact sent
        · simp only [Conn.setClient, Function.update_of_ne here] at shape
          exact begun.handles i p handle shape
      exact handles.idle (P := ∅) (.allocated _)
  | newForeignQuestion =>
      have asks : (conn.fresh.alterQuestion conn.objects fun _ => { own := false, id := 0 }).Owning none := by
        have there : ∀ q, q < conn.objects → (conn.fresh.alterQuestion conn.objects fun _ =>
            { own := false, id := 0 }).question q = conn.question q := by
          intro q made
          simp [Conn.alterQuestion, Nat.ne_of_lt made, Conn.fresh]
        have here : ((conn.fresh.alterQuestion conn.objects fun _ =>
            { own := false, id := 0 }).question conn.objects).own = false := by simp [Conn.alterQuestion]
        have below : ∀ q, ((conn.fresh.alterQuestion conn.objects fun _ =>
            { own := false, id := 0 }).question q).own = true → q < conn.objects := by
          intro q mine
          by_cases same : q = conn.objects
          · subst same
            cases here.symm.trans mine
          · by_contra beyond
            have unmade := owning.unmade q (Nat.le_of_not_lt beyond)
            simp only [Conn.alterQuestion, Function.update_of_ne same] at mine
            cases unmade.symm.trans mine
        constructor
        · intro q mine sent pending other
          have made := below q mine
          rw [there q made] at mine sent pending ⊢
          exact owning.owned q mine sent pending other
        · intros
          contradiction
        · intro id q found
          obtain ⟨number, made⟩ := owning.named id q found
          rw [there q made]
          exact ⟨number, made⟩
        · intro i q transform shape
          obtain ⟨made, sent⟩ := owning.handles i q transform shape
          rw [there q made]
          exact ⟨made, sent⟩
        · intro q beyond
          cases mine : ((conn.fresh.alterQuestion conn.objects fun _ =>
              { own := false, id := 0 }).question q).own with
          | false => rfl
          | true => exact absurd (below q mine) (Nat.not_lt.mpr beyond)
        · exact owning.serves
      exact asks.idle (P := ∅) (.allocated _)
  | _ => exact turns rfl

theorem Conn.Owning.step {after : Conn} {input : Input} (owning : conn.Owning none) (concludes : conn.Concludes input)
    (taken : conn.step input = some after) : after.Owning none := by
  unfold Conn.step at taken
  cases input with
  | act action =>
      dsimp only at taken
      split at taken
      · rename_i allowed
        cases taken
        exact run_meets (perform_owning owning allowed)
      · cases taken
  | receive m =>
      dsimp only at taken
      split at taken
      · cases taken
        exact run_meets (work_owning owning concludes)
      · cases taken

/-- A call of the peer is under way when the peer redirects a question to it. -/
def redirected : List Input :=
  let method : Method := { interfaceId := 0, methodId := 0 }
  let plain : Payload := { content := { caps := [], pointer := fun _ => .ok (.other 0) }, capTable := [] }
  [.act (.newServer [method]), .act (.initMain 0), .receive (.call ⟨1, 0⟩ (.importedCap ⟨0, 1⟩) method .caller plain),
    .act .bootstrap, .receive (.ret ⟨0, 5⟩ false false (.takeFromOtherQuestion 1))]

def oneMethod : Conn := { registry := fun _ => some [{ interfaceId := 0, methodId := 0 }] }

end CapnpEs.Rpc
