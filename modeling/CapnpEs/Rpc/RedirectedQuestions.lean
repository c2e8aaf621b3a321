import CapnpEs.Rpc.SettledAnswers
import CapnpEs.Rpc.Shutdown

/-!
Questions that a Return has redirected to an answer, `takeFromOtherQuestion`, under whatever happens to the answers,
the numbers and the questions later.
-/

namespace CapnpEs.Rpc

open Outcome Relation SlotTable Transition

variable {P : Set Power} {conn : Conn} {source : Nat → Option Nat} {past : Nat → Except String Struct → Prop}
  {failing : Prop}

/-- Calls and descriptions: no answer settles, and no waiter changes. -/
structure Aside (before after : Conn) : Prop where
  objects : before.objects ≤ after.objects
  answers : after.answers = before.answers
  waiters : after.tailAnswerWaiters = before.tailAnswerWaiters
  answer : ∀ a, (after.answer a).standing = (before.answer a).standing
  question : ∀ q < before.objects, (after.question q).standing.2 = (before.question q).standing.2
  number : ∀ q < before.objects, (after.question q).id = (before.question q).id
  table : ∀ id q, after.findQuestion id = some q →
    before.findQuestion id = some q ∨
      before.objects ≤ q ∧ q < after.objects ∧ (after.question q).state ≠ .resolved ∧ (after.question q).id = id

namespace Aside

theorem refl (conn : Conn) : Aside conn conn :=
  ⟨Nat.le_refl _, rfl, rfl, fun _ => rfl, fun _ _ => rfl, fun _ _ => rfl, fun _ _ found => Or.inl found⟩

theorem trans {first second third : Conn} (sooner : Aside first second) (later : Aside second third) :
    Aside first third where
  objects := Nat.le_trans sooner.objects later.objects
  answers := later.answers.trans sooner.answers
  waiters := later.waiters.trans sooner.waiters
  answer a := (later.answer a).trans (sooner.answer a)
  question q made := (later.question q (Nat.lt_of_lt_of_le made sooner.objects)).trans (sooner.question q made)
  number q made := (later.number q (Nat.lt_of_lt_of_le made sooner.objects)).trans (sooner.number q made)
  table id q found := by
    rcases later.table id q found with found | ⟨fresh, made, unresolved, number⟩
    · rcases sooner.table id q found with found | ⟨fresh, made, unresolved, number⟩
      · exact Or.inl found
      · refine Or.inr ⟨fresh, Nat.lt_of_lt_of_le made later.objects, ?_, (later.number q made).trans number⟩
        rw [show (third.question q).state = (second.question q).state from congrArg (·.1) (later.question q made)]
        exact unresolved
    · exact Or.inr ⟨Nat.le_trans sooner.objects fresh, made, unresolved, number⟩

instance : IsPreorder Conn Aside where
  refl := refl
  trans _ _ _ := trans

theorem of_idle {before after : Conn} (idle : Idle P before after) : Aside before after where
  objects := idle.objects
  answers := idle.answers
  waiters := idle.waiters
  answer := idle.answer
  question q _ := congrArg (·.2) (idle.question q)
  number q _ := congrArg (·.1.2.1) (idle.question q)
  table id q found := by
    left
    rwa [Conn.findQuestion, idle.questions] at found

theorem issue (conn : Conn) (method : Option Method) : Aside conn (conn.issueQuestion method) := by
  refine ⟨Nat.le_succ _, rfl, rfl, fun _ => rfl, ?_, ?_, ?_⟩
  · intro q made
    have other : q ≠ conn.objects := Nat.ne_of_lt made
    simp [Conn.issueQuestion, Conn.say, Conn.allocated, Conn.alterQuestion, Conn.setQuestionSlot, other]
  · intro q made
    have other : q ≠ conn.objects := Nat.ne_of_lt made
    simp [Conn.issueQuestion, Conn.say, Conn.allocated, Conn.alterQuestion, Conn.setQuestionSlot, other]
  · intro id q found
    simp only [Conn.issueQuestion, Conn.say, Conn.allocated, Conn.alterQuestion, Conn.setQuestionSlot,
      Conn.findQuestion, find_put] at found
    split at found
    · cases found
      rename_i here
      refine Or.inr ⟨Nat.le_refl _, Nat.lt_succ_self _, ?_, ?_⟩
      · simp [Conn.issueQuestion, Conn.say, Conn.allocated, Conn.alterQuestion]
      · simp [Conn.issueQuestion, Conn.say, Conn.allocated, Conn.alterQuestion, here]
    · exact Or.inl found

theorem alterQuestion (conn : Conn) (q : Nat) {change : Question → Question}
    (same : (change (conn.question q)).standing.2 = (conn.question q).standing.2)
    (number : (change (conn.question q)).id = (conn.question q).id) : Aside conn (conn.alterQuestion q change) := by
  refine { refl conn with table := fun _ _ found => Or.inl found, question := ?_, number := ?_ }
  · intro other _
    by_cases here : other = q
    · subst here
      simpa [Conn.alterQuestion] using same
    · simp [Conn.alterQuestion, here]
  · intro other _
    by_cases here : other = q
    · subst here
      simpa [Conn.alterQuestion] using number
    · simp [Conn.alterQuestion, here]

theorem dropQuestion (conn : Conn) (id : Nat) : Aside conn (conn.dropQuestion id) := by
  refine { refl conn with table := ?_ }
  intro other q found
  left
  simp only [Conn.dropQuestion, Conn.setQuestionSlot, Conn.findQuestion, find_put] at found
  split at found
  · cases found
  · exact found

theorem of_ask {before after : Conn} (step : Ask P before after) : Aside before after := by
  cases step with
  | idle same => exact of_idle same
  | issue method can outlet => exact issue before method
  | start isOpen same => exact alterQuestion before _ (congrArg (·.2) same) (congrArg (·.1.2.1) same)
  | abandon isOpen unneeded => exact dropQuestion before _

theorem of_asks {before after : Conn} (asks : Asks P before after) : Aside before after := by
  induction asks with
  | refl => exact refl before
  | tail _ step ih => exact ih.trans (of_ask step)

theorem alterAnswer (conn : Conn) (a : Nat) {change : AnswerEntry → AnswerEntry}
    (same : (change (conn.answer a)).standing = (conn.answer a).standing) :
    Aside conn (conn.alterAnswer a change) := by
  refine { refl conn with table := fun _ _ found => Or.inl found, answer := ?_ }
  intro other
  by_cases here : other = a
  · subst here
    simpa [Conn.alterAnswer] using same
  · simp [Conn.alterAnswer, here]

theorem send (conn : Conn) (m : RpcMessage) : Aside conn (conn.send m) := { refl conn with }

end Aside

/-- An entry that is done has an outcome, and one that is not has none. -/
structure AnswerEntry.Whole (entry : AnswerEntry) : Prop where
  ended : entry.done = true → ∃ outcome, entry.Holds outcome
  empty : entry.done = false → entry.obj = none ∧ entry.err = none

theorem AnswerEntry.Whole.congr {entry later : AnswerEntry} (whole : entry.Whole)
    (same : later.standing = entry.standing) : later.Whole := by
  have done : later.done = entry.done := congrArg (·.2.1) same
  constructor
  · intro ends
    obtain ⟨outcome, settled⟩ := whole.ended (done.symm.trans ends)
    exact ⟨outcome, settled.congr same⟩
  · intro undone
    obtain ⟨obj, err⟩ := whole.empty (done.symm.trans undone)
    exact ⟨(congrArg (·.2.2.1) same).trans obj, (congrArg (·.2.2.2) same).trans err⟩

theorem AnswerEntry.Holds.whole {entry : AnswerEntry} {outcome : Except String Struct}
    (settled : entry.Holds outcome) : entry.Whole := by
  refine ⟨fun _ => ⟨outcome, settled⟩, ?_⟩
  intro undone
  cases undone.symm.trans settled.done

/-- What ties a redirected question to the answer that it was redirected to. -/
structure Redirected (source : Nat → Option Nat) (past : Nat → Except String Struct → Prop) (failing : Prop)
    (conn : Conn) : Prop where
  table : ∀ id q, conn.findQuestion id = some q →
    source q = none ∧ q < conn.objects ∧ (conn.question q).state ≠ .resolved ∧ (conn.question q).id = id
  named : ∀ k a, find conn.answers k = some a → (conn.answer a).id.id = k ∧ a < conn.objects
  made : ∀ q a, source q = some a → q < conn.objects ∧ a < conn.objects
  pending : ∀ q a, source q = some a → (conn.question q).state = .inProgress →
    ((conn.answer a).done = false ∨ failing) ∧ q ∈ conn.waitersOf (conn.answer a).id.id ∧
      ∀ b, b ≠ a → (conn.answer b).id.id = (conn.answer a).id.id → (conn.answer b).done = true
  settled : ∀ q a, source q = some a → (conn.question q).state = .resolved →
    ∃ outcome, (conn.question q).SettledTo outcome ∧ ((conn.answer a).Holds outcome ∨ past a outcome)
  listed : ∀ k, ∀ q ∈ conn.waitersOf k, ∃ a, source q = some a ∧ (conn.answer a).id.id = k
  ordered : ∀ k, (conn.waitersOf k).Pairwise fun earlier later =>
    (conn.question later).state = .inProgress → (conn.question earlier).state = .inProgress
  distinct : ∀ k, (conn.waitersOf k).Nodup
  whole : ∀ a, (conn.answer a).Whole

namespace Redirected

theorem aside {after : Conn} (redirected : Redirected source past failing conn) (aside : Aside conn after) :
    Redirected source past failing after := by
  obtain ⟨table, named, made, pending, settled, listed, ordered, distinct, whole⟩ := redirected
  have waiting : ∀ k, after.waitersOf k = conn.waitersOf k := by
    intro k
    rw [Conn.waitersOf, aside.waiters]
    rfl
  have number : ∀ a, (after.answer a).id = (conn.answer a).id := fun a => congrArg (·.1) (aside.answer a)
  have done : ∀ a, (after.answer a).done = (conn.answer a).done := fun a => congrArg (·.2.1) (aside.answer a)
  have state : ∀ q a, source q = some a → (after.question q).state = (conn.question q).state :=
    fun q a redirect => congrArg (·.1) (aside.question q (made q a redirect).1)
  constructor
  · intro id q found
    rcases aside.table id q found with found | ⟨fresh, below, unresolved⟩
    · obtain ⟨untied, below, unresolved, number⟩ := table id q found
      refine ⟨untied, Nat.lt_of_lt_of_le below aside.objects, ?_, (aside.number q below).trans number⟩
      rw [show (after.question q).state = (conn.question q).state from congrArg (·.1) (aside.question q below)]
      exact unresolved
    · refine ⟨?_, below, unresolved⟩
      cases redirect : source q with
      | none => rfl
      | some a => exact absurd (made q a redirect).1 (Nat.not_lt.mpr fresh)
  · intro k a found
    rw [aside.answers] at found
    rw [number]
    exact ⟨(named k a found).1, Nat.lt_of_lt_of_le (named k a found).2 aside.objects⟩
  · intro q a redirect
    obtain ⟨below, under⟩ := made q a redirect
    exact ⟨Nat.lt_of_lt_of_le below aside.objects, Nat.lt_of_lt_of_le under aside.objects⟩
  · intro q a redirect inProgress
    rw [state q a redirect] at inProgress
    obtain ⟨undone, waits, alone⟩ := pending q a redirect inProgress
    refine ⟨undone.imp_left (done a).trans, ?_, ?_⟩
    · rw [waiting, number]
      exact waits
    · intro b other same
      rw [number, number] at same
      exact (done b).trans (alone b other same)
  · intro q a redirect resolved
    rw [state q a redirect] at resolved
    obtain ⟨outcome, settles, by_source⟩ := settled q a redirect resolved
    exact ⟨outcome, settles.congr (aside.question q (made q a redirect).1),
      by_source.imp_left fun ends => ends.congr (aside.answer a)⟩
  · intro k q waits
    rw [waiting] at waits
    obtain ⟨a, redirect, same⟩ := listed k q waits
    exact ⟨a, redirect, by rw [number]; exact same⟩
  · intro k
    rw [waiting]
    apply (ordered k).imp_of_mem
    intro earlier later first second inOrder inProgress
    obtain ⟨a, redirect, _⟩ := listed k earlier first
    obtain ⟨b, redirect', _⟩ := listed k later second
    rw [state later b redirect'] at inProgress
    rw [state earlier a redirect]
    exact inOrder inProgress
  · intro k
    rw [waiting]
    exact distinct k
  · exact fun a => (whole a).congr (aside.answer a)

end Redirected

/-- The waiters of a list that are in progress have been settled, and nothing else has happened. -/
structure Conn.Answered (outcome : Except String Struct) (waiters : List Nat) (before after : Conn) : Prop where
  same : after = { before with question := after.question }
  frozen : ∀ q, (before.question q).state ≠ .inProgress → after.question q = before.question q
  kept : ∀ q ∉ waiters, after.question q = before.question q
  settled : ∀ q ∈ waiters, (before.question q).state = .inProgress → (after.question q).SettledTo outcome

theorem settleWaiters_ordered (outcome : Except String Struct) (waiters : List Nat) (conn : Conn)
    (distinct : waiters.Nodup) (ordered : waiters.Pairwise fun earlier later =>
      (conn.question later).state = .inProgress → (conn.question earlier).state = .inProgress) :
    Meets (waiters.forM fun q => settleForeign q outcome) conn (fun _ after => conn.Answered outcome waiters after)
      fun _ after => conn.Answered outcome waiters after := by
  induction waiters generalizing conn with
  | nil => exact ⟨rfl, fun _ _ => rfl, fun _ _ => rfl, nofun⟩
  | cons q waiters ih =>
      obtain ⟨absent, rest⟩ := List.nodup_cons.mp distinct
      obtain ⟨first, others⟩ := List.pairwise_cons.mp ordered
      rw [List.forM_eq_forM, List.forM_cons]
      apply Meets.bind
      by_cases pending : (conn.question q).state = .inProgress
      · obtain ⟨question, settled, run⟩ := settleForeign_run conn q outcome pending
        let middle := conn.alterQuestion q fun _ => question
        have here : middle.question q = question := by simp [middle, Conn.alterQuestion]
        have there : ∀ p, p ≠ q → middle.question p = conn.question p := by
          intro p other
          simp [middle, Conn.alterQuestion, other]
        have inOrder : waiters.Pairwise fun earlier later =>
            (middle.question later).state = .inProgress → (middle.question earlier).state = .inProgress := by
          apply others.imp_of_mem
          intro earlier later sooner after same
          rw [there earlier (ne_of_mem_of_not_mem sooner absent), there later (ne_of_mem_of_not_mem after absent)]
          exact same
        have ends : ∀ after, middle.Answered outcome waiters after → conn.Answered outcome (q :: waiters) after := by
          rintro after ⟨same, frozen, kept, settles⟩
          refine ⟨same.trans rfl, ?_, ?_, ?_⟩
          · intro p finished
            have other : p ≠ q := by
              rintro rfl
              exact finished pending
            rw [frozen p (by rwa [there p other]), there p other]
          · intro p outside
            have other : p ≠ q := fun same => outside (by simp [same])
            rw [kept p fun member => outside (List.mem_cons_of_mem _ member), there p other]
          · intro p member inProgress
            rcases List.mem_cons.mp member with rfl | member
            · rw [kept p absent, here]
              exact settled
            · apply settles p member
              rw [there p (ne_of_mem_of_not_mem member absent)]
              exact inProgress
        unfold Meets
        rw [run]
        apply (ih middle rest inOrder).mono
        · exact fun _ after => ends after
        · exact fun _ after => ends after
      · obtain ⟨error, run⟩ := settleForeign_refused conn q outcome pending
        unfold Meets
        rw [run]
        refine ⟨rfl, fun _ _ => rfl, fun _ _ => rfl, ?_⟩
        intro p member inProgress
        rcases List.mem_cons.mp member with rfl | member
        · exact absurd inProgress pending
        · exact absurd (first p member inProgress) pending

/-- The waiters of a number have been taken, and settled. -/
structure Conn.Concluded (number : Nat) (outcome : Except String Struct) (before after : Conn) : Prop where
  same : after = { before with question := after.question, tailAnswerWaiters := after.tailAnswerWaiters }
  kept : ∀ q ∉ before.waitersOf number, after.question q = before.question q
  frozen : ∀ q, (before.question q).state ≠ .inProgress → after.question q = before.question q
  settled : ∀ q ∈ before.waitersOf number, (before.question q).state = .inProgress →
    (after.question q).SettledTo outcome
  lists : ∀ k, find after.tailAnswerWaiters k = if k = number then none else find before.tailAnswerWaiters k

theorem Conn.Concluded.waiters {before after : Conn} {number : Nat} {outcome : Except String Struct}
    (concluded : before.Concluded number outcome after) (k : Nat) :
    after.waitersOf k = if k = number then [] else before.waitersOf k := by
  rw [Conn.waitersOf, concluded.lists]
  split
  · rfl
  · rfl

theorem takeWaiters_concludes {number : Nat} {outcome : Except String Struct} {settle : Nat → ConnM Unit} {stops : Prop}
    (settles : ∀ ready : Conn, ready = conn ∨ ready = conn.setWaiters number none →
      Meets ((conn.waitersOf number).forM settle) ready
        (fun _ after => ready.Answered outcome (conn.waitersOf number) after)
        fun _ after => stops ∧ ready.Answered outcome (conn.waitersOf number) after) :
    Meets (takeTailAnswerWaiters number >>= fun waiters => waiters.forM settle) conn
      (fun _ after => conn.Concluded number outcome after) fun _ after => stops ∧ conn.Concluded number outcome after := by
  obtain ⟨ready, origin, taken, lists⟩ : ∃ ready : Conn, (ready = conn ∨ ready = conn.setWaiters number none) ∧
      takeTailAnswerWaiters number conn = .ok (conn.waitersOf number) ready ∧
      ∀ k, find ready.tailAnswerWaiters k = if k = number then none else find conn.tailAnswerWaiters k := by
    unfold takeTailAnswerWaiters
    rw [bind_apply, get_apply]
    dsimp only
    cases found : find conn.tailAnswerWaiters number with
    | none =>
        have none : conn.waitersOf number = [] := by rw [Conn.waitersOf, found]; rfl
        refine ⟨conn, Or.inl rfl, by rw [none]; rfl, ?_⟩
        intro k
        split
        · rename_i same
          rw [same, found]
        · rfl
    | some waiters =>
        have listed : conn.waitersOf number = waiters := by rw [Conn.waitersOf, found]; rfl
        refine ⟨conn.setWaiters number none, Or.inr rfl, by rw [listed]; rfl, ?_⟩
        intro k
        exact find_put _ _ _ _
  have questions : ready.question = conn.question := by
    rcases origin with rfl | rfl
    · rfl
    · rfl
  have ends : ∀ after, ready.Answered outcome (conn.waitersOf number) after → conn.Concluded number outcome after := by
    rintro after ⟨same, frozen, kept, settled⟩
    rw [questions] at frozen kept settled
    refine ⟨?_, kept, frozen, settled, ?_⟩
    · rw [same]
      rcases origin with rfl | rfl
      · rfl
      · rfl
    · intro k
      rw [← lists k, same]
  apply Meets.bind
  unfold Meets
  rw [taken]
  apply (settles ready origin).mono
  · exact fun _ after => ends after
  · exact fun _ after stopped => ⟨stopped.1, ends after stopped.2⟩

theorem settleTail_ordered (number : Nat) (outcome : Except String Struct) (conn : Conn)
    (distinct : (conn.waitersOf number).Nodup) (ordered : (conn.waitersOf number).Pairwise fun earlier later =>
      (conn.question later).state = .inProgress → (conn.question earlier).state = .inProgress) :
    Meets (takeTailAnswerWaiters number >>= fun waiters => waiters.forM fun q => settleForeign q outcome) conn
      (fun _ after => conn.Concluded number outcome after) fun _ after => conn.Concluded number outcome after := by
  have concludes : Meets (takeTailAnswerWaiters number >>= fun waiters => waiters.forM fun q => settleForeign q outcome)
      conn (fun _ after => conn.Concluded number outcome after)
      fun _ after => True ∧ conn.Concluded number outcome after := by
    apply takeWaiters_concludes
    intro ready origin
    have questions : ready.question = conn.question := by
      rcases origin with rfl | rfl
      · rfl
      · rfl
    rw [← questions] at ordered
    apply (settleWaiters_ordered outcome _ ready distinct ordered).mono
    · exact fun _ _ answered => answered
    · exact fun _ _ answered => ⟨trivial, answered⟩
  exact concludes.mono (fun _ _ concluded => concluded) fun _ _ concluded => concluded.2

section Refusals

variable (reason : String)

theorem rejectUnsettled_pending {q : Nat} (pending : (conn.question q).state = .inProgress) :
    rejectUnsettled reason q conn =
      .ok () (conn.alterQuestion q fun question => { question with err := some reason, state := .resolved }) := by
  unfold rejectUnsettled Question.reject
  rw [bind_apply, get_apply]
  dsimp only
  rw [if_pos pending, bind_apply, get_apply]
  dsimp only
  rw [if_pos pending]
  rfl

theorem rejectUnsettled_settled {q : Nat} (settled : (conn.question q).state ≠ .inProgress) :
    rejectUnsettled reason q conn = .ok () conn := by
  unfold rejectUnsettled
  rw [bind_apply, get_apply]
  dsimp only
  rw [if_neg settled]
  rfl

theorem refuseWaiters_answered (waiters : List Nat) (conn : Conn) :
    ∃ after, waiters.forM (rejectUnsettled reason) conn = .ok () after ∧
      conn.Answered (.error reason) waiters after := by
  induction waiters generalizing conn with
  | nil => exact ⟨conn, rfl, rfl, fun _ _ => rfl, fun _ _ => rfl, (by intros; contradiction)⟩
  | cons q waiters ih =>
      rw [List.forM_eq_forM, List.forM_cons, bind_apply]
      by_cases pending : (conn.question q).state = .inProgress
      · let middle := conn.alterQuestion q fun question => { question with err := some reason, state := .resolved }
        obtain ⟨after, run, same, frozen, kept, settled⟩ := ih middle
        have there : ∀ p, p ≠ q → middle.question p = conn.question p := by
          intro p other
          simp [middle, Conn.alterQuestion, other]
        have here : (middle.question q).SettledTo (.error reason) := by
          simp [middle, Conn.alterQuestion, Question.SettledTo]
        have stays : after.question q = middle.question q := frozen q (by rw [here.state]; intro same; cases same)
        rw [rejectUnsettled_pending reason pending]
        refine ⟨after, run, same.trans rfl, ?_, ?_, ?_⟩
        · intro p finished
          have other : p ≠ q := by
            rintro rfl
            exact finished pending
          rw [frozen p (by rwa [there p other]), there p other]
        · intro p outside
          have other : p ≠ q := fun same => outside (by simp [same])
          rw [kept p fun member => outside (List.mem_cons_of_mem _ member), there p other]
        · intro p member inProgress
          by_cases first : p = q
          · subst first
            rw [stays]
            exact here
          · apply settled p (List.mem_of_ne_of_mem first member)
            rw [there p first]
            exact inProgress
      · obtain ⟨after, run, same, frozen, kept, settled⟩ := ih conn
        rw [rejectUnsettled_settled reason pending]
        refine ⟨after, run, same, frozen, fun p outside => kept p fun member => outside (List.mem_cons_of_mem _ member), ?_⟩
        intro p member inProgress
        have other : p ≠ q := by
          rintro rfl
          exact pending inProgress
        exact settled p (List.mem_of_ne_of_mem other member) inProgress

theorem shutdownTailAnswers_concludes (number : Nat) (conn : Conn) :
    ∃ after, shutdownTailAnswers reason number conn = .ok () after ∧ conn.Concluded number (.error reason) after := by
  have concludes : Meets (shutdownTailAnswers reason number) conn
      (fun _ after => conn.Concluded number (.error reason) after)
      fun _ after => False ∧ conn.Concluded number (.error reason) after := by
    apply takeWaiters_concludes
    intro ready _
    obtain ⟨after, run, answered⟩ := refuseWaiters_answered reason (conn.waitersOf number) ready
    unfold Meets
    rw [run]
    exact answered
  unfold Meets at concludes
  cases run : shutdownTailAnswers reason number conn with
  | ok value after =>
      rw [run] at concludes
      exact ⟨after, rfl, concludes⟩
  | error error after =>
      rw [run] at concludes
      exact concludes.1.elim

end Refusals

variable (conn) in
theorem Conn.marked_id (a : Nat) (outcome : Except String Struct) (b : Nat) :
    ((conn.marked a outcome).answer b).id = (conn.answer b).id := by
  by_cases here : b = a
  · subst here
    cases outcome with
    | ok obj => simp [Conn.marked, Conn.alterAnswer, AnswerEntry.marked, AnswerEntry.fulfilled]
    | error reason => simp [Conn.marked, Conn.alterAnswer, AnswerEntry.marked, AnswerEntry.rejected]
  · rw [Conn.marked_answer here outcome]

namespace Redirected

theorem concluded {marked ready after : Conn} (redirected : Redirected source past failing conn) {number : Nat}
    {outcome : Except String Struct} (changed : marked = { conn with answer := marked.answer })
    (mark : ∀ b, (marked.answer b).id = (conn.answer b).id)
    (others : ∀ b, (conn.answer b).id.id ≠ number ∨ (conn.answer b).done = true →
      (marked.answer b).standing = (conn.answer b).standing)
    (credit : ∀ q b, source q = some b → (conn.question q).state = .inProgress → (conn.answer b).id.id = number →
      (marked.answer b).Holds outcome ∨ past b outcome)
    (entire : ∀ b, (conn.answer b).Whole → (marked.answer b).Whole)
    (aside : Aside marked ready) (concluded : ready.Concluded number outcome after) :
    Redirected source past failing after := by
  obtain ⟨table, named, made, pending, settled, listed, ordered, distinct, whole⟩ := redirected
  have taken := concluded.waiters
  obtain ⟨same, kept, frozen, settles, _⟩ := concluded
  obtain ⟨objectsGrow, sameAnswers, sameWaiters, sameAnswer, sameQuestion, sameNumber, sameTable⟩ := aside
  have answer : ∀ b, (after.answer b).standing = (marked.answer b).standing := by
    intro b
    rw [same]
    exact sameAnswer b
  rw [changed] at objectsGrow sameAnswers sameWaiters sameQuestion sameNumber sameTable
  have objects : after.objects = ready.objects := by rw [same]
  have answers : after.answers = conn.answers := by rw [same]; exact sameAnswers
  have unmarked : ∀ b, (conn.answer b).id.id ≠ number ∨ (conn.answer b).done = true →
      (after.answer b).standing = (conn.answer b).standing := fun b apart => (answer b).trans (others b apart)
  have ids : ∀ b, (after.answer b).id = (conn.answer b).id :=
    fun b => (congrArg (·.1) (answer b)).trans (mark b)
  have waiting : ∀ k, ready.waitersOf k = conn.waitersOf k := by
    intro k
    rw [Conn.waitersOf, sameWaiters]
    rfl
  have early : ∀ q b, source q = some b → (ready.question q).standing.2 = (conn.question q).standing.2 :=
    fun q b redirect => sameQuestion q (made q b redirect).1
  have state : ∀ q b, source q = some b → (ready.question q).state = (conn.question q).state :=
    fun q b redirect => congrArg (·.1) (early q b redirect)
  have mine : ∀ q b, source q = some b → q ∈ ready.waitersOf number → (conn.answer b).id.id = number := by
    intro q b redirect waits
    rw [waiting] at waits
    obtain ⟨c, redirect', sameNumber⟩ := listed _ q waits
    cases redirect.symm.trans redirect'
    exact sameNumber
  have stays : ∀ q b, source q = some b → (after.question q).state = .inProgress →
      (conn.question q).state = .inProgress ∧ q ∉ ready.waitersOf number := by
    intro q b redirect inProgress
    have before : (ready.question q).state = .inProgress := by
      by_contra finished
      rw [frozen q finished] at inProgress
      exact finished inProgress
    refine ⟨(state q b redirect).symm.trans before, ?_⟩
    intro member
    have resolved := (settles q member before).state
    cases inProgress.symm.trans resolved
  constructor
  · intro id q found
    have before : ready.findQuestion id = some q := by rwa [same] at found
    have untied : source q = none ∧ q < ready.objects ∧ (ready.question q).state ≠ .resolved ∧
        (ready.question q).id = id := by
      rcases sameTable id q before with found | ⟨fresh, below, unresolved⟩
      · obtain ⟨untied, below, unresolved, number⟩ := table id q found
        refine ⟨untied, Nat.lt_of_lt_of_le below objectsGrow, ?_, (sameNumber q below).trans number⟩
        rw [show (ready.question q).state = (conn.question q).state from congrArg (·.1) (sameQuestion q below)]
        exact unresolved
      · refine ⟨?_, below, unresolved⟩
        cases redirect : source q with
        | none => rfl
        | some b => exact absurd (made q b redirect).1 (Nat.not_lt.mpr fresh)
    obtain ⟨free, below, unresolved⟩ := untied
    refine ⟨free, by rw [objects]; exact below, ?_⟩
    have away : q ∉ ready.waitersOf number := by
      intro waits
      rw [waiting] at waits
      obtain ⟨b, redirect, _⟩ := listed _ q waits
      cases free.symm.trans redirect
    rw [kept q away]
    exact unresolved
  · intro k b found
    rw [answers] at found
    rw [ids, objects]
    exact ⟨(named k b found).1, Nat.lt_of_lt_of_le (named k b found).2 objectsGrow⟩
  · intro q b redirect
    rw [objects]
    exact ⟨Nat.lt_of_lt_of_le (made q b redirect).1 objectsGrow,
      Nat.lt_of_lt_of_le (made q b redirect).2 objectsGrow⟩
  · intro q b redirect inProgress
    obtain ⟨before, away⟩ := stays q b redirect inProgress
    obtain ⟨still, waits, alone⟩ := pending q b redirect before
    have elsewhere : (conn.answer b).id.id ≠ number := by
      intro equal
      rw [waiting, ← equal] at away
      exact away waits
    refine ⟨still.imp_left (congrArg (·.2.1) (unmarked b (Or.inl elsewhere))).trans, ?_, ?_⟩
    · rw [ids, taken, if_neg elsewhere, waiting]
      exact waits
    · intro c different numbered
      rw [ids, ids] at numbered
      exact (congrArg (·.2.1) (unmarked c (Or.inl (numbered ▸ elsewhere)))).trans (alone c different numbered)
  · intro q b redirect resolved
    by_cases before : (conn.question q).state = .inProgress
    · have now : q ∈ ready.waitersOf number := by
        by_contra away
        rw [kept q away, state q b redirect, before] at resolved
        cases resolved
      refine ⟨outcome, settles q now ((state q b redirect).trans before), ?_⟩
      exact (credit q b redirect before (mine q b redirect now)).imp_left fun ends => ends.congr (answer b)
    · have still : (ready.question q).state ≠ .inProgress := by rwa [state q b redirect]
      rw [frozen q still] at resolved ⊢
      obtain ⟨result, ends, by_source⟩ := settled q b redirect ((state q b redirect).symm.trans resolved)
      refine ⟨result, ends.congr (early q b redirect), by_source.imp_left ?_⟩
      exact fun by_source => by_source.congr (unmarked b (Or.inr by_source.done))
  · intro k q waits
    rw [taken] at waits
    split at waits
    · cases waits
    · rw [waiting] at waits
      obtain ⟨b, redirect, sameNumber⟩ := listed k q waits
      exact ⟨b, redirect, by rw [ids]; exact sameNumber⟩
  · intro k
    rw [taken]
    split
    · exact .nil
    · rename_i different
      rw [waiting]
      have elsewhere : ∀ q ∈ conn.waitersOf k, (after.question q).state = (conn.question q).state := by
        intro q waits
        obtain ⟨b, redirect, sameNumber⟩ := listed k q waits
        have away : q ∉ ready.waitersOf number := by
          intro member
          rw [waiting] at member
          obtain ⟨c, redirect', numbered⟩ := listed _ q member
          cases redirect.symm.trans redirect'
          exact different (sameNumber.symm.trans numbered)
        rw [kept q away, state q b redirect]
      apply (ordered k).imp_of_mem
      intro earlier later first second inOrder
      rw [elsewhere earlier first, elsewhere later second]
      exact inOrder
  · intro k
    rw [taken]
    split
    · exact List.nodup_nil
    · rw [waiting]
      exact distinct k
  · exact fun b => (entire b (whole b)).congr (answer b)

theorem conclude {ready after : Conn} (redirected : Redirected source past failing conn) {a : Nat}
    {outcome : Except String Struct} (undone : (conn.answer a).done = false)
    (aside : Aside (conn.marked a outcome) ready)
    (concluded : ready.Concluded (conn.answer a).id.id outcome after) : Redirected source past failing after := by
  apply redirected.concluded rfl (conn.marked_id a outcome) ?_ ?_ ?_ aside concluded
  · intro b apart
    have other : b ≠ a := by
      rintro rfl
      rcases apart with elsewhere | done
      · exact elsewhere rfl
      · cases undone.symm.trans done
    rw [Conn.marked_answer other outcome]
  · intro q b redirect inProgress numbered
    obtain ⟨_, _, alone⟩ := redirected.pending q b redirect inProgress
    have mine : a = b := by
      by_contra other
      cases undone.symm.trans (alone a other numbered.symm)
    subst mine
    exact Or.inl (conn.marked_holds a outcome)
  · intro b whole
    by_cases here : b = a
    · subst here
      exact (conn.marked_holds b outcome).whole
    · rw [Conn.marked_answer here outcome]
      exact whole

theorem mark (redirected : Redirected source past failing conn) {a : Nat} (outcome : Except String Struct)
    (undone : (conn.answer a).done = false)
    (unwaited : ∀ q ∈ conn.waitersOf (conn.answer a).id.id, (conn.question q).state ≠ .inProgress) :
    Redirected source past failing (conn.marked a outcome) := by
  refine { redirected with named := ?_, pending := ?_, settled := ?_, listed := ?_, whole := ?_ }
  · intro k b found
    rw [conn.marked_id a outcome]
    exact redirected.named k b found
  · intro q b redirect inProgress
    obtain ⟨still, waits, alone⟩ := redirected.pending q b redirect inProgress
    have other : b ≠ a := by
      rintro rfl
      exact unwaited q waits inProgress
    refine ⟨by rw [Conn.marked_answer other outcome]; exact still, by rw [conn.marked_id a outcome]; exact waits, ?_⟩
    intro c different same
    rw [conn.marked_id a outcome, conn.marked_id a outcome] at same
    by_cases here : c = a
    · subst here
      exact (conn.marked_holds c outcome).done
    · rw [Conn.marked_answer here outcome]
      exact alone c different same
  · intro q b redirect resolved
    obtain ⟨result, ends, by_source⟩ := redirected.settled q b redirect resolved
    refine ⟨result, ends, by_source.imp_left ?_⟩
    intro by_source
    have other : b ≠ a := by
      rintro rfl
      cases undone.symm.trans by_source.done
    rw [Conn.marked_answer other outcome]
    exact by_source
  · intro k q waits
    obtain ⟨b, redirect, same⟩ := redirected.listed k q waits
    exact ⟨b, redirect, by rw [conn.marked_id a outcome]; exact same⟩
  · intro b
    by_cases here : b = a
    · subst here
      exact (conn.marked_holds b outcome).whole
    · rw [Conn.marked_answer here outcome]
      exact redirected.whole b

end Redirected

variable (source past failing) in
def Ties (before after : Conn) : Prop := Redirected source past failing before → Redirected source past failing after

instance : IsPreorder Conn (Ties source past failing) where
  refl _ := id
  trans _ _ _ sooner later := later ∘ sooner

theorem ties_of {α : Type} {program : ConnM α}
    (keeps : Redirected source past failing conn → Meets program conn (fun _ after => Redirected source past failing after)
      fun _ after => Redirected source past failing after) :
    Meets program conn (fun _ after => Ties source past failing conn after) fun _ after => Ties source past failing conn after := by
  unfold Meets at *
  cases run : program conn with
  | ok value after =>
      intro redirected
      have ends := keeps redirected
      rw [run] at ends
      exact ends
  | error reason after =>
      intro redirected
      have ends := keeps redirected
      rw [run] at ends
      exact ends

theorem ties_of_asks {α : Type} {program : ConnM α} (asks : Moves (Asks P) program) : Moves (Ties source past failing) program :=
  fun conn => (asks conn).mono (fun _ _ asks redirected => redirected.aside (.of_asks asks))
    fun _ _ asks redirected => redirected.aside (.of_asks asks)

theorem ties_of_idle {α : Type} {program : ConnM α} (idle : Moves (Idle P) program) : Moves (Ties source past failing) program :=
  ties_of_asks (asks_of_idle idle)

theorem settleTail_redirected {ready : Conn} (redirected : Redirected source past failing conn) {a : Nat}
    {outcome : Except String Struct} (undone : (conn.answer a).done = false)
    (aside : Aside (conn.marked a outcome) ready) :
    Meets (takeTailAnswerWaiters (conn.answer a).id.id >>= fun waiters => waiters.forM fun q => settleForeign q outcome)
      ready (fun _ after => Redirected source past failing after) fun _ after => Redirected source past failing after := by
  have waiting : ∀ k, ready.waitersOf k = conn.waitersOf k := by
    intro k
    rw [Conn.waitersOf, aside.waiters]
    rfl
  have state : ∀ k, ∀ q ∈ conn.waitersOf k, (ready.question q).state = (conn.question q).state := by
    intro k q waits
    obtain ⟨b, redirect, _⟩ := redirected.listed k q waits
    exact congrArg (·.1) (aside.question q (redirected.made q b redirect).1)
  have ordered : (ready.waitersOf (conn.answer a).id.id).Pairwise fun earlier later =>
      (ready.question later).state = .inProgress → (ready.question earlier).state = .inProgress := by
    rw [waiting]
    apply (redirected.ordered _).imp_of_mem
    intro earlier later first second inOrder
    rw [state _ earlier first, state _ later second]
    exact inOrder
  apply (settleTail_ordered (conn.answer a).id.id outcome ready (by rw [waiting]; exact redirected.distinct _)
    ordered).mono
  · exact fun _ _ concluded => redirected.conclude undone aside concluded
  · exact fun _ _ concluded => redirected.conclude undone aside concluded

theorem reject_ties (depth a : Nat) (reason : String) :
    Moves (Ties source past failing) (AnswerEntry.reject depth a (some reason)) := by
  induction depth generalizing a reason with
  | zero => exact Moves.throw _
  | succ depth ih =>
      intro conn
      apply ties_of
      intro redirected
      apply Meets.get
      cases undone : (conn.answer a).done with
      | true => exact redirected
      | false =>
          rw [if_neg Bool.false_ne_true]
          apply Meets.bind
          change Meets _ (conn.marked a (.error reason)) _ _
          apply Meets.bind
          apply (settleTail_redirected redirected undone (.refl _)).mono
          · intro _ settled ties
            apply Meets.bind
            change Meets _ (settled.send (.ret (conn.answer a).id false false (.exception reason))) _ _
            have sent := ties.aside (.send settled (.ret (conn.answer a).id false false (.exception reason)))
            apply (rejectRest_moves (P := ∅) ties_of_idle ih a reason (conn.answer a).queue _).mono
            · exact fun _ _ keeps => keeps sent
            · exact fun _ _ keeps => keeps sent
          · exact fun _ _ ties => ties

theorem rejectAnswer_ties (a : Nat) (reason : String) : Moves (Ties source past failing) (rejectAnswer a reason) := by
  apply Moves.get
  intro conn
  exact reject_ties conn.stack a reason conn

/-- The results can be copied and described, or no question in progress waits for them. -/
def Conn.Sends (conn : Conn) (a : Nat) (obj : Struct) : Prop :=
  (conn.answer a).done = false → (conn.answer a).sendResultsElsewhere = false →
    (∃ q ∈ conn.waitersOf (conn.answer a).id.id, (conn.question q).state = .inProgress) →
    obj.content.copyFault 0 = none ∧
      ∃ capTable after, makeCapTable (conn.copiedTable obj) (conn.marked a (.ok obj)) = .ok capTable after

theorem sendResults_redirected (redirected : Redirected source past failing conn) {a : Nat} {obj : Struct}
    (content : Content) (undone : (conn.answer a).done = false)
    (here : (conn.answer a).sendResultsElsewhere = false) (sends : conn.Sends a obj) :
    Meets (AnswerEntry.sendResults a obj content) (conn.marked a (.ok obj)) (fun _ after => Redirected source past failing after)
      fun _ after => Redirected source past failing after := by
  have describes := makeCapTable_idle (P := ∅) (conn.copiedTable obj) (conn.marked a (.ok obj))
  apply Meets.get
  apply Meets.bind
  change Meets (makeCapTable (conn.copiedTable obj)) _ _ _
  rw [conn.marked_id a (.ok obj)]
  unfold Meets at describes ⊢
  cases run : makeCapTable (conn.copiedTable obj) (conn.marked a (.ok obj)) with
  | error error failed =>
      rw [run] at describes
      have unwaited : ∀ q ∈ conn.waitersOf (conn.answer a).id.id, (conn.question q).state ≠ .inProgress := by
        intro q waits inProgress
        obtain ⟨_, capTable, after, described⟩ := sends undone here ⟨q, waits, inProgress⟩
        cases run.symm.trans described
      exact (redirected.mark (.ok obj) undone unwaited).aside (.of_idle describes)
  | ok capTable described =>
      rw [run] at describes
      let counted := described.alterAnswer a (AnswerEntry.described obj (collectPayloadSenderHosted capTable))
      have counts : Aside described counted := .alterAnswer described a rfl
      have ends : Meets (do
          fulfillTailAnswerWaiters (conn.answer a).id.id obj
          sendMessage (.ret (conn.answer a).id false false
            (.results { content := content, capTable := capTable }))) counted
          (fun _ after => Redirected source past failing after) fun _ after => Redirected source past failing after := by
        apply Meets.bind
        apply (settleTail_redirected redirected undone ((Aside.of_idle describes).trans counts)).mono
        · exact fun _ settled ties => ties.aside (.send settled _)
        · exact fun _ _ ties => ties
      exact ends

theorem fulfill_redirected (redirected : Redirected source past failing conn) {a : Nat} {obj : Struct} (sends : conn.Sends a obj) :
    Meets (AnswerEntry.fulfill a obj) conn (fun _ after => Redirected source past failing after)
      fun _ after => Redirected source past failing after := by
  apply Meets.get
  cases undone : (conn.answer a).done with
  | true => exact redirected
  | false =>
      rw [if_neg Bool.false_ne_true]
      apply Meets.bind
      change Meets _ (conn.marked a (.ok obj)) _ _
      cases elsewhere : (conn.answer a).sendResultsElsewhere with
      | true =>
          rw [if_pos rfl]
          apply Meets.bind
          apply (settleTail_redirected redirected undone (.refl _)).mono
          · exact fun _ settled ties => ties.aside (.send settled _)
          · exact fun _ _ ties => ties
      | false =>
          rw [if_neg Bool.false_ne_true]
          apply Meets.bind
          cases copies : obj.content.copyFault 0 with
          | some reason =>
              have unwaited : ∀ q ∈ conn.waitersOf (conn.answer a).id.id, (conn.question q).state ≠ .inProgress := by
                intro q waits inProgress
                cases (sends undone elsewhere ⟨q, waits, inProgress⟩).1.symm.trans copies
              unfold Meets
              rw [setContent_throws copies]
              exact redirected.mark (.ok obj) undone unwaited
          | none =>
              unfold Meets
              rw [setContent_run copies]
              have first : Meets (attempt (AnswerEntry.sendResults a obj ((conn.marked a (.ok obj)).copied obj)))
                  (conn.marked a (.ok obj)) (fun _ after => Redirected source past failing after)
                  fun _ after => Redirected source past failing after := by
                apply Meets.tryCatch
                apply Meets.bind
                apply (sendResults_redirected redirected _ undone elsewhere sends).mono
                · exact fun _ _ ties => ties
                · exact fun _ _ ties => ties
              apply Meets.bind
              apply first.mono
              · intro firstErr sent ties
                apply (AnswerEntry.passQueue_moves (Set.mem_singleton Power.ask) ties_of_asks rejectAnswer_ties a obj
                  firstErr sent).mono
                · exact fun _ _ keeps => keeps ties
                · exact fun _ _ keeps => keeps ties
              · exact fun _ _ ties => ties

theorem finishAnswer_redirected (redirected : Redirected source past failing conn) {a : Nat}
    {outcome : Except (Option String) Struct} (sends : ∀ obj, outcome = .ok obj → conn.Sends a obj) :
    Meets (finishAnswer a outcome) conn (fun _ after => Redirected source past failing after)
      fun _ after => Redirected source past failing after := by
  cases outcome with
  | ok obj => exact fulfill_redirected redirected (sends obj rfl)
  | error reason =>
      apply Meets.get
      cases reason with
      | none =>
          cases conn.stack with
          | _ => exact redirected
      | some reason =>
          apply (rejectAnswer_ties a reason conn).mono
          · exact fun _ _ keeps => keeps redirected
          · exact fun _ _ keeps => keeps redirected

namespace Redirected

theorem untied (redirected : Redirected source past failing conn) {q : Nat} {change : Question → Question} (free : source q = none)
    (gone : ∀ id, conn.findQuestion id ≠ some q) : Redirected source past failing (conn.alterQuestion q change) := by
  have there : ∀ p, p ≠ q → (conn.alterQuestion q change).question p = conn.question p := by
    intro p other
    simp [Conn.alterQuestion, other]
  have tied : ∀ p a, source p = some a → p ≠ q := by
    rintro p a redirect rfl
    cases free.symm.trans redirect
  refine { redirected with table := ?_, pending := ?_, settled := ?_, ordered := ?_ }
  · intro id p found
    have other : p ≠ q := by
      rintro rfl
      exact gone id found
    rw [there p other]
    exact redirected.table id p found
  · intro p a redirect inProgress
    rw [there p (tied p a redirect)] at inProgress
    exact redirected.pending p a redirect inProgress
  · intro p a redirect resolved
    rw [there p (tied p a redirect)] at resolved ⊢
    exact redirected.settled p a redirect resolved
  · intro k
    apply (redirected.ordered k).imp_of_mem
    intro earlier later first second inOrder
    obtain ⟨a, redirect, _⟩ := redirected.listed k earlier first
    obtain ⟨b, redirect', _⟩ := redirected.listed k later second
    rw [there earlier (tied earlier a redirect), there later (tied later b redirect')]
    exact inOrder

/-- A question is redirected, to an answer with a number that no other unfinished answer has, and behind questions
that are all in progress. -/
theorem redirect (redirected : Redirected source past failing conn) {q other a : Nat} (free : source q = none)
    (below : q < conn.objects) (unresolved : (conn.question q).state ≠ .resolved)
    (gone : ∀ id, conn.findQuestion id ≠ some q) (found : find conn.answers other = some a)
    (undone : (conn.answer a).done = false)
    (alone : ∀ b, b ≠ a → (conn.answer b).id.id = other → (conn.answer b).done = true)
    (waiting : ∀ p ∈ conn.waitersOf other, (conn.question p).state = .inProgress) :
    Redirected (Function.update source q (some a)) past failing
      (conn.setWaiters other (some ((find conn.tailAnswerWaiters other).getD [] ++ [q]))) := by
  obtain ⟨number, under⟩ := redirected.named other a found
  let after := conn.setWaiters other (some ((find conn.tailAnswerWaiters other).getD [] ++ [q]))
  have here : Function.update source q (some a) q = some a := Function.update_self ..
  have there : ∀ p, p ≠ q → Function.update source q (some a) p = source p := fun p other => Function.update_of_ne other ..
  have tied : ∀ p b, source p = some b → p ≠ q := by
    rintro p b redirect rfl
    cases free.symm.trans redirect
  have lists : ∀ k, after.waitersOf k = if k = other then conn.waitersOf other ++ [q] else conn.waitersOf k := by
    intro k
    simp only [after, Conn.waitersOf, Conn.setWaiters, find_put]
    split
    · rfl
    · rfl
  have grows : ∀ k, ∀ p ∈ conn.waitersOf k, p ∈ after.waitersOf k := by
    intro k p waits
    rw [lists]
    split
    · rename_i same
      exact List.mem_append_left _ (same ▸ waits)
    · exact waits
  refine ⟨?_, redirected.named, ?_, ?_, ?_, ?_, ?_, ?_, redirected.whole⟩
  · intro id p slot
    obtain ⟨untied, rest⟩ := redirected.table id p slot
    have different : p ≠ q := by
      rintro rfl
      exact gone id slot
    exact ⟨by rw [there p different]; exact untied, rest⟩
  · intro p b redirect
    by_cases same : p = q
    · subst same
      rw [here] at redirect
      cases redirect
      exact ⟨below, under⟩
    · rw [there p same] at redirect
      exact redirected.made p b redirect
  · intro p b redirect inProgress
    by_cases same : p = q
    · subst same
      rw [here] at redirect
      cases redirect
      refine ⟨Or.inl undone, ?_, ?_⟩
      · change p ∈ after.waitersOf (conn.answer a).id.id
        rw [number, lists, if_pos rfl]
        exact List.mem_append_right _ (List.mem_singleton_self _)
      · intro c different sameNumber
        exact alone c different (sameNumber.trans number)
    · rw [there p same] at redirect
      obtain ⟨still, waits, others⟩ := redirected.pending p b redirect inProgress
      exact ⟨still, grows _ p waits, others⟩
  · intro p b redirect resolved
    by_cases same : p = q
    · subst same
      exact absurd resolved unresolved
    · rw [there p same] at redirect
      exact redirected.settled p b redirect resolved
  · intro k p waits
    change p ∈ after.waitersOf k at waits
    rw [lists] at waits
    have old : p ∈ conn.waitersOf k → ∃ b, Function.update source q (some a) p = some b ∧ (conn.answer b).id.id = k := by
      intro before
      obtain ⟨b, redirect, sameNumber⟩ := redirected.listed k p before
      exact ⟨b, by rw [there p (tied p b redirect)]; exact redirect, sameNumber⟩
    split at waits
    · rename_i same
      subst same
      rcases List.mem_append.mp waits with before | new
      · exact old before
      · cases List.mem_singleton.mp new
        exact ⟨a, here, number⟩
    · exact old waits
  · intro k
    change (after.waitersOf k).Pairwise _
    rw [lists]
    split
    · refine List.pairwise_append.mpr ⟨redirected.ordered other, List.pairwise_singleton _ _, ?_⟩
      intro earlier member later new _
      exact waiting earlier member
    · exact redirected.ordered k
  · intro k
    change (after.waitersOf k).Nodup
    rw [lists]
    split
    · refine List.nodup_append.mpr ⟨redirected.distinct other, List.pairwise_singleton _ _, ?_⟩
      intro earlier member later new same
      rw [List.mem_singleton.mp new] at same
      obtain ⟨b, redirect, _⟩ := redirected.listed other earlier member
      exact tied earlier b redirect same
    · exact redirected.distinct k

theorem incoming (redirected : Redirected source past failing conn) (id : WireId)
    (unwaited : ∀ q ∈ conn.waitersOf id.id, (conn.question q).state ≠ .inProgress) :
    Redirected source past failing
      ((conn.setAnswerSlot id.id (some conn.objects)).alterAnswer conn.objects fun _ => { id := id }).allocated := by
  let after := ((conn.setAnswerSlot id.id (some conn.objects)).alterAnswer conn.objects fun _ => { id := id }).allocated
  have here : after.answer conn.objects = { id := id } := by simp [after, Conn.alterAnswer, Conn.allocated]
  have there : ∀ b, b ≠ conn.objects → after.answer b = conn.answer b := by
    intro b other
    simp [after, Conn.alterAnswer, Conn.allocated, Conn.setAnswerSlot, other]
  have early : ∀ q b, source q = some b → b ≠ conn.objects :=
    fun q b redirect => Nat.ne_of_lt (redirected.made q b redirect).2
  refine ⟨?_, ?_, ?_, ?_, ?_, ?_, redirected.ordered, redirected.distinct, ?_⟩
  · intro number q found
    obtain ⟨free, below, rest⟩ := redirected.table number q found
    exact ⟨free, Nat.lt_succ_of_lt below, rest⟩
  · intro k b found
    change find (put conn.answers id.id (some conn.objects)) k = some b at found
    change (after.answer b).id.id = k ∧ b < conn.objects + 1
    rw [find_put] at found
    split at found
    · rename_i same
      cases found
      exact ⟨by rw [here]; exact same.symm, Nat.lt_succ_self _⟩
    · obtain ⟨number, below⟩ := redirected.named k b found
      exact ⟨by rw [there b (Nat.ne_of_lt below)]; exact number, Nat.lt_succ_of_lt below⟩
  · intro q b redirect
    exact ⟨Nat.lt_succ_of_lt (redirected.made q b redirect).1, Nat.lt_succ_of_lt (redirected.made q b redirect).2⟩
  · intro q b redirect inProgress
    obtain ⟨still, waits, alone⟩ := redirected.pending q b redirect inProgress
    change ((after.answer b).done = false ∨ failing) ∧ q ∈ conn.waitersOf (after.answer b).id.id ∧ ∀ c, c ≠ b →
      (after.answer c).id.id = (after.answer b).id.id → (after.answer c).done = true
    rw [there b (early q b redirect)]
    refine ⟨still, waits, ?_⟩
    intro c other same
    by_cases new : c = conn.objects
    · subst new
      rw [here] at same
      exact absurd inProgress (unwaited q (by rw [show id.id = _ from same]; exact waits))
    · rw [there c new] at same ⊢
      exact alone c other same
  · intro q b redirect resolved
    obtain ⟨outcome, ends, by_source⟩ := redirected.settled q b redirect resolved
    exact ⟨outcome, ends, by
      change (after.answer b).Holds outcome ∨ _
      rw [there b (early q b redirect)]
      exact by_source⟩
  · intro k q waits
    obtain ⟨b, redirect, same⟩ := redirected.listed k q waits
    exact ⟨b, redirect, by
      change (after.answer b).id.id = k
      rw [there b (early q b redirect)]
      exact same⟩
  · intro b
    change (after.answer b).Whole
    by_cases new : b = conn.objects
    · rw [new, here]
      exact ⟨(by intro same; cases same), fun _ => ⟨rfl, rfl⟩⟩
    · rw [there b new]
      exact redirected.whole b

theorem finish (redirected : Redirected source past failing conn) (id : Nat) : Redirected source past failing (conn.setAnswerSlot id none) := by
  refine { redirected with named := ?_ }
  intro k a found
  change find (put conn.answers id none) k = some a at found
  rw [find_put] at found
  split at found
  · cases found
  · exact redirected.named k a found

theorem cancel (redirected : Redirected source past failing conn) {q : Nat} {change : Question → Question}
    (canceled : (change (conn.question q)).state = .canceled)
    (number : (change (conn.question q)).id = (conn.question q).id)
    (last : ∀ k, (conn.waitersOf k).Pairwise fun earlier later => earlier = q →
      (conn.question later).state ≠ .inProgress) :
    Redirected source past failing (conn.alterQuestion q change) := by
  have here : ((conn.alterQuestion q change).question q).state = .canceled := by
    simpa [Conn.alterQuestion] using canceled
  have there : ∀ p, p ≠ q → (conn.alterQuestion q change).question p = conn.question p := by
    intro p other
    simp [Conn.alterQuestion, other]
  have state : ∀ p, ((conn.alterQuestion q change).question p).state = .inProgress → p ≠ q := by
    rintro p inProgress rfl
    cases here.symm.trans inProgress
  refine { redirected with table := ?_, pending := ?_, settled := ?_, ordered := ?_ }
  · intro id p found
    obtain ⟨free, below, unresolved, named⟩ := redirected.table id p found
    refine ⟨free, below, ?_⟩
    by_cases same : p = q
    · subst same
      rw [here]
      refine ⟨(by intro same; cases same), ?_⟩
      simpa [Conn.alterQuestion] using number.trans named
    · rw [there p same]
      exact ⟨unresolved, named⟩
  · intro p a redirect inProgress
    rw [there p (state p inProgress)] at inProgress
    exact redirected.pending p a redirect inProgress
  · intro p a redirect resolved
    have other : p ≠ q := by
      rintro rfl
      cases here.symm.trans resolved
    rw [there p other] at resolved ⊢
    exact redirected.settled p a redirect resolved
  · intro k
    apply ((redirected.ordered k).and (last k)).imp
    rintro earlier later ⟨inOrder, behind⟩ inProgress
    have other := state later inProgress
    rw [there later other] at inProgress
    have first : earlier ≠ q := fun same => behind same inProgress
    rw [there earlier first]
    exact inOrder inProgress

theorem mono {past' : Nat → Except String Struct → Prop} {failing' : Prop}
    (redirected : Redirected source past failing conn) (grows : ∀ a outcome, past a outcome → past' a outcome)
    (still : failing → failing') : Redirected source past' failing' conn := by
  refine { redirected with pending := ?_, settled := ?_ }
  · intro q a redirect inProgress
    obtain ⟨undone, rest⟩ := redirected.pending q a redirect inProgress
    exact ⟨undone.imp_right still, rest⟩
  · intro q a redirect resolved
    obtain ⟨outcome, ends, by_source⟩ := redirected.settled q a redirect resolved
    exact ⟨outcome, ends, by_source.imp_right (grows a outcome)⟩

theorem gone (redirected : Redirected source past failing conn) {id q : Nat} (found : conn.findQuestion id = some q) :
    ∀ other, (conn.dropQuestion id).findQuestion other ≠ some q := by
  obtain ⟨_, _, _, number⟩ := redirected.table id q found
  intro other still
  simp only [Conn.dropQuestion, Conn.setQuestionSlot, Conn.findQuestion, find_put] at still
  split at still
  · cases still
  · rename_i different
    obtain ⟨_, _, _, again⟩ := redirected.table other q still
    exact different (again.symm.trans number)

theorem drop (redirected : Redirected source past failing conn) (id : Nat) :
    Redirected source past failing (conn.dropQuestion id) :=
  redirected.aside (.dropQuestion conn id)

theorem refuse (redirected : Redirected source past True conn) (a : Nat) (reason : String)
    (known : ∀ outcome, (conn.answer a).Holds outcome → past a outcome) :
    Redirected source past True (conn.alterAnswer a (AnswerEntry.rejected reason)) := by
  let after := conn.alterAnswer a (AnswerEntry.rejected reason)
  have others : ∀ b, b ≠ a → after.answer b = conn.answer b := by
    intro b other
    simp [after, Conn.alterAnswer, other]
  have number : ∀ b, (after.answer b).id = (conn.answer b).id := by
    intro b
    by_cases here : b = a
    · simp [after, Conn.alterAnswer, AnswerEntry.rejected, here]
    · rw [others b here]
  refine { redirected with named := ?_, pending := ?_, settled := ?_, listed := ?_, whole := ?_ }
  · intro k b found
    change (after.answer b).id.id = k ∧ _
    rw [number]
    exact redirected.named k b found
  · intro q b redirect inProgress
    obtain ⟨_, waits, alone⟩ := redirected.pending q b redirect inProgress
    refine ⟨Or.inr trivial, ?_, ?_⟩
    · change q ∈ conn.waitersOf (after.answer b).id.id
      rw [number]
      exact waits
    · intro c other same
      change (after.answer c).id.id = (after.answer b).id.id at same
      change (after.answer c).done = true
      rw [number, number] at same
      by_cases here : c = a
      · simp [after, Conn.alterAnswer, AnswerEntry.rejected, here]
      · rw [others c here]
        exact alone c other same
  · intro q b redirect resolved
    obtain ⟨outcome, ends, by_source⟩ := redirected.settled q b redirect resolved
    refine ⟨outcome, ends, ?_⟩
    change (after.answer b).Holds outcome ∨ past b outcome
    by_cases here : b = a
    · subst here
      exact Or.inr (by_source.elim (known outcome) id)
    · rw [others b here]
      exact by_source
  · intro k q waits
    obtain ⟨b, redirect, same⟩ := redirected.listed k q waits
    exact ⟨b, redirect, by
      change (after.answer b).id.id = k
      rw [number]
      exact same⟩
  · intro b
    change (after.answer b).Whole
    by_cases here : b = a
    · have refused : (after.answer b).Holds (.error reason) := by
        simp [after, Conn.alterAnswer, AnswerEntry.rejected, here, AnswerEntry.Holds]
      exact refused.whole
    · rw [others b here]
      exact redirected.whole b

end Redirected

theorem shutdownQuestion_ties (reason : String) (id : Nat) :
    Moves (Ties source past failing) (shutdownQuestion reason id) := by
  intro conn
  apply ties_of
  intro redirected
  apply Meets.get
  cases found : conn.findQuestion id with
  | none => exact redirected
  | some q =>
      obtain ⟨free, _⟩ := redirected.table id q found
      dsimp only
      unfold Meets
      by_cases pending : (conn.question q).state = .inProgress
      · have still : (conn.alterQuestion q fun question =>
            { question with err := some reason, state := .resolved }).findQuestion id = some q := found
        rw [bind_apply, rejectUnsettled_pending reason pending]
        dsimp only
        rw [bind_apply, popQuestion_run still]
        have ends : Redirected source past failing ((conn.dropQuestion id).alterQuestion q fun question =>
            { question with err := some reason, state := .resolved }) :=
          (redirected.drop id).untied free (redirected.gone found)
        exact ends
      · rw [bind_apply, rejectUnsettled_settled reason pending]
        dsimp only
        rw [bind_apply, popQuestion_run found]
        exact redirected.drop id

variable (past) in
def Conn.Recorded (conn : Conn) : Prop := ∀ a outcome, (conn.answer a).Holds outcome → past a outcome

variable (source past) in
/-- The ties are kept while answers are refused, with a record of what they had settled to. -/
def Records (before after : Conn) : Prop :=
  Redirected source past True before ∧ before.Recorded past → Redirected source past True after ∧ after.Recorded past

instance : IsPreorder Conn (Records source past) where
  refl _ := id
  trans _ _ _ sooner later := later ∘ sooner

theorem shutdownAnswer_records {reason : String} (refused : ∀ a, past a (.error reason)) (id : Nat) :
    Moves (Records source past) (shutdownAnswer reason id) := by
  have pops : Moves (Records source past) (popAnswer id) := by
    apply Moves.get
    intro conn
    apply Moves.follow
    · exact fun kept => ⟨kept.1.finish id, kept.2⟩
    · exact fun _ => Moves.pure _
  apply Moves.bind pops
  intro popped
  cases popped with
  | none => exact Moves.pure _
  | some a =>
      apply Moves.modify
      rintro conn ⟨redirected, recorded⟩
      refine ⟨redirected.refuse a reason (recorded a), ?_⟩
      intro b outcome ends
      by_cases here : b = a
      · subst here
        cases outcome with
        | error other =>
            have same : reason = other := by simpa [Conn.alterAnswer, AnswerEntry.rejected, AnswerEntry.Holds] using ends
            exact same ▸ refused b
        | ok obj =>
            have held : (conn.answer b).obj = some obj := by
              simpa [Conn.alterAnswer, AnswerEntry.rejected, AnswerEntry.Holds] using ends
            cases done : (conn.answer b).done with
            | true => exact recorded b (.ok obj) ⟨done, held⟩
            | false => cases ((redirected.whole b).empty done).1.symm.trans held
      · apply recorded b outcome
        simpa [Conn.alterAnswer, here] using ends

theorem Redirected.dismiss {after : Conn} (redirected : Redirected source past failing conn) {number : Nat}
    {reason : String} (refused : ∀ a, past a (.error reason))
    (concluded : conn.Concluded number (.error reason) after) : Redirected source past failing after :=
  redirected.concluded rfl (fun _ => rfl) (fun _ _ => rfl) (fun _ b _ _ _ => Or.inr (refused b)) (fun _ whole => whole)
    (.refl conn) concluded

variable (source past failing) in
/-- The ties are kept while lists of waiters are emptied. -/
structure Dismisses (before after : Conn) : Prop where
  ties : Ties source past failing before after
  lists : ∀ k, find after.tailAnswerWaiters k = none ∨
    find after.tailAnswerWaiters k = find before.tailAnswerWaiters k

instance : IsPreorder Conn (Dismisses source past failing) where
  refl _ := ⟨id, fun _ => Or.inr rfl⟩
  trans _ _ _ sooner later := by
    refine ⟨later.ties ∘ sooner.ties, ?_⟩
    intro k
    rcases later.lists k with none | same
    · exact Or.inl none
    · rw [same]
      exact sooner.lists k

theorem shutdownTailAnswersAll_dismisses {reason : String} (refused : ∀ a, past a (.error reason))
    (redirected : Redirected source past failing conn) :
    ∃ after, (Conn.indices conn.tailAnswerWaiters).forM (shutdownTailAnswers reason) conn = .ok () after ∧
      Redirected source past False after := by
  have keeps : ∀ before after, Dismisses source past failing before after → Redirected source past failing before →
      Redirected source past failing after := fun _ _ dismisses => dismisses.ties
  have turns : ∀ id before, Redirected source past failing before → ∃ after,
      shutdownTailAnswers reason id before = .ok () after ∧ Dismisses source past failing before after ∧
        find after.tailAnswerWaiters id = none := by
    intro id before _
    obtain ⟨after, run, concluded⟩ := shutdownTailAnswers_concludes reason id before
    refine ⟨after, run, ⟨fun redirected => redirected.dismiss refused concluded, ?_⟩, ?_⟩
    · intro k
      rw [concluded.lists]
      split
      · exact Or.inl rfl
      · exact Or.inr rfl
    · rw [concluded.lists, if_pos rfl]
  obtain ⟨after, run, dismisses, emptied⟩ :=
    forM_indices keeps (fun _ _ dismisses => dismisses.lists) turns conn redirected
  have ends := dismisses.ties redirected
  refine ⟨after, run, { ends with pending := ?_ }⟩
  intro q a redirect inProgress
  obtain ⟨_, waits, _⟩ := ends.pending q a redirect inProgress
  rw [Conn.waitersOf, emptied] at waits
  cases waits

namespace Redirected

theorem answered (redirected : Redirected source past failing conn) {q a : Nat} {question : Question}
    (free : source q = none) (below : q < conn.objects) (under : a < conn.objects)
    (gone : ∀ id, conn.findQuestion id ≠ some q) (ended : question.state ≠ .inProgress)
    (known : question.state = .resolved →
      ∃ outcome, question.SettledTo outcome ∧ (conn.answer a).Holds outcome) :
    Redirected (Function.update source q (some a)) past failing (conn.alterQuestion q fun _ => question) := by
  have here : (conn.alterQuestion q fun _ => question).question q = question := by simp [Conn.alterQuestion]
  have there : ∀ p b, Function.update source q (some a) p = some b → p ≠ q →
      source p = some b := fun p b redirect other => by rwa [Function.update_of_ne other] at redirect
  have untied : Redirected source past failing (conn.alterQuestion q fun _ => question) :=
    redirected.untied free gone
  have tied : ∀ p b, source p = some b → p ≠ q := by
    rintro p b redirect rfl
    cases free.symm.trans redirect
  refine { untied with table := ?_, made := ?_, pending := ?_, settled := ?_, listed := ?_ }
  · intro id p found
    have other : p ≠ q := by
      rintro rfl
      exact gone id found
    rw [Function.update_of_ne other]
    exact untied.table id p found
  · intro p b redirect
    by_cases same : p = q
    · subst same
      rw [Function.update_self] at redirect
      cases redirect
      exact ⟨below, under⟩
    · exact untied.made p b (there p b redirect same)
  · intro p b redirect inProgress
    have other : p ≠ q := by
      rintro rfl
      rw [here] at inProgress
      exact ended inProgress
    exact untied.pending p b (there p b redirect other) inProgress
  · intro p b redirect resolved
    by_cases same : p = q
    · subst same
      rw [Function.update_self] at redirect
      cases redirect
      rw [here] at resolved ⊢
      obtain ⟨outcome, ends, by_source⟩ := known resolved
      exact ⟨outcome, ends, Or.inl by_source⟩
    · exact untied.settled p b (there p b redirect same) resolved
  · intro k p waits
    obtain ⟨b, redirect, number⟩ := untied.listed k p waits
    exact ⟨b, by rw [Function.update_of_ne (tied p b redirect)]; exact redirect, number⟩

end Redirected

/-- Which answers the questions are redirected to once a question has been redirected to a number. -/
def Conn.taking (conn : Conn) (source : Nat → Option Nat) (q other : Nat) : Nat → Option Nat :=
  match find conn.answers other with
  | none => source
  | some a => Function.update source q (some a)

/-- A number that a question can be redirected to: not the question's own, of one unfinished answer only, and with no
waiter that has been given up. -/
def Conn.Takes (conn : Conn) (id other : Nat) : Prop :=
  ∀ a, find conn.answers other = some a → other ≠ id ∧ ((conn.answer a).done = false →
    (∀ b, b ≠ a → (conn.answer b).id.id = other → (conn.answer b).done = true) ∧
      ∀ q ∈ conn.waitersOf other, (conn.question q).state = .inProgress)

theorem takeFromOther_redirected (redirected : Redirected source past failing conn) {q id other : Nat}
    (free : source q = none) (below : q < conn.objects) (unresolved : (conn.question q).state ≠ .resolved)
    (gone : ∀ id, conn.findQuestion id ≠ some q) (takes : conn.Takes id other) :
    Meets (takeFromOther q id other) conn
      (fun _ after => Redirected (conn.taking source q other) past failing after)
      fun _ after => Redirected (conn.taking source q other) past failing after := by
  unfold takeFromOther
  apply Meets.get
  cases found : find conn.answers other with
  | none =>
      have refuses : Meets (settleForeign q (.error RPC_BAD_TARGET)) conn
          (fun _ after => Redirected source past failing after)
          fun _ after => Redirected source past failing after := by
        unfold Meets
        by_cases pending : (conn.question q).state = .inProgress
        · obtain ⟨question, _, run⟩ := settleForeign_run conn q (.error RPC_BAD_TARGET) pending
          rw [run]
          exact redirected.untied free gone
        · obtain ⟨error, run⟩ := settleForeign_refused conn q (.error RPC_BAD_TARGET) pending
          rw [run]
          exact redirected
      rw [show conn.taking source q other = source by rw [Conn.taking, found]]
      split
      · exact refuses
      · exact refuses
  | some a =>
      obtain ⟨apart, sole⟩ := takes a found
      rw [if_neg apart, show conn.taking source q other = Function.update source q (some a) by rw [Conn.taking, found]]
      dsimp only
      cases done : (conn.answer a).done with
      | false =>
          obtain ⟨alone, waiting⟩ := sole done
          exact redirected.redirect free below unresolved gone found done alone waiting
      | true =>
          have under := (redirected.named other a found).2
          have ends : ∀ outcome, (conn.answer a).Holds outcome → Meets (settleForeign q outcome) conn
              (fun _ after => Redirected (Function.update source q (some a)) past failing after)
              fun _ after => Redirected (Function.update source q (some a)) past failing after := by
            intro outcome by_source
            unfold Meets
            by_cases pending : (conn.question q).state = .inProgress
            · obtain ⟨question, settled, run⟩ := settleForeign_run conn q outcome pending
              rw [run]
              apply redirected.answered free below under gone
              · rw [settled.state]
                nofun
              · exact fun _ => ⟨outcome, settled, by_source⟩
            · obtain ⟨error, run⟩ := settleForeign_refused conn q outcome pending
              have same : (conn.alterQuestion q fun _ => conn.question q) = conn := by
                simp [Conn.alterQuestion]
              have stays := redirected.answered free below under gone pending fun resolved => absurd resolved unresolved
              rw [same] at stays
              rw [run]
              exact stays
          rw [if_pos rfl]
          cases err : (conn.answer a).err with
          | some reason => exact ends (.error reason) ⟨done, err⟩
          | none =>
              cases obj : (conn.answer a).obj with
              | some obj' => exact ends (.ok obj') ⟨done, obj⟩
              | none =>
                  obtain ⟨outcome, by_source⟩ := (redirected.whole a).ended done
                  cases outcome with
                  | ok obj' => cases obj.symm.trans by_source.2
                  | error reason => cases err.symm.trans by_source.2

theorem handleReturnMessage_redirected (redirected : Redirected source past failing conn) {id : WireId} {q other : Nat}
    (noFinishNeeded : Bool) (m : RpcMessage) (found : conn.findQuestion id.id = some q)
    (takes : conn.Takes id.id other) :
    Meets (handleReturnMessage id false noFinishNeeded (.takeFromOtherQuestion other) m) conn
      (fun _ after => Redirected (conn.taking source q other) past failing after)
      fun _ after => Redirected (conn.taking source q other) past failing after := by
  obtain ⟨free, below, unresolved, _⟩ := redirected.table id.id q found
  let popped := (conn.dropQuestion id.id).say (.returnUsed q id)
  have dropped : Redirected source past failing popped :=
    (redirected.drop id.id).aside { Aside.refl (conn.dropQuestion id.id) with }
  have takes' : popped.Takes id.id other := takes
  have rest : Meets (do
        takeFromOther q id.id other
        if noFinishNeeded then return () else sendMessage (newFinishMessage ⟨id.id, q⟩ true)) popped
      (fun _ after => Redirected (conn.taking source q other) past failing after)
      fun _ after => Redirected (conn.taking source q other) past failing after := by
    apply Meets.bind
    apply (takeFromOther_redirected dropped free below unresolved (redirected.gone found) takes').mono
    · intro _ settled ties
      cases noFinishNeeded with
      | true => exact ties
      | false => exact ties.aside (.send settled _)
    · exact fun _ _ ties => ties
  apply Meets.bind
  unfold Meets
  rw [popQuestion_run found]
  exact rest

def Conn.Last (conn : Conn) (q : Nat) : Prop :=
  ∀ k, (conn.waitersOf k).Pairwise fun earlier later => earlier = q → (conn.question later).state ≠ .inProgress

theorem cancel_redirected (redirected : Redirected source past failing conn) {q : Nat} (reason : String)
    (last : conn.Last q) :
    Meets (Question.cancel q reason) conn (fun _ after => Redirected source past failing after)
      fun _ after => Redirected source past failing after := by
  apply Meets.get
  split
  · obtain ⟨told, leaves, idle, questions, _⟩ := Question.leaveTable_run (P := ∅) conn q (conn.question q).started
    have left : Redirected source past failing (told.leave q) := by
      have kept := redirected.aside (.of_idle idle)
      unfold Conn.leave
      split
      · exact kept.drop _
      · exact kept
    have same : (told.leave q).question = conn.question := by
      rw [← questions]
      unfold Conn.leave
      split
      · rfl
      · rfl
    have lists : ∀ k, (told.leave q).waitersOf k = conn.waitersOf k := by
      intro k
      have waiters : (told.leave q).tailAnswerWaiters = conn.tailAnswerWaiters := by
        rw [← idle.waiters]
        unfold Conn.leave
        split
        · rfl
        · rfl
      rw [Conn.waitersOf, waiters]
      rfl
    unfold Meets
    rw [bind_apply, leaves]
    have ends : Redirected source past failing ((told.leave q).alterQuestion q fun question =>
        { question with err := some reason, state := .canceled }) := by
      apply left.cancel rfl rfl
      intro k
      rw [lists, same]
      exact last k
    exact ends
  · exact redirected

theorem bootstrap_aside (conn : Conn) :
    Meets bootstrap conn (fun _ after => Aside conn after) fun _ after => Aside conn after := by
  let issued := conn.issueQuestion none
  let sent := issued.send (.bootstrap (issued.questionId conn.objects))
  have starts : Aside sent (sent.alterQuestion conn.objects fun question => { question with started := true }) :=
    .alterQuestion sent conn.objects rfl rfl
  exact (Aside.issue conn none).trans ((Aside.send issued _).trans starts)

/-- A connection with a record of the answer that each question was redirected to, and of what `shutdown` refused. -/
structure Redirecting where
  conn : Conn
  source : Nat → Option Nat := fun _ => none
  failures : List (String × Conn) := []
  -- whether `shutdown` has refused the answers, but not yet the questions that wait for them
  failing : Bool := false

inductive Redirecting.Input
  | bootstrap
  | call (client : Nat) (call : Call)
  | redirect (id : WireId) (noFinishNeeded : Bool) (other : Nat)
  | incoming (id : WireId)
  | finish (id : WireId)
  | settle (answer : Nat) (outcome : Except (Option String) Struct)
  | cancel (question : Nat) (reason : String)
  -- `shutdown` goes from table to table, and what it closes on the way may settle answers and give up questions
  | shutdownQuestions (reason : String)
  | shutdownAnswers (reason : String)
  | shutdownTailAnswers (reason : String)

namespace Redirecting

def redirection (id : WireId) (noFinishNeeded : Bool) (other : Nat) : ConnM Unit :=
  handleReturnMessage id false noFinishNeeded (.takeFromOtherQuestion other)
    (.ret id false noFinishNeeded (.takeFromOtherQuestion other))

def step (state : Redirecting) : Input → Option Redirecting
  | .bootstrap => some { state with conn := state.conn.run (perform .bootstrap) }
  | .call client call => some { state with conn := state.conn.run (perform (.call client call)) }
  | .redirect id noFinishNeeded other =>
      (state.conn.findQuestion id.id).map fun q => {
        state with
        conn := state.conn.run (redirection id noFinishNeeded other)
        source := state.conn.taking state.source q other
      }
  | .incoming id => some { state with conn := state.conn.run do let _ ← insertAnswer id }
  | .finish id => some { state with conn := state.conn.run (handleFinishMessage id false) }
  | .settle a outcome => some { state with conn := state.conn.run (finishAnswer a outcome) }
  | .cancel q reason => some { state with conn := state.conn.run (perform (.cancel q reason)) }
  | .shutdownQuestions reason =>
      some { state with conn := state.conn.run ((Conn.indices state.conn.questions).forM (shutdownQuestion reason)) }
  | .shutdownAnswers reason => some {
      state with
      conn := state.conn.run ((Conn.indices state.conn.answers).forM (shutdownAnswer reason))
      failures := (reason, state.conn) :: state.failures
      failing := true
    }
  | .shutdownTailAnswers reason => some {
      state with
      conn := state.conn.run ((Conn.indices state.conn.tailAnswerWaiters).forM (shutdownTailAnswers reason))
      failures := (reason, state.conn) :: state.failures
      failing := false
    }

/-- `shutdown` has refused an answer with this reason, or the answer had this outcome before. -/
def Failed (state : Redirecting) (a : Nat) (outcome : Except String Struct) : Prop :=
  ∃ failure ∈ state.failures, outcome = .error failure.1 ∨ (failure.2.answer a).Holds outcome

theorem failed_more {state : Redirecting} {failure : String × Conn} {failing : Bool} (a : Nat)
    (outcome : Except String Struct) (failed : state.Failed a outcome) :
    Failed ⟨state.conn, state.source, failure :: state.failures, failing⟩ a outcome := by
  obtain ⟨known, member, why⟩ := failed
  exact ⟨known, List.mem_cons_of_mem _ member, why⟩

/-- The steps that leave the questions waiting under a number to one unfinished answer. -/
def Spares (state : Redirecting) : Input → Redirecting → Prop
  | .redirect id _ other, _ => state.conn.Takes id.id other
  | .incoming id, _ => find state.conn.answers id.id = none →
      ∀ q ∈ state.conn.waitersOf id.id, (state.conn.question q).state ≠ .inProgress
  | .settle a outcome, _ => ∀ obj, outcome = .ok obj → state.conn.fresh.Sends a obj
  | .cancel q _, _ => state.conn.Last q
  | _, _ => True

/-- The record is what ties the questions of the connection to its answers. -/
def Tied (state : Redirecting) : Prop := Redirected state.source state.Failed (state.failing = true) state.conn

theorem Tied.fresh {state : Redirecting} (tied : state.Tied) :
    Redirected state.source state.Failed (state.failing = true) state.conn.fresh :=
  Redirected.aside tied { Aside.refl state.conn with }

theorem tied_initially (registry : Nat → Option (List Method)) (stack : Nat) :
    Tied { conn := { registry := registry, stack := stack } } where
  table id q found := by
    rw [Conn.findQuestion, find_nil] at found
    cases found
  named k a found := by
    rw [find_nil] at found
    cases found
  made := nofun
  pending := nofun
  settled := nofun
  listed k q waits := by
    rw [Conn.waitersOf, find_nil] at waits
    cases waits
  ordered k := by
    rw [Conn.waitersOf, find_nil]
    exact .nil
  distinct k := by
    rw [Conn.waitersOf, find_nil]
    exact .nil
  whole _ := ⟨fun _ => ⟨.error "", rfl, rfl⟩, nofun⟩

theorem tied_run {state : Redirecting} {program : ConnM Unit} {source : Nat → Option Nat}
    {failures : List (String × Conn)} {failing : Bool}
    (keeps : Meets program state.conn.fresh (fun _ after => Tied ⟨after, source, failures, failing⟩)
      fun _ after => Tied ⟨after, source, failures, failing⟩) :
    Tied ⟨state.conn.run program, source, failures, failing⟩ :=
  run_meets (P := fun after => Tied ⟨after, source, failures, failing⟩) keeps

theorem step_tied {state after : Redirecting} {input : Input} (tied : state.Tied)
    (taken : state.step input = some after) (spares : state.Spares input after) : after.Tied := by
  cases input with
  | bootstrap =>
      cases taken
      apply tied_run
      apply (bootstrap_aside state.conn.fresh).mono
      · exact fun _ _ aside => tied.fresh.aside aside
      · exact fun _ _ aside => tied.fresh.aside aside
  | call client call =>
      cases taken
      apply tied_run
      apply Meets.get
      apply Meets.bind
      apply (callClient_asks (P := Set.univ) trivial state.conn.stack client call state.conn.fresh).mono
      · exact fun _ _ asks => tied.fresh.aside (.of_asks asks)
      · exact fun _ _ asks => tied.fresh.aside (.of_asks asks)
  | redirect id noFinishNeeded other =>
      obtain ⟨q, found, rfl⟩ := Option.map_eq_some_iff.mp taken
      apply tied_run
      exact handleReturnMessage_redirected tied.fresh noFinishNeeded _ found spares
  | incoming id =>
      cases taken
      apply tied_run
      apply Meets.bind
      apply Meets.get
      cases found : find state.conn.fresh.answers id.id with
      | some a => exact tied.fresh
      | none => exact tied.fresh.incoming id (spares found)
  | finish id =>
      cases taken
      apply tied_run
      have popped := tied.fresh.finish id.id
      apply Meets.bind
      apply Meets.get
      cases found : find state.conn.fresh.answers id.id with
      | none => exact popped
      | some a => exact popped
  | settle a outcome =>
      cases taken
      apply tied_run
      exact finishAnswer_redirected tied.fresh spares
  | cancel q reason =>
      cases taken
      apply tied_run
      apply Meets.bind
      apply (cancel_redirected tied.fresh reason spares).mono
      · exact fun _ _ ties => ties
      · exact fun _ _ ties => ties
  | shutdownQuestions reason =>
      cases taken
      apply tied_run
      have ties := Moves.forM (R := Ties state.source state.Failed (state.failing = true))
        fun id (_ : id ∈ Conn.indices state.conn.questions) => shutdownQuestion_ties reason id
      apply (ties state.conn.fresh).mono
      · exact fun _ _ keeps => keeps tied.fresh
      · exact fun _ _ keeps => keeps tied.fresh
  | shutdownAnswers reason =>
      cases taken
      apply tied_run
      let past := Failed ⟨state.conn, state.source, (reason, state.conn) :: state.failures, true⟩
      have redirected : Redirected state.source past True state.conn.fresh :=
        tied.fresh.mono (fun a outcome => failed_more a outcome) fun _ => trivial
      have recorded : state.conn.fresh.Recorded past :=
        fun a outcome ends => ⟨(reason, state.conn), List.mem_cons_self .., Or.inr ends⟩
      have refused : ∀ a, past a (.error reason) := fun a => ⟨(reason, state.conn), List.mem_cons_self .., Or.inl rfl⟩
      have records := Moves.forM (R := Records state.source past) fun id (_ : id ∈ Conn.indices state.conn.answers) =>
        shutdownAnswer_records refused id
      apply (records state.conn.fresh).mono
      · exact fun _ _ keeps => (keeps ⟨redirected, recorded⟩).1.mono (fun _ _ known => known) fun _ => rfl
      · exact fun _ _ keeps => (keeps ⟨redirected, recorded⟩).1.mono (fun _ _ known => known) fun _ => rfl
  | shutdownTailAnswers reason =>
      cases taken
      apply tied_run
      let past := Failed ⟨state.conn, state.source, (reason, state.conn) :: state.failures, false⟩
      have redirected : Redirected state.source past (state.failing = true) state.conn.fresh :=
        tied.fresh.mono (fun a outcome => failed_more a outcome) id
      have refused : ∀ a, past a (.error reason) := fun a => ⟨(reason, state.conn), List.mem_cons_self .., Or.inl rfl⟩
      obtain ⟨final, run, ends⟩ := shutdownTailAnswersAll_dismisses refused redirected
      have finalTied : Redirected state.source past (false = true) final :=
        ends.mono (fun _ _ known => known) False.elim
      unfold Meets
      rw [show (Conn.indices state.conn.tailAnswerWaiters).forM (shutdownTailAnswers reason) state.conn.fresh =
        .ok () final from run]
      exact finalTied

theorem tied_of_run {registry : Nat → Option (List Method)} {stack : Nat} {state : Redirecting}
    (run : Run step Spares { conn := { registry := registry, stack := stack } } state) : state.Tied :=
  run.invariant (tied_initially registry stack) fun _ _ _ tied taken spares => step_tied tied taken spares

/-- A redirected question ends as its answer does, or as `shutdown` says, and not later than its answer. -/
structure Follows (state : Redirecting) (q a : Nat) : Prop where
  outcome : (state.conn.question q).state = .resolved → ∃ outcome, (state.conn.question q).SettledTo outcome ∧
    ((state.conn.answer a).Holds outcome ∨ state.Failed a outcome)
  settled : (state.conn.answer a).done = true → state.failing = false → (state.conn.question q).state ≠ .inProgress

/-- The number is used again before the answer under it settles, and the question takes the outcome of the later call.
-/
def reused : List Input :=
  [.incoming ⟨1, 0⟩, .bootstrap, .redirect ⟨0, 5⟩ false 1, .finish ⟨1, 0⟩, .incoming ⟨1, 9⟩, .settle 2 (.error (some "second"))]

end Redirecting

end CapnpEs.Rpc
