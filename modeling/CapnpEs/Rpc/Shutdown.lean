import CapnpEs.Rpc.Closing

/-! `shutdown`, one table after the other. -/

namespace CapnpEs.Rpc

open SlotTable Outcome

open Conn (Fading Closing)

variable {conn : Conn}

/-- What `shutdown` does to the questions: those that leave the table are settled. -/
structure Dismissing (before after : Conn) : Prop where
  only : after = { before with
    question := after.question, questions := after.questions, questionID := after.questionID }
  settled : ∀ q, before.Settled q → after.Settled q
  questions : ∀ id, find after.questions id = find before.questions id ∨
    find after.questions id = none ∧ ∀ q, find before.questions id = some q → after.Settled q

theorem Dismissing.trans {first second third : Conn} (sooner : Dismissing first second)
    (later : Dismissing second third) : Dismissing first third := by
  constructor
  · rw [later.only, sooner.only]
  · exact fun q settled => later.settled q (sooner.settled q settled)
  · intro id
    rcases later.questions id with same | ⟨gone, settles⟩
    · rw [same]
      rcases sooner.questions id with same | ⟨gone, settles⟩
      · exact Or.inl same
      · exact Or.inr ⟨gone, fun q found => later.settled q (settles q found)⟩
    · refine Or.inr ⟨gone, ?_⟩
      intro q found
      rcases sooner.questions id with same | ⟨_, settled⟩
      · exact settles q (same.trans found)
      · exact later.settled q (settled q found)

instance : IsPreorder Conn Dismissing where
  refl _ := ⟨rfl, fun _ settled => settled, fun _ => Or.inl rfl⟩
  trans _ _ _ := Dismissing.trans

theorem rejectUnsettled_run (conn : Conn) (reason : String) (q : Nat) :
    ∃ after, rejectUnsettled reason q conn = .ok () after ∧ Rejecting conn after ∧ after.Settled q := by
  by_cases inProgress : (conn.question q).state = .inProgress
  · have runs : rejectUnsettled reason q conn = Question.reject q reason conn := by
      unfold rejectUnsettled
      rw [bind_apply, get_apply]
      dsimp only
      rw [if_pos inProgress]
    have meets : Meets (Question.reject q reason) conn _ _ := Question.reject_settles q reason
    unfold Meets at meets
    rw [runs]
    cases rejects : Question.reject q reason conn with
    | ok value after =>
        rw [rejects] at meets
        exact ⟨after, rfl, meets⟩
    | error error after =>
        rw [rejects] at meets
        exact absurd inProgress meets.2
  · refine ⟨conn, ?_, .refl conn, inProgress⟩
    unfold rejectUnsettled
    rw [bind_apply, get_apply]
    dsimp only
    rw [if_neg inProgress]
    rfl

theorem shutdownQuestion_run (conn : Conn) (reason : String) (id : Nat) :
    ∃ after, shutdownQuestion reason id conn = .ok () after ∧ Dismissing conn after ∧
      find after.questions id = none := by
  unfold shutdownQuestion
  rw [bind_apply, get_apply]
  dsimp only
  cases found : conn.findQuestion id with
  | none => exact ⟨conn, rfl, refl_of Dismissing conn, found⟩
  | some q =>
      obtain ⟨rejected, rejects, ⟨only, settled⟩, settles⟩ := rejectUnsettled_run conn reason q
      have same : rejected.questions = conn.questions := by rw [only]
      have still : rejected.findQuestion id = some q := by
        unfold Conn.findQuestion
        rw [same]
        exact found
      refine ⟨rejected.dropQuestion id, ?_, ⟨?_, settled, ?_⟩, find_put_same _ _ _⟩
      · dsimp only
        rw [bind_apply, rejects]
        dsimp only
        rw [bind_apply, popQuestion_run still]
        rfl
      · rw [only]
        rfl
      · intro other
        by_cases own : other = id
        · subst own
          refine Or.inr ⟨find_put_same _ _ _, ?_⟩
          intro q' found'
          cases found.symm.trans found'
          exact settles
        · refine Or.inl ?_
          rw [← same]
          exact find_put_other _ _ own

theorem AnswerEntry.rejected_rejected (reason : String) (entry : AnswerEntry) :
    rejected reason (rejected reason entry) = rejected reason entry := by
  simp [rejected]

/-- What `shutdown` does to the answers. -/
structure Refusing (reason : String) (before after : Conn) : Prop where
  only : after = { before with answer := after.answer, answers := after.answers }
  each : ∀ a, after.answer a = before.answer a ∨ after.answer a = .rejected reason (before.answer a)
  answers : ∀ id, find after.answers id = find before.answers id ∨ find after.answers id = none ∧
    ∀ a, find before.answers id = some a → after.answer a = .rejected reason (before.answer a)

theorem Refusing.rejected {reason : String} {before after : Conn} (refusing : Refusing reason before after)
    {entry : AnswerEntry} {a : Nat} (same : before.answer a = .rejected reason entry) :
    after.answer a = .rejected reason entry := by
  rcases refusing.each a with kept | marked
  · exact kept.trans same
  · rw [marked, same, AnswerEntry.rejected_rejected]

theorem Refusing.ids {reason : String} {before after : Conn} (refusing : Refusing reason before after) (a : Nat) :
    (after.answer a).id = (before.answer a).id := by
  rcases refusing.each a with kept | marked
  · rw [kept]
  · rw [marked]
    rfl

theorem Refusing.done {reason : String} {before after : Conn} (refusing : Refusing reason before after) {a : Nat}
    (done : (before.answer a).done = true) : (after.answer a).done = true := by
  rcases refusing.each a with kept | marked
  · rw [kept]
    exact done
  · rw [marked]
    rfl

theorem Refusing.trans {reason : String} {first second third : Conn} (sooner : Refusing reason first second)
    (later : Refusing reason second third) : Refusing reason first third := by
  constructor
  · rw [later.only, sooner.only]
  · intro a
    rcases sooner.each a with kept | marked
    · rw [← kept]
      exact later.each a
    · exact Or.inr (later.rejected marked)
  · intro id
    rcases later.answers id with same | ⟨gone, marks⟩
    · rw [same]
      rcases sooner.answers id with same | ⟨gone, marks⟩
      · exact Or.inl same
      · exact Or.inr ⟨gone, fun a found => later.rejected (marks a found)⟩
    · refine Or.inr ⟨gone, ?_⟩
      intro a found
      rcases sooner.answers id with same | ⟨_, marked⟩
      · rcases sooner.each a with kept | marked
        · rw [← kept]
          exact marks a (same.trans found)
        · exact later.rejected marked
      · exact later.rejected (marked a found)

instance (reason : String) : IsPreorder Conn (Refusing reason) where
  refl _ := ⟨rfl, fun _ => Or.inl rfl, fun _ => Or.inl rfl⟩
  trans _ _ _ := Refusing.trans

theorem shutdownAnswer_run (conn : Conn) (reason : String) (id : Nat) :
    ∃ after, shutdownAnswer reason id conn = .ok () after ∧ Refusing reason conn after ∧
      find after.answers id = none := by
  have popped : popAnswer id conn = .ok (find conn.answers id) (conn.setAnswerSlot id none) := rfl
  cases found : find conn.answers id with
  | none =>
      refine ⟨conn.setAnswerSlot id none, ?_, ⟨rfl, fun _ => Or.inl rfl, ?_⟩, find_put_same _ _ _⟩
      · rw [shutdownAnswer, bind_apply, popped]
        dsimp only
        rw [found]
        rfl
      · intro other
        by_cases own : other = id
        · subst own
          refine Or.inr ⟨find_put_same _ _ _, ?_⟩
          intro a held
          cases found.symm.trans held
        · exact Or.inl (find_put_other _ _ own)
  | some a =>
      have marks : ∀ a', ((conn.setAnswerSlot id none).alterAnswer a (AnswerEntry.rejected reason)).answer a' =
          if a' = a then .rejected reason (conn.answer a) else conn.answer a' := by
        intro a'
        simp only [Conn.alterAnswer, Conn.setAnswerSlot, Function.update_apply]
      refine ⟨(conn.setAnswerSlot id none).alterAnswer a (AnswerEntry.rejected reason), ?_, ⟨rfl, ?_, ?_⟩,
        find_put_same _ _ _⟩
      · rw [shutdownAnswer, bind_apply, popped]
        dsimp only
        rw [found]
        rfl
      · intro a'
        rw [marks]
        split
        · rename_i same
          rw [same]
          exact Or.inr rfl
        · exact Or.inl rfl
      · intro other
        by_cases own : other = id
        · subst own
          refine Or.inr ⟨find_put_same _ _ _, ?_⟩
          intro a' held
          cases found.symm.trans held
          rw [marks, if_pos rfl]
        · exact Or.inl (find_put_other _ _ own)

theorem attempt_meets {program : ConnM Unit} {ends : Conn → Prop}
    (meets : Meets program conn (fun _ after => ends after) fun _ after => ends after) :
    ∃ error after, attempt program conn = .ok error after ∧ ends after := by
  have attempts := attempt_ends meets
  unfold Meets at attempts
  cases runs : attempt program conn with
  | ok error after =>
      rw [runs] at attempts
      exact ⟨error, after, rfl, attempts⟩
  | error error after =>
      rw [runs] at attempts
      exact attempts.elim

theorem attempt_run {program : ConnM Unit} (closing : Moves Closing program) (conn : Conn) :
    ∃ error after, attempt program conn = .ok error after ∧ conn.Closing after :=
  attempt_meets (closing conn)

theorem shutdownExport_run (conn : Conn) (id : Nat) :
    ∃ after, shutdownExport id conn = .ok () after ∧ conn.Closing after ∧ find after.exports id = none := by
  unfold shutdownExport
  rw [bind_apply, get_apply]
  dsimp only
  cases found : conn.findExport id with
  | none => exact ⟨conn, rfl, .refl conn, found⟩
  | some e =>
      obtain ⟨error, closed, closes, closing⟩ := attempt_run (close_closing e.client) conn
      have drops : closed.Closing (closed.dropExport id) := by
        refine .of_same { Fading.refl closed with exports := ?_ } rfl rfl (List.append_nil _).symm
        intro other
        simp only [Conn.dropExport, Conn.setExport, find_put]
        split
        · exact Or.inl rfl
        · exact Or.inr rfl
      refine ⟨closed.dropExport id, ?_, closing.trans drops, find_put_same _ _ _⟩
      dsimp only
      rw [bind_apply, closes]
      rfl

/-- What the steps of `shutdown` have in common. -/
structure Conn.Unwinding (before after : Conn) : Prop where
  fades : before.Fading after
  rejects : before.Rejects after

theorem Conn.Closing.unwinding {before after : Conn} (closing : before.Closing after) : before.Unwinding after :=
  ⟨closing.fades, closing.rejects⟩

theorem Conn.Fading.unwinding {before after : Conn} (fades : before.Fading after)
    (client : after.client = before.client) (trace : after.trace = before.trace) : before.Unwinding after :=
  ⟨fades, (Conn.SameQueues.of_eq client).rejects (by rw [trace, List.append_nil])⟩

theorem Conn.Unwinding.trans {first second third : Conn} (sooner : first.Unwinding second)
    (later : second.Unwinding third) : first.Unwinding third :=
  ⟨sooner.fades.trans later.fades, sooner.rejects.trans later.rejects sooner.fades later.fades⟩

instance : IsPreorder Conn Conn.Unwinding where
  refl conn := (Closing.refl conn).unwinding
  trans _ _ _ := Conn.Unwinding.trans

/-- An import that has been shut: it is closed, and no call waits in its queue. -/
def Conn.Shut (conn : Conn) (client : Nat) : Prop :=
  ∀ c, conn.client client = .importClient c → c.closed = true ∧ c.embargoQueue = []

theorem Conn.Fading.shut {after : Conn} (fades : conn.Fading after) {client : Nat} (shut : conn.Shut client) :
    after.Shut client := by
  intro c found
  obtain ⟨earlier, shape, _, closes, suffix⟩ := fades.imported client c found
  obtain ⟨closed, empty⟩ := shut earlier shape
  rw [empty] at suffix
  exact ⟨closes closed, List.suffix_nil.mp suffix⟩

theorem shutdownImportClient_shuts (reason : String) (client : Nat) (embargoed : conn.Embargoed) :
    Meets (shutdownImportClient reason client) conn (fun _ after => conn.Unwinding after ∧ after.Shut client)
      fun _ after => conn.Unwinding after ∧ after.Shut client := by
  unfold shutdownImportClient
  apply Meets.get
  cases shape : conn.client client with
  | importClient c =>
      let marked := conn.setClient client (.importClient { c with closed := true })
      have found : marked.client client = .importClient { c with closed := true } := by
        simp [marked, Conn.setClient]
      have marks : conn.Unwinding marked :=
        ⟨markClosed_fades shape, (markClosed_sameQueues shape).rejects (List.append_nil _).symm⟩
      let emptied := (marked.setClient client (.importClient { c with closed := true, embargoQueue := [] })).sayRejected
        client reason c.embargoQueue
      have empties : rejectAll client reason marked = .ok () emptied :=
        rejectAll_embargoed reason found (embargoed client c shape)
      have empty : emptied.client client = .importClient { c with closed := true, embargoQueue := [] } := by
        simp [emptied, Conn.setClient, Conn.sayRejected]
      have emptying := rejectAll_closing client reason marked
      unfold Meets at emptying
      rw [empties] at emptying
      have shut : emptied.Shut client := by
        intro c' same
        cases empty.symm.trans same
        exact ⟨rfl, rfl⟩
      have rest : Moves Closing (do
          closeOptional close c.resolved
          modify fun conn => conn.setClient client (conn.client client).withoutResolved.withoutEmbargo) := by
        apply Moves.bind (closeOptional_closing close_closing c.resolved)
        intro _
        apply Moves.modify
        intro conn
        apply Closing.setClient
        intro c' same
        cases found : conn.client client with
        | importClient earlier =>
            rw [found] at same
            cases same
            exact ⟨earlier, rfl, rfl, rfl, rfl⟩
        | _ =>
            rw [found] at same
            cases same
      apply Meets.bind
      change Meets _ marked _ _
      apply Meets.bind
      unfold Meets
      rw [empties]
      apply (rest emptied).mono
      · intro _ after later
        exact ⟨(marks.trans emptying.unwinding).trans later.unwinding, later.fades.shut shut⟩
      · intro _ after later
        exact ⟨(marks.trans emptying.unwinding).trans later.unwinding, later.fades.shut shut⟩
  | _ =>
      refine ⟨(Closing.refl conn).unwinding, ?_⟩
      intro c same
      cases shape.symm.trans same

theorem shutdownImport_run (conn : Conn) (reason : String) (id : Nat) (entry : ImportEntry)
    (embargoed : conn.Embargoed) :
    ∃ after, shutdownImport reason id entry conn = .ok () after ∧ conn.Unwinding after ∧
      find after.imports id = none ∧ after.Shut (after.refCount entry.rc).client := by
  unfold shutdownImport
  rw [bind_apply, get_apply]
  dsimp only
  have shuts := shutdownImportClient_shuts reason (conn.refCount entry.rc).client embargoed
  obtain ⟨error, closed, closes, unwinding, shut⟩ := attempt_meets shuts
  have drops := Fading.dropImport closed id
  refine ⟨closed.setImport id none, ?_, unwinding.trans (drops.unwinding rfl rfl), find_put_same _ _ _, ?_⟩
  · rw [bind_apply, closes]
    rfl
  · have same : ((closed.setImport id none).refCount entry.rc).client = (conn.refCount entry.rc).client :=
      unwinding.fades.refCounts entry.rc
    rw [same]
    exact drops.shut shut

theorem settleWaiters_run (waiters : List Nat) (reason : String) (conn : Conn) :
    ∃ after, waiters.forM (rejectUnsettled reason) conn = .ok () after ∧ Rejecting conn after ∧
      ∀ q ∈ waiters, after.Settled q := by
  have stable : ∀ q before after, Rejecting before after → before.Settled q → after.Settled q :=
    fun q _ _ rejecting => rejecting.settled q
  have keeps : ∀ before after, Rejecting before after → True → True := fun _ _ _ fine => fine
  exact Moves.forM_ok waiters keeps stable (fun q conn _ => rejectUnsettled_run conn reason q) conn trivial

theorem shutdownTailAnswers_run (conn : Conn) (reason : String) (id : Nat) :
    ∃ after, shutdownTailAnswers reason id conn = .ok () after ∧ conn.Unwinding after ∧
      find after.tailAnswerWaiters id = none := by
  unfold shutdownTailAnswers takeTailAnswerWaiters
  rw [bind_apply, bind_apply, get_apply]
  dsimp only
  cases found : find conn.tailAnswerWaiters id with
  | none => exact ⟨conn, rfl, refl_of Conn.Unwinding conn, found⟩
  | some waiters =>
      obtain ⟨after, runs, ⟨only, settled⟩, settles⟩ := settleWaiters_run waiters reason (conn.setWaiters id none)
      refine ⟨after, runs, ?_, ?_⟩
      · obtain ⟨question, same⟩ : ∃ question, after = { conn.setWaiters id none with question := question } :=
          ⟨_, only⟩
        subst same
        refine Fading.unwinding { Fading.refl conn with settled := settled, waiting := ?_, waiters := ?_ } rfl rfl
        · intro other
          simp only [Conn.setWaiters, find_put]
          split
          · exact Or.inl rfl
          · exact Or.inr rfl
        · intro other waiters' found' _
          by_cases own : other = id
          · subst own
            cases found.symm.trans found'
            exact Or.inr settles
          · refine Or.inl ?_
            simp only [Conn.setWaiters]
            rw [find_put_other _ _ own]
            exact found'
      · rw [only]
        exact find_put_same _ _ _

theorem shutdownDisembargo_run (conn : Conn) (id : Nat) :
    ∃ after, shutdownDisembargo id conn = .ok () after ∧ conn.Unwinding after ∧
      find after.disembargoes id = none :=
  ⟨_, rfl, (Fading.dropDisembargo conn id _).unwinding rfl rfl, find_put_same _ _ _⟩

theorem Conn.find_none_of_not_mem {α : Type} {slots : List (Option α)} {id : Nat}
    (absent : id ∉ Conn.indices slots) : find slots id = none := by
  cases found : find slots id with
  | none => rfl
  | some item =>
      have inside := lt_length_of_find found
      exact absurd (List.mem_filter.mpr ⟨List.mem_range.mpr inside, by simp [found]⟩) absent

theorem forM_indices {α : Type} {R : Conn → Conn → Prop} [IsPreorder Conn R] {table : Conn → List (Option α)}
    {program : Nat → ConnM Unit} {allowed : Conn → Prop}
    (keeps : ∀ state after, R state after → allowed state → allowed after)
    (shrinks : ∀ state after, R state after → ∀ id, find (table after) id = none ∨
      find (table after) id = find (table state) id)
    (turns : ∀ id state, allowed state → ∃ after, program id state = .ok () after ∧ R state after ∧
      find (table after) id = none)
    (conn : Conn) (fine : allowed conn) :
    ∃ after, (Conn.indices (table conn)).forM program conn = .ok () after ∧ R conn after ∧
      ∀ id, find (table after) id = none := by
  have stable : ∀ id state after, R state after → find (table state) id = none → find (table after) id = none :=
    fun id state after moved => Fading.gone (shrinks state after moved id)
  obtain ⟨after, runs, moved, emptied⟩ := Moves.forM_ok _ keeps stable turns conn fine
  refine ⟨after, runs, moved, ?_⟩
  intro id
  by_cases member : id ∈ Conn.indices (table conn)
  · exact emptied id member
  · exact stable id conn after moved (Conn.find_none_of_not_mem member)

/-- What `shutdown` leaves in the tables. -/
structure Conn.Empty (conn : Conn) : Prop where
  questions : ∀ id, find conn.questions id = none
  answers : ∀ id, find conn.answers id = none
  exports : ∀ id, find conn.exports id = none
  exportPromises : ∀ id, find conn.exportPromises id = none
  index : ∀ question transform, conn.exportPromiseIndex question transform = none
  imports : ∀ id, find conn.imports id = none
  waiters : ∀ id, find conn.tailAnswerWaiters id = none
  disembargoes : ∀ id, find conn.disembargoes id = none

theorem Conn.Embargoed.of_clients {before after : Conn} (same : after.client = before.client)
    (embargoed : before.Embargoed) : after.Embargoed := by
  unfold Conn.Embargoed
  rw [same]
  exact embargoed

theorem Conn.Held.of_tables {before after : Conn} (clients : after.client = before.client)
    (imports : after.imports = before.imports) (refCounts : after.refCount = before.refCount) (held : before.Held) :
    after.Held := by
  unfold Conn.Held
  rw [clients, imports, refCounts]
  exact held

theorem shutdownQuestions_run (conn : Conn) (reason : String) :
    ∃ after, (Conn.indices conn.questions).forM (shutdownQuestion reason) conn = .ok () after ∧
      Dismissing conn after ∧ ∀ id, find after.questions id = none := by
  have keeps : ∀ before after, Dismissing before after → True → True := fun _ _ _ fine => fine
  have shrinks : ∀ before after, Dismissing before after → ∀ id, find after.questions id = none ∨
      find after.questions id = find before.questions id := by
    intro before after dismissing id
    rcases dismissing.questions id with same | ⟨gone, _⟩
    · exact Or.inr same
    · exact Or.inl gone
  exact forM_indices keeps shrinks (fun id conn _ => shutdownQuestion_run conn reason id) conn trivial

theorem shutdownAnswers_run (conn : Conn) (reason : String) :
    ∃ after, (Conn.indices conn.answers).forM (shutdownAnswer reason) conn = .ok () after ∧
      Refusing reason conn after ∧ ∀ id, find after.answers id = none := by
  have keeps : ∀ before after, Refusing reason before after → True → True := fun _ _ _ fine => fine
  have shrinks : ∀ before after, Refusing reason before after → ∀ id, find after.answers id = none ∨
      find after.answers id = find before.answers id := by
    intro before after refusing id
    rcases refusing.answers id with same | ⟨gone, _⟩
    · exact Or.inr same
    · exact Or.inl gone
  exact forM_indices keeps shrinks (fun id conn _ => shutdownAnswer_run conn reason id) conn trivial

theorem shutdownExports_run (conn : Conn) :
    ∃ after, (Conn.indices conn.exports).forM shutdownExport conn = .ok () after ∧ conn.Closing after ∧
      ∀ id, find after.exports id = none := by
  have keeps : ∀ before after, Conn.Closing before after → True → True := fun _ _ _ fine => fine
  have shrinks : ∀ before after, Conn.Closing before after → ∀ id, find after.exports id = none ∨
      find after.exports id = find before.exports id := fun _ _ closing => closing.fades.exports
  exact forM_indices keeps shrinks (fun id conn _ => shutdownExport_run conn id) conn trivial

theorem shutdownTailAnswersAll_run (conn : Conn) (reason : String) :
    ∃ after, (Conn.indices conn.tailAnswerWaiters).forM (shutdownTailAnswers reason) conn = .ok () after ∧
      conn.Unwinding after ∧ ∀ id, find after.tailAnswerWaiters id = none := by
  have keeps : ∀ before after, Conn.Unwinding before after → True → True := fun _ _ _ fine => fine
  have shrinks : ∀ before after, Conn.Unwinding before after → ∀ id, find after.tailAnswerWaiters id = none ∨
      find after.tailAnswerWaiters id = find before.tailAnswerWaiters id := fun _ _ unwinding => unwinding.fades.waiting
  exact forM_indices keeps shrinks (fun id conn _ => shutdownTailAnswers_run conn reason id) conn trivial

theorem shutdownDisembargoes_run (conn : Conn) :
    ∃ after, (Conn.indices conn.disembargoes).forM shutdownDisembargo conn = .ok () after ∧
      conn.Unwinding after ∧ ∀ id, find after.disembargoes id = none := by
  have keeps : ∀ before after, Conn.Unwinding before after → True → True := fun _ _ _ fine => fine
  have shrinks : ∀ before after, Conn.Unwinding before after → ∀ id, find after.disembargoes id = none ∨
      find after.disembargoes id = find before.disembargoes id := fun _ _ unwinding => unwinding.fades.disembargoes
  exact forM_indices keeps shrinks (fun id conn _ => shutdownDisembargo_run conn id) conn trivial

theorem Conn.mem_entries {α : Type} {slots : List (Option α)} {id : Nat} {item : α} (found : find slots id = some item) :
    (id, item) ∈ Conn.entries slots := by
  refine List.mem_filterMap.mpr ⟨id, List.mem_range.mpr (lt_length_of_find found), ?_⟩
  rw [found]
  rfl

theorem shutdownImports_run (conn : Conn) (reason : String) (embargoed : conn.Embargoed) :
    ∃ after, ((Conn.entries conn.imports).forM fun (id, entry) => shutdownImport reason id entry : ConnM Unit) conn =
        .ok () after ∧ conn.Unwinding after ∧ (∀ id, find after.imports id = none) ∧
        ∀ id entry, find conn.imports id = some entry → after.Shut (conn.refCount entry.rc).client := by
  have keeps : ∀ before after, Conn.Unwinding before after → before.Embargoed → after.Embargoed :=
    fun _ _ unwinding => unwinding.fades.embargoed
  have stable : ∀ (item : Nat × ImportEntry) (before after : Conn), Conn.Unwinding before after →
      find before.imports item.1 = none ∧ before.Shut (before.refCount item.2.rc).client →
      find after.imports item.1 = none ∧ after.Shut (after.refCount item.2.rc).client := by
    rintro ⟨id, entry⟩ before after ⟨fades, _⟩ ⟨gone, shut⟩
    constructor
    · exact Fading.gone (fades.imports id) gone
    · rw [fades.refCounts]
      exact fades.shut shut
  have turns : ∀ (item : Nat × ImportEntry) (before : Conn), before.Embargoed → ∃ after,
      shutdownImport reason item.1 item.2 before = .ok () after ∧ Conn.Unwinding before after ∧
        find after.imports item.1 = none ∧ after.Shut (after.refCount item.2.rc).client :=
    fun item before embargoed => shutdownImport_run before reason item.1 item.2 embargoed
  obtain ⟨after, runs, unwinding, reached⟩ := Moves.forM_ok (Conn.entries conn.imports) keeps stable turns conn embargoed
  refine ⟨after, runs, unwinding, ?_, ?_⟩
  · intro id
    cases found : find conn.imports id with
    | none => exact Fading.gone (unwinding.fades.imports id) found
    | some entry => exact (reached (id, entry) (Conn.mem_entries found)).1
  · intro id entry found
    have shut := (reached (id, entry) (Conn.mem_entries found)).2
    rw [unwinding.fades.refCounts] at shut
    exact shut

/-- What `shutdown` comes to. A list of waiters can be lost on the way if an answer of its number is unsettled and
in no table, and one of the waiters after the first is settled. -/
structure Conn.TornDown (before : Conn) (reason : String) (after : Conn) : Prop where
  questions : ∀ id q, find before.questions id = some q → after.Settled q
  waiters : ∀ id waiters, find before.tailAnswerWaiters id = some waiters →
    (∀ a, (before.answer a).id.id = id → (before.answer a).done = true ∨ find before.answers id = some a) ∨
      (∀ q ∈ waiters.tail, before.Settled q) →
    ∀ q ∈ waiters, after.Settled q
  answers : ∀ id a, find before.answers id = some a → (after.answer a).done = true ∧
    (after.answer a).err = some reason ∧ (after.answer a).deferred = (before.answer a).deferred.or (some (.error reason))
  rejects : before.Rejects after
  imports : ∀ i, after.Drained i
  closed : ∀ i c, after.client i = .importClient c → c.closed = true
  empty : after.Empty
  transport : after.transportClosed = true

theorem Refusing.accounted {first second : Conn} {reason : String} (dismissing : Dismissing conn first)
    (refusing : Refusing reason first second) (emptied : ∀ id, find second.answers id = none) {id : Nat}
    {waiters : List Nat}
    (accounted : (∀ a, (conn.answer a).id.id = id → (conn.answer a).done = true ∨ find conn.answers id = some a) ∨
      ∀ q ∈ waiters.tail, conn.Settled q) : second.Accounted id waiters := by
  have sameAnswer : first.answer = conn.answer := by rw [dismissing.only]
  have sameAnswers : first.answers = conn.answers := by rw [dismissing.only]
  have sameQuestion : second.question = first.question := by rw [refusing.only]
  rcases accounted with done | settled
  · apply Or.inl
    intro a named
    rw [refusing.ids, sameAnswer] at named
    rcases done a named with done | inTable
    · apply refusing.done
      rw [sameAnswer]
      exact done
    · rw [← sameAnswers] at inTable
      rcases refusing.answers id with same | ⟨_, marked⟩
      · rw [emptied, inTable] at same
        cases same
      · rw [marked a inTable]
        rfl
  · apply Or.inr
    intro q member
    unfold Conn.Settled
    rw [sameQuestion]
    exact dismissing.settled q (settled q member)

/-- The tables that `shutdown` works on once the questions and answers are gone. -/
theorem shutdownTables_run (reason : String) (embargoed : conn.Embargoed) (held : conn.Held)
    (drained : ∀ i, conn.ClosedImport i → conn.Drained i) :
    ∃ after, shutdownTables reason conn = .ok () after ∧ conn.TornDown reason after := by
  obtain ⟨first, dismiss, dismissing, noQuestions⟩ := shutdownQuestions_run conn reason
  obtain ⟨second, refuse, refusing, noAnswers⟩ := shutdownAnswers_run first reason
  obtain ⟨third, closeExports, closing, noExports⟩ := shutdownExports_run second
  let fourth : Conn := { third with exportPromises := [], exportPromiseIndex := fun _ _ => none }
  have clients : second.client = conn.client := by rw [refusing.only, dismissing.only]
  have imports : second.imports = conn.imports := by rw [refusing.only, dismissing.only]
  have refCounts : second.refCount = conn.refCount := by rw [refusing.only, dismissing.only]
  have embargoed' : second.Embargoed := embargoed.of_clients clients
  have held' : fourth.Held := closing.held (held.of_tables clients imports refCounts)
  obtain ⟨fifth, closeImports, emptying, noImports, shuts⟩ :=
    shutdownImports_run fourth reason (closing.fades.embargoed embargoed')
  obtain ⟨sixth, settleWaiters, settling, noWaiters⟩ := shutdownTailAnswersAll_run fifth reason
  obtain ⟨seventh, dropDisembargoes, dropping, noDisembargoes⟩ := shutdownDisembargoes_run sixth
  have fading := emptying.fades
  have later := settling.fades
  have last := dropping.fades
  let after : Conn := { seventh with transportClosed := true }
  have runs : shutdownTables reason conn = .ok () after := by
    unfold shutdownTables
    rw [bind_apply, get_apply]
    dsimp only
    rw [bind_apply, dismiss]
    dsimp only
    rw [bind_apply, get_apply]
    dsimp only
    rw [bind_apply, refuse]
    dsimp only
    rw [bind_apply, get_apply]
    dsimp only
    rw [bind_apply, closeExports]
    dsimp only
    rw [bind_apply, modify_apply]
    dsimp only
    rw [bind_apply, get_apply]
    dsimp only
    rw [bind_apply, closeImports]
    dsimp only
    rw [bind_apply, get_apply]
    dsimp only
    rw [bind_apply, settleWaiters]
    dsimp only
    rw [bind_apply, get_apply]
    dsimp only
    rw [bind_apply, dropDisembargoes]
    rfl
  have rest : fourth.Fading after := ((fading.trans later).trans last).trans { Fading.refl seventh with }
  have clears : third.Fading fourth :=
    { Fading.refl third with exportPromises := fun _ => Or.inl (find_nil _), index := fun _ _ => Or.inl rfl }
  have all : second.Fading after := (closing.fades.trans clears).trans rest
  have shut : ∀ i c, fourth.client i = .importClient c → c.closed = false → after.Shut i := by
    intro i c shape isOpen
    obtain ⟨entry, found, client⟩ := held' i c.id (by simp [shape, Client.core, isOpen])
    have shuts := shuts c.id.id entry found
    rw [client] at shuts
    exact (later.trans (last.trans { Fading.refl seventh with })).shut shuts
  have shuts : ∀ i c, after.client i = .importClient c → c.closed = true := by
    intro i c found
    obtain ⟨earlier, shape, _, closes, _⟩ := rest.imported i c found
    cases closed : earlier.closed with
    | false => exact (shut i earlier shape closed c found).1
    | true => exact closes closed
  have empties : after.Empty := by
    have finally_ : fifth.Fading after := later.trans (last.trans { Fading.refl seventh with })
    have questions : ∀ id, find second.questions id = none := by
      rw [refusing.only]
      exact noQuestions
    exact {
      questions := fun id => Fading.gone (all.questions id) (questions id)
      answers := fun id => Fading.gone (all.answers id) (noAnswers id)
      exports := fun id => Fading.gone ((clears.trans rest).exports id) (noExports id)
      exportPromises := fun id => Fading.gone (rest.exportPromises id) (find_nil id)
      index := fun q transform => (rest.index q transform).elim id id
      imports := fun id => Fading.gone (finally_.imports id) (noImports id)
      waiters := fun id => Fading.gone (last.waiting id) (noWaiters id)
      disembargoes := noDisembargoes }
  have clearing : third.Unwinding fourth := clears.unwinding rfl rfl
  have ending : seventh.Unwinding after := Fading.unwinding { Fading.refl seventh with } rfl rfl
  have unwinding : second.Unwinding after :=
    closing.unwinding.trans (clearing.trans (((emptying.trans settling).trans dropping).trans ending))
  refine ⟨after, runs, ?_, ?_, ?_, ?_, ?_, shuts, empties, rfl⟩
  · intro id q found
    apply all.settled
    have settled : first.Settled q := by
      rcases dismissing.questions id with same | ⟨_, settles⟩
      · rw [noQuestions, found] at same
        cases same
      · exact settles q found
    unfold Conn.Settled
    rw [refusing.only]
    exact settled
  · intro id waiters found accounted q member
    have kept : find second.tailAnswerWaiters id = some waiters := by
      rw [refusing.only, dismissing.only]
      exact found
    rcases all.waiters id waiters kept (refusing.accounted dismissing noAnswers accounted) with still | settled
    · cases (Fading.gone (last.waiting id) (noWaiters id)).symm.trans still
    · exact settled q member
  · intro id a found
    have table : find first.answers id = some a := by
      rw [dismissing.only]
      exact found
    rcases refusing.answers id with same | ⟨_, marked⟩
    · rw [noAnswers, table] at same
      cases same
    · have same : first.answer = conn.answer := by rw [dismissing.only]
      have marked := marked a table
      rw [same] at marked
      obtain ⟨still, err, deferred⟩ := all.done a (by rw [marked]; rfl)
      rw [marked] at err deferred
      exact ⟨still, err, deferred⟩
  · obtain ⟨said, trace, rejects⟩ := unwinding.rejects
    have begun : second.trace = conn.trace := by rw [refusing.only, dismissing.only]
    refine ⟨said, by rw [trace, begun], ?_⟩
    intro _ i earlier c found
    rw [← clients] at found
    exact rejects embargoed' i earlier c found
  · intro i
    cases shape : fourth.client i with
    | importClient c =>
        cases closed : c.closed with
        | false =>
            intro c' found
            exact (shut i c shape closed c' found).2
        | true =>
            rcases closing.drains embargoed' i ⟨c, shape, closed⟩ with empty | earlier
            · exact (clears.trans rest).drained empty
            · apply all.drained
              unfold Conn.ClosedImport at earlier
              rw [clients] at earlier
              unfold Conn.Drained
              rw [clients]
              exact drained i earlier
    | _ =>
        intro c' found
        obtain ⟨earlier, same, _⟩ := rest.imported i c' found
        cases shape.symm.trans same

end CapnpEs.Rpc
