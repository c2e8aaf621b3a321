import CapnpEs.Rpc.RefinementCloses

/-! Calls: describing clients leaves the questions and answers alone, and a call sends what it has described. -/

namespace CapnpEs.Rpc

open Relation SlotTable

variable {conn : Conn} {hand : Hand}

structure SameQuestions (before after : Conn) : Prop where
  objects : before.objects ≤ after.objects
  questions : after.questions = before.questions
  answers : after.answers = before.answers
  imports : ∀ id, (find after.imports id).map ImportEntry.core = (find before.imports id).map ImportEntry.core
  question : ∀ q < before.objects, (after.question q).core = (before.question q).core
  answer : ∀ a, (after.answer a).core = (before.answer a).core
  client : ∀ id < before.objects, (after.client id).core = (before.client id).core

namespace SameQuestions

theorem refl (conn : Conn) : SameQuestions conn conn :=
  ⟨Nat.le_refl _, rfl, rfl, fun _ => rfl, fun _ _ => rfl, fun _ => rfl, fun _ _ => rfl⟩

theorem trans {first second third : Conn} (before : SameQuestions first second)
    (after : SameQuestions second third) : SameQuestions first third where
  objects := Nat.le_trans before.objects after.objects
  questions := after.questions.trans before.questions
  answers := after.answers.trans before.answers
  imports id := (after.imports id).trans (before.imports id)
  question q made := (after.question q (Nat.lt_of_lt_of_le made before.objects)).trans (before.question q made)
  answer a := (after.answer a).trans (before.answer a)
  client id made := (after.client id (Nat.lt_of_lt_of_le made before.objects)).trans (before.client id made)

theorem of_quiet {before after : Conn} (same : Quiet before after) : SameQuestions before after where
  objects := same.objects
  questions := same.questions
  answers := same.answers
  imports := same.imports
  question := same.question
  answer := same.answer
  client := same.client

theorem withExport (client : Nat) : SameQuestions conn (conn.withExport client) := by
  refine { refl conn with objects := Conn.objects_le_withExport client, client := ?_ }
  intro id made
  have other : id ≠ conn.objects + 1 := by omega
  simp [Conn.withExport, Conn.withClient, Conn.allocated, Conn.setExport, Conn.setClient, Conn.setRefCount,
    Conn.takeExportId, other]

theorem withPromise (question : Nat) (transform : Transform) :
    SameQuestions conn (conn.withPromise question transform) := by
  have first : SameQuestions conn (conn.withClient (.promiseExport
      { question := question, transform := transform })) := by
    refine { refl conn with objects := Nat.le_succ _, client := ?_ }
    intro id made
    simp [Conn.withClient, Conn.allocated, Conn.setClient, Function.update_of_ne (Nat.ne_of_lt made)]
  have second := first.trans (withExport conn.objects)
  exact { second with }

end SameQuestions

theorem DescribeEffect.sameQuestions {before after : Conn × Hand} (effect : DescribeEffect before after) :
    SameQuestions before.1 after.1 := by
  cases effect with
  | quiet effect =>
      cases effect with
      | quiet same => exact .of_quiet same
      | forget fewer => exact .refl _
  | mention found => exact { SameQuestions.refl _ with }
  | retain found => exact { SameQuestions.refl _ with }
  | create made free => exact .withExport _
  | unindex question transform => exact { SameQuestions.refl _ with }
  | promise question transform free => exact .withPromise question transform
  | awaitPromise indexed unknown => exact { SameQuestions.refl _ with }
  | exported current number found sameExport origin => exact { SameQuestions.refl _ with }

theorem sameQuestions_of_describes {before after : Conn × Hand} (steps : ReflTransGen DescribeEffect before after) :
    SameQuestions before.1 after.1 := by
  induction steps with
  | refl => exact .refl _
  | tail _ effect ih => exact ih.trans effect.sameQuestions

theorem Conn.Targets.of_same {after : Conn} {target : MessageTarget} (targets : conn.Targets target)
    (wellFormed : conn.WellFormed) (same : SameQuestions conn after) : after.Targets target := by
  cases target with
  | importedCap id =>
      obtain ⟨client, isImport⟩ := targets
      refine ⟨client, ?_⟩
      rw [same.client client (wellFormed.made (by rw [isImport]; nofun)), isImport]
  | promisedAnswer id transform =>
      change find after.questions id.id = some id.object
      rw [same.questions]
      exact targets
  | other => exact targets

theorem Effect.objects_le {before after : Conn × Hand} (effect : Effect before after) :
    before.1.objects ≤ after.1.objects := by
  cases effect with
  | close effect => exact effect.objects_le
  | describe effect => exact effect.objects_le
  | issue method => exact Nat.le_succ _
  | newRef positive => exact Nat.le_succ _
  | newImport isPromise unknown given =>
      simp only [Conn.withImport, Conn.withClient, Conn.allocated, Conn.setImport, Conn.setClient, Conn.setRefCount]
      omega
  | insertAnswer asked free => exact Nat.le_succ _
  | _ => exact Nat.le_refl _

theorem Effect.keepsAnswer {before after : Conn × Hand} (effect : Effect before after) {a : Nat}
    (made : a < before.1.objects) : CloseEffect.KeepsAnswer (before.1.answer a) (after.1.answer a) := by
  have alters : ∀ {conn : Conn} {a' : Nat} {change : AnswerEntry → AnswerEntry} {done routed : Bool}
      {caps : List WireId}, (change (conn.answer a')).core = ((conn.answer a').id, done, routed, caps) →
      ((conn.answer a').routed → routed) →
      CloseEffect.KeepsAnswer (conn.answer a) ((conn.alterAnswer a' change).answer a) := by
    intro conn a' change done routed caps same keeps
    apply Conn.alterAnswer_keeps
    simp only [AnswerEntry.core, Prod.mk.injEq] at same
    exact ⟨same.1, fun was => same.2.2.1 ▸ keeps was⟩
  cases effect with
  | close effect => exact effect.keepsAnswer a
  | describe effect => exact .of_core (effect.sameQuestions.answer a)
  | route may same => exact alters same fun _ => rfl
  | insertAnswer asked free =>
      simp only [Conn.withAnswer, Conn.allocated, Conn.alterAnswer, Conn.setAnswerSlot,
        Function.update_of_ne (Nat.ne_of_lt made)]
      exact .refl _
  | results owed same prepared => exact alters same fun routed => routed
  | strand waited same =>
      obtain ⟨caps, same⟩ := same
      exact alters same fun routed => routed
  | markAnswer closed a' same => exact alters same fun routed => routed
  | _ => exact .refl _

theorem keepsAnswer_of_effects {before after : Conn × Hand} (steps : ReflTransGen Effect before after) {a : Nat}
    (made : a < before.1.objects) : CloseEffect.KeepsAnswer (before.1.answer a) (after.1.answer a) := by
  induction steps with
  | refl => exact .refl _
  | tail earlier effect ih =>
      have later := effect.keepsAnswer (Nat.lt_of_lt_of_le made (objects_le_of_steps (fun _ _ => Effect.objects_le) earlier))
      exact ⟨later.id.trans ih.id, fun routed => later.routed (ih.routed routed)⟩

theorem Conn.WellFormed.made_of_routed (wellFormed : conn.WellFormed) {a : Nat}
    (routed : (conn.answer a).routed) : a < conn.objects := by
  by_contra beyond
  rw [wellFormed.unmade a (Nat.le_of_not_lt beyond)] at routed
  cases routed

theorem joinAnswer_keeps {a : Nat} (answer : Answer) (made : a < conn.objects) (may : conn.MayAnswer hand a) :
    Keeps Effect (joinAnswer a answer) conn hand fun _ _ => True := by
  apply Keeps.modify (.single (.route may rfl)) ?_ trivial
  intro wellFormed
  apply wellFormed.alterAnswer
  · exact fun _ => rfl
  · exact fun _ => rfl
  · exact fun pc member => Or.inl member
  · exact fun _ => made

/-- A question in the table whose call has not been sent. -/
structure Conn.Unsent (conn : Conn) (q : Nat) : Prop where
  made : q < conn.objects
  isOpen : conn.findQuestion (conn.question q).id = some q
  unsent : (conn.question q).started = false

theorem Conn.issueQuestion_unsent (conn : Conn) (method : Option Method) :
    (conn.issueQuestion method).Unsent conn.objects where
  made := Nat.lt_succ_self _
  isOpen := by
    simp [issueQuestion, findQuestion, say, allocated, alterQuestion, setQuestionSlot]
  unsent := by
    simp [issueQuestion, say, allocated, alterQuestion]

theorem Conn.Unsent.of_same {after : Conn} {q : Nat} (unsent : conn.Unsent q) (same : SameQuestions conn after) :
    after.Unsent q := by
  have core := same.question q unsent.made
  simp only [Question.core, Prod.mk.injEq] at core
  refine ⟨Nat.lt_of_lt_of_le unsent.made same.objects, ?_, core.2.2.2.trans unsent.unsent⟩
  rw [core.2.1]
  unfold findQuestion
  rw [same.questions]
  exact unsent.isOpen

theorem Conn.Targets.issueQuestion {target : MessageTarget} (targets : conn.Targets target)
    (wellFormed : conn.WellFormed) (method : Option Method) : (conn.issueQuestion method).Targets target := by
  cases target with
  | importedCap id => exact targets
  | promisedAnswer id transform =>
      change find (put conn.questions conn.questionID.next.1 (some conn.objects)) id.id = some id.object
      rw [find_put_other]
      · exact targets
      · intro same
        apply wellFormed.questionIds.next_unused
        rw [← same]
        simp only [Targets] at targets
        simp [targets]
  | other => exact targets

def AlwaysQuiet (program : ConnM Unit) : Prop :=
  ∀ conn, ∃ after, program conn = .ok () after ∧ Quiet conn after ∧ (conn.WellFormed → after.WellFormed)

theorem alwaysQuiet_pure : AlwaysQuiet (pure ()) :=
  fun conn => ⟨conn, rfl, Quiet.refl conn, fun formed => formed⟩

theorem alwaysQuiet_addPromise (q : Nat) (transform : Transform) : AlwaysQuiet (Question.addPromise q transform) := by
  intro conn
  refine ⟨_, rfl, Quiet.alterQuestion fun _ => ?_, fun formed => formed.alterQuestion q _⟩
  split
  · rfl
  · rfl

theorem sendCall_run (q : Nat) (target : MessageTarget) (method : Method) (params : Payload) :
    sendCall q target method params conn = .ok () (conn.askQuestion (conn.questionId q) target method params) := by
  have same : (conn.alterQuestion q fun question =>
      { question with paramCaps := collectPayloadSenderHosted params.capTable }).questionId q =
      conn.questionId q := by
    simp [Conn.questionId, Conn.alterQuestion]
  unfold Conn.askQuestion
  rw [← same]
  rfl

theorem Conn.WellFormed.askQuestion (wellFormed : conn.WellFormed) (id : WireId) (target : MessageTarget)
    (method : Method) (params : Payload) : (conn.askQuestion id target method params).WellFormed :=
  { wellFormed with }

theorem ask_keeps {target : MessageTarget} (call : Call) {afterStart : ConnM Unit}
    (targets : conn.Targets target) (quiet : AlwaysQuiet afterStart) :
    Keeps Effect (ask target call afterStart) conn hand fun _ _ => True := by
  apply Keeps.given_wellFormed
  intro wellFormed
  have issued := conn.issueQuestion_unsent (some call.method)
  have aims := targets.issueQuestion wellFormed (some call.method)
  apply Keeps.bind (Q := fun q after => q = conn.objects ∧ after = conn.issueQuestion (some call.method))
  · exact Keeps.modifyGet (.single (.issue _)) (fun formed => formed.issueQuestion _) ⟨rfl, rfl⟩
  · rintro q after _ _ ⟨rfl, rfl⟩
    apply Runs.tryCatch (G := fun error after left => left = hand ∧ error.isPlain ∧ after.Unsent conn.objects)
    · -- the questions are those before the parameters were described, also when that fails
      apply Runs.bind (Q := fun params after left => left = hand.prepare (hosted params.capTable) ∧
        after.Unsent conn.objects ∧ after.Targets target)
      · intro formed
        apply Runs.lift (R := DescribeEffect) ?_ (fun _ _ => Effect.describe) formed
        apply (fillParams_runs call).mono
        · rintro params middle left steps _ rfl
          have same := sameQuestions_of_describes steps
          exact ⟨rfl, issued.of_same same, aims.of_same formed same⟩
        · rintro error middle left steps _ ⟨rfl, plain⟩
          exact ⟨rfl, plain, issued.of_same (sameQuestions_of_describes steps)⟩
      · rintro params middle left _ _ ⟨rfl, unsent, aims⟩
        obtain ⟨last, run, same, keepsFormed⟩ := quiet
          (middle.askQuestion (middle.questionId conn.objects) target call.method params)
        apply Runs.of_ok (v := .question conn.objects) (n := last) (h := hand)
        · change (sendCall conn.objects target call.method params >>= fun _ =>
            afterStart >>= fun _ => pure (Answer.question conn.objects)) middle = _
          rw [Outcome.bind_apply, sendCall_run]
          dsimp only
          rw [Outcome.bind_apply, run]
          rfl
        · exact (ReflTransGen.single (.ask call.method params unsent.isOpen unsent.unsent aims rfl)).tail (QuietEffect.quiet same).effect
        · intro formed
          apply keepsFormed
          exact formed.askQuestion _ _ _ _
        · exact ⟨rfl, trivial⟩
    · rintro error failed left _ _ ⟨rfl, plain, unsent⟩
      apply Keeps.get
      apply Keeps.of_ok (v := .error error.message) ?_ (.single (.unissue unsent.isOpen unsent.unsent))
        (fun formed => formed.dropQuestion unsent.isOpen) trivial
      rw [Outcome.bind_apply, popQuestion_run unsent.isOpen]
      rfl

theorem pushCall_keeps (owner : Nat) (call : Call)
    (isOpen : ∀ c, conn.client owner = .importClient c → c.closed = false) :
    Keeps QuietEffect (pushCall owner call) conn hand fun _ _ => True := by
  apply Keeps.get
  dsimp only
  split
  · apply Keeps.bind (Q := fun _ _ => True)
    · have longer := Client.Holds.setCalls (conn.client owner) (List.prefix_append _ [.fromHere call])
      refine Keeps.set (Quiet.setClient (Client.core_setCalls _ _) longer).step ?_ trivial
      intro wellFormed
      apply wellFormed.setCalls
      · intro a other member
        rcases List.mem_append.mp member with waiting | new
        · exact waiting
        · simp at new
      · intro i shape closed _ _
        rw [isOpen i shape] at closed
        cases closed
    · intro _ after _ _ _
      exact Keeps.pure trivial
  · exact Keeps.pure trivial

theorem pipelineCall_keeps {callNext : Nat → Call → ConnM Answer}
    (keepsNext : ∀ conn hand client call, Keeps Effect (callNext client call) conn hand fun _ _ => True)
    (q : Nat) (transform : Transform) (call : Call) :
    Keeps Effect (pipelineCall callNext q transform call) conn hand fun _ _ => True := by
  have callsSettled : ∀ obj err, Keeps Effect (clientFromResolution transform obj err >>= fun client =>
      callNext client call) conn hand fun _ _ => True := by
    intro obj err
    apply Keeps.bind ((clientFromResolution_keeps transform obj err).lift fun _ _ => QuietEffect.effect)
    intro client after _ _ _
    exact keepsNext after hand client call
  apply Keeps.get
  dsimp only
  split
  · split
    · rename_i isOpen
      exact ask_keeps call isOpen (alwaysQuiet_addPromise q transform)
    · split
      · exact Keeps.throw
      · exact callsSettled _ _
  · split
    · exact Keeps.pure trivial
    · exact callsSettled _ _

theorem callClient_keeps (depth client : Nat) (call : Call) :
    Keeps Effect (callClient depth client call) conn hand fun _ _ => True := by
  induction depth generalizing conn hand client call with
  | zero => exact Keeps.throw
  | succ depth ih =>
      apply Keeps.get
      cases shape : conn.client client with
      | server methods => exact Keeps.pure trivial
      | error reason => exact Keeps.pure trivial
      | ref rc closed => exact ih (conn.refCount rc).client call
      | importClient c =>
          dsimp only
          split
          · exact Keeps.pure trivial
          · rename_i isOpen
            cases c.resolved with
            | some next =>
                dsimp only
                split
                · refine (pushCall_keeps client call ?_).lift fun _ _ => QuietEffect.effect
                  intro c' same
                  cases shape.symm.trans same
                  exact Bool.eq_false_iff.mpr isOpen
                · exact ih next call
            | none =>
                have aims : conn.Targets (.importedCap c.id) := by
                  refine ⟨client, ?_⟩
                  rw [shape]
                  simpa [Client.core] using isOpen
                exact ask_keeps call aims alwaysQuiet_pure
      | pipeline q transform => exact pipelineCall_keeps (fun conn hand client call => ih client call) q transform call
      | fixedPipeline answer transform =>
          cases answer with
          | error reason => exact Keeps.pure trivial
          | ok struct =>
              apply Keeps.bind ((findClient_keeps struct transform).lift fun _ _ => QuietEffect.effect)
              intro next after _ _ _
              exact ih next call
      | localAnswer a transform =>
          dsimp only
          split
          · apply Keeps.bind ((clientFromResolution_keeps transform _ _).lift fun _ _ => QuietEffect.effect)
            intro next after _ _ _
            exact ih next call
          · exact Keeps.pure trivial
      | promiseExport c =>
          dsimp only
          split
          · exact Keeps.pure trivial
          · cases c.resolved with
            | some next => exact ih next call
            | none =>
                refine (pushCall_keeps client call ?_).lift fun _ _ => QuietEffect.effect
                intro c' same
                cases shape.symm.trans same
      | queue c =>
          dsimp only
          split
          · exact ih c.client call
          · refine (pushCall_keeps client call ?_).lift fun _ _ => QuietEffect.effect
            intro c' same
            cases shape.symm.trans same
      | null => exact Keeps.throw
      | other => exact Keeps.pure trivial

theorem DescribeEffect.withholds {before after : Conn × Hand} (effect : DescribeEffect before after) :
    ∀ i < before.1.objects, (before.1.client i).Holds (after.1.client i) := by
  intro i made
  have same : ∀ {conn after : Conn}, after.client i = conn.client i → (conn.client i).Holds (after.client i) := by
    intro conn after same
    rw [same]
    exact .refl _
  cases effect with
  | quiet effect =>
      cases effect with
      | quiet quiet => exact quiet.held i made
      | forget fewer => exact .refl _
  | create made' free =>
      rename_i conn hand client
      apply same
      rw [Conn.withExport_eq]
      exact Function.update_of_ne (Nat.ne_of_lt (Nat.lt_succ_of_lt made)) _ _
  | promise question transform free =>
      rename_i conn hand
      apply same
      rw [Conn.withPromise_eq]
      exact (Function.update_of_ne (Nat.ne_of_lt (Nat.lt_add_right 2 made)) _ _).trans
        (Function.update_of_ne (Nat.ne_of_lt made) _ _)
  | _ => exact .refl _

/-- Only the loopback in hand lifts an embargo or lets the calls go on that wait for it. -/
theorem Effect.withholds {before after : Conn × Hand} (effect : Effect before after) {i : Nat}
    (made : i < before.1.objects) :
    after.2.lifting = some i ∨ before.1.ClosesOff i after.1 ∨ (before.1.client i).Holds (after.1.client i) := by
  have same : ∀ {conn after : Conn}, after.client i = conn.client i → (conn.client i).Holds (after.client i) := by
    intro conn after same
    rw [same]
    exact .refl _
  cases effect with
  | close effect => exact Or.inr (effect.withholds made)
  | describe effect => exact Or.inr (Or.inr (effect.withholds i made))
  | newRef positive =>
      exact Or.inr (Or.inr (same (Function.update_of_ne (Nat.ne_of_lt made) _ _)))
  | newImport isPromise unknown given =>
      right; right
      apply same
      rw [Conn.withImport_eq]
      exact (Function.update_of_ne (Nat.ne_of_lt (Nat.lt_add_right 2 made)) _ _).trans
        (Function.update_of_ne (Nat.ne_of_lt made) _ _)
  | lifted lifting core =>
      rename_i conn hand id client
      by_cases here : i = id
      · subst here
        exact Or.inl lifting
      · exact Or.inr (Or.inr (same (by simp [Conn.setClient, here])))
  | _ => exact Or.inr (Or.inr (.refl _))

theorem Effect.lifting {before after : Conn × Hand} (effect : Effect before after) {i : Nat}
    (lifting : before.2.lifting = some i) : after.2.lifting = some i := by
  cases effect with
  | close effect =>
      cases effect with
      | quiet effect =>
          cases effect with
          | quiet same => exact lifting
          | forget fewer => exact fewer.lifting.trans lifting
      | _ => exact lifting
  | describe effect =>
      cases effect with
      | quiet effect =>
          cases effect with
          | quiet same => exact lifting
          | forget fewer => exact fewer.lifting.trans lifting
      | _ => exact lifting
  | lift received found unlifted => cases unlifted.symm.trans lifting
  | _ => exact lifting

/-- The calls that wait here may go on: none wait for an embargo, or it is lifted. -/
def Conn.Frees (conn : Conn) (hand : Hand) (id : Nat) : Prop :=
  hand.lifting = some id ∨ id < conn.objects ∧ (conn.client id).isReleased = true

theorem Conn.Frees.of_effects {before after : Conn × Hand} {id : Nat} (frees : before.1.Frees before.2 id)
    (steps : ReflTransGen Effect before after) : after.1.Frees after.2 id := by
  induction steps with
  | refl => exact frees
  | tail _ effect ih =>
      rcases ih with lifting | ⟨made, free⟩
      · exact Or.inl (effect.lifting lifting)
      · rcases effect.withholds made with lifting | ⟨_, _, closed, _⟩ | holds
        · exact Or.inl lifting
        · exact Or.inr ⟨Nat.lt_of_lt_of_le made effect.objects_le, closed.isReleased⟩
        · exact Or.inr ⟨Nat.lt_of_lt_of_le made effect.objects_le, holds.released free⟩

theorem popCall_frees {owner : Nat} (frees : conn.Frees hand owner) :
    Keeps Effect (popCall owner) conn hand fun _ _ => True := by
  rcases frees with lifting | ⟨_, free⟩
  · exact Keeps.modify (.single (.lifted lifting (Client.core_setCalls _ _)))
      (fun wellFormed => wellFormed.popCall owner) trivial
  · exact (popCall_keeps free).lift fun _ _ => QuietEffect.effect

theorem flushTo_keeps {owner : Nat} (target fuel : Nat) (frees : conn.Frees hand owner) :
    Keeps Effect (flushTo owner target fuel) conn hand fun _ _ => True := by
  induction fuel generalizing conn with
  | zero => exact Keeps.throw
  | succ fuel ih =>
      apply Keeps.given_wellFormed
      intro wellFormed
      apply Keeps.get
      cases waiting : (conn.client owner).calls with
      | nil => exact Keeps.pure trivial
      | cons slot slots =>
          have pops : ∀ after, ReflTransGen Effect (conn, hand) (after, hand) →
              Keeps Effect (popCall owner >>= fun _ => flushTo owner target fuel) after hand fun _ _ => True := by
            intro after steps
            have freed : after.Frees hand owner := frees.of_effects steps
            apply Keeps.bind (popCall_frees freed)
            intro _ last popped _ _
            exact ih (freed.of_effects popped)
          cases slot with
          | fromHere call =>
              apply Keeps.bind (callClient_keeps conn.stack target call)
              intro _ after steps _ _
              exact pops after steps
          | remote a call =>
              have routed : (conn.answer a).routed := wellFormed.calls owner a call (by simp [waiting])
              have made := wellFormed.made_of_routed routed
              apply Keeps.bind (callClient_keeps conn.stack target call)
              intro answer after steps _ _
              apply Keeps.bind (joinAnswer_keeps answer ?_ ?_)
              · intro _ last joins _ _
                exact pops last (steps.trans joins)
              · exact Nat.lt_of_lt_of_le made (objects_le_of_steps (fun _ _ => Effect.objects_le) steps)
              · exact Or.inl ((keepsAnswer_of_effects steps made).routed routed)

end CapnpEs.Rpc
