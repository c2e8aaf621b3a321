import CapnpEs.Rpc.RefinementTables

/-! Closing clients, rejecting answers and giving up questions only make closing effects. -/

namespace CapnpEs.Rpc

open Relation SlotTable

variable {conn : Conn} {hand : Hand}

theorem Keeps.returning {α : Type} {R : Conn × Hand → Conn × Hand → Prop} {program : ConnM α} {held : Hand}
    {returns : α → Conn → Prop} (keeps : Keeps R program conn held returns)
    (back : ∀ after, ReflTransGen R (after, held) (after, hand)) :
    Runs R program conn held (fun value after left => left = hand ∧ returns value after)
      fun error _ left => left = hand ∧ error.isPlain := by
  intro wellFormed
  apply (keeps wellFormed).mono
  · rintro value after ⟨left, steps, formed, rfl, holds⟩
    exact ⟨hand, steps.trans (back after), formed, rfl, holds⟩
  · rintro error after ⟨left, steps, formed, rfl, plain⟩
    exact ⟨hand, steps.trans (back after), formed, rfl, plain⟩

/-- An import is closed, and each call that waits for its embargo is rejected. -/
def Conn.ClosesOff (conn : Conn) (i : Nat) (after : Conn) : Prop :=
  ∃ c, conn.client i = .importClient c ∧ after.ClosedImport i ∧
    ∀ call, .fromHere call ∈ c.embargoQueue → ∃ reason, .callRejected i call reason ∈ after.trace

theorem Conn.ClosedImport.isReleased {i : Nat} (closed : conn.ClosedImport i) :
    (conn.client i).isReleased = true := by
  obtain ⟨c, shape, shut⟩ := closed
  rw [shape]
  exact shut

namespace CloseEffect

theorem objects_le {before after : Conn × Hand} (effect : CloseEffect before after) :
    before.1.objects ≤ after.1.objects := by
  cases effect with
  | quiet effect => exact effect.objects_le
  | _ => exact Nat.le_refl _

/-- What is done to one client: nothing that counts, or it is closed, and the calls that wait for an embargo are
rejected. -/
inductive ClientChange (before after : Conn) (i : Nat) : Prop
  | same (client : after.client i = before.client i)
  | quiet (same : Quiet before after)
  | ref {rc : Nat} (found : before.client i = .ref rc false) (closed : after.client i = .ref rc true)
  | importClient {c c' : ImportClient} (found : before.client i = .importClient c)
      (still : after.client i = .importClient c') (named : c'.id = c.id) (closed : c'.closed = true)
      (rejected : ∀ call, .fromHere call ∈ c.embargoQueue → ∃ reason, .callRejected i call reason ∈ after.trace)

theorem clientChange {before after : Conn × Hand} (effect : CloseEffect before after) (i : Nat) :
    ClientChange before.1 after.1 i := by
  cases effect with
  | quiet effect =>
      cases effect with
      | quiet same => exact .quiet same
      | forget fewer => exact .same rfl
  | closeRef ref =>
      rename_i conn hand id rc
      by_cases here : i = id
      · subst here
        exact .ref ref (by simp [Conn.setRefs, Conn.setRefCount, Conn.setClient])
      · exact .same (by simp [Conn.setRefs, Conn.setRefCount, Conn.setClient, here])
  | closeImport reason found closed =>
      rename_i conn hand id c client
      by_cases here : i = id
      · subst here
        obtain ⟨c', rfl, named, shut⟩ := Client.core_importClient (c := { id := c.id, closed := true }) closed
        refine .importClient found (by simp [Conn.setClient, Conn.sayRejected]) named shut ?_
        intro call waits
        exact ⟨reason, List.mem_append_right _ (List.mem_filterMap.mpr ⟨_, waits, rfl⟩)⟩
      · exact .same (by simp [Conn.setClient, Conn.sayRejected, here])
  | _ => exact .same rfl

theorem withholds {before after : Conn × Hand} (effect : CloseEffect before after) {i : Nat}
    (made : i < before.1.objects) : before.1.ClosesOff i after.1 ∨ (before.1.client i).Holds (after.1.client i) := by
  cases effect.clientChange i with
  | same client =>
      rw [client]
      exact Or.inr (.refl _)
  | quiet same => exact Or.inr (same.held i made)
  | ref found closed =>
      rw [found, closed]
      exact Or.inr (.closeRef _)
  | importClient found still named closed rejected => exact Or.inl ⟨_, found, ⟨_, still, closed⟩, rejected⟩

structure KeepsAnswer (before after : AnswerEntry) : Prop where
  id : after.id = before.id
  routed : before.routed → after.routed

theorem KeepsAnswer.refl (entry : AnswerEntry) : KeepsAnswer entry entry := ⟨rfl, fun routed => routed⟩

theorem KeepsAnswer.of_core {before after : AnswerEntry} (same : after.core = before.core) :
    KeepsAnswer before after := by
  simp only [AnswerEntry.core, Prod.mk.injEq] at same
  exact ⟨same.1, fun routed => same.2.2.1 ▸ routed⟩

end CloseEffect

variable (conn) in
theorem Conn.alterAnswer_keeps {a : Nat} {c : AnswerEntry → AnswerEntry}
    (keeps : CloseEffect.KeepsAnswer (conn.answer a) (c (conn.answer a))) (a' : Nat) :
    CloseEffect.KeepsAnswer (conn.answer a') ((conn.alterAnswer a c).answer a') := by
  by_cases here : a' = a
  · subst here
    simpa [Conn.alterAnswer] using keeps
  · simpa [Conn.alterAnswer, here] using CloseEffect.KeepsAnswer.refl (conn.answer a')

theorem QuietEffect.keepsAnswer {before after : Conn × Hand} (effect : QuietEffect before after) (a : Nat) :
    CloseEffect.KeepsAnswer (before.1.answer a) (after.1.answer a) := by
  cases effect with
  | quiet same => exact .of_core (same.answer a)
  | forget fewer => exact .refl _

theorem CloseEffect.keepsAnswer {before after : Conn × Hand} (effect : CloseEffect before after) (a : Nat) :
    KeepsAnswer (before.1.answer a) (after.1.answer a) := by
  cases effect with
  | quiet effect => exact effect.keepsAnswer a
  | settle a' isOpen may same =>
      apply Conn.alterAnswer_keeps
      simp only [AnswerEntry.core, Prod.mk.injEq] at same
      exact ⟨same.1, fun routed => same.2.2.1 ▸ routed⟩
  | _ => exact .refl _

theorem Quiet.opensNone {before after : Conn} (same : Quiet before after) {i : Nat} {w : WireId}
    (isOpen : (after.client i).core = .importClient { id := w }) :
    (before.client i).core = .importClient { id := w } := by
  by_cases made : i < before.objects
  · exact (same.client i made).symm.trans isOpen
  · rcases same.made i (Nat.le_of_not_lt made) with ordinary | old
    · obtain ⟨c, shape, _⟩ := Client.core_importClient (c := { id := w }) isOpen
      rw [shape] at ordinary
      cases ordinary
    · exact old.symm.trans isOpen

theorem Client.isReleased_iff {client : Client} :
    client.isReleased = true ↔ ∀ w, client.core ≠ .importClient { id := w } := by
  cases client with
  | importClient c =>
      cases shut : c.closed with
      | true => simp [isReleased, core, shut]
      | false => simp [isReleased, core, shut]
  | _ => exact iff_of_true rfl fun _ same => by cases same

theorem CloseEffect.opensNone {before after : Conn × Hand} (effect : CloseEffect before after) {i : Nat} {w : WireId}
    (isOpen : (after.1.client i).core = .importClient { id := w }) :
    (before.1.client i).core = .importClient { id := w } := by
  cases effect.clientChange i with
  | same client =>
      rw [← client]
      exact isOpen
  | quiet same => exact same.opensNone isOpen
  | ref found closed =>
      rw [closed] at isOpen
      cases isOpen
  | importClient found still named closed rejected =>
      rw [still] at isOpen
      simp [Client.core, closed] at isOpen

theorem CloseEffect.released {before after : Conn × Hand} (effect : CloseEffect before after) {i : Nat}
    (free : (before.1.client i).isReleased = true) : (after.1.client i).isReleased = true := by
  rw [Client.isReleased_iff] at free ⊢
  exact fun w isOpen => free w (effect.opensNone isOpen)

theorem released_of_closes {before after : Conn × Hand} (steps : ReflTransGen CloseEffect before after) {i : Nat}
    (free : (before.1.client i).isReleased = true) : (after.1.client i).isReleased = true := by
  induction steps with
  | refl => exact free
  | tail _ effect ih => exact effect.released ih

theorem keepsAnswer_of_closes {before after : Conn × Hand} (steps : ReflTransGen CloseEffect before after)
    (a : Nat) : CloseEffect.KeepsAnswer (before.1.answer a) (after.1.answer a) := by
  induction steps with
  | refl => exact .refl _
  | tail _ effect ih =>
      have later := effect.keepsAnswer a
      exact ⟨later.id.trans ih.id, fun routed => later.routed (ih.routed routed)⟩

theorem Conn.MayAnswer.of_keeps {after : Conn} {a : Nat} (may : conn.MayAnswer hand a)
    (keeps : CloseEffect.KeepsAnswer (conn.answer a) (after.answer a)) : after.MayAnswer hand a := by
  rcases may with routed | asked
  · exact Or.inl (keeps.routed routed)
  · exact Or.inr (by rw [asked, keeps.id])

theorem Question.fulfill_keeps (q : Nat) (obj : Struct) :
    Keeps QuietEffect (Question.fulfill q obj) conn hand fun _ _ => True := by
  apply Keeps.get
  split
  · exact Keeps.modify (Quiet.alterQuestion fun _ => rfl).step (fun formed => formed.alterQuestion q _) trivial
  · exact Keeps.throw

theorem Question.reject_keeps (q : Nat) (reason : String) :
    Keeps QuietEffect (Question.reject q reason) conn hand fun _ _ => True := by
  apply Keeps.get
  split
  · exact Keeps.modify (Quiet.alterQuestion fun _ => rfl).step (fun formed => formed.alterQuestion q _) trivial
  · exact Keeps.throw

theorem popQuestion_run {id q : Nat} (isOpen : conn.findQuestion id = some q) :
    popQuestion id conn = .ok (some q) (conn.dropQuestion id) := by
  unfold popQuestion
  rw [Outcome.bind_apply, Outcome.get_apply]
  simp only [isOpen]
  rfl

theorem Question.leaveTable_keeps (q : Nat) (tellPeer : Bool)
    (unsent : tellPeer = false → (conn.question q).started = false) :
    Keeps CloseEffect (Question.leaveTable q tellPeer) conn hand fun _ _ => True := by
  apply Keeps.get
  cases found : conn.findQuestion (conn.question q).id with
  | none => exact Keeps.pure trivial
  | some p =>
      cases tellPeer with
      | true =>
          have still : (((conn.say (.questionCanceled (conn.questionId q))).send
              (newFinishMessage (conn.questionId q) true))).findQuestion (conn.question q).id = some p := found
          apply Keeps.of_ok (v := ()) (n := conn.cancelQuestion q) ?_ (.single (.cancel q found)) ?_ trivial
          · dsimp only
            simp only [↓reduceIte]
            rw [Outcome.bind_apply]
            rw [show Question.sendFinish q conn = .ok () ((conn.say (.questionCanceled (conn.questionId q))).send
              (newFinishMessage (conn.questionId q) true)) from rfl]
            dsimp only
            rw [Outcome.bind_apply, popQuestion_run still]
            rfl
          · intro wellFormed
            exact ((wellFormed.say _).send _).dropQuestion still
      | false =>
          apply Keeps.of_ok (v := ()) (n := conn.dropQuestion (conn.question q).id) ?_
            (.single (.abandon q found (unsent rfl))) (fun wellFormed => wellFormed.dropQuestion found) trivial
          dsimp only
          simp only [Bool.false_eq_true, ↓reduceIte]
          rw [Outcome.bind_apply, popQuestion_run found]
          rfl

theorem Question.cancel_keeps (q : Nat) (reason : String) :
    Keeps CloseEffect (Question.cancel q reason) conn hand fun _ _ => True := by
  apply Keeps.get
  split
  · apply Keeps.bind (Question.leaveTable_keeps q (conn.question q).started fun unsent => unsent)
    intro _ after _ _ _
    apply Keeps.bind (Q := fun _ _ => True)
    · exact (Keeps.modify (Quiet.alterQuestion fun _ => rfl).step (fun formed => formed.alterQuestion q _)
        trivial).lift fun _ _ => QuietEffect.close
    · intro _ last _ _ _
      exact Keeps.pure trivial
  · exact Keeps.pure trivial

theorem Question.closePendingRoot_keeps (q : Nat) :
    Keeps CloseEffect (Question.closePendingRoot q) conn hand fun _ _ => True := by
  apply Keeps.get
  split
  · apply Keeps.bind (Question.leaveTable_keeps q true nofun)
    intro _ after _ _ _
    apply Keeps.bind (Q := fun _ _ => True)
    · exact (Keeps.modify (Quiet.alterQuestion fun _ => rfl).step (fun formed => formed.alterQuestion q _)
        trivial).lift fun _ _ => QuietEffect.close
    · intro _ last _ _ _
      exact Keeps.pure trivial
  · exact Keeps.pure trivial

theorem takeTailAnswerWaiters_keeps (id : Nat) :
    Keeps QuietEffect (takeTailAnswerWaiters id) conn hand fun _ _ => True := by
  apply Keeps.get
  cases find conn.tailAnswerWaiters id with
  | none => exact Keeps.pure trivial
  | some waiters =>
      apply Keeps.bind (Q := fun _ _ => True)
      · exact Keeps.set (Quiet.clearWaiters id).step (fun formed => formed.clearWaiters id) trivial
      · intro _ after _ _ _
        exact Keeps.pure trivial

theorem rejectTailAnswerWaiters_keeps (id : Nat) (reason : String) :
    Keeps QuietEffect (rejectTailAnswerWaiters id reason) conn hand fun _ _ => True := by
  apply Keeps.bind (takeTailAnswerWaiters_keeps id)
  intro waiters after _ _ _
  exact Keeps.forM fun q _ last _ _ => Question.reject_keeps q reason

theorem fulfillTailAnswerWaiters_keeps (id : Nat) (obj : Struct) :
    Keeps QuietEffect (fulfillTailAnswerWaiters id obj) conn hand fun _ _ => True := by
  apply Keeps.bind (takeTailAnswerWaiters_keeps id)
  intro waiters after _ _ _
  exact Keeps.forM fun q _ last _ _ => Question.fulfill_keeps q obj

theorem attemptAll_keeps {R : Conn × Hand → Conn × Hand → Prop} {programs : List (ConnM Unit)}
    (keeps : ∀ program ∈ programs, ∀ after, ReflTransGen R (conn, hand) (after, hand) → after.WellFormed →
      Keeps R program after hand fun _ _ => True) :
    Keeps R (attemptAll programs) conn hand fun error _ => error.all RpcError.isPlain := by
  induction programs generalizing conn with
  | nil => exact Keeps.pure rfl
  | cons program programs ih =>
      intro wellFormed
      refine Keeps.bind (keeps program (by simp) conn .refl wellFormed).attempt ?_ wellFormed
      intro first after steps _ plain
      apply Keeps.bind
      · apply ih
        intro program' member last later formed
        exact keeps program' (by simp [member]) last (steps.trans later) formed
      · intro later last _ _ plainLater
        apply Keeps.pure
        cases first with
        | none => exact plainLater
        | some error => exact plain

theorem throwFirst_keeps {R : Conn × Hand → Conn × Hand → Prop} {error : Option RpcError}
    (plain : error.all RpcError.isPlain) : Keeps R (throwFirst error) conn hand fun _ _ => True := by
  cases error with
  | none => exact Keeps.pure trivial
  | some error => exact Runs.throw ⟨rfl, by simpa using plain⟩

theorem Hand.less_owed (hand : Hand) (id : WireId) : hand.Less { hand with owed := id :: hand.owed } where
  message := rfl
  owed := List.subset_cons_self _ _
  incoming := List.Sublist.refl _
  prepared := List.Sublist.refl _
  returned := List.Sublist.refl _
  taken := Or.inl rfl
  resumed := rfl
  violated := rfl
  releasing := rfl
  lifting := rfl

theorem settle_keeps {α : Type} {a : Nat} {change : AnswerEntry → AnswerEntry} {next : PUnit → ConnM α}
    {R : Conn × Hand → Conn × Hand → Prop} {returns : α → Conn → Prop}
    (into : ∀ before after, CloseEffect before after → R before after)
    (isOpen : (conn.answer a).done = false) (may : conn.MayAnswer hand a)
    (same : (change (conn.answer a)).core =
      ((conn.answer a).id, true, (conn.answer a).routed, (conn.answer a).resultCaps))
    (formed : conn.WellFormed → (conn.alterAnswer a change).WellFormed)
    (rest : Keeps R (next ⟨⟩) (conn.alterAnswer a change)
      { hand with owed := (conn.answer a).id :: hand.owed } returns) :
    Keeps R (alterAnswer a change >>= next) conn hand returns := by
  apply Runs.bind (Q := fun _ after left =>
    after = conn.alterAnswer a change ∧ left = { hand with owed := (conn.answer a).id :: hand.owed })
  · exact Runs.modify (.single (into _ _ (.settle a isOpen may same))) formed ⟨rfl, rfl⟩
  · rintro _ after left _ _ ⟨rfl, rfl⟩
    apply Keeps.returning rest
    intro last
    exact .single (into _ _ (.quiet (.forget (hand.less_owed _))))

theorem AnswerEntry.reject_keeps (depth a : Nat) (reason : Option String)
    (may : (conn.answer a).done = false → conn.MayAnswer hand a) :
    Keeps CloseEffect (AnswerEntry.reject depth a reason) conn hand fun _ _ => True := by
  induction depth generalizing conn hand a reason with
  | zero => exact Keeps.throw
  | succ depth ih =>
      cases reason with
      | none => exact Keeps.throw
      | some reason =>
          apply Keeps.given_wellFormed
          intro wellFormed
          apply Keeps.get
          cases isOpen : (conn.answer a).done with
          | true => exact Keeps.throw
          | false =>
              apply settle_keeps (fun _ _ effect => effect) isOpen (may isOpen)
              · rfl
              · intro formed
                exact formed.touchAnswer rfl (fun waits => waits) fun _ member => member
              · apply Keeps.bind ((rejectTailAnswerWaiters_keeps _ reason).lift fun _ _ => QuietEffect.close)
                intro _ second first _ _
                apply Keeps.bind (Q := fun _ _ => True)
                · exact Keeps.modify (.single (.reject reason (List.mem_cons_self ..)))
                    (fun formed => formed.send _) trivial
                · intro _ third second _ _
                  apply Keeps.bind
                  · apply attemptAll_keeps
                    intro program member fourth third formed
                    obtain ⟨pc, waiting, rfl⟩ := List.mem_map.mp member
                    apply ih
                    intro _
                    have routed : (conn.answer pc.answer).routed := wellFormed.queued a pc waiting
                    have marked := (Conn.alterAnswer_keeps _ (a := a)
                      (c := AnswerEntry.rejected reason)
                      ⟨rfl, fun routed => routed⟩ pc.answer).routed routed
                    exact Or.inl
                      ((keepsAnswer_of_closes ((first.trans second).trans third) pc.answer).routed marked)
                  · intro firstErr fifth _ _ plain
                    apply Keeps.bind (Q := fun _ _ => True)
                    · refine (Keeps.modify (Quiet.alterAnswer rfl).step ?_ trivial).lift fun _ _ => QuietEffect.close
                      intro formed
                      exact formed.touchAnswer rfl (fun waits => waits) nofun
                    · intro _ last _ _ _
                      exact throwFirst_keeps plain

theorem rejectAnswer_keeps (a : Nat) (reason : String)
    (may : (conn.answer a).done = false → conn.MayAnswer hand a) :
    Keeps CloseEffect (rejectAnswer a reason) conn hand fun _ _ => True :=
  Keeps.get (AnswerEntry.reject_keeps conn.stack a (some reason) may)

namespace Client

@[simp] theorem core_setCalls (client : Client) (calls : List QueuedCall) :
    (client.setCalls calls).core = client.core := by
  cases client with
  | _ => rfl

@[simp] theorem references_setCalls (client : Client) (calls : List QueuedCall) :
    (client.setCalls calls).references = client.references := by
  cases client with
  | _ => rfl

theorem mem_calls_setCalls {client : Client} {calls : List QueuedCall} {call : QueuedCall}
    (member : call ∈ (client.setCalls calls).calls) : call ∈ calls := by
  cases client with
  | importClient c => exact member
  | promiseExport c => exact member
  | queue c => exact member
  | _ => cases member

@[simp] theorem core_withoutEmbargo (client : Client) : client.withoutEmbargo.core = client.core := by
  cases client with
  | _ => rfl

@[simp] theorem references_withoutEmbargo (client : Client) :
    client.withoutEmbargo.references = client.references := by
  cases client with
  | _ => rfl

@[simp] theorem calls_withoutEmbargo (client : Client) : client.withoutEmbargo.calls = client.calls := by
  cases client with
  | _ => rfl

@[simp] theorem core_withoutResolved (client : Client) : client.withoutResolved.core = client.core := by
  cases client with
  | _ => rfl

@[simp] theorem calls_withoutResolved (client : Client) : client.withoutResolved.calls = client.calls := by
  cases client with
  | _ => rfl

end Client

theorem Conn.WellFormed.setCalls {o : Nat} {c : List QueuedCall} (wellFormed : conn.WellFormed)
    (old : ∀ a call, .remote a call ∈ c → .remote a call ∈ (conn.client o).calls)
    (waiting : ∀ i, conn.client o = .importClient i → i.closed = true → c ≠ [] → (conn.client o).calls ≠ []) :
    (conn.setClient o ((conn.client o).setCalls c)).WellFormed := by
  apply wellFormed.setClient
  · intro beyond
    rw [Client.core_setCalls]
    exact wellFormed.unmadeClients o beyond
  · simpa using wellFormed.clients o
  · intro a call member
    exact wellFormed.calls o a call (old a call (Client.mem_calls_setCalls member))
  · apply Client.Continues.of_core (Client.core_setCalls _ _)
    · intro a call member
      exact old a call (Client.mem_calls_setCalls member)
    · intro i shape closed some
      apply waiting i shape closed
      rw [shape] at some
      exact some

theorem Conn.WellFormed.popCall (wellFormed : conn.WellFormed) (owner : Nat) :
    (conn.setClient owner ((conn.client owner).setCalls (conn.client owner).calls.tail)).WellFormed :=
  wellFormed.setCalls (fun _ _ member => List.mem_of_mem_tail member) fun _ _ _ some none => some (by rw [none]; rfl)

theorem popCall_keeps {owner : Nat} (free : (conn.client owner).isReleased = true) :
    Keeps QuietEffect (popCall owner) conn hand fun _ _ => True :=
  Keeps.modify (Quiet.setClient (Client.core_setCalls _ _) (.of_released free (Client.core_setCalls _ _))).step
    (fun wellFormed => wellFormed.popCall owner) trivial

theorem rejectAll_keeps {owner : Nat} (reason : String) (free : (conn.client owner).isReleased = true) :
    Keeps CloseEffect (rejectAll owner reason) conn hand fun _ _ => True := by
  apply Keeps.given_wellFormed
  intro wellFormed
  apply Keeps.get
  apply Keeps.forM
  intro slot member after steps formed
  apply Keeps.bind (Q := fun _ _ => True)
  · cases slot with
    | fromHere call =>
        exact Keeps.modify (.single (.rejectHere owner reason [.fromHere call])) (fun formed => formed.say _) trivial
    | remote a call =>
        apply rejectAnswer_keeps
        intro _
        exact Or.inl ((keepsAnswer_of_closes steps a).routed (wellFormed.calls owner a call member))
  · intro _ last later _ _
    exact (popCall_keeps (released_of_closes (steps.trans later) free)).lift fun _ _ => QuietEffect.close

structure Conn.SameImports (after conn : Conn) : Prop where
  imports : after.imports = conn.imports
  client : after.client = conn.client
  closed : after.closed = conn.closed

variable (conn hand) in
theorem Conn.clearDisembargoAt_keeps (client id : Nat) :
    ReflTransGen QuietEffect (conn, hand) (conn.clearDisembargoAt client id, hand) ∧
      (conn.WellFormed → (conn.clearDisembargoAt client id).WellFormed) ∧
      (conn.clearDisembargoAt client id).SameImports conn := by
  unfold clearDisembargoAt
  split
  · rename_i found
    exact ⟨(Quiet.dropDisembargo id _).step, fun wellFormed => wellFormed.dropDisembargo found, rfl, rfl, rfl⟩
  · exact ⟨.refl, fun wellFormed => wellFormed, rfl, rfl, rfl⟩

variable (conn hand) in
theorem Conn.clearDisembargo_keeps (client : Nat) :
    ReflTransGen QuietEffect (conn, hand) (conn.clearDisembargo client, hand) ∧
      (conn.WellFormed → (conn.clearDisembargo client).WellFormed) ∧
      (conn.clearDisembargo client).SameImports conn := by
  unfold clearDisembargo
  generalize List.range conn.disembargoes.length = ids
  induction ids generalizing conn with
  | nil => exact ⟨.refl, fun wellFormed => wellFormed, rfl, rfl, rfl⟩
  | cons id ids ih =>
      rw [List.foldl_cons]
      obtain ⟨first, formed, same⟩ := clearDisembargoAt_keeps conn hand client id
      obtain ⟨rest, formedRest, sameRest⟩ := ih (conn.clearDisembargoAt client id)
      exact ⟨first.trans rest, fun wellFormed => formedRest (formed wellFormed), sameRest.imports.trans same.imports,
        sameRest.client.trans same.client, sameRest.closed.trans same.closed⟩

theorem clearDisembargo_keeps (client : Nat) :
    Keeps QuietEffect (clearDisembargo client) conn hand fun _ after => after.SameImports conn := by
  obtain ⟨steps, formed, same⟩ := Conn.clearDisembargo_keeps conn hand client
  exact Keeps.modify steps formed same

def Conn.Unheld (conn : Conn) (id : Nat) : Prop :=
  conn.closed = false → ∀ i w, (conn.client i).core = .importClient { id := w } → w.id ≠ id

theorem releaseImportAll_keeps (id : Nat) (unheld : conn.Unheld id) :
    Keeps CloseEffect (releaseImportAll id) conn hand fun _ _ => True := by
  apply Keeps.get
  cases found : find conn.imports id with
  | none => exact Keeps.pure trivial
  | some entry =>
      apply Keeps.get
      simp only [found]
      split
      · exact Keeps.pure trivial
      · rename_i counted
        rw [if_neg (by omega)]
        apply Keeps.bind ((clearDisembargo_keeps _).lift fun _ _ => QuietEffect.close)
        intro _ after _ _ same
        have still : find after.imports id = some entry := by rw [same.imports, found]
        apply Keeps.of_ok (v := ()) ?_ (.single (.release still counted)) ?_ trivial
        · rw [Outcome.bind_apply, Outcome.modify_apply]
          dsimp only
          rw [if_pos (by omega), Nat.min_self]
          rfl
        · intro wellFormed
          refine (wellFormed.setImport id (s := none) nofun ?_).send _
          intro notClosed i w isOpen named
          rw [same.closed] at notClosed
          rw [same.client] at isOpen
          exact absurd named (unheld notClosed i w isOpen)

section Closing

variable {closeNext : Nat → ConnM Unit}

theorem closeResolution_keeps
    (keepsNext : ∀ conn hand client, Keeps CloseEffect (closeNext client) conn hand fun _ _ => True)
    (transform : Transform) (obj : Option Struct) (err : Option String) :
    Keeps CloseEffect (closeResolution closeNext transform obj err) conn hand fun _ _ => True := by
  apply Keeps.bind ((clientFromResolution_keeps transform obj err).lift fun _ _ => QuietEffect.close)
  intro client after _ _ _
  exact keepsNext after hand client

theorem pipelineClose_keeps
    (keepsNext : ∀ conn hand client, Keeps CloseEffect (closeNext client) conn hand fun _ _ => True)
    (q : Nat) (transform : Transform) :
    Keeps CloseEffect (pipelineClose closeNext q transform) conn hand fun _ _ => True := by
  have closesSettled : ∀ conn hand obj err, Keeps CloseEffect
      (attempt (closeResolution closeNext transform obj err) >>= fun _ => pure PUnit.unit) conn hand
      fun _ _ => True := by
    intro conn hand obj err
    apply Keeps.bind (closeResolution_keeps keepsNext transform obj err).attempt
    intro _ after _ _ _
    exact Keeps.pure trivial
  have closesRoot : ∀ conn hand, Keeps CloseEffect
      (Question.closePendingRoot q >>= fun _ => pure PUnit.unit) conn hand fun _ _ => True := by
    intro conn hand
    apply Keeps.bind (Question.closePendingRoot_keeps q)
    intro _ after _ _ _
    exact Keeps.pure trivial
  have alters : ∀ conn hand (change : Question → Question), (∀ question, (change question).core = question.core) →
      Keeps CloseEffect (alterQuestion q change) conn hand fun _ _ => True := by
    intro conn hand change same
    exact (Keeps.modify (Quiet.alterQuestion fun _ => same _).step (fun formed => formed.alterQuestion q _)
      trivial).lift fun _ _ => QuietEffect.close
  apply Keeps.get
  split
  · split
    · split
      · split
        · exact closesRoot conn hand
        · exact closesSettled conn hand _ _
      · exact alters conn hand _ fun _ => rfl
    · apply Keeps.bind (Q := fun _ _ => True)
      · exact alters conn hand _ fun _ => rfl
      intro _ after _ _ _
      apply Keeps.get
      split
      · split
        · exact closesRoot after hand
        · exact Keeps.pure trivial
      · exact closesSettled after hand _ _
  · split
    · exact Keeps.pure trivial
    · exact closesSettled conn hand _ _

theorem closeOptional_keeps
    (keepsNext : ∀ conn hand client, Keeps CloseEffect (closeNext client) conn hand fun _ _ => True)
    (client : Option Nat) : Keeps CloseEffect (closeOptional closeNext client) conn hand fun _ _ => True := by
  cases client with
  | none => exact Keeps.pure trivial
  | some client => exact keepsNext conn hand client

end Closing

theorem Conn.WellFormed.withoutEmbargo (wellFormed : conn.WellFormed) (client : Nat) :
    (conn.setClient client (conn.client client).withoutEmbargo).WellFormed := by
  apply wellFormed.setClient
  · intro beyond
    rw [Client.core_withoutEmbargo]
    exact wellFormed.unmadeClients client beyond
  · simpa using wellFormed.clients client
  · simpa using wellFormed.calls client
  · exact .of_same (Client.core_withoutEmbargo _) (Client.calls_withoutEmbargo _)

theorem withoutEmbargo_keeps {client : Nat} (free : (conn.client client).isReleased = true) :
    Keeps CloseEffect (modify fun conn => conn.setClient client (conn.client client).withoutEmbargo) conn hand
      fun _ _ => True := by
  have quiet := Quiet.setClient (Client.core_withoutEmbargo _) (.of_released free (Client.core_withoutEmbargo _))
  exact (Keeps.modify quiet.step (fun wellFormed => wellFormed.withoutEmbargo client) trivial).lift
    fun _ _ => QuietEffect.close

theorem rejectAll_embargoed {client : Nat} {c : ImportClient} (reason : String)
    (shape : conn.client client = .importClient c) (embargoed : ∀ a call, .remote a call ∉ c.embargoQueue) :
    rejectAll client reason conn = .ok ()
      ((conn.setClient client (.importClient { c with embargoQueue := [] })).sayRejected client reason c.embargoQueue) := by
  have loop : ∀ (calls : List QueuedCall) (c : ImportClient) (conn : Conn), c.embargoQueue = calls →
      conn.client client = .importClient c → (∀ a call, .remote a call ∉ calls) →
      (calls.forM fun slot => do
        rejectCall client reason slot
        popCall client : ConnM Unit) conn =
          .ok ()
            ((conn.setClient client (.importClient { c with embargoQueue := [] })).sayRejected client reason calls) := by
    intro calls
    induction calls with
    | nil =>
        intro c conn queue shape _
        have same : (conn.setClient client (.importClient { c with embargoQueue := [] })).sayRejected client reason [] =
            conn := by
          unfold Conn.setClient Conn.sayRejected
          rw [← queue, ← shape, Function.update_eq_self, queue]
          simp only [List.filterMap_nil, List.append_nil]
        rw [same]
        rfl
    | cons slot calls ih =>
        intro c conn queue shape embargoed
        cases slot with
        | remote a call => exact absurd (List.mem_cons_self ..) (embargoed a call)
        | fromHere call =>
            let popped := (conn.say (.callRejected client call reason)).setClient client
              ((conn.client client).setCalls (conn.client client).calls.tail)
            have shape' : popped.client client = .importClient { c with embargoQueue := calls } := by
              simp [popped, Conn.setClient, shape, Client.setCalls, Client.calls, queue]
            have rest := ih { c with embargoQueue := calls } popped rfl shape'
              fun a call member => embargoed a call (List.mem_cons_of_mem _ member)
            have same : (popped.setClient client (.importClient { c with embargoQueue := [] })).sayRejected client reason calls =
                (conn.setClient client (.importClient { c with embargoQueue := [] })).sayRejected client reason
                  (.fromHere call :: calls) := by
              simp [popped, Conn.setClient, Conn.say, Conn.sayRejected, QueuedCall.rejection]
            rw [List.forM_eq_forM, List.forM_cons, ← same]
            exact rest
  unfold rejectAll
  rw [Outcome.bind_apply, Outcome.get_apply]
  dsimp only
  rw [shape]
  exact loop c.embargoQueue c conn rfl shape embargoed

theorem shutImport_keeps {client : Nat} {c : ImportClient} (reason : String)
    (shape : conn.client client = .importClient c) (embargoed : ∀ a call, .remote a call ∉ c.embargoQueue) :
    Keeps CloseEffect (setClient client (.importClient { c with closed := true }) >>= fun _ =>
      rejectAll client reason) conn hand
      fun _ after => after = (conn.setClient client
        (.importClient { c with closed := true, embargoQueue := [] })).sayRejected client reason c.embargoQueue := by
  let marked := conn.setClient client (.importClient { c with closed := true })
  have found : marked.client client = .importClient { c with closed := true } := by
    simp [marked, Conn.setClient]
  refine Keeps.of_ok (v := ()) ?_ (.single (.closeImport reason shape rfl)) ?_ rfl
  · change rejectAll client reason marked = _
    rw [rejectAll_embargoed reason found embargoed]
    simp only [marked, Conn.setClient, Function.update_idem]
  · intro wellFormed
    have leads := wellFormed.clients client
    have made := wellFormed.made (i := client) (by rw [shape]; intro same; cases same)
    have continues : (conn.client client).Continues
        (.importClient { c with closed := true, embargoQueue := [] }) := by
      intro c' same
      cases same
      exact ⟨c, shape, rfl, fun _ => rfl, (by intros; contradiction), fun _ some => absurd rfl some⟩
    rw [shape] at leads
    apply Conn.WellFormed.sayRejected
    exact wellFormed.setClient client (fun beyond => absurd made (Nat.not_lt_of_le beyond)) leads (by intros; contradiction) continues

theorem CloseEffect.closed {before after : Conn × Hand} (effect : CloseEffect before after) :
    after.1.closed = before.1.closed := by
  cases effect with
  | quiet effect =>
      cases effect with
      | quiet same => exact same.closed
      | forget fewer => rfl
  | _ => rfl

theorem Conn.Unheld.of_closes {before after : Conn × Hand} (steps : ReflTransGen CloseEffect before after) {id : Nat}
    (unheld : before.1.Unheld id) : after.1.Unheld id := by
  induction steps with
  | refl => exact unheld
  | tail _ effect ih =>
      intro notClosed i w isOpen
      rw [effect.closed] at notClosed
      exact ih notClosed i w (effect.opensNone isOpen)

theorem Conn.WellFormed.unheld (wellFormed : conn.WellFormed) {client : Nat} {c : ImportClient}
    (shape : conn.client client = .importClient c) (isOpen : c.closed = false) :
    (conn.setClient client (.importClient { c with closed := true, embargoQueue := [] })).Unheld c.id.id := by
  intro notClosed i w opened named
  by_cases same : i = client
  · subst same
    simp [Conn.setClient, Client.core] at opened
  · have other : (conn.client i).core = .importClient { id := w } := by
      simpa [Conn.setClient, same] using opened
    obtain ⟨entry, found, held⟩ := wellFormed.held notClosed i w other
    obtain ⟨own, foundOwn, heldOwn⟩ := wellFormed.held notClosed client c.id (by
      rw [shape]
      simp [Client.core, isOpen])
    rw [named, foundOwn] at found
    cases found
    exact same (held.symm.trans heldOwn)

theorem closeClient_keeps (depth client : Nat) :
    Keeps CloseEffect (closeClient depth client) conn hand fun _ _ => True := by
  induction depth generalizing conn hand client with
  | zero => exact Keeps.throw
  | succ depth ih =>
      have keepsNext : ∀ conn hand client, Keeps CloseEffect (closeClient depth client) conn hand fun _ _ => True :=
        fun conn hand client => ih client
      apply Keeps.get
      cases shape : conn.client client with
      | server methods => exact Keeps.pure trivial
      | error reason => exact Keeps.pure trivial
      | other => exact Keeps.pure trivial
      | null => exact Keeps.throw
      | ref rc closed =>
          cases closed with
          | true => exact Keeps.pure trivial
          | false =>
              change Keeps CloseEffect ((setClient client (.ref rc true) >>= fun _ =>
                modify fun conn => conn.setRefs rc ((conn.refCount rc).refs - 1)) >>= fun _ =>
                  if (conn.refCount rc).refs = 1 then closeClient depth (conn.refCount rc).client
                  else pure ()) conn hand _
              apply Keeps.bind (Q := fun _ _ => True)
              · refine Keeps.of_ok (v := ⟨⟩)
                  (n := (conn.setClient client (.ref rc true)).setRefs rc ((conn.refCount rc).refs - 1)) rfl
                  (.single (.closeRef shape)) ?_ trivial
                intro wellFormed
                have leads := wellFormed.clients client
                have made := wellFormed.made (i := client) (by rw [shape]; intro same; cases same)
                rw [shape] at leads
                apply Conn.WellFormed.setRefs
                apply wellFormed.setClient client (c := .ref rc true)
                · exact fun beyond => absurd made (Nat.not_lt_of_le beyond)
                · exact leads
                · intro a call member
                  cases member
                · intro c same
                  cases same
              · intro _ after _ _ _
                split
                · exact ih _
                · exact Keeps.pure trivial
      | importClient c =>
          dsimp only
          cases shut : c.closed with
          | true => exact Keeps.pure trivial
          | false =>
              apply Keeps.given_wellFormed
              intro wellFormed
              change Keeps CloseEffect ((setClient client (.importClient { c with closed := true }) >>= fun _ =>
                rejectAll client RPC_IMPORT_CLOSED) >>= fun _ =>
                  (modify fun conn => conn.setClient client (conn.client client).withoutEmbargo) >>= fun _ =>
                    closeOptional (closeClient depth) c.resolved >>= fun _ => releaseImportAll c.id.id) conn hand _
              apply Keeps.bind (shutImport_keeps RPC_IMPORT_CLOSED shape (wellFormed.embargoed client c shape))
              rintro _ third _ _ rfl
              apply Keeps.bind (withoutEmbargo_keeps (by simp [Conn.setClient, Conn.sayRejected, Client.isReleased]))
              intro _ fourth second _ _
              apply Keeps.bind (closeOptional_keeps keepsNext c.resolved)
              intro _ fifth third _ _
              exact releaseImportAll_keeps c.id.id
                (.of_closes (second.trans third) (wellFormed.unheld shape shut))
      | pipeline q transform => exact pipelineClose_keeps keepsNext q transform
      | fixedPipeline answer transform =>
          cases answer with
          | error reason => exact Keeps.throw
          | ok struct =>
              apply Keeps.bind ((findClient_keeps struct transform).lift fun _ _ => QuietEffect.close)
              intro next after _ _ _
              exact ih next
      | localAnswer a transform =>
          dsimp only
          split
          · exact closeResolution_keeps keepsNext transform _ _
          · exact Keeps.pure trivial
      | promiseExport c =>
          dsimp only
          split
          · exact Keeps.pure trivial
          · have free : (conn.client client).isReleased = true := by
              rw [shape]
              rfl
            apply Keeps.bind (Q := fun _ _ => True)
            · have quiet : Quiet conn (conn.setClient client (.promiseExport { c with closed := true })) := by
                have same : (Client.promiseExport { c with closed := true }).core = (conn.client client).core := by
                  rw [shape]
                  rfl
                exact Quiet.setClient same (.of_released free same)
              refine (Keeps.modify quiet.step ?_ trivial).lift fun _ _ => QuietEffect.close
              intro wellFormed
              have leads := wellFormed.clients client
              have routed := wellFormed.calls client
              have made := wellFormed.made (i := client) (by rw [shape]; intro same; cases same)
              rw [shape] at leads routed
              refine wellFormed.setClient client (fun beyond => absurd made (Nat.not_lt_of_le beyond)) leads routed ?_
              intro i same
              cases same
            · intro _ second first _ _
              apply Keeps.bind (closeOptional_keeps keepsNext c.resolved)
              intro _ third second _ _
              exact rejectAll_keeps _ (released_of_closes (first.trans second) free)
      | queue c =>
          have free : (conn.client client).isReleased = true := by
            rw [shape]
            rfl
          apply Keeps.bind (rejectAll_keeps _ free)
          intro _ second _ _ _
          exact ih c.client

theorem close_keeps (client : Nat) : Keeps CloseEffect (close client) conn hand fun _ _ => True :=
  Keeps.get (closeClient_keeps conn.stack client)

end CapnpEs.Rpc
