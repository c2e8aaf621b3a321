import CapnpEs.Rpc.RefinementActions

/-! What closing clients and rejecting calls can do to a connection: tables shrink, what is settled stays settled,
and nothing else that is shut opens again. -/

namespace CapnpEs.Rpc

open SlotTable Outcome

variable {conn : Conn}

def Conn.Settled (conn : Conn) (q : Nat) : Prop := (conn.question q).state ≠ .inProgress

/-- No unsettled answer of this number is left, or none of the waiters after the first is. -/
def Conn.Accounted (conn : Conn) (id : Nat) (waiters : List Nat) : Prop :=
  (∀ a, (conn.answer a).id.id = id → (conn.answer a).done = true) ∨ ∀ q ∈ waiters.tail, conn.Settled q

structure Conn.Fading (before after : Conn) : Prop where
  closed : after.closed = before.closed
  working : after.working = before.working
  questions : ∀ id, find after.questions id = none ∨ find after.questions id = find before.questions id
  answers : ∀ id, find after.answers id = none ∨ find after.answers id = find before.answers id
  exports : ∀ id, find after.exports id = none ∨ find after.exports id = find before.exports id
  exportPromises : ∀ id, find after.exportPromises id = none ∨
    find after.exportPromises id = find before.exportPromises id
  index : ∀ q transform, after.exportPromiseIndex q transform = none ∨
    after.exportPromiseIndex q transform = before.exportPromiseIndex q transform
  imports : ∀ id, find after.imports id = none ∨ find after.imports id = find before.imports id
  disembargoes : ∀ id, find after.disembargoes id = none ∨ find after.disembargoes id = find before.disembargoes id
  settled : ∀ q, before.Settled q → after.Settled q
  done : ∀ a, (before.answer a).done = true → (after.answer a).done = true ∧
    (after.answer a).err = (before.answer a).err ∧ (after.answer a).deferred = (before.answer a).deferred
  ids : ∀ a, (after.answer a).id = (before.answer a).id
  imported : ∀ i c, after.client i = .importClient c → ∃ earlier, before.client i = .importClient earlier ∧
    c.id = earlier.id ∧ (earlier.closed = true → c.closed = true) ∧ c.embargoQueue <:+ earlier.embargoQueue
  refCounts : ∀ rc, (after.refCount rc).client = (before.refCount rc).client
  waiting : ∀ id, find after.tailAnswerWaiters id = none ∨
    find after.tailAnswerWaiters id = find before.tailAnswerWaiters id
  waiters : ∀ id waiters, find before.tailAnswerWaiters id = some waiters → before.Accounted id waiters →
    find after.tailAnswerWaiters id = some waiters ∨ ∀ q ∈ waiters, after.Settled q

namespace Conn.Fading

theorem refl (conn : Conn) : conn.Fading conn where
  closed := rfl
  working := rfl
  questions _ := Or.inr rfl
  answers _ := Or.inr rfl
  exports _ := Or.inr rfl
  exportPromises _ := Or.inr rfl
  index _ _ := Or.inr rfl
  imports _ := Or.inr rfl
  disembargoes _ := Or.inr rfl
  settled _ settled := settled
  done _ done := ⟨done, rfl, rfl⟩
  ids _ := rfl
  imported _ c found := ⟨c, found, rfl, fun closed => closed, List.suffix_refl _⟩
  refCounts _ := rfl
  waiting _ := Or.inr rfl
  waiters _ _ found _ := Or.inl found

theorem accounted {before after : Conn} (fading : before.Fading after) {id : Nat} {waiters : List Nat}
    (accounted : before.Accounted id waiters) : after.Accounted id waiters := by
  rcases accounted with done | settled
  · apply Or.inl
    intro a same
    rw [fading.ids] at same
    exact (fading.done a (done a same)).1
  · apply Or.inr
    intro q member
    exact fading.settled q (settled q member)

theorem shrinks {α : Type} {first second third : List (Option α)} {id : Nat}
    (sooner : find second id = none ∨ find second id = find first id)
    (later : find third id = none ∨ find third id = find second id) :
    find third id = none ∨ find third id = find first id := by
  rcases later with gone | same
  · exact Or.inl gone
  · rw [same]
    exact sooner

theorem gone {α : Type} {first second : List (Option α)} {id : Nat}
    (shrinks : find second id = none ∨ find second id = find first id) (gone : find first id = none) :
    find second id = none := by
  rcases shrinks with gone | same
  · exact gone
  · exact same.trans gone

theorem trans {first second third : Conn} (sooner : first.Fading second) (later : second.Fading third) :
    first.Fading third where
  closed := later.closed.trans sooner.closed
  working := later.working.trans sooner.working
  questions id := shrinks (sooner.questions id) (later.questions id)
  answers id := shrinks (sooner.answers id) (later.answers id)
  exports id := shrinks (sooner.exports id) (later.exports id)
  exportPromises id := shrinks (sooner.exportPromises id) (later.exportPromises id)
  index q transform := by
    rcases later.index q transform with gone | same
    · exact Or.inl gone
    · rw [same]
      exact sooner.index q transform
  imports id := shrinks (sooner.imports id) (later.imports id)
  disembargoes id := shrinks (sooner.disembargoes id) (later.disembargoes id)
  settled q settled := later.settled q (sooner.settled q settled)
  done a done := by
    obtain ⟨still, err, deferred⟩ := sooner.done a done
    obtain ⟨last, err', deferred'⟩ := later.done a still
    exact ⟨last, err'.trans err, deferred'.trans deferred⟩
  ids a := (later.ids a).trans (sooner.ids a)
  imported i c found := by
    obtain ⟨middle, shape, named, closes, suffix⟩ := later.imported i c found
    obtain ⟨earlier, shape', named', closes', suffix'⟩ := sooner.imported i middle shape
    exact ⟨earlier, shape', named.trans named', fun closed => closes (closes' closed), suffix.trans suffix'⟩
  refCounts rc := (later.refCounts rc).trans (sooner.refCounts rc)
  waiting id := shrinks (sooner.waiting id) (later.waiting id)
  waiters id waiters found accounted := by
    rcases sooner.waiters id waiters found accounted with still | settled
    · exact later.waiters id waiters still (sooner.accounted accounted)
    · exact Or.inr fun q member => later.settled q (settled q member)

instance : IsPreorder Conn Conn.Fading where
  refl := refl
  trans _ _ _ := trans

theorem say (conn : Conn) (event : Event) : conn.Fading (conn.say event) := { refl conn with }

theorem send (conn : Conn) (message : RpcMessage) : conn.Fading (conn.send message) := { refl conn with }

theorem alterQuestion (conn : Conn) (q : Nat) {change : Question → Question}
    (settles : (conn.question q).state ≠ .inProgress → (change (conn.question q)).state ≠ .inProgress) :
    conn.Fading (conn.alterQuestion q change) := by
  refine { refl conn with settled := ?_, waiters := fun _ _ found _ => Or.inl found }
  intro q' settled
  unfold Conn.Settled Conn.alterQuestion at *
  by_cases same : q' = q
  · subst same
    simpa using settles settled
  · simpa [same] using settled

theorem dropQuestion (conn : Conn) (id : Nat) : conn.Fading (conn.dropQuestion id) := by
  refine { refl conn with questions := ?_ }
  intro other
  simp only [Conn.dropQuestion, Conn.setQuestionSlot, find_put]
  split
  · exact Or.inl rfl
  · exact Or.inr rfl

theorem setClient (conn : Conn) (id : Nat) {client : Client}
    (imported : ∀ c, client = .importClient c → ∃ earlier, conn.client id = .importClient earlier ∧
      c.id = earlier.id ∧ (earlier.closed = true → c.closed = true) ∧ c.embargoQueue <:+ earlier.embargoQueue) :
    conn.Fading (conn.setClient id client) := by
  refine { refl conn with imported := ?_ }
  intro i c found
  by_cases same : i = id
  · subst same
    exact imported c (by simpa [Conn.setClient] using found)
  · exact (refl conn).imported i c (by simpa [Conn.setClient, same] using found)

theorem withClient (conn : Conn) {client : Client} (other : ∀ c, client ≠ .importClient c) :
    conn.Fading (conn.withClient client) := by
  have moved : conn.Fading (conn.setClient conn.objects client) :=
    setClient conn conn.objects fun c same => absurd same (other c)
  exact { moved with }

theorem setRefs (conn : Conn) (rc : Nat) (refs : Int) : conn.Fading (conn.setRefs rc refs) := by
  refine { refl conn with refCounts := ?_ }
  intro other
  by_cases same : other = rc
  · subst same
    simp [Conn.setRefs, Conn.setRefCount]
  · simp [Conn.setRefs, Conn.setRefCount, same]

theorem dropImport (conn : Conn) (id : Nat) : conn.Fading (conn.setImport id none) := by
  refine { refl conn with imports := ?_ }
  intro other
  simp only [Conn.setImport, find_put]
  split
  · exact Or.inl rfl
  · exact Or.inr rfl

theorem dropDisembargo (conn : Conn) (id : Nat) (gen : IdGen) :
    conn.Fading { conn.setDisembargo id none with disembargoID := gen } := by
  refine { refl conn with disembargoes := ?_ }
  intro other
  simp only [Conn.setDisembargo, find_put]
  split
  · exact Or.inl rfl
  · exact Or.inr rfl

theorem clearQueue (conn : Conn) (a : Nat) :
    conn.Fading (conn.alterAnswer a fun entry => { entry with queue := [] }) := by
  refine { refl conn with done := ?_, ids := ?_, waiters := fun _ _ found _ => Or.inl found }
  · intro a' done
    by_cases same : a' = a
    · subst same
      simpa [Conn.alterAnswer] using done
    · simpa [Conn.alterAnswer, same] using done
  · intro a'
    by_cases same : a' = a
    · subst same
      simp [Conn.alterAnswer]
    · simp [Conn.alterAnswer, same]

end Conn.Fading

/-- Every import that is open has its place in the table. -/
def Conn.Held (conn : Conn) : Prop :=
  ∀ i id, (conn.client i).core = .importClient { id := id } →
    ∃ entry, find conn.imports id.id = some entry ∧ (conn.refCount entry.rc).client = i

def Conn.Embargoed (conn : Conn) : Prop :=
  ∀ i c, conn.client i = .importClient c → ∀ a call, .remote a call ∉ c.embargoQueue

theorem Conn.Fading.embargoed {after : Conn} (fades : conn.Fading after) (embargoed : conn.Embargoed) :
    after.Embargoed := by
  intro i c found a call member
  obtain ⟨earlier, shape, _, _, suffix⟩ := fades.imported i c found
  exact embargoed i earlier shape a call (suffix.subset member)

def Conn.Drained (conn : Conn) (i : Nat) : Prop := ∀ c, conn.client i = .importClient c → c.embargoQueue = []

theorem Conn.Fading.drained {after : Conn} (fades : conn.Fading after) {i : Nat} (drained : conn.Drained i) :
    after.Drained i := by
  intro c found
  obtain ⟨earlier, shape, _, _, suffix⟩ := fades.imported i c found
  rw [drained earlier shape] at suffix
  exact List.suffix_nil.mp suffix

/-- Calls that wait in the queue of an import stay there, or are rejected one after the other. -/
def Conn.Rejects (before after : Conn) : Prop :=
  ∃ said, after.trace = before.trace ++ said ∧ (before.Embargoed → ∀ i earlier c,
    before.client i = .importClient earlier → after.client i = .importClient c →
    c.embargoQueue = earlier.embargoQueue ∨
      ∃ reason, earlier.embargoQueue.filterMap (QueuedCall.rejection i reason) <:+: said)

def Conn.SameQueues (before after : Conn) : Prop :=
  ∀ i earlier c, before.client i = .importClient earlier → after.client i = .importClient c →
    c.embargoQueue = earlier.embargoQueue

theorem Conn.SameQueues.of_eq {before after : Conn} (same : after.client = before.client) :
    before.SameQueues after := by
  intro i earlier c found still
  rw [same, found] at still
  cases still
  rfl

theorem Conn.SameQueues.rejects {before after : Conn} (same : before.SameQueues after) {said : List Event}
    (trace : after.trace = before.trace ++ said) : before.Rejects after :=
  ⟨said, trace, fun _ i earlier c found still => Or.inl (same i earlier c found still)⟩

theorem Conn.Rejects.trans {first second third : Conn} (sooner : first.Rejects second)
    (later : second.Rejects third) (fades : first.Fading second) (last : second.Fading third) :
    first.Rejects third := by
  obtain ⟨said, trace, rejects⟩ := sooner
  obtain ⟨more, trace', rejects'⟩ := later
  refine ⟨said ++ more, by rw [trace', trace, List.append_assoc], ?_⟩
  intro embargoed i earlier c found still
  obtain ⟨middle, shape, _⟩ := last.imported i c still
  rcases rejects' (fades.embargoed embargoed) i middle c shape still with same | ⟨reason, block⟩
  · rw [same]
    exact (rejects embargoed i earlier middle found shape).imp_right fun ⟨reason, block⟩ =>
      ⟨reason, block.trans (List.prefix_append _ _).isInfix⟩
  · rcases rejects embargoed i earlier middle found shape with same | ⟨reason, block⟩
    · rw [same] at block
      exact Or.inr ⟨reason, block.trans (List.suffix_append _ _).isInfix⟩
    · exact Or.inr ⟨reason, block.trans (List.prefix_append _ _).isInfix⟩

structure Conn.Closing (before after : Conn) : Prop where
  fades : before.Fading after
  held : before.Held → after.Held
  drains : before.Embargoed → ∀ i, after.ClosedImport i → after.Drained i ∨ before.ClosedImport i
  rejects : before.Rejects after

namespace Conn.Closing

theorem refl (conn : Conn) : conn.Closing conn :=
  ⟨.refl conn, fun held => held, fun _ _ closed => Or.inr closed, (SameQueues.of_eq rfl).rejects (List.append_nil _).symm⟩

theorem of_same {before after : Conn} (fades : before.Fading after) (imports : after.imports = before.imports)
    (client : after.client = before.client) {said : List Event} (trace : after.trace = before.trace ++ said) :
    before.Closing after := by
  refine ⟨fades, ?_, ?_, (SameQueues.of_eq client).rejects trace⟩
  · intro held i id isOpen
    rw [client] at isOpen
    obtain ⟨entry, found, same⟩ := held i id isOpen
    exact ⟨entry, by rw [imports]; exact found, by rw [fades.refCounts]; exact same⟩
  · rintro _ i ⟨c, found, closed⟩
    exact Or.inr ⟨c, by rw [← client]; exact found, closed⟩

theorem trans {first second third : Conn} (sooner : first.Closing second) (later : second.Closing third) :
    first.Closing third := by
  refine ⟨sooner.fades.trans later.fades, fun held => later.held (sooner.held held), ?_,
    sooner.rejects.trans later.rejects sooner.fades later.fades⟩
  intro embargoed i closed
  rcases later.drains (sooner.fades.embargoed embargoed) i closed with drained | earlier
  · exact Or.inl drained
  · exact (sooner.drains embargoed i earlier).imp_left later.fades.drained

instance : IsPreorder Conn Conn.Closing where
  refl := refl
  trans _ _ _ := trans

theorem say (conn : Conn) (event : Event) : conn.Closing (conn.say event) := of_same (.say conn event) rfl rfl rfl

theorem send (conn : Conn) (message : RpcMessage) : conn.Closing (conn.send message) :=
  of_same (.send conn message) rfl rfl (List.append_nil _).symm

theorem alterQuestion (conn : Conn) (q : Nat) {change : Question → Question}
    (settles : (conn.question q).state ≠ .inProgress → (change (conn.question q)).state ≠ .inProgress) :
    conn.Closing (conn.alterQuestion q change) :=
  of_same (.alterQuestion conn q settles) rfl rfl (List.append_nil _).symm

theorem dropQuestion (conn : Conn) (id : Nat) : conn.Closing (conn.dropQuestion id) :=
  of_same (.dropQuestion conn id) rfl rfl (List.append_nil _).symm

theorem dropDisembargo (conn : Conn) (id : Nat) (gen : IdGen) :
    conn.Closing { conn.setDisembargo id none with disembargoID := gen } :=
  of_same (.dropDisembargo conn id gen) rfl rfl (List.append_nil _).symm

theorem clearQueue (conn : Conn) (a : Nat) :
    conn.Closing (conn.alterAnswer a fun entry => { entry with queue := [] }) :=
  of_same (.clearQueue conn a) rfl rfl (List.append_nil _).symm

theorem setClient (conn : Conn) (id : Nat) {client : Client}
    (imported : ∀ c, client = .importClient c → ∃ earlier, conn.client id = .importClient earlier ∧
      c.id = earlier.id ∧ c.closed = earlier.closed ∧ c.embargoQueue = earlier.embargoQueue) :
    conn.Closing (conn.setClient id client) := by
  have fades : conn.Fading (conn.setClient id client) := by
    apply Fading.setClient
    intro c same
    obtain ⟨earlier, shape, named, closes, queue⟩ := imported c same
    exact ⟨earlier, shape, named, fun closed => closes.trans closed, queue ▸ List.suffix_refl _⟩
  have continues : (conn.client id).Continues client := by
    intro c same
    obtain ⟨earlier, shape, named, closes, queue⟩ := imported c same
    refine ⟨earlier, shape, named, fun closed => closes.trans closed, fun _ _ member => queue ▸ member, ?_⟩
    intro closed some
    exact ⟨closes.symm.trans closed, fun none => some (queue.trans none)⟩
  refine ⟨fades, ?_, ?_, SameQueues.rejects ?_ (List.append_nil _).symm⟩
  · intro held i w isOpen
    apply held i w
    by_cases same : i = id
    · subst same
      exact continues.isOpen (by simpa [Conn.setClient] using isOpen)
    · simpa [Conn.setClient, same] using isOpen
  · rintro _ i ⟨c, found, closed⟩
    apply Or.inr
    by_cases same : i = id
    · subst same
      obtain ⟨earlier, shape, _, closes, _⟩ := imported c (by simpa [Conn.setClient] using found)
      exact ⟨earlier, shape, closes.symm.trans closed⟩
    · exact ⟨c, by simpa [Conn.setClient, same] using found, closed⟩
  · intro i before c found still
    by_cases same : i = id
    · subst same
      obtain ⟨earlier, shape, _, _, queue⟩ := imported c (by simpa [Conn.setClient] using still)
      cases found.symm.trans shape
      exact queue
    · have unchanged : conn.client i = .importClient c := by simpa [Conn.setClient, same] using still
      cases found.symm.trans unchanged
      rfl

theorem withClient (conn : Conn) {client : Client} (other : ∀ c, client ≠ .importClient c) :
    conn.Closing (conn.withClient client) := by
  have moved : conn.Closing (conn.setClient conn.objects client) :=
    setClient conn conn.objects fun c same => absurd same (other c)
  exact ⟨.withClient conn other, moved.held, moved.drains, moved.rejects⟩

theorem setRefs (conn : Conn) (rc : Nat) (refs : Int) : conn.Closing (conn.setRefs rc refs) :=
  of_same (.setRefs conn rc refs) rfl rfl (List.append_nil _).symm

end Conn.Closing

open Conn (Fading Closing)

theorem emit_closing (event : Event) : Moves Closing (emit event) := Moves.modify fun conn => .say conn event

theorem sendMessage_closing (message : RpcMessage) : Moves Closing (sendMessage message) :=
  Moves.modify fun conn => .send conn message

theorem newClient_closing {client : Client} (other : ∀ c, client ≠ .importClient c) : Moves Closing (newClient client) :=
  Moves.modifyGet fun conn => .withClient conn other

theorem findClient_closing (struct : Struct) (transform : Transform) : Moves Closing (findClient struct transform) := by
  apply Moves.get
  intro conn
  cases struct.content.capIndex transform with
  | error reason => exact Moves.throw _ conn
  | ok capId =>
      dsimp only
      cases capId.bind (conn.slot struct) with
      | some client => exact Moves.pure _ conn
      | none => exact newClient_closing (by nofun) conn

theorem clientFromResolution_closing (transform : Transform) (obj : Option Struct) (err : Option String) :
    Moves Closing (clientFromResolution transform obj err) := by
  cases err with
  | some reason => exact newClient_closing (by nofun)
  | none =>
      cases obj with
      | none => exact newClient_closing (by nofun)
      | some struct => exact findClient_closing struct transform

theorem attempt_ends {program : ConnM Unit} {ends : Conn → Prop}
    (meets : Meets program conn (fun _ after => ends after) fun _ after => ends after) :
    Meets (attempt program) conn (fun _ after => ends after) fun _ _ => False := by
  apply Meets.tryCatch
  apply Meets.bind
  exact meets.mono (fun _ _ ends => ends) fun _ _ ends => ends

theorem attempt_closing {program : ConnM Unit} (moves : Moves Closing program) : Moves Closing (attempt program) := by
  apply Moves.tryCatch
  · exact Moves.bind moves fun _ => Moves.pure _
  · intro error
    exact Moves.pure _

theorem attemptAll_closing {programs : List (ConnM Unit)} (moves : ∀ program ∈ programs, Moves Closing program) :
    Moves Closing (attemptAll programs) := by
  induction programs with
  | nil => exact Moves.pure _
  | cons program programs ih =>
      apply Moves.bind (attempt_closing (moves program (List.mem_cons_self ..)))
      intro first
      apply Moves.bind (ih fun other member => moves other (List.mem_cons_of_mem _ member))
      intro later
      exact Moves.pure _

theorem throwFirst_closing (error : Option RpcError) : Moves Closing (throwFirst error) := by
  cases error with
  | none => exact Moves.pure _
  | some error => exact Moves.throw _

theorem popQuestion_closing (id : Nat) : Moves Closing (popQuestion id) := by
  apply Moves.get
  intro conn
  cases conn.findQuestion id with
  | none => exact Moves.pure _ conn
  | some q => exact Closing.dropQuestion conn id

namespace Question

theorem leaveTable_closing (q : Nat) (tellPeer : Bool) : Moves Closing (leaveTable q tellPeer) := by
  apply Moves.get
  intro conn
  have pops : Moves Closing (popQuestion (conn.question q).id >>= fun _ => pure PUnit.unit) :=
    Moves.bind (popQuestion_closing _) fun _ => Moves.pure _
  cases conn.findQuestion (conn.question q).id with
  | none => exact Moves.pure _ conn
  | some _ =>
      cases tellPeer with
      | false => exact pops conn
      | true =>
          have finishes : Moves Closing (sendFinish q) := by
            apply Moves.get
            intro conn
            exact Moves.bind (emit_closing _) (fun _ => sendMessage_closing _) conn
          exact Moves.bind finishes (fun _ => pops) conn

theorem closePendingRoot_closing (q : Nat) : Moves Closing (closePendingRoot q) := by
  apply Moves.get
  intro conn
  split
  · apply Moves.follow (leaveTable_closing q true conn)
    intro _
    apply Moves.bind (Moves.modify fun conn => .alterQuestion conn q fun _ => nofun)
    intro _
    exact Moves.pure _
  · exact Moves.pure _ conn

end Question

/-- What `reject` on questions does: it settles them, one after the other. -/
structure Rejecting (before after : Conn) : Prop where
  only : after = { before with question := after.question }
  settled : ∀ q, before.Settled q → after.Settled q

theorem Rejecting.refl (conn : Conn) : Rejecting conn conn := ⟨rfl, fun _ settled => settled⟩

theorem Rejecting.trans {first second third : Conn} (sooner : Rejecting first second)
    (later : Rejecting second third) : Rejecting first third := by
  constructor
  · rw [later.only, sooner.only]
  · exact fun q settled => later.settled q (sooner.settled q settled)

theorem Question.reject_settles (q : Nat) (reason : String) :
    Meets (Question.reject q reason) conn (fun _ after => Rejecting conn after ∧ after.Settled q)
      fun _ after => after = conn ∧ conn.Settled q := by
  unfold Question.reject
  apply Meets.get
  split
  · refine ⟨⟨rfl, ?_⟩, ?_⟩
    · intro other settled
      unfold Conn.Settled Conn.alterQuestion at *
      by_cases same : other = q
      · subst same
        simp
      · simpa [same] using settled
    · simp [Conn.Settled, Conn.alterQuestion]
  · rename_i settled
    exact ⟨rfl, settled⟩

theorem rejectWaiters_settles {waiters : List Nat} (reason : String)
    (accounted : ∀ q ∈ waiters.tail, conn.Settled q) :
    Meets (waiters.forM fun q => Question.reject q reason) conn
      (fun _ after => Rejecting conn after ∧ ∀ q ∈ waiters, after.Settled q)
      fun _ after => Rejecting conn after ∧ ∀ q ∈ waiters, after.Settled q := by
  cases waiters with
  | nil => exact ⟨.refl conn, by simp⟩
  | cons first rest =>
      rw [List.forM_eq_forM, List.forM_cons]
      apply Meets.bind
      apply (Question.reject_settles first reason).mono
      · rintro _ middle ⟨rejecting, settled⟩
        have others : ∀ q ∈ rest, middle.Settled q := fun q member => rejecting.settled q (accounted q member)
        cases rest with
        | nil =>
            refine ⟨rejecting, ?_⟩
            intro q member
            cases List.mem_singleton.mp member
            exact settled
        | cons second rest =>
            rw [List.forM_cons]
            apply Meets.bind
            have all : ∀ q ∈ first :: second :: rest, middle.Settled q := by
              intro q member
              rcases List.mem_cons.mp member with rfl | member
              · exact settled
              · exact others q member
            have still : (middle.question second).state ≠ .inProgress := others second (List.mem_cons_self ..)
            have throws : Question.reject second reason middle =
                .error (.error "Question.reject called more than once") middle := by
              unfold Question.reject
              rw [bind_apply, get_apply]
              dsimp only
              rw [if_neg still]
              rfl
            unfold Meets
            rw [throws]
            exact ⟨rejecting, all⟩
      · rintro _ _ ⟨rfl, settled⟩
        refine ⟨.refl _, ?_⟩
        intro q member
        rcases List.mem_cons.mp member with rfl | member
        · exact settled
        · exact accounted q member

instance : IsPreorder Conn Rejecting where
  refl := Rejecting.refl
  trans _ _ _ := Rejecting.trans

theorem rejectWaiters_rejects (waiters : List Nat) (reason : String) :
    Meets (waiters.forM fun q => Question.reject q reason) conn
      (fun _ after => Rejecting conn after ∧
        ((∀ q ∈ waiters.tail, conn.Settled q) → ∀ q ∈ waiters, after.Settled q))
      fun _ after => Rejecting conn after ∧
        ((∀ q ∈ waiters.tail, conn.Settled q) → ∀ q ∈ waiters, after.Settled q) := by
  by_cases accounted : ∀ q ∈ waiters.tail, conn.Settled q
  · apply (rejectWaiters_settles reason accounted).mono
    · rintro _ after ⟨rejecting, settled⟩
      exact ⟨rejecting, fun _ => settled⟩
    · rintro _ after ⟨rejecting, settled⟩
      exact ⟨rejecting, fun _ => settled⟩
  · have rejects : Moves Rejecting (waiters.forM fun q => Question.reject q reason) := by
      apply Moves.forM
      intro q _ conn
      apply (Question.reject_settles q reason).mono
      · rintro _ after ⟨rejecting, _⟩
        exact rejecting
      · rintro _ after ⟨rfl, _⟩
        exact .refl _
    apply (rejects conn).mono
    · intro _ after rejecting
      exact ⟨rejecting, fun absurd_ => absurd absurd_ accounted⟩
    · intro _ after rejecting
      exact ⟨rejecting, fun absurd_ => absurd absurd_ accounted⟩

theorem Conn.Closing.of_rejecting {a : Nat} {reason : String} {after : Conn} (isOpen : (conn.answer a).done = false)
    {slots : List (Option (List Nat))}
    (rejecting : Rejecting
      { conn.alterAnswer a (AnswerEntry.rejected reason) with
        tailAnswerWaiters := slots } after)
    (kept : ∀ id ≠ (conn.answer a).id.id, find slots id = find conn.tailAnswerWaiters id)
    (taken : ∀ waiters, find conn.tailAnswerWaiters (conn.answer a).id.id = some waiters →
      (∀ q ∈ waiters.tail, conn.Settled q) →
      find slots (conn.answer a).id.id = some waiters ∨ ∀ q ∈ waiters, after.Settled q)
    (shrinks : ∀ id, find slots id = none ∨ find slots id = find conn.tailAnswerWaiters id) :
    conn.Closing after := by
  obtain ⟨only, settled⟩ := rejecting
  obtain ⟨question, same⟩ : ∃ question, after =
    { conn.alterAnswer a (AnswerEntry.rejected reason) with
      tailAnswerWaiters := slots, question := question } := ⟨_, only⟩
  subst same
  refine .of_same { Fading.refl conn with settled := settled, done := ?_, ids := ?_, waiting := shrinks, waiters := ?_ }
    rfl rfl (List.append_nil _).symm
  · intro a' done
    have other : a' ≠ a := by
      intro same
      rw [same, isOpen] at done
      cases done
    simpa [Conn.alterAnswer, other] using done
  · intro a'
    by_cases same : a' = a
    · subst same
      simp [Conn.alterAnswer, AnswerEntry.rejected]
    · simp [Conn.alterAnswer, same]
  · intro id waiters found accounted
    by_cases own : id = (conn.answer a).id.id
    · subst own
      rcases accounted with done | later
      · rw [done a rfl] at isOpen
        cases isOpen
      · exact taken waiters found later
    · exact Or.inl ((kept id own).trans found)

theorem rejectOpen_closing {a : Nat} (reason : String) (isOpen : (conn.answer a).done = false) :
    Meets (do
      alterAnswer a (AnswerEntry.rejected reason)
      rejectTailAnswerWaiters (conn.answer a).id.id reason) conn (fun _ after => conn.Closing after)
      fun _ after => conn.Closing after := by
  apply Meets.bind
  change Meets (rejectTailAnswerWaiters (conn.answer a).id.id reason)
    (conn.alterAnswer a (AnswerEntry.rejected reason)) _ _
  unfold rejectTailAnswerWaiters takeTailAnswerWaiters
  apply Meets.bind
  apply Meets.get
  cases found : find conn.tailAnswerWaiters (conn.answer a).id.id with
  | none =>
      have absent : find (conn.alterAnswer a (AnswerEntry.rejected reason)).tailAnswerWaiters (conn.answer a).id.id = none := found
      rw [absent]
      apply Closing.of_rejecting isOpen (.refl _) (fun _ _ => rfl)
      · intro waiters here _
        exact Or.inl here
      · exact fun _ => Or.inr rfl
  | some waiters =>
      have present : find (conn.alterAnswer a (AnswerEntry.rejected reason)).tailAnswerWaiters (conn.answer a).id.id =
            some waiters := found
      rw [present]
      have closing : ∀ after, Rejecting
          { conn.alterAnswer a (AnswerEntry.rejected reason) with
            tailAnswerWaiters := put conn.tailAnswerWaiters (conn.answer a).id.id none } after ∧
            ((∀ q ∈ waiters.tail, conn.Settled q) → ∀ q ∈ waiters, after.Settled q) → conn.Closing after := by
        rintro after ⟨rejecting, settles⟩
        apply Closing.of_rejecting isOpen rejecting
        · intro id other
          exact find_put_other _ _ other
        · intro here same accounted
          cases found.symm.trans same
          exact Or.inr (settles accounted)
        · intro id
          rw [find_put]
          split
          · exact Or.inl rfl
          · exact Or.inr rfl
      exact (rejectWaiters_rejects waiters reason).mono (fun _ after => closing after) fun _ after => closing after

namespace AnswerEntry

theorem reject_closing (depth a : Nat) (reason : String) : Moves Closing (reject depth a reason) := by
  induction depth generalizing a with
  | zero => exact Moves.throw _
  | succ depth ih =>
      apply Moves.get
      intro conn
      cases isOpen : (conn.answer a).done with
      | true => exact Moves.throw _ conn
      | false =>
          have rest : Moves Closing (do
              sendMessage (.ret (conn.answer a).id false false (.exception reason))
              let firstErr ← attemptAll ((conn.answer a).queue.map fun pc => reject depth pc.answer reason)
              alterAnswer a fun entry => { entry with queue := [] }
              throwFirst firstErr) := by
            apply Moves.bind (sendMessage_closing _)
            intro _
            apply Moves.bind
            · apply attemptAll_closing
              intro program member
              obtain ⟨pc, _, rfl⟩ := List.mem_map.mp member
              exact ih pc.answer
            · intro firstErr
              apply Moves.bind (Moves.modify fun conn => .clearQueue conn a)
              intro _
              exact throwFirst_closing firstErr
          exact Moves.follow_bind (rejectOpen_closing reason isOpen) fun _ => rest

end AnswerEntry

theorem rejectCall_closing (owner : Nat) (reason : String) (slot : QueuedCall) :
    Moves Closing (rejectCall owner reason slot) := by
  cases slot with
  | fromHere call => exact emit_closing _
  | remote a call =>
      apply Moves.get
      intro conn
      exact AnswerEntry.reject_closing conn.stack a reason conn

/-- What taking calls out of a queue does, if it says nothing of them. -/
structure Conn.Loosing (before after : Conn) : Prop where
  fades : before.Fading after
  held : before.Held → after.Held
  trace : ∃ said, after.trace = before.trace ++ said

theorem Conn.Closing.loosing {before after : Conn} (closing : before.Closing after) : before.Loosing after :=
  ⟨closing.fades, closing.held, closing.rejects.imp fun _ rejects => rejects.1⟩

instance : IsPreorder Conn Conn.Loosing where
  refl conn := (Closing.refl conn).loosing
  trans _ _ _ sooner later := by
    obtain ⟨said, trace⟩ := sooner.trace
    obtain ⟨more, trace'⟩ := later.trace
    exact ⟨sooner.fades.trans later.fades, fun held => later.held (sooner.held held),
      said ++ more, by rw [trace', trace, List.append_assoc]⟩

def Conn.Imports (conn : Conn) (owner : Nat) : Prop := ∃ c, conn.client owner = .importClient c

theorem Conn.Fading.wasImport {before after : Conn} (fades : before.Fading after) {owner : Nat}
    (imports : after.Imports owner) : before.Imports owner := by
  obtain ⟨c, found⟩ := imports
  obtain ⟨earlier, shape, _⟩ := fades.imported owner c found
  exact ⟨earlier, shape⟩

theorem popCall_loosing (owner : Nat) : Moves Conn.Loosing (popCall owner) := by
  apply Moves.modify
  intro conn
  have shape : ∀ c, (conn.client owner).setCalls (conn.client owner).calls.tail = .importClient c →
      ∃ earlier, conn.client owner = .importClient earlier ∧
        c = { earlier with embargoQueue := earlier.embargoQueue.tail } := by
    intro c same
    cases found : conn.client owner with
    | importClient earlier =>
        rw [found] at same
        cases same
        exact ⟨earlier, rfl, rfl⟩
    | _ =>
        rw [found] at same
        cases same
  refine ⟨Fading.setClient conn owner ?_, ?_, [], (List.append_nil _).symm⟩
  · intro c same
    obtain ⟨earlier, found, rfl⟩ := shape c same
    exact ⟨earlier, found, rfl, fun closed => closed, List.tail_suffix _⟩
  · intro held i w isOpen
    apply held i w
    by_cases same : i = owner
    · subst same
      simpa [Conn.setClient, Client.core_setCalls] using isOpen
    · simpa [Conn.setClient, same] using isOpen

/-- Closing, but for the queue of this client if it is an import. -/
def Conn.ClosingBeside (owner : Nat) (before after : Conn) : Prop := ¬before.Imports owner → before.Closing after

instance (owner : Nat) : IsPreorder Conn (Conn.ClosingBeside owner) where
  refl conn _ := .refl conn
  trans _ _ _ sooner later other := by
    have first := sooner other
    exact first.trans (later fun imports => other (first.fades.wasImport imports))

theorem popCall_closing (owner : Nat) : Moves (Conn.ClosingBeside owner) (popCall owner) := by
  apply Moves.modify
  intro conn other
  apply Closing.setClient
  intro c same
  cases shape : conn.client owner with
  | importClient earlier => exact absurd ⟨earlier, shape⟩ other
  | _ =>
      rw [shape] at same
      cases same

theorem rejectAll_closing (owner : Nat) (reason : String) : Moves Closing (rejectAll owner reason) := by
  intro conn
  by_cases imports : conn.Imports owner
  · by_cases embargoed : conn.Embargoed
    · obtain ⟨c, shape⟩ := imports
      unfold Meets
      rw [rejectAll_embargoed reason shape (embargoed owner c shape)]
      refine ⟨(Fading.setClient conn owner ?_).trans { Fading.refl _ with }, ?_, ?_, _, rfl, ?_⟩
      · rintro _ ⟨⟩
        exact ⟨c, shape, rfl, fun closed => closed, List.nil_suffix⟩
      · intro held i w isOpen
        apply held i w
        by_cases same : i = owner
        · subst same
          rw [shape]
          simpa [Conn.setClient, Conn.sayRejected, Client.core] using isOpen
        · simpa [Conn.setClient, Conn.sayRejected, same] using isOpen
      · rintro _ i ⟨c', found, closed⟩
        by_cases same : i = owner
        · subst same
          have emptied : { c with embargoQueue := [] } = c' := by
            simpa [Conn.setClient, Conn.sayRejected] using found
          refine Or.inr ⟨c, shape, ?_⟩
          rw [← emptied] at closed
          exact closed
        · exact Or.inr ⟨c', by simpa [Conn.setClient, Conn.sayRejected, same] using found, closed⟩
      · intro _ i earlier c' found still
        by_cases same : i = owner
        · subst same
          cases found.symm.trans shape
          exact Or.inr ⟨reason, List.infix_refl _⟩
        · have unchanged : conn.client i = .importClient c' := by
            simpa [Conn.setClient, Conn.sayRejected, same] using still
          cases found.symm.trans unchanged
          exact Or.inl rfl
    · have rejects : Moves Conn.Loosing (rejectAll owner reason) := by
        apply Moves.get
        intro conn
        refine Moves.forM ?_ conn
        intro slot _
        apply Moves.bind
        · exact fun conn => (rejectCall_closing owner reason slot conn).mono
            (fun _ _ closing => closing.loosing) fun _ _ closing => closing.loosing
        · exact fun _ => popCall_loosing owner
      have ends : ∀ after, conn.Loosing after → conn.Closing after := by
        rintro after ⟨fades, held, said, trace⟩
        exact ⟨fades, held, fun still => absurd still embargoed, said, trace, fun still => absurd still embargoed⟩
      exact (rejects conn).mono (fun _ => ends) fun _ => ends
  · have rejects : Moves (Conn.ClosingBeside owner) (rejectAll owner reason) := by
      apply Moves.get
      intro conn
      refine Moves.forM ?_ conn
      intro slot _
      apply Moves.bind
      · exact fun conn => (rejectCall_closing owner reason slot conn).mono
          (fun _ _ closing _ => closing) fun _ _ closing _ => closing
      · exact fun _ => popCall_closing owner
    exact (rejects conn).mono (fun _ after closing => closing imports) fun _ after closing => closing imports

theorem clearDisembargo_closing (client : Nat) : Moves Closing (clearDisembargo client) := by
  apply Moves.modify
  intro conn
  unfold Conn.clearDisembargo
  generalize List.range conn.disembargoes.length = ids
  induction ids generalizing conn with
  | nil => exact .refl conn
  | cons id ids ih =>
      rw [List.foldl_cons]
      apply Closing.trans ?_ (ih _)
      unfold Conn.clearDisembargoAt
      split
      · exact .dropDisembargo conn id _
      · exact .refl conn

def Conn.Vacant (conn : Conn) (id : Nat) : Prop :=
  ∀ i w, (conn.client i).core = .importClient { id := w } → w.id ≠ id

theorem Conn.Fading.vacant {before after : Conn} (fading : before.Fading after) {id : Nat}
    (vacant : before.Vacant id) : after.Vacant id := by
  intro i w isOpen
  obtain ⟨c, shape, named, unclosed⟩ := Client.core_importClient (c := { id := w }) isOpen
  obtain ⟨earlier, shape', same, closes, _⟩ := fading.imported i c shape
  apply vacant i w
  have wasOpen : earlier.closed = false := by
    cases shut : earlier.closed with
    | false => rfl
    | true => exact absurd (closes shut) (by rw [unclosed]; exact Bool.false_ne_true)
  simp [shape', Client.core, wasOpen, ← same, named]

structure Conn.Releasing (before after : Conn) (id : Nat) : Prop where
  fades : before.Fading after
  held : before.Vacant id → before.Held → after.Held
  drains : before.Embargoed → ∀ i, after.ClosedImport i → after.Drained i ∨ before.ClosedImport i
  rejects : before.Rejects after

theorem Conn.Closing.releasing {after : Conn} (closing : conn.Closing after) (id : Nat) : conn.Releasing after id :=
  ⟨closing.fades, fun _ => closing.held, closing.drains, closing.rejects⟩

theorem Conn.Closing.release {before cleared : Conn} (closing : before.Closing cleared) (id : Nat) :
    before.Releasing (cleared.setImport id none) id := by
  have dropped : cleared.Fading (cleared.setImport id none) := .dropImport cleared id
  refine ⟨closing.fades.trans dropped, ?_, closing.drains, closing.rejects⟩
  intro vacant held i w isOpen
  obtain ⟨entry, found, client⟩ := closing.held held i w isOpen
  refine ⟨entry, ?_, client⟩
  simp only [Conn.setImport]
  rw [find_put_other _ _ (closing.fades.vacant vacant i w isOpen)]
  exact found

theorem Conn.Releasing.send {after : Conn} {id : Nat} (releasing : conn.Releasing after id) (message : RpcMessage) :
    conn.Releasing (after.send message) id :=
  ⟨releasing.fades.trans (.send after message), releasing.held, releasing.drains, releasing.rejects⟩

theorem releaseImportAll_closing (id : Nat) :
    Meets (releaseImportAll id) conn (fun _ after => conn.Releasing after id)
      fun _ after => conn.Releasing after id := by
  apply Meets.get
  cases found : find conn.imports id with
  | none => exact (Closing.refl conn).releasing id
  | some entry =>
      apply Meets.get
      rw [found]
      dsimp only
      split
      · exact (Closing.refl conn).releasing id
      · rename_i counted
        rw [if_neg (by omega)]
        apply Meets.bind
        apply (clearDisembargo_closing _ conn).mono
        · intro _ cleared closing
          apply Meets.bind
          change Meets (if _ then sendMessage _ else pure _) (cleared.setImport id none) _ _
          split
          · exact (closing.release id).send _
          · exact closing.release id
        · intro _ cleared closing
          exact closing.releasing id

section Closing

variable {closeNext : Nat → ConnM Unit}

theorem closeResolution_closing (fades : ∀ client, Moves Closing (closeNext client)) (transform : Transform)
    (obj : Option Struct) (err : Option String) : Moves Closing (closeResolution closeNext transform obj err) :=
  Moves.bind (clientFromResolution_closing transform obj err) fades

theorem closeOptional_closing (fades : ∀ client, Moves Closing (closeNext client)) (client : Option Nat) :
    Moves Closing (closeOptional closeNext client) := by
  cases client with
  | none => exact Moves.pure _
  | some client => exact fades client

theorem pipelineClose_closing (fades : ∀ client, Moves Closing (closeNext client)) (q : Nat) (transform : Transform) :
    Moves Closing (pipelineClose closeNext q transform) := by
  have closes : ∀ obj err, Moves Closing
      (attempt (closeResolution closeNext transform obj err) >>= fun _ => pure PUnit.unit) := by
    intro obj err
    exact Moves.bind (attempt_closing (closeResolution_closing fades transform obj err)) fun _ => Moves.pure _
  have closesRoot : Moves Closing (Question.closePendingRoot q >>= fun _ => pure PUnit.unit) :=
    Moves.bind (Question.closePendingRoot_closing q) fun _ => Moves.pure _
  apply Moves.get
  intro conn
  split
  · split
    · split
      · split
        · exact closesRoot conn
        · exact closes _ _ conn
      · exact Closing.alterQuestion conn q fun settled => settled
    · refine Moves.follow ?_ ?_
      · exact Closing.alterQuestion conn q fun settled => settled
      intro _
      apply Moves.get
      intro conn
      split
      · split
        · exact closesRoot conn
        · exact Moves.pure _ conn
      · exact closes _ _ conn
  · split
    · exact Moves.pure _ conn
    · exact closes _ _ conn

end Closing

section CloseImport

variable {closeNext : Nat → ConnM Unit} {client : Nat} {c : ImportClient}

theorem markClosed_fades (shape : conn.client client = .importClient c) :
    conn.Fading (conn.setClient client (.importClient { c with closed := true })) := by
  apply Fading.setClient
  intro c' same
  cases same
  exact ⟨c, shape, rfl, fun _ => rfl, List.suffix_refl _⟩

theorem markClosed_sameQueues (shape : conn.client client = .importClient c) :
    conn.SameQueues (conn.setClient client (.importClient { c with closed := true })) := by
  intro i earlier c' found still
  by_cases same : i = client
  · subst same
    cases found.symm.trans shape
    have closed : { c with closed := true } = c' := by simpa [Conn.setClient] using still
    rw [← closed]
  · have unchanged : conn.client i = .importClient c' := by simpa [Conn.setClient, same] using still
    cases found.symm.trans unchanged
    rfl

theorem markClosed_held (held : conn.Held) :
    (conn.setClient client (.importClient { c with closed := true })).Held := by
  intro i w isOpen
  apply held i w
  by_cases same : i = client
  · subst same
    simp [Conn.setClient, Client.core] at isOpen
  · simpa [Conn.setClient, same] using isOpen

theorem markClosed_vacant (shape : conn.client client = .importClient c) (isOpen : c.closed = false)
    (held : conn.Held) : (conn.setClient client (.importClient { c with closed := true })).Vacant c.id.id := by
  intro i w opened named
  by_cases same : i = client
  · subst same
    simp [Conn.setClient, Client.core] at opened
  · obtain ⟨entry, found, other⟩ := held i w (by simpa [Conn.setClient, same] using opened)
    obtain ⟨own, foundOwn, itself⟩ := held client c.id (by simp [shape, Client.core, isOpen])
    rw [named, foundOwn] at found
    cases found
    exact same (other.symm.trans itself)

theorem markClosed_closes {i : Nat} (other : i ≠ client)
    (closed : (conn.setClient client (.importClient { c with closed := true })).ClosedImport i) : conn.ClosedImport i := by
  obtain ⟨c', found, closed⟩ := closed
  exact ⟨c', by simpa [Conn.setClient, other] using found, closed⟩

/-- What comes after an import is marked as closed and before its place is given up. -/
def emptyImport (closeNext : Nat → ConnM Unit) (client : Nat) (resolved : Option Nat) : ConnM Unit := do
  rejectAll client RPC_IMPORT_CLOSED
  modify fun conn => conn.setClient client (conn.client client).withoutEmbargo
  closeOptional closeNext resolved

theorem dropEmbargo_closing (client : Nat) : Moves Closing
    (modify fun conn => conn.setClient client (conn.client client).withoutEmbargo : ConnM PUnit) := by
  apply Moves.modify
  intro conn
  apply Closing.setClient
  intro c' same
  cases found : conn.client client with
  | importClient earlier =>
      rw [found] at same
      cases same
      exact ⟨earlier, rfl, rfl, rfl, rfl⟩
  | _ =>
      rw [found] at same
      cases same

theorem emptyImport_closing (closing : ∀ client, Moves Closing (closeNext client)) (client : Nat)
    (resolved : Option Nat) : Moves Closing (emptyImport closeNext client resolved) := by
  apply Moves.bind (rejectAll_closing client _)
  intro _
  apply Moves.bind (dropEmbargo_closing client)
  intro _
  exact closeOptional_closing closing resolved

theorem emptyImport_drains (closing : ∀ client, Moves Closing (closeNext client)) (resolved : Option Nat)
    (shape : conn.client client = .importClient c) (embargoed : conn.Embargoed) :
    Meets (emptyImport closeNext client resolved) conn (fun _ after => after.Drained client)
      fun _ after => after.Drained client := by
  let emptied := (conn.setClient client (.importClient { c with embargoQueue := [] })).sayRejected client
    RPC_IMPORT_CLOSED c.embargoQueue
  have empties : rejectAll client RPC_IMPORT_CLOSED conn = .ok () emptied :=
    rejectAll_embargoed RPC_IMPORT_CLOSED shape (embargoed client c shape)
  have drained : emptied.Drained client := by
    intro c' same
    have empty : emptied.client client = .importClient { c with embargoQueue := [] } := by
      simp [emptied, Conn.setClient, Conn.sayRejected]
    cases empty.symm.trans same
    rfl
  have rest : Moves Closing (do
      modify fun conn => conn.setClient client (conn.client client).withoutEmbargo
      closeOptional closeNext resolved) := by
    apply Moves.bind (dropEmbargo_closing client)
    intro _
    exact closeOptional_closing closing resolved
  apply Meets.bind
  unfold Meets
  rw [empties]
  apply (rest emptied).mono
  · intro _ after later
    exact later.fades.drained drained
  · intro _ after later
    exact later.fades.drained drained

theorem closeImport_closing (closing : ∀ client, Moves Closing (closeNext client))
    (shape : conn.client client = .importClient c) (isOpen : c.closed = false) :
    Meets (do
      setClient client (.importClient { c with closed := true })
      rejectAll client RPC_IMPORT_CLOSED
      modify fun conn => conn.setClient client (conn.client client).withoutEmbargo
      closeOptional closeNext c.resolved
      releaseImportAll c.id.id) conn (fun _ after => conn.Closing after) fun _ after => conn.Closing after := by
  let marked := conn.setClient client (.importClient { c with closed := true })
  have found : marked.client client = .importClient { c with closed := true } := by
    simp [marked, Conn.setClient]
  have marks : conn.Fading marked := markClosed_fades shape
  have drains : Meets (emptyImport closeNext client c.resolved) marked
      (fun _ after => conn.Embargoed → after.Drained client) fun _ after => conn.Embargoed → after.Drained client := by
    by_cases embargoed : conn.Embargoed
    · apply (emptyImport_drains closing c.resolved found (marks.embargoed embargoed)).mono
      · exact fun _ _ drained _ => drained
      · exact fun _ _ drained _ => drained
    · apply (emptyImport_closing closing client c.resolved marked).mono
      · exact fun _ _ _ absurd_ => absurd absurd_ embargoed
      · exact fun _ _ _ absurd_ => absurd absurd_ embargoed
  have marking : conn.Rejects marked := (markClosed_sameQueues shape).rejects (List.append_nil _).symm
  have ends : ∀ {emptied after : Conn}, marked.Closing emptied ∧ (conn.Embargoed → emptied.Drained client) →
      emptied.Fading after → (conn.Held → after.Held) →
      (emptied.Embargoed → ∀ i, after.ClosedImport i → after.Drained i ∨ emptied.ClosedImport i) → emptied.Rejects after →
      conn.Closing after := by
    rintro emptied after ⟨emptying, drained⟩ fades held closes rejects
    refine ⟨(marks.trans emptying.fades).trans fades, held, ?_,
      (marking.trans emptying.rejects marks emptying.fades).trans rejects (marks.trans emptying.fades) fades⟩
    intro embargoed i closed
    by_cases same : i = client
    · subst same
      exact Or.inl (fades.drained (drained embargoed))
    · rcases closes (emptying.fades.embargoed (marks.embargoed embargoed)) i closed with empty | earlier
      · exact Or.inl empty
      · rcases emptying.drains (marks.embargoed embargoed) i earlier with empty | earlier
        · exact Or.inl (fades.drained empty)
        · exact Or.inr (markClosed_closes same earlier)
  have grouped : (do
      rejectAll client RPC_IMPORT_CLOSED
      modify fun conn => conn.setClient client (conn.client client).withoutEmbargo
      closeOptional closeNext c.resolved
      releaseImportAll c.id.id : ConnM Unit) =
        (emptyImport closeNext client c.resolved >>= fun _ => releaseImportAll c.id.id) := by
    simp only [emptyImport, bind_assoc]
  apply Meets.bind
  change Meets _ marked _ _
  rw [grouped]
  apply Meets.bind
  apply ((emptyImport_closing closing client c.resolved marked).and drains).mono
  · intro _ emptied emptying
    have released : ∀ after, emptied.Releasing after c.id.id → conn.Closing after := by
      intro after releasing
      refine ends emptying releasing.fades ?_ releasing.drains releasing.rejects
      intro held
      exact releasing.held (emptying.1.fades.vacant (markClosed_vacant shape isOpen held))
        (emptying.1.held (markClosed_held held))
    exact (releaseImportAll_closing c.id.id).mono (fun _ => released) fun _ => released
  · intro _ emptied emptying
    exact ends emptying (.refl emptied) (fun held => emptying.1.held (markClosed_held held))
      (fun _ _ closed => Or.inr closed) (Closing.refl emptied).rejects

end CloseImport

theorem closeClient_closing (depth client : Nat) : Moves Closing (closeClient depth client) := by
  induction depth generalizing client with
  | zero => exact Moves.throw _
  | succ depth ih =>
      apply Moves.get
      intro conn
      cases shape : conn.client client with
      | server methods => exact Moves.pure _ conn
      | error reason => exact Moves.pure _ conn
      | other => exact Moves.pure _ conn
      | null => exact Moves.throw _ conn
      | ref rc closed =>
          cases closed with
          | true => exact Moves.pure _ conn
          | false =>
              have marks : Moves Closing (setClient client (.ref rc true)) :=
                Moves.modify fun conn => .setClient conn client nofun
              apply Moves.follow (marks conn)
              intro _
              apply Moves.bind (Moves.modify fun conn => .setRefs conn rc _)
              intro _
              split
              · exact ih _
              · exact Moves.pure _
      | importClient c =>
          dsimp only
          split
          · exact Moves.pure _ conn
          · rename_i isOpen
            exact closeImport_closing ih shape (Bool.eq_false_iff.mpr isOpen)
      | pipeline q transform => exact pipelineClose_closing ih q transform conn
      | fixedPipeline answer transform =>
          cases answer with
          | error reason => exact Moves.throw _ conn
          | ok struct => exact Moves.bind (findClient_closing struct transform) ih conn
      | localAnswer a transform =>
          dsimp only
          split
          · exact closeResolution_closing ih transform _ _ conn
          · exact Moves.pure _ conn
      | promiseExport c =>
          dsimp only
          split
          · exact Moves.pure _ conn
          · have marks : Moves Closing (setClient client (.promiseExport { c with closed := true })) :=
              Moves.modify fun conn => .setClient conn client nofun
            apply Moves.follow (marks conn)
            intro _
            apply Moves.bind (closeOptional_closing ih c.resolved)
            intro _
            exact rejectAll_closing client _
      | queue c => exact Moves.bind (rejectAll_closing client _) (fun _ => ih c.client) conn

theorem close_closing (client : Nat) : Moves Closing (close client) := by
  apply Moves.get
  intro conn
  exact closeClient_closing conn.stack client conn

end CapnpEs.Rpc
