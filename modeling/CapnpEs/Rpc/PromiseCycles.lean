import CapnpEs.Library.Transition
import CapnpEs.Rpc.RefinementActions

/-! The Resolve of a promise export, and whether it names that very export: the search for an export of the
capability looks through the promise that has just been resolved. -/

namespace CapnpEs.Rpc

open Relation SlotTable Outcome

variable {conn : Conn} {hand : Hand}

/-- An export stands for a client, as the identity check sees it. -/
def Conn.Denotes (conn : Conn) (i client : Nat) : Prop :=
  ∃ e, conn.findExport i = some e ∧ conn.isSameClient (conn.refCount e.rc).client client = true

theorem Conn.denotes_iff (conn : Conn) (i client : Nat) :
    conn.Denotes i client ↔ (match conn.findExport i with
      | some e => conn.isSameClient (conn.refCount e.rc).client client
      | none => false) = true := by
  unfold Denotes
  cases conn.findExport i with
  | none => simp
  | some e => simp

theorem Conn.Denotes.lt {i client : Nat} (denotes : conn.Denotes i client) : i < conn.exports.length := by
  obtain ⟨e, found, _⟩ := denotes
  exact lt_length_of_find found

theorem Conn.exportOf_eq_some {i client : Nat} :
    conn.exportOf client = some i ↔ conn.Denotes i client ∧ ∀ j < i, ¬ conn.Denotes j client := by
  unfold Conn.exportOf
  rw [List.find?_range_eq_some]
  constructor
  · rintro ⟨denotes, _, least⟩
    constructor
    · exact (conn.denotes_iff i client).mpr denotes
    · intro j below denotes
      have matched := (conn.denotes_iff j client).mp denotes
      have rejected := least j below
      rw [Bool.not_eq_true'] at rejected
      exact Bool.noConfusion (matched.symm.trans rejected)
  · rintro ⟨denotes, least⟩
    refine ⟨(conn.denotes_iff i client).mp denotes, List.mem_range.mpr denotes.lt, ?_⟩
    intro j below
    rw [Bool.not_eq_true', ← Bool.not_eq_true]
    exact fun matched => least j below ((conn.denotes_iff j client).mpr matched)

theorem Conn.exportOf_eq_none {client : Nat} : conn.exportOf client = none ↔ ∀ i, ¬ conn.Denotes i client := by
  unfold Conn.exportOf
  rw [List.find?_eq_none]
  constructor
  · intro rejected i denotes
    exact rejected i (List.mem_range.mpr denotes.lt) ((conn.denotes_iff i client).mp denotes)
  · intro none i _ matched
    exact none i ((conn.denotes_iff i client).mpr matched)

/-- The number that a client is exported under: the first export that stands for it, or else the next number. -/
inductive Conn.ExportsAs (conn : Conn) (client : Nat) : Nat → Prop
  | first {i : Nat} (denotes : conn.Denotes i client) (least : ∀ j < i, ¬ conn.Denotes j client) :
      ExportsAs conn client i
  | fresh (none : ∀ i, ¬ conn.Denotes i client) : ExportsAs conn client conn.exportID.next.1

theorem Conn.ExportsAs.unique {client i j : Nat} (first : conn.ExportsAs client i)
    (second : conn.ExportsAs client j) : i = j := by
  cases first with
  | first denotes least =>
      cases second with
      | first denotes' least' =>
          rcases Nat.lt_trichotomy i j with below | same | above
          · exact absurd denotes (least' i below)
          · exact same
          · exact absurd denotes' (least j above)
      | fresh none => exact absurd denotes (none i)
  | fresh none =>
      cases second with
      | first denotes least => exact absurd denotes (none j)
      | fresh none' => rfl

variable (conn) in
theorem addExport_exportsAs (client : Nat) : ∃ id after, addExport client conn = .ok id after ∧
    conn.ExportsAs client id.id ∧ after.sent = conn.sent ∧ after.transportClosed = conn.transportClosed := by
  rw [addExport, Outcome.bind_apply, Outcome.get_apply]
  dsimp only
  cases same : conn.exportOf client with
  | none =>
      refine ⟨conn.nextExport, conn.withExport client, createExport_run client, ?_, ?_, ?_⟩
      · exact .fresh (Conn.exportOf_eq_none.mp same)
      · rw [Conn.withExport_eq]
      · rw [Conn.withExport_eq]
  | some i =>
      obtain ⟨denotes, least⟩ := Conn.exportOf_eq_some.mp same
      obtain ⟨e, found, matched⟩ := denotes
      dsimp only
      rw [found]
      exact ⟨⟨i, e.rc⟩, conn.retainExport i e, rfl, .first ⟨e, found, matched⟩ least, rfl, rfl⟩

theorem dig_not_hosted (fuel client : Nat) :
    Meets (dig fuel client) conn (fun found _ => ∀ id, found ≠ some (.senderHosted id)) fun _ _ => True := by
  induction fuel generalizing conn client with
  | zero => trivial
  | succ fuel ih =>
      have next : ∀ {program : ConnM Nat}, Meets (program >>= dig fuel) conn
          (fun found _ => ∀ id, found ≠ some (.senderHosted id)) fun _ _ => True := by
        intro program
        apply Meets.bind
        unfold Meets
        cases program conn with
        | ok value after => exact ih value
        | error error after => trivial
      apply Meets.get
      cases shape : conn.client client with
      | ref rc closed => exact ih _
      | importClient c =>
          intro id found
          cases found
      | fixedPipeline answer transform => exact next
      | pipeline q transform =>
          dsimp only
          split
          · split
            · intro id found
              cases found
            · apply Meets.bind
              unfold Meets
              cases addExportPromise q transform conn with
              | ok id after =>
                  intro id' found
                  cases found
              | error error after => trivial
          · exact next
      | _ =>
          intro id found
          cases found

def resolves (sent : List RpcMessage) : List RpcMessage := sent.filter RpcMessage.isResolve

theorem resolves_send (conn : Conn) {message : RpcMessage} (other : message.isResolve = false) :
    resolves (conn.send message).sent = resolves conn.sent := by
  unfold Conn.send
  dsimp only
  split
  · rfl
  · simp [resolves, other]

theorem RpcMessage.isResolve_notice {message : RpcMessage} (plain : message.isNotice) : message.isResolve = false := by
  cases message with
  | resolve promiseId resolution => cases plain
  | _ => rfl

theorem Effect.resolves {before after : Conn × Hand} (effect : Effect before after)
    (idle : before.2.resumed = none) : resolves after.1.sent = resolves before.1.sent := by
  have quiets : ∀ {before after : Conn × Hand}, QuietEffect before after → after.1.sent = before.1.sent := by
    intro before after effect
    cases effect with
    | quiet same => exact same.sent
    | forget fewer => rfl
  cases effect with
  | close effect =>
      cases effect with
      | quiet effect => exact congrArg Rpc.resolves (quiets effect)
      | cancel q isOpen => exact resolves_send _ rfl
      | reject reason owed => exact resolves_send _ rfl
      | release held counted => exact resolves_send _ rfl
      | _ => rfl
  | describe effect =>
      cases effect with
      | quiet effect => exact congrArg Rpc.resolves (quiets effect)
      | create made free => rw [Conn.withExport_eq]
      | promise question transform free => rw [Conn.withPromise_eq]
      | _ => rfl
  | ask method params isOpen unsent targets prepared => exact resolves_send _ rfl
  | bootstrap isOpen unsent => exact resolves_send _ rfl
  | discard given => exact resolves_send _ rfl
  | newImport isPromise unknown given => rw [Conn.withImport_eq]
  | forgetAnswer reason asked found unrouted => exact resolves_send _ rfl
  | refuse reason asked => exact resolves_send _ rfl
  | refuseBootstrap reason asked => exact resolves_send _ rfl
  | results owed same prepared => exact resolves_send _ rfl
  | elsewhere owed => exact resolves_send _ rfl
  | finish returned took => exact resolves_send _ rfl
  | notice plain => exact resolves_send _ (RpcMessage.isResolve_notice plain)
  | embargo target client => exact resolves_send _ rfl
  | resolve resumed prepared => cases idle.symm.trans resumed
  | _ => rfl

theorem resolves_of_effects {before after : Conn × Hand} (steps : ReflTransGen Effect before after)
    (idle : before.2.resumed = none) : resolves after.1.sent = resolves before.1.sent := by
  induction steps with
  | refl => rfl
  | tail steps effect ih => exact (effect.resolves ((resumed_of_effects steps).trans idle)).trans ih

/-- What `resolveExportPromiseCap` marks before it resolves the promise. -/
def Conn.settledPromise (conn : Conn) (promise : Continuation) (entry : ExportPromiseEntry) : Conn :=
  conn.setExportPromise promise.id.id (some { entry with settled := true })

/-- Some Resolve that has been sent says that a promise is hosted under its own number. -/
def NamesItself (promise : Continuation) (sent : List RpcMessage) : Prop :=
  ∃ id : WireId, id.id = promise.id.id ∧ .resolve promise.id (.cap (.senderHosted id)) ∈ sent

theorem not_namesItself {promise : Continuation} {sent : List RpcMessage} (none : resolves sent = []) :
    ¬ NamesItself promise sent := by
  rintro ⟨id, _, member⟩
  have kept : RpcMessage.resolve promise.id (.cap (.senderHosted id)) ∈ resolves sent :=
    List.mem_filter.mpr ⟨member, rfl⟩
  rw [none] at kept
  cases kept

theorem namesItself_send {promise : Continuation} {descriptor : CapDescriptor} (none : resolves conn.sent = []) :
    NamesItself promise (conn.send (.resolve promise.id (.cap descriptor))).sent ↔
      conn.transportClosed = false ∧ ∃ id : WireId, id.id = promise.id.id ∧ descriptor = .senderHosted id := by
  unfold Conn.send
  cases shut : conn.transportClosed with
  | true => simpa using not_namesItself none
  | false =>
      simp only [Bool.false_eq_true, if_false, true_and]
      constructor
      · rintro ⟨id, same, member⟩
        rcases List.mem_append.mp member with old | new
        · exact absurd ⟨id, same, old⟩ (not_namesItself none)
        · cases List.mem_singleton.mp new
          exact ⟨id, same, rfl⟩
      · rintro ⟨id, same, rfl⟩
        exact ⟨id, same, List.mem_append_right _ (List.mem_singleton.mpr rfl)⟩

theorem resolveExportPromiseCap_pending {promise : Continuation} {client : Nat} {entry : ExportPromiseEntry}
    (pending : conn.pendingPromise promise.id.id = some entry) :
    resolveExportPromiseCap promise client conn = (do
      PromiseExportClient.resolve entry.client client
      let descriptor ← descriptorForClient client
      sendResolve promise (.cap descriptor) : ConnM Unit) (conn.settledPromise promise entry) := by
  unfold resolveExportPromiseCap
  rw [bind_apply, get_apply]
  dsimp only
  rw [pending]
  rfl

variable (conn) in
theorem sendResolve_run (promise : Continuation) (resolution : Resolution) :
    ∃ told : Conn, sendResolve promise resolution conn = .ok () (told.send (.resolve promise.id resolution)) ∧
      told.sent = conn.sent ∧ told.transportClosed = conn.transportClosed :=
  ⟨_, rfl, rfl, rfl⟩

theorem describe_namesItself (promise : Continuation) (client : Nat) (wellFormed : conn.WellFormed)
    (none : resolves conn.sent = []) :
    Meets (do
      let descriptor ← descriptorForClient client
      sendResolve promise (.cap descriptor)) conn
      (fun _ after => NamesItself promise after.sent ↔ ∃ described, dig conn.stack client conn = .ok .none described ∧
        described.ExportsAs client promise.id.id ∧ described.transportClosed = false)
      fun _ after => ¬ NamesItself promise after.sent ∧ ∃ error, dig conn.stack client conn = .error error after := by
  have runs : Runs DescribeEffect (dig conn.stack client) conn {} _ _ := dig_runs conn.stack client
  have digs := runs wellFormed
  have kinds : Meets (dig conn.stack client) conn _ _ := dig_not_hosted conn.stack client
  unfold Meets at digs kinds ⊢
  rw [bind_apply]
  unfold descriptorForClient
  rw [bind_apply, get_apply]
  dsimp only
  rw [bind_apply]
  cases dug : dig conn.stack client conn with
  | error error after =>
      rw [dug] at digs
      obtain ⟨left, steps, _, rfl, _⟩ := digs
      have same := resolves_of_effects (ReflTransGen.mono (fun _ _ => Effect.describe) _ _ steps) rfl
      exact ⟨not_namesItself (same.trans none), error, rfl⟩
  | ok found described =>
      rw [dug] at digs kinds
      obtain ⟨left, steps, _, held⟩ := digs
      have same := resolves_of_effects (ReflTransGen.mono (fun _ _ => Effect.describe) _ _ steps) rfl
      cases found with
      | some descriptor =>
          obtain ⟨told, sends, sent, _⟩ := sendResolve_run described promise (.cap descriptor)
          dsimp only
          rw [pure_apply]
          dsimp only
          rw [sends]
          dsimp only
          rw [namesItself_send (by rw [sent]; exact same.trans none)]
          constructor
          · rintro ⟨_, id, _, hosted⟩
            exact absurd (congrArg some hosted) (kinds id)
          · rintro ⟨_, other, _⟩
            cases other
      | none =>
          obtain ⟨id, added, adds, found, sentAdded, shut⟩ := addExport_exportsAs described client
          obtain ⟨told, sends, sent, shutTold⟩ := sendResolve_run added promise (.cap (.senderHosted id))
          dsimp only
          rw [bind_apply, adds]
          dsimp only
          rw [pure_apply]
          dsimp only
          rw [sends]
          dsimp only
          rw [namesItself_send (by rw [sent, sentAdded]; exact same.trans none), shutTold, shut]
          constructor
          · rintro ⟨isOpen, id', named, hosted⟩
            cases hosted
            exact ⟨described, rfl, named ▸ found, isOpen⟩
          · rintro ⟨_, ran, foundSelf, isOpen⟩
            cases ran
            exact ⟨isOpen, id, found.unique foundSelf, rfl⟩

/-- A promise of another connection's question, exported with a call, whose result is a capability that has no
export yet. -/
def promisedCapability : List Input :=
  [.act .newOtherClient, .act .newForeignQuestion, .act (.newPipeline 1 []), .act .bootstrap,
    .act (.newPipeline 3 []), .act (.newCapTable [some 2]),
    .act (.call 4 { method := { interfaceId := 0, methodId := 0 }
                    params := { content := .interface, message := 5 } }),
    .act (.newCapTable [some 0]), .act (.settleForeign 1 (.ok { content := .interface, message := 10 }))]

def RpcMessage.hostedAs : RpcMessage → Option (WireId × WireId)
  | .resolve promiseId (.cap (.senderHosted id)) => some (promiseId, id)
  | _ => none

theorem resolve_can_name_itself :
    ¬ ∀ conn promise after, Transition.Run Conn.step (fun _ _ _ => True) { registry := fun _ => none } conn →
      conn.step (.act (.resume promise)) = some after →
      ∀ id : WireId, .resolve promise.id (.cap (.senderHosted id)) ∈ after.sent → id.id ≠ promise.id.id := by
  intro never
  have named : ((Transition.Run.follow Conn.step { registry := fun _ => none } promisedCapability).bind fun conn =>
      (conn.step (.act (.resume ⟨1, [], ⟨0, 8⟩⟩))).map fun after => after.sent.filterMap RpcMessage.hostedAs) =
        some [(⟨0, 8⟩, ⟨0, 8⟩)] := by
    decide +kernel
  obtain ⟨conn, followed, resumed⟩ := Option.bind_eq_some_iff.mp named
  obtain ⟨after, taken, sent⟩ := Option.map_eq_some_iff.mp resumed
  have member : ((⟨0, 8⟩, ⟨0, 8⟩) : WireId × WireId) ∈ after.sent.filterMap RpcMessage.hostedAs := by
    simp [sent]
  obtain ⟨message, sent, hosted⟩ := List.mem_filterMap.mp member
  have differs := never conn ⟨1, [], ⟨0, 8⟩⟩ after (.of_follow .start followed) taken ⟨0, 8⟩
  unfold RpcMessage.hostedAs at hosted
  split at hosted
  · cases hosted
    exact differs sent rfl
  · cases hosted

/-- An import that the peer has resolved to the import itself. -/
structure Conn.LeadsToItself (conn : Conn) (client : Nat) (c : ImportClient) (next rc : Nat) (closed : Bool) : Prop where
  found : conn.client client = .importClient c
  isOpen : c.closed = false
  resolved : c.resolved = some next
  lifted : c.embargoId = none
  ref : conn.client next = .ref rc closed
  back : (conn.refCount rc).client = client

namespace Conn.LeadsToItself

variable {client next rc : Nat} {c : ImportClient} {closed : Bool}

theorem call (leads : conn.LeadsToItself client c next rc closed) (call : Call) (depth : Nat) :
    callClient depth client call conn = .error stackOverflow conn ∧
      callClient depth next call conn = .error stackOverflow conn := by
  induction depth with
  | zero => exact ⟨rfl, rfl⟩
  | succ depth ih =>
      constructor
      · unfold callClient
        rw [bind_apply, get_apply]
        dsimp only
        rw [leads.found]
        dsimp only
        rw [leads.isOpen, leads.resolved, leads.lifted]
        exact ih.2
      · unfold callClient
        rw [bind_apply, get_apply]
        dsimp only
        rw [leads.ref]
        dsimp only
        rw [leads.back]
        exact ih.1

theorem norm (leads : conn.LeadsToItself client c next rc closed) (hops : Nat) :
    (conn.normalize (conn.norm hops client)).isSome ∧ (conn.normalize (conn.norm hops next)).isSome := by
  have first : conn.normalize client = some next := by
    unfold normalize
    rw [leads.found]
    dsimp only
    rw [leads.lifted, leads.resolved]
    rfl
  have second : conn.normalize next = some client := by
    unfold normalize
    rw [leads.ref]
    dsimp only
    rw [leads.back]
  have apart : next ≠ client := by
    intro same
    have shape := leads.ref
    rw [same, leads.found] at shape
    cases shape
  induction hops with
  | zero =>
      constructor
      · rw [Conn.norm, first]
        rfl
      · rw [Conn.norm, second]
        rfl
  | succ hops ih =>
      constructor
      · rw [Conn.norm, first]
        dsimp only
        rw [if_neg apart]
        exact ih.2
      · rw [Conn.norm, second]
        dsimp only
        rw [if_neg apart.symm]
        exact ih.1

end Conn.LeadsToItself

theorem addImport_known {id : WireId} {entry : ImportEntry} (found : find conn.imports id.id = some entry)
    (held : 0 < (conn.refCount entry.rc).refs) (isPromise : Bool) : ∃ after, addImport id isPromise conn = .ok conn.objects after ∧
      after.client = Function.update conn.client conn.objects (.ref entry.rc false) ∧
      ∀ rc, (after.refCount rc).client = (conn.refCount rc).client := by
  unfold addImport
  rw [bind_apply, get_apply]
  dsimp only
  rw [found]
  dsimp only
  let counted : ImportEntry := { entry with refs := entry.refs + 1, isPromise := entry.isPromise || isPromise }
  refine ⟨((conn.setImport id.id (some counted)).setRefs entry.rc ((conn.refCount entry.rc).refs + 1)).withClient
    (.ref entry.rc false), ?_, ?_, ?_⟩
  · change (if (conn.refCount entry.rc).refs ≤ 0 then _ else _ : ConnM Nat) _ = _
    rw [if_neg (Int.not_le.mpr held)]
    rfl
  · rfl
  · intro rc
    change (Function.update conn.refCount entry.rc _ rc).client = _
    by_cases same : rc = entry.rc
    · rw [same, Function.update_self]
      rfl
    · rw [Function.update_of_ne same]

theorem ImportClient.setResolved_open {i : Nat} (client : Nat) {c : ImportClient} (found : conn.client i = .importClient c)
    (isOpen : c.closed = false) (unresolved : c.resolved = none) :
    ImportClient.setResolved i client conn =
      .ok () (conn.setClient i (.importClient { c with resolved := some client })) := by
  unfold ImportClient.setResolved
  rw [bind_apply, get_apply]
  dsimp only
  rw [found]
  dsimp only
  rw [isOpen, unresolved]
  change EStateM.Result.ok () (conn.setClient i ((conn.client i).withResolved client)) = _
  rw [found]
  simp [Client.withResolved, isOpen]

theorem resolve_to_itself {id : WireId} {entry : ImportEntry} {c : ImportClient} (wellFormed : conn.WellFormed)
    (found : find conn.imports id.id = some entry) (isPromise : entry.isPromise = true)
    (imported : conn.client (conn.refCount entry.rc).client = .importClient c) (isOpen : c.closed = false)
    (unresolved : c.resolved = none) (lifted : c.embargoId = none) (held : 0 < (conn.refCount entry.rc).refs) :
    ∃ after, handleMessage (.resolve id (.cap (.senderHosted id))) conn = .ok () after ∧
      after.LeadsToItself (conn.refCount entry.rc).client { c with resolved := some conn.objects } conn.objects
        entry.rc false := by
  have other : (conn.refCount entry.rc).client ≠ conn.objects := by
    have present : (conn.client (conn.refCount entry.rc).client).core ≠ .other := by
      rw [imported]
      exact fun same => by cases same
    exact Nat.ne_of_lt (wellFormed.made present)
  have promised : find (conn.setImport id.id (some { entry with isPromise := false })).imports id.id =
      some { entry with isPromise := false } := by
    exact find_put_same _ _ _
  obtain ⟨read, reads, clients, counts⟩ := addImport_known promised held false
  have still : read.client (conn.refCount entry.rc).client = .importClient c := by
    rw [clients]
    exact (Function.update_of_ne other _ _).trans imported
  have resolves := ImportClient.setResolved_open conn.objects still isOpen unresolved
  refine ⟨read.setClient (conn.refCount entry.rc).client (.importClient { c with resolved := some conn.objects }),
    ?_, ?_⟩
  · have handled : resolveImport ⟨id.id, entry.origin⟩ (conn.refCount entry.rc).client (.cap (.senderHosted id))
        (.resolve id (.cap (.senderHosted id))) (conn.setImport id.id (some { entry with isPromise := false })) =
        .ok () (read.setClient (conn.refCount entry.rc).client
          (.importClient { c with resolved := some conn.objects })) := by
      have readsNone : readNonProtocol (clientFromCapDescriptor (.senderHosted id))
          (conn.setImport id.id (some { entry with isPromise := false })) = .ok (.ok conn.objects) read := by
        apply tryCatch_of_ok
        change (addImport id false >>= _ : ConnM _) _ = _
        rw [bind_apply, reads]
        rfl
      unfold resolveImport
      dsimp only
      rw [bind_apply, readsNone]
      dsimp only
      rw [bind_apply, resolves]
      rfl
    have dispatched : dispatchMessage (.resolve id (.cap (.senderHosted id))) conn =
        .ok () (read.setClient (conn.refCount entry.rc).client
          (.importClient { c with resolved := some conn.objects })) := by
      change handleResolveMessage id _ _ conn = _
      unfold handleResolveMessage
      rw [bind_apply, get_apply]
      dsimp only
      rw [found]
      dsimp only
      rw [imported]
      dsimp only
      rw [if_pos isPromise]
      exact handled
    exact tryCatch_of_ok dispatched
  · constructor
    · exact Function.update_self _ _ _
    · exact isOpen
    · rfl
    · exact lifted
    · change Function.update read.client _ _ conn.objects = _
      rw [Function.update_of_ne other.symm, clients]
      exact Function.update_self _ _ _
    · exact counts entry.rc

end CapnpEs.Rpc
