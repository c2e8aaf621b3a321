import CapnpEs.Rpc.PromiseCycles
import CapnpEs.Rpc.TableInvariants

/-! Promise exports and the questions they were made for: the index, the continuations and the numbers on the
wire agree as long as no number is given to something else in between. -/

namespace CapnpEs.Rpc

open Outcome Relation SlotTable

variable {conn : Conn} {hand : Hand}

/-- The client of an export is the promise of a question and a transform, resolved or not. -/
structure Conn.Stands (conn : Conn) (question : Nat) (transform : Transform) (object : Nat) : Prop where
  made : object < conn.objects
  clientMade : (conn.refCount object).client < conn.objects
  client : (conn.client (conn.refCount object).client).core =
    .promiseExport { question := question, transform := transform }

theorem Conn.Stands.of_same {after : Conn} {question object : Nat} {transform : Transform}
    (stands : conn.Stands question transform object) (objects : conn.objects ≤ after.objects)
    (refCount : ∀ rc < conn.objects, (after.refCount rc).client = (conn.refCount rc).client)
    (client : ∀ id < conn.objects, ∀ c, (conn.client id).core = .promiseExport c →
      (after.client id).core = (conn.client id).core) : after.Stands question transform object := by
  have same := refCount object stands.made
  constructor
  · exact Nat.lt_of_lt_of_le stands.made objects
  · rw [same]
    exact Nat.lt_of_lt_of_le stands.clientMade objects
  · rw [same, client _ stands.clientMade _ stands.client]
    exact stands.client

theorem Effect.stands {before after : Conn × Hand} (effect : Effect before after) {question object : Nat}
    {transform : Transform} (stands : before.1.Stands question transform object) :
    after.1.Stands question transform object := by
  have kept : ∀ {conn after : Conn}, conn.Stands question transform object → conn.objects ≤ after.objects →
      after.refCount = conn.refCount → after.client = conn.client → after.Stands question transform object := by
    intro conn after stands objects refCount client
    apply stands.of_same objects
    · intro rc _
      rw [refCount]
    · intro id _ c _
      rw [client]
  have quiets : ∀ {before after : Conn × Hand}, QuietEffect before after →
      before.1.Stands question transform object → after.1.Stands question transform object := by
    intro before after effect stands
    cases effect with
    | quiet same =>
        apply stands.of_same same.objects
        · intro rc made
          rw [same.refCount rc made]
        · intro id made c _
          exact same.client id made
    | forget fewer => exact stands
  have fresh : ∀ {α : Type} (f : Nat → α) (value : α) {id next : Nat}, id < next →
      Function.update f next value id = f id := by
    intro α f value id next below
    exact Function.update_of_ne (Nat.ne_of_lt below) _ _
  cases effect with
  | close effect =>
      cases effect with
      | quiet effect => exact quiets effect stands
      | closeRef ref =>
          rename_i conn hand id rc
          refine stands.of_same ?_ ?_ ?_
          · exact Nat.le_refl _
          · intro rc' _
            by_cases same : rc' = rc
            · subst same
              simp [Conn.setRefs, Conn.setRefCount, Conn.setClient]
            · simp [Conn.setRefs, Conn.setRefCount, Conn.setClient, same]
          · intro id' _ c promise
            have other : id' ≠ id := by
              intro same
              rw [same, ref] at promise
              cases promise
            simp [Conn.setRefs, Conn.setRefCount, Conn.setClient, other]
      | closeImport reason found closed =>
          rename_i conn hand id c client
          refine stands.of_same ?_ ?_ ?_
          · exact Nat.le_refl _
          · intro rc _
            rfl
          · intro id' _ c' promise
            have other : id' ≠ id := by
              intro same
              rw [same, found] at promise
              cases promise
            simp [Conn.setClient, Conn.sayRejected, other]
      | _ => exact kept stands (Nat.le_refl _) rfl rfl
  | describe effect =>
      cases effect with
      | quiet effect => exact quiets effect stands
      | create made free =>
          rw [Conn.withExport_eq]
          apply stands.of_same (Nat.le_add_right _ _)
          · intro rc below
            exact congrArg RefCount.client (fresh _ _ below)
          · intro id below c _
            exact congrArg Client.core (fresh _ _ (Nat.lt_succ_of_lt below))
      | promise question' transform' =>
          rw [Conn.withPromise_eq]
          apply stands.of_same (Nat.le_add_right _ _)
          · intro rc below
            exact congrArg RefCount.client (fresh _ _ (Nat.lt_succ_of_lt below))
          · intro id below c _
            exact congrArg Client.core ((fresh _ _ (Nat.lt_add_right 2 below)).trans (fresh _ _ below))
      | _ => exact kept stands (Nat.le_refl _) rfl rfl
  | issue method => exact kept stands (Nat.le_succ _) rfl rfl
  | insertAnswer asked free => exact kept stands (Nat.le_succ _) rfl rfl
  | newRef positive =>
      rename_i conn hand rc
      apply stands.of_same (Nat.le_succ _)
      · intro rc' below
        by_cases same : rc' = rc
        · subst same
          simp [Conn.withClient, Conn.allocated, Conn.setRefs, Conn.setRefCount, Conn.setClient]
        · simp [Conn.withClient, Conn.allocated, Conn.setRefs, Conn.setRefCount, Conn.setClient, same]
      · intro id below c _
        exact congrArg Client.core (fresh _ _ below)
  | newImport isPromise unknown given =>
      rw [Conn.withImport_eq]
      apply stands.of_same (Nat.le_add_right _ _)
      · intro rc below
        exact congrArg RefCount.client (fresh _ _ (Nat.lt_succ_of_lt below))
      · intro id below c _
        exact congrArg Client.core ((fresh _ _ (Nat.lt_add_right 2 below)).trans (fresh _ _ below))
  | lifted lifting core =>
      refine stands.of_same (Nat.le_refl _) ?_ ?_
      · exact fun _ _ => rfl
      · exact fun i _ c _ => Conn.setClient_core core i
  | _ => exact kept stands (Nat.le_refl _) rfl rfl

/-- The index and the continuations lead to promises of their own. -/
structure Conn.PromisesStand (conn : Conn) : Prop where
  index : ∀ question transform id, conn.exportPromiseIndex question transform = some id →
    conn.Stands question transform id.object
  continuations : ∀ promise ∈ conn.continuations, conn.Stands promise.question promise.transform promise.id.object

theorem Conn.withPromise_stands (conn : Conn) (question : Nat) (transform : Transform) :
    (conn.withPromise question transform).Stands question transform conn.allocated.nextExport.object := by
  rw [Conn.withPromise_eq]
  have counted : (Function.update conn.refCount (conn.objects + 1) { client := conn.objects, refs := 1 }
      (conn.objects + 1)) = { client := conn.objects, refs := 1 } := Function.update_self _ _ _
  constructor
  · change conn.objects + 1 < conn.objects + 3
    omega
  · change (Function.update conn.refCount (conn.objects + 1) _ (conn.objects + 1)).client < conn.objects + 3
    rw [counted]
    change conn.objects < conn.objects + 3
    omega
  · change (Function.update (Function.update conn.client conn.objects _) (conn.objects + 2) _
      (Function.update conn.refCount (conn.objects + 1) _ (conn.objects + 1)).client).core = _
    rw [counted]
    dsimp only
    rw [Function.update_of_ne (by omega), Function.update_self]
    rfl

theorem Effect.promisesStand {before after : Conn × Hand} (effect : Effect before after)
    (promises : before.1.PromisesStand) : after.1.PromisesStand := by
  obtain ⟨index, continuations⟩ := promises
  have moved : ∀ {question object : Nat} {transform : Transform}, before.1.Stands question transform object →
      after.1.Stands question transform object := fun stands => effect.stands stands
  have kept : after.1.exportPromiseIndex = before.1.exportPromiseIndex →
      after.1.continuations = before.1.continuations → after.1.PromisesStand := by
    intro sameIndex sameContinuations
    constructor
    · intro question transform id found
      rw [sameIndex] at found
      exact moved (index question transform id found)
    · intro promise member
      rw [sameContinuations] at member
      exact moved (continuations promise member)
  have quiets : ∀ {before after : Conn × Hand}, QuietEffect before after →
      after.1.exportPromiseIndex = before.1.exportPromiseIndex ∧
        after.1.continuations = before.1.continuations := by
    intro before after effect
    cases effect with
    | quiet same => exact ⟨same.exportPromiseIndex, same.continuations⟩
    | forget fewer => exact ⟨rfl, rfl⟩
  cases effect with
  | close effect =>
      cases effect with
      | quiet effect =>
          obtain ⟨sameIndex, sameContinuations⟩ := quiets effect
          exact kept sameIndex sameContinuations
      | _ => exact kept rfl rfl
  | describe effect =>
      cases effect with
      | quiet effect =>
          obtain ⟨sameIndex, sameContinuations⟩ := quiets effect
          exact kept sameIndex sameContinuations
      | create made free =>
          rw [Conn.withExport_eq] at kept ⊢
          exact kept rfl rfl
      | unindex question transform =>
          constructor
          · intro question' transform' id found
            simp only [Conn.indexExportPromise, Function.update_apply] at found
            split at found
            · rename_i same
              subst same
              rw [Function.update_apply] at found
              split at found
              · cases found
              · exact moved (index _ transform' id found)
            · exact moved (index question' transform' id found)
          · intro promise member
            exact moved (continuations promise member)
      | promise question transform free =>
          rename_i conn hand
          have same : (conn.withPromise question transform).continuations = conn.continuations := by
            rw [Conn.withPromise_eq]
          constructor
          · intro question' transform' id found
            have indexed : (conn.withPromise question transform).exportPromiseIndex =
                Function.update conn.exportPromiseIndex question
                  (Function.update (conn.exportPromiseIndex question) transform
                    (some conn.allocated.nextExport)) := by
              rw [Conn.withPromise_eq]
              rfl
            dsimp only at found
            rw [indexed, Function.update_apply] at found
            split at found
            · rename_i same
              subst same
              rw [Function.update_apply] at found
              split at found
              · rename_i same
                subst same
                cases found
                exact conn.withPromise_stands _ _
              · exact moved (index _ transform' id found)
            · exact moved (index question' transform' id found)
          · intro promise member
            rw [same] at member
            exact moved (continuations promise member)
      | awaitPromise indexed unknown =>
          constructor
          · intro question transform id found
            exact moved (index question transform id found)
          · intro promise member
            rcases List.mem_append.mp member with old | new
            · exact moved (continuations promise old)
            · cases List.mem_singleton.mp new
              exact moved (index _ _ _ indexed)
      | _ => exact kept rfl rfl
  | newImport isPromise unknown given =>
      rw [Conn.withImport_eq] at kept ⊢
      exact kept rfl rfl
  | clearPromises closed unresumed =>
      constructor
      · intro question transform id found
        cases found
      · intro promise member
        exact moved (continuations promise member)
  | resume promise =>
      constructor
      · intro question transform id found
        exact moved (index question transform id found)
      · intro promise member
        exact moved (continuations promise (List.mem_of_mem_erase member))
  | _ => exact kept rfl rfl

/-- The client of an export is the promise of a question and a transform. -/
def PromiseOf (question : Nat) (transform : Transform) (client : Option Client) : Prop :=
  ∃ c, client = some (.promiseExport c) ∧ c.question = question ∧ c.transform = transform

theorem Conn.Stands.promiseOf {question id object : Nat} {transform : Transform} {e : Export}
    (stands : conn.Stands question transform object) (found : conn.findExport id = some e)
    (same : e.rc = object) : PromiseOf question transform (conn.exported id) := by
  have core := stands.client
  unfold Conn.exported
  rw [found, Option.map_some, same]
  cases shape : conn.client (conn.refCount object).client with
  | promiseExport c =>
      rw [shape] at core
      cases core
      exact ⟨c, rfl, rfl, rfl⟩
  | _ =>
      rw [shape] at core
      cases core

/-- What a step says of the promise exports: those it returns are live and of the question and transform they
were asked for, and those it resolves are of the question and transform of the outcome. -/
def Event.Names : Event → Prop
  | .promiseExported question transform _ _ client => PromiseOf question transform client
  | .promiseResolved promise _ client => PromiseOf promise.question promise.transform client
  | _ => True

/-- The number has not been given to something else: the export that the index leads to is still the one it was
made for. Both are read before the promise is exported. -/
def Event.kept : Event → Bool
  | .promiseExported _ _ indexed _ _ => indexed.all fun found => found.2 == found.1.object
  | _ => true

/-- An export that was made for the question and transform of this promise still has its number. -/
def Conn.Holds (conn : Conn) (waiting : List Continuation) (promise : Continuation) : Prop :=
  ∃ kept ∈ waiting, kept.question = promise.question ∧ kept.transform = promise.transform ∧
    (conn.findExport promise.id.id).map (·.rc) = some kept.id.object

theorem Effect.holds {before after : Conn × Hand} (effect : Effect before after) {promise : Continuation}
    (resumed : before.2.resumed = some promise) {waiting : List Continuation} {other : Continuation}
    (holds : before.1.Holds waiting other) : after.1.Holds waiting other := by
  obtain ⟨kept, member, question, transform, held⟩ := holds
  refine ⟨kept, member, question, transform, ?_⟩
  have numbers : ∀ {conn : Conn} {id : Nat} {e replaced : Export}, conn.findExport id = some e → replaced.rc = e.rc →
      (conn.findExport other.id.id).map (·.rc) = some kept.id.object →
      ((conn.setExport id (some replaced)).findExport other.id.id).map (·.rc) = some kept.id.object := by
    intro conn id e replaced found same held
    by_cases here : other.id.id = id
    · subst here
      rw [found] at held
      simpa [Conn.setExport, Conn.findExport, same] using held
    · rw [Conn.findExport, Conn.setExport, find_put_other _ _ here]
      exact held
  have elsewhere : ∀ {id : Nat}, before.1.findExport id = none → other.id.id ≠ id := by
    rintro id free rfl
    rw [free] at held
    cases held
  have quiets : ∀ {before after : Conn × Hand}, QuietEffect before after → after.1.exports = before.1.exports := by
    intro before after effect
    cases effect with
    | quiet same => exact same.exports
    | forget fewer => rfl
  have same : after.1.exports = before.1.exports →
      (after.1.findExport other.id.id).map (·.rc) = some kept.id.object := by
    intro same
    rw [Conn.findExport, same]
    exact held
  cases effect with
  | close effect =>
      cases effect with
      | quiet effect => exact same (quiets effect)
      | _ => exact same rfl
  | describe effect =>
      cases effect with
      | quiet effect => exact same (quiets effect)
      | retain found => exact numbers found rfl held
      | create made free =>
          rw [Conn.findExport, Conn.withExport_eq, find_put_other _ _ (elsewhere free)]
          exact held
      | promise question transform free =>
          rw [Conn.findExport, Conn.withPromise_eq, find_put_other _ _ (elsewhere free)]
          exact held
      | _ => exact same rfl
  | newImport isPromise unknown given =>
      rw [Conn.withImport_eq] at same ⊢
      exact same rfl
  | decrement found given idle => exact numbers found rfl held
  | dropExport found unheld releasing unresumed => cases unresumed.symm.trans resumed
  | clearExport closed found unresumed => cases unresumed.symm.trans resumed
  | _ => exact same rfl

def Conn.Announced (conn : Conn) (id : Nat) : Prop :=
  ∃ entry, find conn.exportPromises id = some entry ∧ entry.settled = true

theorem Conn.Announced.not_pending {id : Nat} (settled : conn.Announced id) : conn.pendingPromise id = none := by
  obtain ⟨entry, found, settled⟩ := settled
  simp [pendingPromise, found, settled]

theorem Effect.settled {before after : Conn × Hand} (effect : Effect before after) {promise : Continuation}
    (resumed : before.2.resumed = some promise) {id : Nat} (settled : before.1.Announced id) :
    after.1.Announced id := by
  have quiets : ∀ {before after : Conn × Hand}, QuietEffect before after →
      after.1.exportPromises = before.1.exportPromises := by
    intro before after effect
    cases effect with
    | quiet same => exact same.exportPromises
    | forget fewer => rfl
  have same : after.1.exportPromises = before.1.exportPromises → after.1.Announced id := by
    intro same
    unfold Conn.Announced
    rw [same]
    exact settled
  cases effect with
  | close effect =>
      cases effect with
      | quiet effect => exact same (quiets effect)
      | _ => exact same rfl
  | describe effect =>
      cases effect with
      | quiet effect => exact same (quiets effect)
      | create made free =>
          rw [Conn.withExport_eq] at same ⊢
          exact same rfl
      | promise question transform free => exact same (Conn.withPromise_exportPromises _ _ _)
      | awaitPromise indexed unknown =>
          obtain ⟨entry, found, settled⟩ := settled
          refine ⟨entry, ?_, settled⟩
          refine (find_put_other _ _ ?_).trans found
          rintro rfl
          cases unknown.symm.trans found
      | _ => exact same rfl
  | settlePromise other found =>
      obtain ⟨entry, known, settled⟩ := settled
      by_cases here : id = other
      · subst here
        exact ⟨_, find_put_same .., rfl⟩
      · exact ⟨entry, (find_put_other _ _ here).trans known, settled⟩
  | clearPromise other unresumed => cases unresumed.symm.trans resumed
  | clearPromises closed unresumed => cases unresumed.symm.trans resumed
  | newImport isPromise unknown given =>
      rw [Conn.withImport_eq] at same ⊢
      exact same rfl
  | _ => exact same rfl

/-- What a step starts from: promises that stand, and that of the continuation it resumes under its number. -/
structure Resuming (waiting : List Continuation) (state : Conn × Hand) : Prop where
  promises : state.1.PromisesStand
  waited : ∀ promise ∈ waiting, state.1.Stands promise.question promise.transform promise.id.object
  holds : ∀ promise, state.2.resumed = some promise → state.1.Holds waiting promise

theorem Effect.names {before after : Conn × Hand} (effect : Effect before after) {waiting : List Continuation}
    (resuming : Resuming waiting before) (kept : ∀ event ∈ after.1.trace, event.kept = true)
    (named : ∀ event ∈ before.1.trace, event.Names) : ∀ event ∈ after.1.trace, event.Names := by
  have same : after.1.trace = before.1.trace → ∀ event ∈ after.1.trace, event.Names := by
    intro trace event member
    rw [trace] at member
    exact named event member
  have said : ∀ told : Event, told.Names → after.1.trace = before.1.trace ++ [told] →
      ∀ event ∈ after.1.trace, event.Names := by
    intro told holds trace event member
    rw [trace] at member
    rcases List.mem_append.mp member with old | new
    · exact named event old
    · cases List.mem_singleton.mp new
      exact holds
  have quiets : ∀ {before after : Conn × Hand}, QuietEffect before after → after.1.trace = before.1.trace := by
    intro before after effect
    cases effect with
    | quiet same => exact same.trace
    | forget fewer => rfl
  cases effect with
  | close effect =>
      cases effect with
      | quiet effect => exact same (quiets effect)
      | cancel q isOpen => exact said (.questionCanceled _) trivial rfl
      | rejectHere owner reason calls =>
          intro event member
          rcases Conn.mem_sayRejected member with old | ⟨call, rfl⟩
          · exact named event old
          · trivial
      | closeImport reason found closed =>
          intro event member
          rcases Conn.mem_sayRejected member with old | ⟨call, rfl⟩
          · exact named event old
          · trivial
      | _ => exact same rfl
  | describe effect =>
      cases effect with
      | quiet effect => exact same (quiets effect)
      | mention found => exact said (.importDescribed _ _) trivial rfl
      | create made free =>
          apply same
          rw [Conn.withExport_eq]
      | promise question transform free =>
          apply same
          rw [Conn.withPromise_eq]
      | exported current number found sameExport origin =>
          rename_i conn hand question transform indexed prior id e
          apply said _ ?_ rfl
          have stands := resuming.promises.index question transform prior current
          have object : id.object = prior.object := by
            rcases origin with earlier | same
            · have fine := kept _ (List.mem_append_right _ (List.mem_singleton.mpr rfl))
              simpa [Event.kept, earlier] using fine
            · rw [same]
          rw [← object] at stands
          exact stands.promiseOf found sameExport
      | _ => exact same rfl
  | issue method => exact said (.questionIssued _ _) trivial rfl
  | newImport isPromise unknown given =>
      apply same
      rw [Conn.withImport_eq]
  | forgetAnswer reason asked found unrouted => exact said (.callRefused _ _) trivial rfl
  | refuse reason asked => exact said (.callRefused _ _) trivial rfl
  | takeReturn returned isOpen => exact said (.returnUsed _ _) trivial rfl
  | releaseFailed releasing => exact said (.releaseFailed _) trivial rfl
  | abort violated isOpen => exact said (.aborted _) trivial rfl
  | resolve resumed prepared =>
      rename_i conn hand promise resolution rest
      apply said _ ?_ rfl
      obtain ⟨other, member, question, transform, rc⟩ := resuming.holds promise resumed
      have stands : conn.Stands promise.question promise.transform other.id.object := by
        rw [← question, ← transform]
        exact resuming.waited other member
      obtain ⟨e, found, sameExport⟩ := Option.map_eq_some_iff.mp rc
      exact stands.promiseOf found sameExport
  | _ => exact same rfl

theorem names_of_effects {before after : Conn × Hand} (steps : ReflTransGen Effect before after)
    {waiting : List Continuation} (resuming : Resuming waiting before) (kept : ∀ event ∈ after.1.trace, event.kept = true)
    (named : ∀ event ∈ before.1.trace, event.Names) :
    Resuming waiting after ∧ ∀ event ∈ after.1.trace, event.Names := by
  induction steps with
  | refl => exact ⟨resuming, named⟩
  | tail _ effect ih =>
      obtain ⟨resuming, named⟩ := ih fun event member => kept event (effect.trace member)
      refine ⟨?_, effect.names resuming kept named⟩
      constructor
      · exact effect.promisesStand resuming.promises
      · exact fun promise member => effect.stands (resuming.waited promise member)
      · intro promise resumed
        have earlier := effect.resumed.symm.trans resumed
        exact effect.holds earlier (resuming.holds promise earlier)

def Conn.resumes (conn : Conn) (promise : Continuation) : Conn :=
  { conn.fresh with continuations := conn.continuations.erase promise }

/-- What the outcome of a promise's question makes of its transform: the reason of its failure, or the capability at
the end of the path, as it is described once the promise has been given it. -/
inductive Conn.Carries (conn : Conn) (promise : Continuation) : Resolution → Prop
  | rejected {reason : String} (err : (conn.question promise.question).err = some reason) :
      Carries conn promise (.exception reason)
  | lost {error : RpcError} {after : Conn} (fulfilled : (conn.question promise.question).err = none)
      (reads : clientFromResolution promise.transform (conn.question promise.question).obj none conn =
        .error error after) : Carries conn promise (.exception error.message)
  | capability {client : Nat} {found resolved described : Conn} {entry : ExportPromiseEntry}
      {descriptor : CapDescriptor} (fulfilled : (conn.question promise.question).err = none)
      (reads : clientFromResolution promise.transform (conn.question promise.question).obj none conn =
        .ok client found)
      (resolves : PromiseExportClient.resolve entry.client client (found.settledPromise promise entry) =
        .ok () resolved)
      (describes : descriptorForClient client resolved = .ok descriptor described) :
      Carries conn promise (.cap descriptor)

/-- Every Resolve that a run adds is for this promise, with what was to be said, and has been said. -/
def Conn.Tells (conn : Conn) (promise : Continuation) (said : Resolution → Prop) (after : Conn) : Prop :=
  ∀ id resolution, .resolve id resolution ∈ after.sent → .resolve id resolution ∈ conn.sent ∨
    id = promise.id ∧ said resolution ∧ ∃ rc client, .promiseResolved promise rc client ∈ after.trace

theorem mem_resolves {id : WireId} {resolution : Resolution} {sent : List RpcMessage} :
    .resolve id resolution ∈ resolves sent ↔ .resolve id resolution ∈ sent := by
  simp [resolves, RpcMessage.isResolve]

section Tells

variable {promise : Continuation} {said : Resolution → Prop}

theorem Conn.Tells.of_same {after : Conn} (same : resolves after.sent = resolves conn.sent) :
    conn.Tells promise said after := by
  intro id resolution member
  rw [← mem_resolves, same, mem_resolves] at member
  exact Or.inl member

theorem Conn.Tells.after {middle after : Conn} (same : resolves middle.sent = resolves conn.sent)
    (tells : middle.Tells promise said after) : conn.Tells promise said after := by
  intro id resolution member
  rcases tells id resolution member with earlier | told
  · rw [← mem_resolves, same, mem_resolves] at earlier
    exact Or.inl earlier
  · exact Or.inr told

variable (conn) in
theorem sendResolve_tells {resolution : Resolution} (carries : said resolution) :
    Meets (sendResolve promise resolution) conn (fun _ after => conn.Tells promise said after) fun _ _ => False := by
  change conn.Tells promise said ((conn.say (.promiseResolved promise
    ((conn.findExport promise.id.id).map (·.rc)) (conn.exported promise.id.id))).send (.resolve promise.id resolution))
  intro id told member
  unfold Conn.send at member
  dsimp only at member
  split at member
  · exact Or.inl member
  · rcases List.mem_append.mp member with earlier | new
    · exact Or.inl earlier
    · cases List.mem_singleton.mp new
      exact Or.inr ⟨rfl, carries, _, _, List.mem_append_right _ (List.mem_singleton.mpr rfl)⟩

theorem settled_of_effects {before after : Conn × Hand} (steps : ReflTransGen Effect before after)
    (resumed : before.2.resumed = some promise) {id : Nat} (settled : before.1.Announced id) : after.1.Announced id := by
  induction steps with
  | refl => exact settled
  | tail steps effect ih => exact effect.settled ((resumed_of_effects steps).trans resumed) ih

theorem settled_of_runs (promise : Continuation) {α : Type} {program : ConnM α} {P : Hand → α → Conn → Hand → Prop}
    {F : Hand → RpcError → Conn → Hand → Prop} (runs : ∀ hand, Runs Effect program conn hand (P hand) (F hand))
    (wellFormed : conn.WellFormed) {id : Nat} (settled : conn.Announced id) :
    Meets program conn
      (fun _ after => after.WellFormed ∧ conn.objects ≤ after.objects ∧ resolves after.sent = resolves conn.sent ∧
        after.Announced id)
      fun _ after => resolves after.sent = resolves conn.sent ∧ after.Announced id := by
  have idle := runs {} wellFormed
  have resuming := runs { resumed := some promise } wellFormed
  apply (idle.and resuming).mono
  · rintro value after ⟨⟨left, steps, formed, _⟩, held, others, _⟩
    exact ⟨formed, objects_le_of_effects steps, resolves_of_effects steps rfl, settled_of_effects others rfl settled⟩
  · rintro error after ⟨⟨left, steps, _⟩, held, others, _⟩
    exact ⟨resolves_of_effects steps rfl, settled_of_effects others rfl settled⟩

theorem Conn.settledPromise_settled (conn : Conn) (promise : Continuation) (entry : ExportPromiseEntry) :
    (conn.settledPromise promise entry).Announced promise.id.id :=
  ⟨_, find_put_same .., rfl⟩

theorem Conn.WellFormed.settledPromise (wellFormed : conn.WellFormed) {entry : ExportPromiseEntry}
    (pending : conn.pendingPromise promise.id.id = some entry) : (conn.settledPromise promise entry).WellFormed := by
  apply wellFormed.setExportPromise
  intro settled same
  cases same
  have found := Conn.pendingPromise_found pending
  exact ⟨wellFormed.promises _ entry found, wellFormed.promised _ entry found⟩

theorem resolveExportPromiseException_tells (reason : String) (wellFormed : conn.WellFormed)
    (carries : said (.exception reason)) :
    Meets (resolveExportPromiseException promise reason) conn (fun _ after => conn.Tells promise said after)
      fun _ after => conn.Tells promise said after := by
  apply Meets.get
  cases pending : conn.pendingPromise promise.id.id with
  | none => exact Conn.Tells.of_same rfl
  | some entry =>
      let settled := conn.settledPromise promise entry
      have free : (settled.client entry.client).isReleased = true :=
        wellFormed.promised _ entry (Conn.pendingPromise_found pending)
      have rejects := settled_of_runs promise
        (fun hand => (rejectAll_keeps reason free).lift fun _ _ => Effect.close)
        (wellFormed.settledPromise pending) (conn.settledPromise_settled promise entry)
      change Meets (do
        rejectAll entry.client reason
        sendResolve promise (.exception reason)) settled _ _
      apply Meets.bind
      apply rejects.mono
      · rintro _ after ⟨_, _, same, _⟩
        apply (sendResolve_tells after carries).mono
        · exact fun _ last tells => tells.after same
        · exact fun _ _ never => never.elim
      · rintro error after ⟨same, _⟩
        exact Conn.Tells.of_same same

theorem CloseEffect.exportPromises {before after : Conn × Hand} (effect : CloseEffect before after) :
    after.1.exportPromises = before.1.exportPromises := by
  cases effect with
  | quiet effect =>
      cases effect with
      | quiet same => exact same.exportPromises
      | forget fewer => rfl
  | _ => rfl

theorem exportPromises_of_closes {before after : Conn × Hand} (steps : ReflTransGen CloseEffect before after) :
    after.1.exportPromises = before.1.exportPromises := by
  induction steps with
  | refl => rfl
  | tail _ effect ih => exact effect.exportPromises.trans ih

theorem describe_tells {client : Nat} (made : client < conn.objects) (wellFormed : conn.WellFormed)
    (settled : conn.Announced promise.id.id) (carries : ∀ described descriptor,
      descriptorForClient client conn = .ok descriptor described → said (.cap descriptor)) :
    Meets (do
      let descriptor ← descriptorForClient client
      sendResolve promise (.cap descriptor)) conn (fun _ after => conn.Tells promise said after)
      fun _ after => resolves after.sent = resolves conn.sent ∧ after.Announced promise.id.id := by
  have describes := settled_of_runs promise
    (fun hand => Runs.lift (descriptorForClient_runs made) fun _ _ => Effect.describe)
    wellFormed settled
  apply Meets.bind
  apply Meets.mono describes.ran
  · rintro descriptor described ⟨run, _, _, same, _⟩
    apply (sendResolve_tells described (carries described descriptor run)).mono
    · exact fun _ last tells => tells.after same
    · exact fun _ _ never => never.elim
  · exact fun _ described ⟨_, fails⟩ => fails

theorem resolveExportPromiseCap_tells {client : Nat} (made : client < conn.objects) (wellFormed : conn.WellFormed)
    (carries : ∀ entry resolved described descriptor,
      PromiseExportClient.resolve entry.client client (conn.settledPromise promise entry) = .ok () resolved →
      descriptorForClient client resolved = .ok descriptor described → said (.cap descriptor)) :
    Meets (resolveExportPromiseCap promise client) conn (fun _ after => conn.Tells promise said after)
      fun _ after => resolves after.sent = resolves conn.sent ∧ after.pendingPromise promise.id.id = none := by
  cases pending : conn.pendingPromise promise.id.id with
  | none =>
      have closes : resolveExportPromiseCap promise client conn = close client conn := by
        unfold resolveExportPromiseCap
        rw [bind_apply, get_apply]
        dsimp only
        rw [pending]
      have keeps : Keeps CloseEffect (close client) conn {} fun _ _ => True := close_keeps client
      unfold Meets
      rw [closes]
      apply (keeps wellFormed).mono
      · rintro _ after ⟨left, steps, _⟩
        exact Conn.Tells.of_same (resolves_of_effects (ReflTransGen.mono (fun _ _ => Effect.close) _ _ steps) rfl)
      · rintro error after ⟨left, steps, _⟩
        refine ⟨resolves_of_effects (ReflTransGen.mono (fun _ _ => Effect.close) _ _ steps) rfl, ?_⟩
        rw [Conn.pendingPromise, exportPromises_of_closes steps]
        exact pending
  | some entry =>
      let settled := conn.settledPromise promise entry
      have keeps : ∀ hand, Keeps Effect (PromiseExportClient.resolve entry.client client) settled hand fun _ _ => True :=
        fun _ => PromiseExportClient.resolve_keeps entry.client made
      have resolves := settled_of_runs promise keeps (wellFormed.settledPromise pending)
        (conn.settledPromise_settled promise entry)
      unfold Meets
      rw [resolveExportPromiseCap_pending pending]
      apply Meets.bind
      apply Meets.mono resolves.ran
      · rintro _ resolved ⟨run, formed, grows, same, still⟩
        apply (describe_tells (Nat.lt_of_lt_of_le made grows) formed still
          fun described descriptor ran => carries entry resolved described descriptor run ran).mono
        · exact fun _ last tells => tells.after same
        · exact fun _ last ⟨sent, settled⟩ => ⟨sent.trans same, settled.not_pending⟩
      · exact fun _ resolved ⟨_, same, still⟩ => ⟨same, still.not_pending⟩

theorem resolveFromQuestion_tells (promise : Continuation) (wellFormed : conn.WellFormed) :
    Meets (resolveFromQuestion promise) conn (fun _ after => conn.Tells promise (conn.Carries promise) after)
      fun _ after => conn.Tells promise (conn.Carries promise) after := by
  apply Meets.get
  cases ended : (conn.question promise.question).err with
  | some reason => exact resolveExportPromiseException_tells reason wellFormed (.rejected ended)
  | none =>
      apply Meets.tryCatch
      have reads : Keeps QuietEffect (clientFromResolution promise.transform (conn.question promise.question).obj none)
          conn {} fun client after => client < after.objects := clientFromResolution_keeps promise.transform _ none
      apply Meets.bind
      apply Meets.mono (reads wellFormed).ran
      · rintro client found ⟨run, left, steps, formed, rfl, made⟩
        have same := resolves_of_effects (ReflTransGen.mono (fun _ _ => QuietEffect.effect) _ _ steps) rfl
        apply (resolveExportPromiseCap_tells made formed fun entry resolved described descriptor resolves describes =>
          Conn.Carries.capability ended run resolves describes).mono
        · exact fun _ last tells => tells.after same
        · rintro error last ⟨sent, settled⟩
          have nothing : resolveExportPromiseException promise error.message last = .ok () last := by
            unfold resolveExportPromiseException
            rw [bind_apply, get_apply]
            dsimp only
            rw [settled]
            rfl
          unfold Meets
          rw [nothing]
          exact Conn.Tells.of_same (sent.trans same)
      · rintro error after ⟨run, left, steps, formed, _⟩
        have same := resolves_of_effects (ReflTransGen.mono (fun _ _ => QuietEffect.effect) _ _ steps) rfl
        apply (resolveExportPromiseException_tells error.message formed (Conn.Carries.lost ended run)).mono
        · exact fun _ last tells => tells.after same
        · exact fun _ last tells => tells.after same

end Tells

theorem resume_quietly {promise : Continuation} (idle : conn.pendingPromise promise.id.id = none) :
    Keeps Effect (resume promise) conn hand fun _ _ => True := by
  have quiet : ∀ {after : Conn} (reason : String), after.pendingPromise promise.id.id = none →
      Keeps Effect (resolveExportPromiseException promise reason) after hand fun _ _ => True := by
    intro after reason idle
    apply Keeps.get
    rw [idle]
    exact Keeps.pure trivial
  apply Keeps.bind (Q := fun _ after => after.pendingPromise promise.id.id = none)
  · exact Keeps.modify (.single (.resume promise)) (fun formed => { formed with }) idle
  intro _ first _ _ idle
  apply Keeps.get
  cases (first.question promise.question).err with
  | some reason => exact quiet reason idle
  | none =>
      apply Runs.tryCatch (G := fun error after left => (left = hand ∧ error.isPlain) ∧
        after.pendingPromise promise.id.id = none)
      · have finds : Keeps QuietEffect (clientFromResolution promise.transform (first.question promise.question).obj none)
            first hand fun client after => client < after.objects := clientFromResolution_keeps promise.transform _ none
        have still : ∀ {after : Conn} {left : Hand}, ReflTransGen CloseEffect (first, hand) (after, left) →
            after.pendingPromise promise.id.id = none := by
          intro after left steps
          rw [Conn.pendingPromise, exportPromises_of_closes steps]
          exact idle
        apply Runs.lift (R := CloseEffect) ?_ fun _ _ => Effect.close
        apply Runs.bind (Q := fun client after left => left = hand)
        · apply Runs.mono (finds.lift fun _ _ => CloseEffect.quiet)
          · rintro client after left _ _ ⟨rfl, _⟩
            rfl
          · rintro error after left steps _ failed
            exact ⟨failed, still steps⟩
        · rintro client after left steps _ rfl
          apply Runs.get
          rw [still steps]
          apply Runs.mono (close_keeps client)
          · exact fun _ _ _ _ _ held => ⟨held.1, trivial⟩
          · exact fun _ _ _ later _ failed => ⟨failed, still (steps.trans later)⟩
      · rintro error after left _ _ ⟨⟨rfl, _⟩, idle⟩
        exact quiet error.message idle

/-- In a step no number of a promise export is found to belong to something else: where a promise is described
again, where one that waits is resolved. -/
def NumbersKept (before : Conn) (input : Input) (after : Conn) : Prop :=
  (∀ event ∈ after.trace, event.kept = true) ∧
    ∀ promise ∈ input.resumed, (before.pendingPromise promise.id.id).isSome = true →
      before.Holds before.continuations promise

instance (conn : Conn) (waiting : List Continuation) (promise : Continuation) :
    Decidable (conn.Holds waiting promise) :=
  inferInstanceAs (Decidable (∃ kept ∈ waiting, _))

instance (before : Conn) (input : Input) (after : Conn) : Decidable (NumbersKept before input after) :=
  inferInstanceAs (Decidable (_ ∧ _))

/-- Every Resolve of a step is for the promise whose continuation it runs, and carries what its question came to. -/
def Conn.Announces (before : Conn) (input : Input) (after : Conn) : Prop :=
  ∀ id resolution, .resolve id resolution ∈ after.sent →
    ∃ promise, input = .act (.resume promise) ∧ promise.id = id ∧ (before.resumes promise).Carries promise resolution ∧
      ∃ rc client, .promiseResolved promise rc client ∈ after.trace

theorem Conn.step_announces {after : Conn} {input : Input} (wellFormed : conn.WellFormed)
    (taken : conn.step input = some after) : conn.Announces input after := by
  have unresumed : input.resumed = none → conn.Announces input after := by
    intro idle id resolution member
    obtain ⟨left, steps, _⟩ := (Conn.step_effects wellFormed taken).reached
    have none : input.hand.resumed = none := by
      cases input with
      | act action => exact idle
      | receive m => rfl
    rw [← mem_resolves, resolves_of_effects steps none] at member
    cases member
  cases input with
  | receive m => exact unresumed rfl
  | act action =>
      cases action with
      | resume promise =>
          unfold Conn.step at taken
          dsimp only at taken
          split at taken
          · cases taken
            apply run_meets (P := fun after => conn.Announces (.act (.resume promise)) after)
            have resumed : (conn.resumes promise).WellFormed := { wellFormed with }
            have tells := resolveFromQuestion_tells promise resumed
            change Meets (resolveFromQuestion promise) (conn.resumes promise) _ _
            have announces : ∀ after, (conn.resumes promise).Tells promise ((conn.resumes promise).Carries promise) after →
                conn.Announces (.act (.resume promise)) after := by
              intro after tells id resolution member
              rcases tells id resolution member with earlier | ⟨rfl, carries, said⟩
              · cases earlier
              · exact ⟨promise, rfl, rfl, carries, said⟩
            exact tells.mono (fun _ => announces) fun _ => announces
          · cases taken
      | _ => exact unresumed rfl

/-- What a connection knows of its promise exports between two steps. -/
structure Conn.Promising (conn : Conn) : Prop where
  wellFormed : conn.WellFormed
  promises : conn.PromisesStand

theorem Conn.promising_initial (registry : Nat → Option (List Method)) (stack : Nat) :
    Conn.Promising { registry := registry, stack := stack } :=
  ⟨.initial registry stack, nofun, nofun⟩

theorem Conn.step_resuming {after : Conn} {input : Input} (promising : conn.Promising)
    (taken : conn.step input = some after) (kept : NumbersKept conn input after) :
    ∃ hand left, ReflTransGen Effect (conn.fresh, hand) (after, left) ∧ Resuming conn.continuations (conn.fresh, hand) := by
  obtain ⟨wellFormed, promises⟩ := promising
  have stands : ∀ {question object : Nat} {transform : Transform}, conn.Stands question transform object →
      conn.fresh.Stands question transform object :=
    fun ⟨made, clientMade, client⟩ => ⟨made, clientMade, client⟩
  have initially : ∀ hand : Hand, (∀ promise, hand.resumed = some promise → conn.Holds conn.continuations promise) →
      Resuming conn.continuations (conn.fresh, hand) := by
    intro hand holds
    constructor
    · exact ⟨fun question transform id found => stands (promises.index question transform id found),
        fun promise member => stands (promises.continuations promise member)⟩
    · exact fun promise member => stands (promises.continuations promise member)
    · exact holds
  have reached := (Conn.step_effects wellFormed taken).reached
  obtain ⟨left, steps, _⟩ := reached
  cases resumed : input.resumed with
  | none =>
      refine ⟨_, _, steps, initially _ ?_⟩
      intro promise found
      cases input with
      | act action => cases resumed.symm.trans found
      | receive m => cases found
  | some promise =>
      cases pending : conn.pendingPromise promise.id.id with
      | some entry =>
          refine ⟨_, _, steps, initially _ ?_⟩
          intro other found
          have same : input.resumed = some other := by
            cases input with
            | act action => exact found
            | receive m => cases found
          exact kept.2 other same (by
            cases resumed.symm.trans same
            rw [pending]
            rfl)
      | none =>
          obtain ⟨rfl⟩ : input = .act (.resume promise) := by
            cases input with
            | receive m => cases resumed
            | act action =>
                cases action with
                | resume other =>
                    cases resumed
                    rfl
                | _ => cases resumed
          unfold Conn.step at taken
          dsimp only at taken
          split at taken
          · cases taken
            have keeps : Keeps Effect (resume promise) conn.fresh {} fun _ _ => True := resume_quietly pending
            have reached : ∃ left, ReflTransGen Effect (conn.fresh, {}) (conn.run (resume promise), left) := by
              apply run_meets (P := fun after => ∃ left, ReflTransGen Effect (conn.fresh, {}) (after, left))
              apply (keeps { wellFormed with }).mono
              · exact fun _ _ ⟨left, steps, _⟩ => ⟨left, steps⟩
              · exact fun _ _ ⟨left, steps, _⟩ => ⟨left, steps⟩
            obtain ⟨left, steps⟩ := reached
            exact ⟨_, _, steps, initially _ nofun⟩
          · cases taken

theorem Conn.Promising.step {after : Conn} {input : Input} (promising : conn.Promising)
    (taken : conn.step input = some after) (kept : NumbersKept conn input after) :
    after.Promising ∧ ∀ event ∈ after.trace, event.Names := by
  obtain ⟨hand, left, steps, resuming⟩ := Conn.step_resuming promising taken kept
  obtain ⟨resuming, named⟩ := names_of_effects steps resuming kept.1 nofun
  exact ⟨⟨(Conn.step_effects promising.wellFormed taken).wellFormed, resuming.promises⟩, named⟩

theorem promises_named_of_run {registry : Nat → Option (List Method)} {stack : Nat} {before after : Conn}
    {input : Input} (run : Transition.Run Conn.step NumbersKept { registry := registry, stack := stack } before)
    (taken : before.step input = some after) (kept : NumbersKept before input after) :
    (∀ event ∈ after.trace, event.Names) ∧ before.Announces input after := by
  have promising : before.Promising := by
    apply run.invariant (Conn.promising_initial registry stack)
    intro earlier input later promising taken kept
    exact (promising.step taken kept).1
  exact ⟨(promising.step taken kept).2, Conn.step_announces promising.wellFormed taken⟩

/-- A pipeline of another connection's question, sent with a call, and the number it is given. -/
def exportedPromise : List Input :=
  [.act .newOtherClient, .act .newForeignQuestion, .act (.newPipeline 1 []), .act .bootstrap,
    .act (.newPipeline 3 []), .act (.newCapTable [some 2]),
    .act (.call 4 { method := { interfaceId := 0, methodId := 0 }
                    params := { content := .interface, message := 5 } })]

/-- It is sent again, and then its question is given a pipeline of this connection's own question. -/
def resolvedPromise : List Input :=
  exportedPromise ++ [.act (.call 4 { method := { interfaceId := 0, methodId := 0 }
                                      params := { content := .interface, message := 5 } }),
    .act (.newCapTable [some 4]), .act (.settleForeign 1 (.ok { content := .interface, message := 11 }))]

def RpcMessage.leadsBack : RpcMessage → Bool
  | .resolve _ (.cap (.receiverAnswer _ _)) => true
  | _ => false

theorem promises_named_of_run_resolved :
    ∃ before after, Transition.Run.followTested Conn.step (fun before input after => decide (NumbersKept before input after))
        { registry := fun _ => none } resolvedPromise = some before ∧
      before.step (.act (.resume ⟨1, [], ⟨0, 8⟩⟩)) = some after ∧ after.sent.any RpcMessage.leadsBack = true ∧
      (∀ event ∈ after.trace, event.Names) ∧ before.Announces (.act (.resume ⟨1, [], ⟨0, 8⟩⟩)) after := by
  have runs : ((Transition.Run.followTested Conn.step (fun before input after => decide (NumbersKept before input after))
      { registry := fun _ => none } resolvedPromise).bind fun before =>
        (before.step (.act (.resume ⟨1, [], ⟨0, 8⟩⟩))).map fun after =>
          decide (NumbersKept before (.act (.resume ⟨1, [], ⟨0, 8⟩⟩)) after) && after.sent.any RpcMessage.leadsBack) =
      some true := by
    decide +kernel
  obtain ⟨before, followed, resumed⟩ := Option.bind_eq_some_iff.mp runs
  obtain ⟨after, taken, resolved⟩ := Option.map_eq_some_iff.mp resumed
  rw [Bool.and_eq_true, decide_eq_true_eq] at resolved
  have run : Transition.Run Conn.step NumbersKept { registry := fun _ => none } before :=
    .of_followTested .start (fun _ _ _ => of_decide_eq_true) followed
  exact ⟨before, after, followed, taken, resolved.2, promises_named_of_run run taken resolved.1⟩

/-- The peer releases the promise, and its number is given to another capability. -/
def reusedNumber : List Input :=
  [.receive (.release { id := 0, object := 8 } 1), .act (.newCapTable [some 0]),
    .act (.call 4 { method := { interfaceId := 0, methodId := 0 }
                    params := { content := .interface, message := 10 } })]

def describedAgain : Input :=
  .act (.call 4 { method := { interfaceId := 0, methodId := 0 }
                  params := { content := .interface, message := 5 } })

def Event.confuses : Event → Bool
  | .promiseExported _ _ _ _ (some .other) => true
  | _ => false

theorem promises_not_always_named :
    ¬ ∀ before input after, Transition.Run Conn.step (fun _ _ _ => True) { registry := fun _ => none } before →
      before.step input = some after → (∀ event ∈ after.trace, event.Names) ∧ before.Announces input after := by
  intro always
  have confused : ((Transition.Run.follow Conn.step { registry := fun _ => none }
      (exportedPromise ++ reusedNumber)).bind fun before =>
        (before.step describedAgain).map fun after => after.trace.any Event.confuses) = some true := by
    decide +kernel
  obtain ⟨before, followed, described⟩ := Option.bind_eq_some_iff.mp confused
  obtain ⟨after, taken, some_⟩ := Option.map_eq_some_iff.mp described
  obtain ⟨event, member, other⟩ := List.any_eq_true.mp some_
  have names := (always before describedAgain after (.of_follow .start followed) taken).1 event member
  unfold Event.confuses at other
  split at other
  · obtain ⟨c, same, _⟩ := names
    cases same
  · cases other

end CapnpEs.Rpc
