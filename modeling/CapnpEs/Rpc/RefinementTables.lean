import CapnpEs.Rpc.Refinement

/-! The tables: every function of `Tables` makes quiet changes or describes clients. -/

namespace CapnpEs.Rpc

open Relation SlotTable

variable {conn : Conn} {hand : Hand}

namespace Client.Holds

theorem refl (client : Client) : client.Holds client where
  released same := same
  embargoed c shape := ⟨c, shape, rfl, fun _ under => ⟨under, List.prefix_refl _⟩⟩

theorem trans {first second third : Client} (sooner : first.Holds second) (later : second.Holds third) :
    first.Holds third where
  released free := later.released (sooner.released free)
  embargoed c shape := by
    obtain ⟨c', shape', same, holds⟩ := sooner.embargoed c shape
    obtain ⟨c'', shape'', same', holds'⟩ := later.embargoed c' shape'
    refine ⟨c'', shape'', same'.trans same, ?_⟩
    intro isOpen under
    obtain ⟨still, waits⟩ := holds isOpen under
    obtain ⟨last, waitsYet⟩ := holds' (same.trans isOpen) still
    exact ⟨last, waits.trans waitsYet⟩

/-- A client that holds no calls back, and stays of its kind. -/
theorem of_released {before after : Client} (free : before.isReleased = true) (same : after.core = before.core) :
    before.Holds after := by
  cases before with
  | importClient c =>
      cases after with
      | importClient c' =>
          have closed : c'.closed = c.closed := by
            simp only [Client.core, Client.importClient.injEq, ImportClient.mk.injEq] at same
            exact same.2.1
          refine ⟨fun _ => closed.trans free, ?_⟩
          intro _ shape
          cases shape
          refine ⟨c', rfl, closed, fun isOpen => ?_⟩
          cases isOpen.symm.trans free
      | _ => cases same
  | _ =>
      cases after with
      | importClient c' => cases same
      | _ => exact ⟨fun _ => rfl, fun c shape => by cases shape⟩

theorem closeRef (rc : Nat) : (Client.ref rc false).Holds (.ref rc true) where
  released _ := rfl
  embargoed c shape := by cases shape

theorem setCalls (client : Client) {calls : List QueuedCall} (longer : client.calls <+: calls) :
    client.Holds (client.setCalls calls) := by
  cases client with
  | importClient c =>
      refine ⟨fun free => free, ?_⟩
      intro _ same
      cases same
      exact ⟨_, rfl, rfl, fun _ under => ⟨under, longer⟩⟩
  | _ => exact ⟨fun _ => rfl, fun _ same => by cases same⟩

theorem withResolved (client : Client) (target : Nat) : client.Holds (client.withResolved target) := by
  cases client with
  | importClient c =>
      refine ⟨fun free => free, ?_⟩
      intro _ same
      cases same
      exact ⟨_, rfl, rfl, fun _ under => ⟨under, List.prefix_refl _⟩⟩
  | _ => exact ⟨fun _ => rfl, fun _ same => by cases same⟩

theorem withEmbargo (client : Client) (id : Nat) : client.Holds (client.withEmbargo id) := by
  cases client with
  | importClient c =>
      refine ⟨fun free => free, ?_⟩
      intro _ same
      cases same
      exact ⟨_, rfl, rfl, fun _ _ => ⟨rfl, List.prefix_refl _⟩⟩
  | _ => exact ⟨fun _ => rfl, fun _ same => by cases same⟩

end Client.Holds

theorem Conn.setClient_core {id : Nat} {client : Client} (same : client.core = (conn.client id).core) (i : Nat) :
    ((conn.setClient id client).client i).core = (conn.client i).core := by
  by_cases here : i = id
  · subst here
    simpa [Conn.setClient] using same
  · simp [Conn.setClient, here]

namespace Quiet

theorem refl (conn : Conn) : Quiet conn conn where
  questionID := rfl
  questions := rfl
  answers := rfl
  exportID := rfl
  exports := rfl
  imports _ := rfl
  exportPromises := rfl
  exportPromiseIndex := rfl
  continuations := rfl
  closed := rfl
  transportClosed := rfl
  working := id
  receiving := id
  disembargoes _ := Or.inr rfl
  waiters _ := Or.inr rfl
  sent := rfl
  trace := rfl
  objects := Nat.le_refl _
  question _ _ := rfl
  answer _ := rfl
  client _ _ := rfl
  held _ _ := .refl _
  refCount _ _ := rfl
  made _ _ := Or.inr rfl

theorem alterQuestion {q : Nat} {change : Question → Question}
    (same : q < conn.objects → (change (conn.question q)).core = (conn.question q).core) :
    Quiet conn (conn.alterQuestion q change) := by
  refine { refl conn with question := ?_ }
  intro q' below
  by_cases here : q' = q
  · subst here
    simpa [Conn.alterQuestion] using same below
  · simp [Conn.alterQuestion, here]

theorem alterAnswer {a : Nat} {change : AnswerEntry → AnswerEntry}
    (same : (change (conn.answer a)).core = (conn.answer a).core) : Quiet conn (conn.alterAnswer a change) := by
  refine { refl conn with answer := ?_ }
  intro a'
  by_cases here : a' = a
  · subst here
    simpa [Conn.alterAnswer] using same
  · simp [Conn.alterAnswer, here]

theorem setClient {id : Nat} {client : Client} (same : client.core = (conn.client id).core)
    (holds : (conn.client id).Holds client) : Quiet conn (conn.setClient id client) := by
  have cores := Conn.setClient_core same
  refine { refl conn with client := fun id' _ => cores id', held := ?_, made := fun id' _ => Or.inr (cores id') }
  intro id' _
  by_cases here : id' = id
  · subst here
    simpa [Conn.setClient] using holds
  · simpa [Conn.setClient, here] using Client.Holds.refl _

theorem newClient {client : Client} (ordinary : client.ordinary) :
    Quiet conn (conn.withClient client) := by
  have kept : ∀ id < conn.objects, (conn.withClient client).client id = conn.client id := by
    intro id below
    simp [Conn.withClient, Conn.allocated, Conn.setClient, Function.update_of_ne (Nat.ne_of_lt below)]
  refine { refl conn with objects := Nat.le_succ _, client := ?_, held := ?_, made := ?_ }
  · intro id below
    rw [kept id below]
  · intro id below
    rw [kept id below]
    exact .refl _
  · intro id beyond
    by_cases here : id = conn.objects
    · subst here
      left
      simpa [Conn.withClient, Conn.allocated, Conn.setClient] using ordinary
    · right
      simp [Conn.withClient, Conn.allocated, Conn.setClient, here]

theorem setCapTable (message : Nat) (table : List (Option Nat)) : Quiet conn (conn.setCapTable message table) :=
  { refl conn with }

theorem newMessage (table : List (Option Nat)) : Quiet conn (conn.setCapTable conn.objects table).allocated :=
  { refl conn with objects := Nat.le_succ _ }

theorem dropDisembargo (id : Nat) (gen : IdGen) :
    Quiet conn { conn.setDisembargo id none with disembargoID := gen } := by
  refine { refl conn with disembargoes := ?_ }
  intro other
  simp only [Conn.setDisembargo, find_put]
  split
  · exact Or.inl rfl
  · exact Or.inr rfl

theorem clearWaiters (id : Nat) : Quiet conn (conn.setWaiters id none) := by
  refine { refl conn with waiters := ?_ }
  intro other
  simp only [Conn.setWaiters, find_put]
  split
  · exact Or.inl rfl
  · exact Or.inr rfl

theorem step {after : Conn} (same : Quiet conn after) :
    ReflTransGen QuietEffect (conn, hand) (after, hand) :=
  .single (.quiet same)

end Quiet

theorem QuietEffect.close {before after : Conn × Hand} (effect : QuietEffect before after) :
    CloseEffect before after :=
  .quiet effect

theorem QuietEffect.describe {before after : Conn × Hand} (effect : QuietEffect before after) :
    DescribeEffect before after :=
  .quiet effect

theorem QuietEffect.effect {before after : Conn × Hand} (effect : QuietEffect before after) :
    Effect before after :=
  .close (.quiet effect)

theorem newClient_keeps {c : Client} (ordinary : c.ordinary)
    (leads : conn.WellFormed → ∀ other ∈ c.references, other < conn.objects)
    (routed : conn.WellFormed → ∀ a call, .remote a call ∈ c.calls → (conn.answer a).routed) :
    Keeps QuietEffect (newClient c) conn hand fun id after => id < after.objects := by
  apply Keeps.modifyGet (Quiet.newClient ordinary).step
  · intro wellFormed
    exact wellFormed.withClient (leads wellFormed) (routed wellFormed) (by rintro i rfl; cases ordinary)
  · exact Nat.lt_succ_self _

theorem findClient_keeps (struct : Struct) (transform : Transform) :
    Keeps QuietEffect (findClient struct transform) conn hand fun client after => client < after.objects := by
  apply Keeps.given_wellFormed
  intro wellFormed
  apply Keeps.get
  cases struct.content.capIndex transform with
  | error reason => exact Keeps.throw
  | ok capId =>
      dsimp only
      cases found : capId.bind (conn.slot struct) with
      | none => exact newClient_keeps rfl (by simp [Client.references]) (by simp [Client.calls])
      | some client =>
          apply Keeps.pure
          cases capId with
          | none => cases found
          | some capId => exact wellFormed.slot found

theorem clientFromResolution_keeps (transform : Transform) (obj : Option Struct) (err : Option String) :
    Keeps QuietEffect (clientFromResolution transform obj err) conn hand
      fun client after => client < after.objects := by
  cases err with
  | some reason => exact newClient_keeps rfl (by simp [Client.references]) (by simp [Client.calls])
  | none =>
      cases obj with
      | none => exact newClient_keeps rfl (by simp [Client.references]) (by simp [Client.calls])
      | some struct => exact findClient_keeps struct transform

theorem clientFromFixed_keeps (transform : Transform) (answer : Except String Struct) :
    Keeps QuietEffect (clientFromFixed transform answer) conn hand fun client after => client < after.objects := by
  cases answer with
  | ok struct => exact clientFromResolution_keeps transform (some struct) none
  | error reason => exact clientFromResolution_keeps transform none (some reason)

theorem createExport_run (client : Nat) :
    createExport client conn = .ok conn.nextExport (conn.withExport client) := by
  rfl

namespace Conn

theorem WellFormed.withExport (wellFormed : conn.WellFormed) {client : Nat} (made : client < conn.objects) :
    (conn.withExport client).WellFormed := by
  have counted := (wellFormed.setRefCount conn.objects (c := { client := client, refs := 1 })
    (Or.inr made) (Or.inl (Nat.le_refl _))).allocated
  have referred := counted.withClient (c := .ref conn.objects false)
    (by simp [Client.references, Conn.allocated, Conn.setRefCount]) nofun nofun
  refine { referred with exports := ?_, exportIds := ?_ }
  · intro id e found
    simp only [Conn.findExport, Conn.withExport, Conn.setExport, find_put] at found
    split at found
    · cases found
      simp only [Conn.withExport, Conn.withClient, Conn.allocated, Conn.setExport, Conn.setClient,
        Conn.setRefCount, Conn.takeExportId]
      omega
    · exact referred.exports id e found
  · apply wellFormed.exportIds.next.of_iff
    intro id
    simp only [Conn.findExport, Conn.withExport, Conn.setExport, find_put]
    split
    · rename_i same
      simp [same]
    · rename_i other
      simp only [other, false_or]
      rfl

theorem withExport_found (client : Nat) : ∃ e, (conn.withExport client).findExport conn.nextExport.id = some e ∧
    e.rc = conn.nextExport.object := by
  simp [withExport, findExport, nextExport, setExport]

theorem retainExport_found {i : Nat} (e : Export) :
    ∃ e', (conn.retainExport i e).findExport i = some e' ∧ e'.rc = e.rc := by
  simp [retainExport, findExport, setExport]

theorem WellFormed.retainExport (wellFormed : conn.WellFormed) {id : Nat} {e : Export}
    (found : conn.findExport id = some e) : (conn.retainExport id e).WellFormed :=
  wellFormed.setExport (by simp [found]) (wellFormed.exports id e found)

theorem norm_withClient (wellFormed : conn.WellFormed) (added : Client) (hops : Nat) {client : Nat}
    (made : client < conn.objects) : (conn.withClient added).norm hops client = conn.norm hops client := by
  induction hops generalizing client with
  | zero => rfl
  | succ hops ih =>
      have same : (conn.withClient added).normalize client = conn.normalize client := by
        simp [normalize, withClient, allocated, setClient, Function.update_of_ne (Nat.ne_of_lt made)]
      unfold norm
      rw [same]
      cases found : conn.normalize client with
      | none => rfl
      | some next => simp only [ih (wellFormed.normalize made found)]

theorem exportOf_withClient (wellFormed : conn.WellFormed) {added : Client}
    (leaf : (conn.withClient added).normalize conn.objects = none) :
    (conn.withClient added).exportOf conn.objects = none := by
  unfold exportOf
  rw [List.find?_eq_none]
  intro i _
  have self : (conn.withClient added).norm 64 conn.objects = conn.objects := by
    unfold norm
    rw [leaf]
  cases found : (conn.withClient added).findExport i with
  | none => simp
  | some e =>
      have held := wellFormed.exports i e found
      have client : (conn.refCount e.rc).client < conn.objects := by
        rcases wellFormed.refCounts e.rc with unset | made
        · omega
        · exact made
      have below := wellFormed.norm 64 client
      have count : (conn.withClient added).refCount = conn.refCount := rfl
      simp only [isSameClient, self, count, norm_withClient wellFormed added 64 client]
      simp only [beq_iff_eq]
      omega

end Conn

theorem Conn.WellFormed.nextExport_free (wellFormed : conn.WellFormed) :
    conn.findExport conn.exportID.next.1 = none := by
  simpa using wellFormed.exportIds.next_unused

variable (conn hand) in
theorem addExport_runs {client : Nat} (made : client < conn.objects) :
    Runs DescribeEffect (addExport client) conn hand
      (fun id after held => held = hand.prepare [id] ∧ ∃ e, after.findExport id.id = some e ∧ e.rc = id.object)
      fun error _ left => left = hand ∧ error.isPlain := by
  have created : Runs DescribeEffect (createExport client) conn hand
      (fun id after held => held = hand.prepare [id] ∧ ∃ e, after.findExport id.id = some e ∧ e.rc = id.object)
      fun error _ left => left = hand ∧ error.isPlain := by
    intro wellFormed
    refine Runs.of_ok (createExport_run client) (.single (.create made wellFormed.nextExport_free)) ?_ ?_ wellFormed
    · exact fun wellFormed => wellFormed.withExport made
    · exact ⟨rfl, conn.withExport_found client⟩
  apply Runs.get
  cases same : conn.exportOf client with
  | none => exact created
  | some i =>
      dsimp only
      cases found : conn.findExport i with
      | none => exact created
      | some e =>
          apply Runs.bind (Q := fun _ after held =>
            held = hand.prepare [⟨i, e.rc⟩] ∧ after = conn.retainExport i e)
          · apply Runs.set (.single (.retain found))
            · exact fun wellFormed => wellFormed.retainExport found
            · exact ⟨rfl, rfl⟩
          · rintro _ after held _ _ ⟨rfl, rfl⟩
            exact Runs.pure ⟨rfl, conn.retainExport_found e⟩

theorem Conn.WellFormed.withPromise (wellFormed : conn.WellFormed) (question : Nat) (transform : Transform) :
    (conn.withPromise question transform).WellFormed := by
  have made := wellFormed.withClient
    (c := .promiseExport { question := question, transform := transform })
    (by simp [Client.references]) (by simp [Client.calls]) nofun
  exact (made.withExport (Nat.lt_succ_self _)).indexExportPromise question transform _

theorem Conn.withExport_exportPromises (client : Nat) :
    (conn.withExport client).exportPromises = conn.exportPromises := by
  rfl

theorem Conn.withPromise_exportPromises (conn : Conn) (question : Nat) (transform : Transform) :
    (conn.withPromise question transform).exportPromises = conn.exportPromises := by
  rw [withPromise_eq]

theorem Conn.withPromise_found (conn : Conn) (question : Nat) (transform : Transform) :
    ∃ e, (conn.withPromise question transform).findExport conn.allocated.nextExport.id = some e ∧
      e.rc = conn.allocated.nextExport.object :=
  (conn.withClient (.promiseExport { question := question, transform := transform })).withExport_found conn.objects

theorem Conn.withPromise_indexed (conn : Conn) (question : Nat) (transform : Transform) :
    (conn.withPromise question transform).exportPromiseIndex question transform =
      some conn.allocated.nextExport := by
  simp [withPromise, indexExportPromise, withClient, allocated, nextExport, setClient]

/-- What a promise export is returned with: the index leads to it, and it is in the table. -/
def Conn.Promised (question : Nat) (transform : Transform) (indexed : Option (WireId × Nat)) (id : WireId)
    (conn : Conn) : Prop :=
  ∃ before e, conn.exportPromiseIndex question transform = some before ∧ before.id = id.id ∧
    conn.findExport id.id = some e ∧ e.rc = id.object ∧ (indexed = some (before, id.object) ∨ before = id)

theorem newExportPromise_run (wellFormed : conn.WellFormed) (question : Nat) (transform : Transform) :
    newExportPromise question transform conn =
      if (find conn.exportPromises conn.allocated.nextExport.id).isSome then
        .ok conn.allocated.nextExport (conn.withPromise question transform)
      else
        .ok conn.allocated.nextExport ((conn.withPromise question transform).awaitPromise
          { question := question, transform := transform, id := conn.allocated.nextExport } conn.objects) := by
  have none_ : (conn.withClient (.promiseExport { question := question, transform := transform })).exportOf
      conn.objects = none := by
    apply conn.exportOf_withClient wellFormed
    simp [Conn.normalize, Conn.withClient, Conn.allocated, Conn.setClient]
  have added : addExport conn.objects
      (conn.withClient (.promiseExport { question := question, transform := transform })) =
      .ok conn.allocated.nextExport
        ((conn.withClient (.promiseExport { question := question, transform := transform })).withExport
          conn.objects) := by
    unfold addExport
    rw [Outcome.bind_apply, Outcome.get_apply]
    simp only [none_]
    rfl
  have made : newClient (.promiseExport { question := question, transform := transform }) conn =
      .ok conn.objects (conn.withClient (.promiseExport { question := question, transform := transform })) := rfl
  unfold newExportPromise
  rw [Outcome.bind_apply, made]
  dsimp only
  rw [Outcome.bind_apply, added]
  dsimp only
  rw [Outcome.bind_apply, Outcome.modify_apply]
  dsimp only
  rw [Outcome.bind_apply, Outcome.get_apply]
  dsimp only
  have entries : ((conn.withClient (.promiseExport { question := question, transform := transform })).withExport
      conn.objects |>.indexExportPromise question transform (some conn.allocated.nextExport)).exportPromises =
      conn.exportPromises := by
    exact Conn.withExport_exportPromises conn.objects
  rw [entries]
  by_cases known : (find conn.exportPromises conn.allocated.nextExport.id).isSome
  · rw [if_pos known, if_pos known]
    rfl
  · rw [if_neg known, if_neg known]
    rfl

theorem newExportPromise_runs (question : Nat) (transform : Transform) :
    Runs DescribeEffect (newExportPromise question transform) conn hand
      (fun id after held => held = hand.prepare [id] ∧ after.Promised question transform none id)
      fun error _ left => left = hand ∧ error.isPlain := by
  intro wellFormed
  have steps : ReflTransGen DescribeEffect (conn, hand)
      (conn.withPromise question transform, hand.prepare [conn.allocated.nextExport]) :=
    .single (.promise question transform wellFormed.nextExport_free)
  have promised : (conn.withPromise question transform).Promised question transform none
      conn.allocated.nextExport := by
    obtain ⟨e, found, same⟩ := conn.withPromise_found question transform
    exact ⟨_, e, conn.withPromise_indexed question transform, rfl, found, same, Or.inr rfl⟩
  have formed := wellFormed.withPromise question transform
  unfold Outcome.Meets
  rw [newExportPromise_run wellFormed]
  split
  · rename_i value after run
    split at run
    · cases run
      exact ⟨_, steps, formed, rfl, promised⟩
    · rename_i unknown
      cases run
      have unawaited : find (conn.withPromise question transform).exportPromises conn.allocated.nextExport.id = none := by
        rw [conn.withPromise_exportPromises]
        simpa using unknown
      let promise : Continuation := { question := question, transform := transform, id := conn.allocated.nextExport }
      have awaits : DescribeEffect (conn.withPromise question transform, hand.prepare [promise.id])
          ((conn.withPromise question transform).awaitPromise promise conn.objects, hand.prepare [promise.id]) :=
        .awaitPromise (conn.withPromise_indexed question transform) unawaited
      refine ⟨_, steps.tail awaits, ?_, rfl, promised⟩
      have client : conn.objects < (conn.withPromise question transform).objects := by
        simp only [Conn.withPromise, Conn.indexExportPromise, Conn.withExport, Conn.withClient, Conn.allocated,
          Conn.setExport, Conn.setClient, Conn.setRefCount, Conn.takeExportId]
        omega
      have free : ((conn.withPromise question transform).client conn.objects).isReleased = true := by
        rw [Conn.withPromise_eq]
        simp [Client.isReleased]
      have entered := formed.setExportPromise conn.allocated.nextExport.id
        (s := some { settled := false, client := conn.objects }) (by rintro entry same; cases same; exact ⟨client, free⟩)
      exact { entered with }
  · rename_i error after run
    split at run
    · cases run
    · cases run

namespace QuietEffect

theorem objects_le {before after : Conn × Hand} (effect : QuietEffect before after) :
    before.1.objects ≤ after.1.objects := by
  cases effect with
  | quiet same => exact same.objects
  | forget fewer => exact Nat.le_refl _

end QuietEffect

theorem Conn.objects_le_withExport (client : Nat) : conn.objects ≤ (conn.withExport client).objects := by
  simp only [Conn.withExport, Conn.withClient, Conn.allocated, Conn.setExport, Conn.setClient, Conn.setRefCount,
    Conn.takeExportId]
  omega

theorem DescribeEffect.objects_le {before after : Conn × Hand} (effect : DescribeEffect before after) :
    before.1.objects ≤ after.1.objects := by
  cases effect with
  | quiet effect => exact effect.objects_le
  | mention found => exact Nat.le_refl _
  | retain found => exact Nat.le_refl _
  | create made free => exact Conn.objects_le_withExport _
  | unindex question transform => exact Nat.le_refl _
  | promise question transform free =>
      rename_i conn hand
      exact Nat.le_trans (Nat.le_succ _) ((conn.withClient
        (.promiseExport { question := question, transform := transform })).objects_le_withExport conn.objects)
  | awaitPromise indexed unknown => exact Nat.le_refl _
  | exported current number found sameExport origin => exact Nat.le_refl _

theorem objects_le_of_steps {R : Conn × Hand → Conn × Hand → Prop}
    (grows : ∀ before after, R before after → before.1.objects ≤ after.1.objects) {before after : Conn × Hand}
    (steps : ReflTransGen R before after) : before.1.objects ≤ after.1.objects := by
  induction steps with
  | refl => exact Nat.le_refl _
  | tail _ effect ih => exact Nat.le_trans ih (grows _ _ effect)

theorem Conn.Promised.weaken {question : Nat} {transform : Transform} {indexed : Option (WireId × Nat)} {id : WireId}
    (promised : conn.Promised question transform none id) : conn.Promised question transform indexed id := by
  obtain ⟨before, e, current, number, found, same, origin⟩ := promised
  refine ⟨before, e, current, number, found, same, Or.inr ?_⟩
  rcases origin with absurd_ | same
  · cases absurd_
  · exact same

theorem indexedExportPromise_runs (question : Nat) (transform : Transform) :
    Runs DescribeEffect (indexedExportPromise question transform) conn hand
      (fun id after held => held = hand.prepare [id] ∧
        after.Promised question transform (conn.indexedExport question transform) id)
      fun error _ left => left = hand ∧ error.isPlain := by
  apply Runs.get
  cases indexed : conn.exportPromiseIndex question transform with
  | none =>
      have absent : conn.indexedExport question transform = none := by
        unfold Conn.indexedExport
        rw [indexed]
        rfl
      rw [absent]
      exact newExportPromise_runs question transform
  | some existingId =>
      dsimp only
      cases found : conn.findExport existingId.id with
      | none =>
          apply Runs.bind (Q := fun _ _ held => held = hand)
          · exact Runs.set (.single (.unindex question transform))
              (fun wellFormed => wellFormed.indexExportPromise question transform none) rfl
          · rintro _ after held _ _ rfl
            apply (newExportPromise_runs question transform).mono
            · rintro id last left _ _ ⟨same, promised⟩
              exact ⟨same, promised.weaken⟩
            · intro error last left _ _ failed
              exact failed
      | some existing =>
          apply Runs.bind (Q := fun _ after held =>
            held = hand.prepare [⟨existingId.id, existing.rc⟩] ∧ after = conn.retainExport existingId.id existing)
          · apply Runs.set (.single (.retain found))
            · exact fun wellFormed => wellFormed.retainExport found
            · exact ⟨rfl, rfl⟩
          · rintro _ after held _ _ ⟨rfl, rfl⟩
            obtain ⟨e, found', same⟩ := conn.retainExport_found (i := existingId.id) existing
            have live : conn.indexedExport question transform = some (existingId, existing.rc) := by
              unfold Conn.indexedExport
              rw [indexed]
              simp [found]
            exact Runs.pure ⟨rfl, existingId, e, indexed, rfl, found', same, Or.inl live⟩

theorem addExportPromise_runs (question : Nat) (transform : Transform) :
    Runs DescribeEffect (addExportPromise question transform) conn hand
      (fun id _ held => held = hand.prepare [id]) fun error _ left => left = hand ∧ error.isPlain := by
  apply Runs.get
  apply Runs.bind (indexedExportPromise_runs question transform)
  rintro id after held _ _ ⟨rfl, before, e, current, number, found, same, origin⟩
  apply Runs.get
  apply Runs.bind (Q := fun _ _ left => left = hand.prepare [id])
  · exact Runs.modify (.single (.exported current number found same origin))
      (fun wellFormed => wellFormed.say _) rfl
  · rintro _ last left _ _ rfl
    exact Runs.pure rfl

theorem Hand.prepare_nil (hand : Hand) : hand.prepare [] = hand := by
  simp [Hand.prepare]

theorem Hand.prepare_append (hand : Hand) (first second : List WireId) :
    (hand.prepare first).prepare second = hand.prepare (first ++ second) := by
  simp [Hand.prepare]

theorem Hand.forget_prepared (ids : List WireId) : ReflTransGen DescribeEffect (conn, hand.prepare ids) (conn, hand) := by
  apply ReflTransGen.single
  apply DescribeEffect.quiet
  apply QuietEffect.forget
  constructor
  · rfl
  · exact List.Subset.refl _
  · exact List.Sublist.refl _
  · exact List.sublist_append_left _ _
  · exact List.Sublist.refl _
  · exact Or.inl rfl
  · rfl
  · rfl
  · rfl
  · rfl

theorem dig_runs (fuel client : Nat) :
    Runs DescribeEffect (dig fuel client) conn hand
      (fun found _ held => held = hand.prepare (found.bind CapDescriptor.hosted).toList)
      fun error _ left => left = hand ∧ error.isPlain := by
  have asRuns : ∀ {conn : Conn} {found : Option CapDescriptor}, found.bind CapDescriptor.hosted = none →
      Runs DescribeEffect (pure found : ConnM _) conn hand
        (fun found _ held => held = hand.prepare (found.bind CapDescriptor.hosted).toList)
        fun error _ left => left = hand ∧ error.isPlain := by
    intro conn found nothing
    apply Runs.pure
    rw [nothing]
    exact hand.prepare_nil.symm
  induction fuel generalizing conn client with
  | zero => exact Runs.throw ⟨rfl, rfl⟩
  | succ fuel ih =>
      apply Runs.get
      cases shape : conn.client client with
      | ref rc closed => exact ih (conn.refCount rc).client
      | importClient c =>
          apply Runs.bind (Q := fun _ _ held => held = hand)
          · exact Runs.modify (.single (.mention shape)) (fun wellFormed => wellFormed.say _) rfl
          · rintro _ after held _ _ rfl
            exact asRuns rfl
      | fixedPipeline answer transform =>
          apply Runs.bind ((clientFromFixed_keeps transform answer).lift fun _ _ => QuietEffect.describe)
          rintro next after held _ _ ⟨rfl, _⟩
          exact ih next
      | pipeline q transform =>
          dsimp only
          split
          · split
            · exact asRuns rfl
            · apply Runs.bind (addExportPromise_runs q transform)
              rintro id after held _ _ rfl
              exact Runs.pure rfl
          · apply Runs.bind ((clientFromResolution_keeps transform (conn.question q).obj
              (conn.question q).err).lift fun _ _ => QuietEffect.describe)
            rintro next after held _ _ ⟨rfl, _⟩
            exact ih next
      | server methods => exact asRuns rfl
      | error reason => exact asRuns rfl
      | localAnswer a transform => exact asRuns rfl
      | promiseExport c => exact asRuns rfl
      | queue c => exact asRuns rfl
      | null => exact asRuns rfl
      | other => exact asRuns rfl

theorem descriptorForClient_runs {client : Nat} (made : client < conn.objects) :
    Runs DescribeEffect (descriptorForClient client) conn hand
      (fun descriptor _ held => held = hand.prepare descriptor.hosted.toList)
      fun error _ left => left = hand ∧ error.isPlain := by
  apply Runs.get
  apply Runs.bind (dig_runs conn.stack client)
  rintro found after held steps _ rfl
  cases found with
  | some descriptor => exact Runs.pure rfl
  | none =>
      have still : client < after.objects :=
        Nat.lt_of_lt_of_le made (objects_le_of_steps (fun _ _ => DescribeEffect.objects_le) steps)
      rw [show hand.prepare ((none : Option CapDescriptor).bind CapDescriptor.hosted).toList = hand from
        hand.prepare_nil]
      apply Runs.bind (addExport_runs _ _ still)
      rintro id last held _ _ ⟨rfl, _⟩
      exact Runs.pure rfl

theorem descriptorForSlot_runs {slot : Option Nat} (made : ∀ client, slot = some client → client < conn.objects) :
    Runs DescribeEffect (descriptorForSlot slot) conn hand
      (fun descriptor _ held => held = hand.prepare descriptor.hosted.toList)
      fun error _ left => left = hand ∧ error.isPlain := by
  cases slot with
  | none => exact Runs.pure hand.prepare_nil.symm
  | some client => exact descriptorForClient_runs (made client rfl)

theorem hosted_cons (descriptor : CapDescriptor) (capTable : List CapDescriptor) :
    hosted (descriptor :: capTable) = descriptor.hosted.toList ++ hosted capTable := by
  unfold hosted
  rw [List.filterMap_cons]
  cases descriptor.hosted with
  | none => rfl
  | some id => rfl

theorem hosted_singleton (descriptor : CapDescriptor) : hosted [descriptor] = descriptor.hosted.toList := by
  rw [hosted_cons]
  exact List.append_nil _

variable (hand) in
theorem makeCapTable_runs {table : List (Option Nat)}
    (made : ∀ client, some client ∈ table → client < conn.objects) :
    Runs DescribeEffect (makeCapTable table) conn hand
      (fun capTable _ held => held = hand.prepare (hosted capTable))
      fun error _ left => left = hand ∧ error.isPlain := by
  induction table generalizing conn hand with
  | nil => exact Runs.pure hand.prepare_nil.symm
  | cons slot table ih =>
      apply Runs.bind (descriptorForSlot_runs fun client same => made client (by simp [same]))
      rintro first after held steps _ rfl
      have grows := objects_le_of_steps (fun _ _ => DescribeEffect.objects_le) steps
      have later : Runs DescribeEffect (makeCapTable table) after (hand.prepare first.hosted.toList)
          (fun rest _ held => held = hand.prepare (hosted (first :: rest)))
          fun error _ left => left = hand ∧ error.isPlain := by
        intro wellFormed
        apply (ih _ (fun client member =>
          Nat.lt_of_lt_of_le (made client (by simp [member])) grows) wellFormed).mono
        · rintro rest last ⟨left, steps, formed, rfl⟩
          exact ⟨_, steps, formed, by simp only [hosted_cons, Hand.prepare_append]⟩
        · rintro error last ⟨left, steps, formed, rfl, plain⟩
          exact ⟨hand, steps.trans (Hand.forget_prepared _), formed, rfl, plain⟩
      apply Runs.bind later
      rintro rest last held _ _ rfl
      exact Runs.pure rfl

theorem Conn.WellFormed.copiedTable (wellFormed : conn.WellFormed) (struct : Struct) (client : Nat)
    (member : some client ∈ conn.copiedTable struct) : client < conn.objects := by
  obtain ⟨client', found, same⟩ := List.mem_map.mp member
  cases same
  obtain ⟨capId, _, found⟩ := List.mem_filterMap.mp found
  exact wellFormed.slot found

theorem setContent_run {struct : Struct} (copies : struct.content.copyFault 0 = none) :
    setContent struct conn = .ok (conn.copied struct) conn := by
  unfold setContent
  rw [Outcome.bind_apply, Outcome.get_apply]
  dsimp only
  rw [copies]
  rfl

theorem setContent_throws {struct : Struct} {reason : String} (fails : struct.content.copyFault 0 = some reason) :
    setContent struct conn = .error (.error reason) conn := by
  unfold setContent
  rw [Outcome.bind_apply, Outcome.get_apply]
  dsimp only
  rw [fails]
  rfl

theorem setContent_keeps {R : Conn × Hand → Conn × Hand → Prop} (struct : Struct) :
    Keeps R (setContent struct) conn hand fun content after => after = conn ∧ content = conn.copied struct := by
  apply Keeps.get
  cases struct.content.copyFault 0 with
  | some reason => exact Keeps.throw
  | none => exact Keeps.pure ⟨rfl, rfl⟩

theorem readContent_keeps {R : Conn × Hand → Conn × Hand → Prop} (content : Content) :
    Keeps R (readContent content) conn hand fun _ after => after = conn := by
  unfold readContent
  cases content.readFault 0 with
  | some reason => exact Keeps.throw
  | none => exact Keeps.pure rfl

theorem fillParams_runs (call : Call) :
    Runs DescribeEffect (fillParams call) conn hand
      (fun params _ held => held = hand.prepare (hosted params.capTable))
      fun error _ left => left = hand ∧ error.isPlain := by
  apply Runs.bind (setContent_keeps call.params)
  rintro content after held _ wellFormed ⟨rfl, rfl, rfl⟩
  apply Runs.get
  apply Runs.bind (makeCapTable_runs held (wellFormed.copiedTable call.params))
  rintro capTable later held' _ _ rfl
  exact Runs.pure rfl

end CapnpEs.Rpc
