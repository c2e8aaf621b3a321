import CapnpEs.Rpc.Handlers

/-! Connections without dangling references, and how single changes keep them so. -/

namespace CapnpEs.Rpc

open SlotTable

def Client.references : Client → List Nat
  | .ref rc _ => [rc]
  | .importClient c => c.resolved.toList
  | .promiseExport c => c.resolved.toList
  | .queue c => [c.client]
  | _ => []

/-- What stays of a client while it is neither closed nor dropped. -/
def Client.core : Client → Client
  | .importClient c => .importClient { id := c.id, closed := c.closed }
  | .promiseExport c => .promiseExport { question := c.question, transform := c.transform }
  | .queue _ => .other
  | client => client

theorem Client.core_importClient {client : Client} {c : ImportClient}
    (same : client.core = .importClient { id := c.id, closed := c.closed }) :
    ∃ c', client = .importClient c' ∧ c'.id = c.id ∧ c'.closed = c.closed := by
  cases client with
  | importClient c' =>
      simp only [Client.core, Client.importClient.injEq, ImportClient.mk.injEq] at same
      exact ⟨c', rfl, same.1, same.2.1⟩
  | _ => cases same

/-- A client that takes the place of another: it opens no import, and holds no further call of the peer under an
embargo, nor any call of its own once it is closed. -/
def Client.Continues (before after : Client) : Prop :=
  ∀ c, after = .importClient c → ∃ earlier, before = .importClient earlier ∧ c.id = earlier.id ∧
    (earlier.closed = true → c.closed = true) ∧
    (∀ a call, .remote a call ∈ c.embargoQueue → .remote a call ∈ earlier.embargoQueue) ∧
    (c.closed = true → c.embargoQueue ≠ [] → earlier.closed = true ∧ earlier.embargoQueue ≠ [])

theorem Client.Continues.of_core {before after : Client} (same : after.core = before.core)
    (calls : ∀ a call, .remote a call ∈ after.calls → .remote a call ∈ before.calls)
    (waiting : ∀ c, before = .importClient c → c.closed = true → after.calls ≠ [] → before.calls ≠ []) :
    before.Continues after := by
  rintro c rfl
  obtain ⟨earlier, rfl, id, closed⟩ := Client.core_importClient same.symm
  refine ⟨earlier, rfl, id.symm, ?_, calls, ?_⟩
  · intro was
    rw [← closed]
    exact was
  · intro shut some
    rw [← closed] at shut
    exact ⟨shut, waiting earlier rfl shut some⟩

theorem Client.Continues.of_same {before after : Client} (same : after.core = before.core)
    (calls : after.calls = before.calls) : before.Continues after := by
  apply Client.Continues.of_core same
  · intro a call member
    rw [← calls]
    exact member
  · intro c _ _ some
    rw [← calls]
    exact some

theorem Client.Continues.isOpen {before after : Client} (continues : before.Continues after) {id : WireId}
    (isOpen : after.core = .importClient { id := id }) : before.core = .importClient { id := id } := by
  obtain ⟨c, rfl, named, unclosed⟩ := Client.core_importClient (c := { id := id }) isOpen
  obtain ⟨earlier, rfl, same, closes, _, _⟩ := continues c rfl
  have wasOpen : earlier.closed = false := by
    cases shut : earlier.closed with
    | false => rfl
    | true => exact absurd (closes shut) (by rw [unclosed]; exact Bool.false_ne_true)
  simp [Client.core, wasOpen, ← same, named]

/-- Whether the calls that wait here may go on or be rejected: the client is no import, or one that is closed. -/
def Client.isReleased : Client → Bool
  | .importClient c => c.closed
  | _ => true

theorem Client.Continues.isReleased {before after : Client} (continues : before.Continues after)
    (free : before.isReleased = true) : after.isReleased = true := by
  cases after with
  | importClient c =>
      obtain ⟨earlier, rfl, _, closes, _, _⟩ := continues c rfl
      exact closes free
  | _ => rfl

def Conn.ClosedImport (conn : Conn) (i : Nat) : Prop := ∃ c, conn.client i = .importClient c ∧ c.closed = true

/-- Every object number a connection keeps is of an object it has made, every answer that something waits to
settle has been routed, no number in use is handed out, no export promise is an open import, only calls made here
wait for an embargo and none for that of an import that is closed, and while the connection is open every import
that is open has its place in the table. -/
structure Conn.WellFormed (conn : Conn) : Prop where
  clients : ∀ id, ∀ other ∈ (conn.client id).references, other < conn.objects
  refCounts : ∀ rc, (conn.refCount rc).client = 0 ∨ (conn.refCount rc).client < conn.objects
  tables : ∀ message client, some client ∈ conn.capTable message → client < conn.objects
  exports : ∀ id e, conn.findExport id = some e → e.rc < conn.objects ∧ e.client < conn.objects
  imports : ∀ id entry, find conn.imports id = some entry → entry.rc < conn.objects
  questions : ∀ id q, conn.findQuestion id = some q → q < conn.objects
  answers : ∀ id a, find conn.answers id = some a → a < conn.objects
  disembargoes : ∀ id client, find conn.disembargoes id = some client → client < conn.objects
  waiters : ∀ id qs, find conn.tailAnswerWaiters id = some qs → ∀ q ∈ qs, q < conn.objects
  promises : ∀ id entry, find conn.exportPromises id = some entry → entry.client < conn.objects
  promised : ∀ id entry, find conn.exportPromises id = some entry → (conn.client entry.client).isReleased = true
  mainInterface : ∀ client, conn.main = some client → client < conn.objects
  joined : ∀ a, (conn.answer a).joined.isSome → (conn.answer a).routed
  queued : ∀ a, ∀ pc ∈ (conn.answer a).queue, (conn.answer pc.answer).routed
  calls : ∀ id a call, .remote a call ∈ (conn.client id).calls → (conn.answer a).routed
  embargoed : ∀ id c, conn.client id = .importClient c → ∀ a call, .remote a call ∉ c.embargoQueue
  drained : ∀ id c, conn.client id = .importClient c → c.closed = true → c.embargoQueue = []
  held : conn.closed = false → ∀ i id, (conn.client i).core = .importClient { id := id } →
    ∃ entry, find conn.imports id.id = some entry ∧ (conn.refCount entry.rc).client = i
  unmade : ∀ a, conn.objects ≤ a → (conn.answer a).routed = false
  unmadeClients : ∀ id, conn.objects ≤ id → (conn.client id).core = .other
  questionIds : conn.questionID.Serves fun id => (conn.findQuestion id).isSome
  exportIds : conn.exportID.Serves fun id => (conn.findExport id).isSome
  disembargoIds : conn.disembargoID.Serves fun id => (find conn.disembargoes id).isSome

namespace Conn.WellFormed

variable {conn : Conn}

theorem initial (registry : Nat → Option (List Method)) (stack : Nat) :
    Conn.WellFormed { registry := registry, stack := stack } := by
  constructor
  · intro id other member
    cases member
  · intro rc
    exact Or.inl rfl
  · intro message client member
    cases member
  · intro id e found
    simp [Conn.findExport] at found
  · intro id entry found
    simp at found
  · intro id q found
    simp [Conn.findQuestion] at found
  · intro id a found
    simp at found
  · intro id client found
    simp at found
  · intro id qs found
    simp at found
  · intro id entry found
    simp at found
  · intro id entry found
    simp at found
  · intro client found
    cases found
  · intro a waits
    cases waits
  · intro a pc member
    cases member
  · intro id a call member
    cases member
  · intro id c found
    cases found
  · intro id c found
    cases found
  · intro _ i id isOpen
    cases isOpen
  · intro a beyond
    rfl
  · intro id beyond
    rfl
  · exact IdGen.serves_empty.of_iff fun id => by simp [Conn.findQuestion]
  · exact IdGen.serves_empty.of_iff fun id => by simp [Conn.findExport]
  · exact IdGen.serves_empty.of_iff fun id => by simp

theorem slot (wellFormed : conn.WellFormed) {struct : Struct} {capId client : Nat}
    (found : conn.slot struct capId = some client) : client < conn.objects := by
  apply wellFormed.tables struct.message client
  unfold Conn.slot at found
  cases shape : (conn.capTable struct.message)[capId]? with
  | none => simp [shape] at found
  | some entry =>
      simp only [shape, Option.getD_some] at found
      rw [← found]
      exact List.mem_of_getElem? shape

theorem normalize (wellFormed : conn.WellFormed) {client next : Nat} (below : client < conn.objects)
    (found : conn.normalize client = some next) : next < conn.objects := by
  have leads := wellFormed.clients client
  unfold Conn.normalize at found
  cases shape : conn.client client with
  | ref rc closed =>
      simp only [shape, Client.references, List.mem_singleton, forall_eq] at leads
      simp only [shape, Option.some.injEq] at found
      rcases wellFormed.refCounts rc with unset | made
      · omega
      · exact found ▸ made
  | importClient c =>
      simp only [shape] at found leads
      split at found
      · cases found
      · exact leads next (by simp [Client.references, found])
  | promiseExport c =>
      simp only [shape] at found leads
      exact leads next (by simp [Client.references, found])
  | queue c =>
      simp only [shape] at found leads
      split at found
      · cases found
        exact leads c.client (by simp [Client.references])
      · cases found
  | server methods => simp [shape] at found
  | error reason => simp [shape] at found
  | pipeline q transform => simp [shape] at found
  | fixedPipeline answer transform => simp [shape] at found
  | localAnswer a transform => simp [shape] at found
  | null => simp [shape] at found
  | other => simp [shape] at found

theorem norm (wellFormed : conn.WellFormed) (hops : Nat) {client : Nat} (below : client < conn.objects) :
    conn.norm hops client < conn.objects := by
  induction hops generalizing client with
  | zero => exact below
  | succ hops ih =>
      unfold Conn.norm
      cases found : conn.normalize client with
      | none => exact below
      | some next =>
          simp only
          split
          · exact below
          · exact ih (wellFormed.normalize below found)

theorem say (wellFormed : conn.WellFormed) (event : Event) : (conn.say event).WellFormed :=
  { wellFormed with }

theorem sayRejected (wellFormed : conn.WellFormed) (owner : Nat) (reason : String) (calls : List QueuedCall) :
    (conn.sayRejected owner reason calls).WellFormed :=
  { wellFormed with }

theorem send (wellFormed : conn.WellFormed) (message : RpcMessage) : (conn.send message).WellFormed :=
  { wellFormed with }

theorem alterQuestion (wellFormed : conn.WellFormed) (q : Nat) (change : Question → Question) :
    (conn.alterQuestion q change).WellFormed :=
  { wellFormed with }

theorem allocated (wellFormed : conn.WellFormed) : conn.allocated.WellFormed where
  clients id other member := Nat.lt_succ_of_lt (wellFormed.clients id other member)
  refCounts rc := (wellFormed.refCounts rc).imp id Nat.lt_succ_of_lt
  tables message client member := Nat.lt_succ_of_lt (wellFormed.tables message client member)
  exports id e found := (wellFormed.exports id e found).imp Nat.lt_succ_of_lt Nat.lt_succ_of_lt
  imports id entry found := Nat.lt_succ_of_lt (wellFormed.imports id entry found)
  questions id q found := Nat.lt_succ_of_lt (wellFormed.questions id q found)
  answers id a found := Nat.lt_succ_of_lt (wellFormed.answers id a found)
  disembargoes id client found := Nat.lt_succ_of_lt (wellFormed.disembargoes id client found)
  waiters id qs found q member := Nat.lt_succ_of_lt (wellFormed.waiters id qs found q member)
  promises id entry found := Nat.lt_succ_of_lt (wellFormed.promises id entry found)
  promised := wellFormed.promised
  mainInterface client found := Nat.lt_succ_of_lt (wellFormed.mainInterface client found)
  joined := wellFormed.joined
  queued := wellFormed.queued
  calls := wellFormed.calls
  embargoed := wellFormed.embargoed
  drained := wellFormed.drained
  held := wellFormed.held
  unmade a beyond := wellFormed.unmade a (Nat.le_of_succ_le beyond)
  unmadeClients id beyond := wellFormed.unmadeClients id (Nat.le_of_succ_le beyond)
  questionIds := wellFormed.questionIds
  exportIds := wellFormed.exportIds
  disembargoIds := wellFormed.disembargoIds

theorem made (wellFormed : conn.WellFormed) {i : Nat} (present : (conn.client i).core ≠ .other) :
    i < conn.objects := by
  by_contra beyond
  exact present (wellFormed.unmadeClients i (Nat.le_of_not_lt beyond))

theorem setClient (wellFormed : conn.WellFormed) (id : Nat) {c : Client}
    (made : conn.objects ≤ id → c.core = .other)
    (leads : ∀ other ∈ c.references, other < conn.objects)
    (routed : ∀ a call, .remote a call ∈ c.calls → (conn.answer a).routed)
    (continues : (conn.client id).Continues c) : (conn.setClient id c).WellFormed := by
  refine { wellFormed with
    clients := ?_, promised := ?_, calls := ?_, embargoed := ?_, drained := ?_, held := ?_, unmadeClients := ?_ }
  · intro id' other member
    by_cases same : id' = id
    · subst same
      exact leads other (by simpa [Conn.setClient] using member)
    · exact wellFormed.clients id' other (by simpa [Conn.setClient, same] using member)
  · intro n entry found
    have free := wellFormed.promised n entry found
    by_cases same : entry.client = id
    · subst same
      simpa [Conn.setClient] using continues.isReleased free
    · simpa [Conn.setClient, same] using free
  · intro id' a call member
    by_cases same : id' = id
    · subst same
      exact routed a call (by simpa [Conn.setClient] using member)
    · exact wellFormed.calls id' a call (by simpa [Conn.setClient, same] using member)
  · intro id' c' found a call
    by_cases same : id' = id
    · subst same
      obtain ⟨earlier, shape, _, _, calls, _⟩ := continues c' (by simpa [Conn.setClient] using found)
      exact fun member => wellFormed.embargoed id' earlier shape a call (calls a call member)
    · exact wellFormed.embargoed id' c' (by simpa [Conn.setClient, same] using found) a call
  · intro id' c' found closed
    by_cases same : id' = id
    · subst same
      obtain ⟨earlier, shape, _, _, _, waiting⟩ := continues c' (by simpa [Conn.setClient] using found)
      by_contra some
      obtain ⟨shut, held⟩ := waiting closed some
      exact held (wellFormed.drained id' earlier shape shut)
    · exact wellFormed.drained id' c' (by simpa [Conn.setClient, same] using found) closed
  · intro notClosed i w isOpen
    apply wellFormed.held notClosed i w
    by_cases same : i = id
    · subst same
      exact continues.isOpen (by simpa [Conn.setClient] using isOpen)
    · simpa [Conn.setClient, same] using isOpen
  · intro id' beyond
    by_cases same : id' = id
    · subst same
      simpa [Conn.setClient] using made beyond
    · simpa [Conn.setClient, same] using wellFormed.unmadeClients id' beyond

theorem withClient (wellFormed : conn.WellFormed) {c : Client}
    (leads : ∀ other ∈ c.references, other < conn.objects)
    (routed : ∀ a call, .remote a call ∈ c.calls → (conn.answer a).routed)
    (opens : ∀ i, c = .importClient i → conn.closed = true ∧ i.embargoQueue = []) :
    (conn.withClient c).WellFormed := by
  refine { wellFormed.allocated with
    clients := ?_, promised := ?_, calls := ?_, embargoed := ?_, drained := ?_, held := ?_, unmadeClients := ?_ }
  · intro id other member
    by_cases same : id = conn.objects
    · subst same
      exact Nat.lt_succ_of_lt (leads other (by simpa [Conn.withClient, Conn.allocated, Conn.setClient] using member))
    · exact wellFormed.allocated.clients id other
        (by simpa [Conn.withClient, Conn.allocated, Conn.setClient, same] using member)
  · intro n entry found
    have other := Nat.ne_of_lt (wellFormed.promises n entry found)
    simpa [Conn.withClient, Conn.allocated, Conn.setClient, other] using wellFormed.promised n entry found
  · intro id a call member
    by_cases same : id = conn.objects
    · subst same
      exact routed a call (by simpa [Conn.withClient, Conn.allocated, Conn.setClient] using member)
    · exact wellFormed.calls id a call
        (by simpa [Conn.withClient, Conn.allocated, Conn.setClient, same] using member)
  · intro id c' found a call
    by_cases same : id = conn.objects
    · subst same
      have empty := (opens c' (by simpa [Conn.withClient, Conn.allocated, Conn.setClient] using found)).2
      simp [empty]
    · exact wellFormed.embargoed id c'
        (by simpa [Conn.withClient, Conn.allocated, Conn.setClient, same] using found) a call
  · intro id c' found closed
    by_cases same : id = conn.objects
    · subst same
      exact (opens c' (by simpa [Conn.withClient, Conn.allocated, Conn.setClient] using found)).2
    · exact wellFormed.drained id c'
        (by simpa [Conn.withClient, Conn.allocated, Conn.setClient, same] using found) closed
  · intro notClosed i w isOpen
    by_cases same : i = conn.objects
    · subst same
      have shape : c.core = .importClient { id := w } := by
        simpa [Conn.withClient, Conn.allocated, Conn.setClient] using isOpen
      obtain ⟨c', rfl, _⟩ := Client.core_importClient (c := { id := w }) shape
      exact absurd (opens c' rfl).1 (by
        intro closed
        cases closed.symm.trans notClosed)
    · exact wellFormed.held notClosed i w
        (by simpa [Conn.withClient, Conn.allocated, Conn.setClient, same] using isOpen)
  · intro id beyond
    have other : id ≠ conn.objects := by
      simp only [Conn.withClient, Conn.allocated, Conn.setClient] at beyond
      omega
    have old := wellFormed.unmadeClients id (Nat.le_of_succ_le beyond)
    simpa [Conn.withClient, Conn.allocated, Conn.setClient, other] using old

theorem setCapTable (wellFormed : conn.WellFormed) (message : Nat) {table : List (Option Nat)}
    (made : ∀ client, some client ∈ table → client < conn.objects) :
    (conn.setCapTable message table).WellFormed := by
  refine { wellFormed with tables := ?_ }
  intro message' client member
  by_cases same : message' = message
  · subst same
    exact made client (by simpa [Conn.setCapTable] using member)
  · exact wellFormed.tables message' client (by simpa [Conn.setCapTable, same] using member)

theorem setRefCount (wellFormed : conn.WellFormed) (rc : Nat) {c : RefCount}
    (made : c.client = 0 ∨ c.client < conn.objects)
    (kept : conn.objects ≤ rc ∨ c.client = (conn.refCount rc).client) : (conn.setRefCount rc c).WellFormed := by
  refine { wellFormed with refCounts := ?_, held := ?_ }
  · intro rc'
    by_cases same : rc' = rc
    · subst same
      simpa [Conn.setRefCount] using made
    · simpa [Conn.setRefCount, same] using wellFormed.refCounts rc'
  · intro notClosed i w isOpen
    obtain ⟨entry, found, client⟩ := wellFormed.held notClosed i w isOpen
    refine ⟨entry, found, ?_⟩
    by_cases same : entry.rc = rc
    · have below := wellFormed.imports w.id entry found
      rcases kept with beyond | unchanged
      · omega
      · simp only [Conn.setRefCount, same, Function.update_self]
        rw [unchanged, ← same]
        exact client
    · simpa [Conn.setRefCount, same] using client

theorem setRefs (wellFormed : conn.WellFormed) (rc : Nat) (refs : Int) : (conn.setRefs rc refs).WellFormed :=
  wellFormed.setRefCount rc (wellFormed.refCounts rc) (Or.inr rfl)

theorem setExport (wellFormed : conn.WellFormed) {id : Nat} {e : Export} (live : (conn.findExport id).isSome)
    (made : e.rc < conn.objects ∧ e.client < conn.objects) : (conn.setExport id (some e)).WellFormed := by
  refine { wellFormed with exports := ?_, exportIds := ?_ }
  · intro id' e' found
    simp only [Conn.findExport, Conn.setExport, find_put] at found
    split at found
    · cases found
      exact made
    · exact wellFormed.exports id' e' found
  · apply wellFormed.exportIds.of_iff
    intro id'
    simp only [Conn.findExport, Conn.setExport, find_put]
    split
    · rename_i same
      subst same
      exact ⟨fun _ => live, fun _ => rfl⟩
    · exact Iff.rfl

theorem dropExport (wellFormed : conn.WellFormed) {id : Nat} (live : (conn.findExport id).isSome) :
    (conn.dropExport id).WellFormed := by
  refine { wellFormed with exports := ?_, exportIds := ?_ }
  · intro id' e found
    simp only [Conn.findExport, Conn.dropExport, Conn.setExport, find_put] at found
    split at found
    · cases found
    · exact wellFormed.exports id' e found
  · apply (wellFormed.exportIds.remove live).of_iff
    intro id'
    simp only [Conn.findExport, Conn.dropExport, Conn.setExport, find_put]
    split
    · rename_i same
      simp [same]
    · rename_i other
      simp [other]

theorem dropQuestion (wellFormed : conn.WellFormed) {id q : Nat} (isOpen : conn.findQuestion id = some q) :
    (conn.dropQuestion id).WellFormed := by
  refine { wellFormed with questions := ?_, questionIds := ?_ }
  · intro id' q' found
    simp only [Conn.findQuestion, Conn.dropQuestion, Conn.setQuestionSlot, find_put] at found
    split at found
    · cases found
    · exact wellFormed.questions id' q' found
  apply (wellFormed.questionIds.remove (i := id) (by simp [isOpen])).of_iff
  intro id'
  simp only [Conn.findQuestion, Conn.dropQuestion, Conn.setQuestionSlot, find_put]
  split
  · rename_i same
    simp [same]
  · rename_i other
    simp [other]

theorem issueQuestion (wellFormed : conn.WellFormed) (method : Option Method) :
    (conn.issueQuestion method).WellFormed := by
  have opened : Conn.WellFormed { conn.allocated.setQuestionSlot conn.questionID.next.1 (some conn.objects) with
      questionID := conn.questionID.next.2 } := by
    refine { wellFormed.allocated with questions := ?_, questionIds := ?_ }
    · intro id q found
      simp only [Conn.findQuestion, Conn.setQuestionSlot, find_put] at found
      split at found
      · cases found
        exact Nat.lt_succ_self _
      · exact wellFormed.allocated.questions id q found
    · apply wellFormed.questionIds.next.of_iff
      intro id
      simp only [Conn.findQuestion, Conn.setQuestionSlot, find_put]
      split
      · rename_i same
        simp [same]
      · rename_i other
        simp only [other, false_or]
        rfl
  exact (opened.alterQuestion conn.objects fun _ => { own := true, id := conn.questionID.next.1, method := method }).say
    (.questionIssued ⟨conn.questionID.next.1, conn.objects⟩ (conn.hasAsked conn.questionID.next.1))

theorem setImport (wellFormed : conn.WellFormed) (id : Nat) {s : Option ImportEntry}
    (made : ∀ entry, s = some entry → entry.rc < conn.objects)
    (stays : conn.closed = false → ∀ i w, (conn.client i).core = .importClient { id := w } → w.id = id →
      ∃ entry, s = some entry ∧ (conn.refCount entry.rc).client = i) : (conn.setImport id s).WellFormed := by
  refine { wellFormed with imports := ?_, held := ?_ }
  · intro id' entry found
    simp only [Conn.setImport, find_put] at found
    split at found
    · exact made entry found
    · exact wellFormed.imports id' entry found
  · intro notClosed i w isOpen
    simp only [Conn.setImport, find_put]
    split
    · rename_i same
      exact stays notClosed i w isOpen same
    · exact wellFormed.held notClosed i w isOpen

theorem recountImport (wellFormed : conn.WellFormed) {id : Nat} {entry counted : ImportEntry}
    (found : find conn.imports id = some entry) (same : counted.rc = entry.rc) :
    (conn.setImport id (some counted)).WellFormed := by
  apply wellFormed.setImport
  · intro _ shape
    cases shape
    rw [same]
    exact wellFormed.imports id entry found
  · rintro notClosed i w isOpen rfl
    obtain ⟨held, found', client⟩ := wellFormed.held notClosed i w isOpen
    cases found.symm.trans found'
    exact ⟨counted, rfl, by rw [same, client]⟩

theorem setExportPromise (wellFormed : conn.WellFormed) (id : Nat) {s : Option ExportPromiseEntry}
    (made : ∀ entry, s = some entry → entry.client < conn.objects ∧ (conn.client entry.client).isReleased = true) :
    (conn.setExportPromise id s).WellFormed := by
  have kept : ∀ id' entry, find (conn.setExportPromise id s).exportPromises id' = some entry →
      entry.client < conn.objects ∧ (conn.client entry.client).isReleased = true := by
    intro id' entry found
    simp only [Conn.setExportPromise, find_put] at found
    split at found
    · exact made entry found
    · exact ⟨wellFormed.promises id' entry found, wellFormed.promised id' entry found⟩
  exact { wellFormed with
    promises := fun id' entry found => (kept id' entry found).1
    promised := fun id' entry found => (kept id' entry found).2 }

theorem setAnswerSlot (wellFormed : conn.WellFormed) (id : Nat) {s : Option Nat}
    (made : ∀ a, s = some a → a < conn.objects) : (conn.setAnswerSlot id s).WellFormed := by
  refine { wellFormed with answers := ?_ }
  intro id' a found
  simp only [Conn.setAnswerSlot, find_put] at found
  split at found
  · exact made a found
  · exact wellFormed.answers id' a found

theorem clearAnswerSlot (wellFormed : conn.WellFormed) (id : Nat) : (conn.setAnswerSlot id none).WellFormed :=
  wellFormed.setAnswerSlot id nofun

theorem registerDisembargo (wellFormed : conn.WellFormed) {client : Nat} (made : client < conn.objects) :
    Conn.WellFormed { conn.setDisembargo conn.disembargoID.next.1 (some client) with
      disembargoID := conn.disembargoID.next.2 } := by
  refine { wellFormed with disembargoes := ?_, disembargoIds := ?_ }
  · intro id other found
    simp only [Conn.setDisembargo, find_put] at found
    split at found
    · cases found
      exact made
    · exact wellFormed.disembargoes id other found
  apply wellFormed.disembargoIds.next.of_iff
  intro id
  simp only [Conn.setDisembargo, find_put]
  split
  · rename_i same
    simp [same]
  · rename_i other
    simp [other]

theorem dropDisembargo (wellFormed : conn.WellFormed) {id client : Nat}
    (found : find conn.disembargoes id = some client) :
    Conn.WellFormed { conn.setDisembargo id none with disembargoID := conn.disembargoID.remove id } := by
  refine { wellFormed with disembargoes := ?_, disembargoIds := ?_ }
  · intro id' other found
    simp only [Conn.setDisembargo, find_put] at found
    split at found
    · cases found
    · exact wellFormed.disembargoes id' other found
  apply (wellFormed.disembargoIds.remove (i := id) (by simp [found])).of_iff
  intro id'
  simp only [Conn.setDisembargo, find_put]
  split
  · rename_i same
    simp [same]
  · rename_i other
    simp [other]

theorem indexExportPromise (wellFormed : conn.WellFormed) (question : Nat) (transform : Transform)
    (id : Option WireId) : (conn.indexExportPromise question transform id).WellFormed :=
  { wellFormed with }

theorem alterAnswer (wellFormed : conn.WellFormed) {a : Nat} {c : AnswerEntry → AnswerEntry}
    (joined : (c (conn.answer a)).joined.isSome → (c (conn.answer a)).routed)
    (routed : (conn.answer a).routed → (c (conn.answer a)).routed)
    (queued : ∀ pc ∈ (c (conn.answer a)).queue,
      pc ∈ (conn.answer a).queue ∨ (conn.answer pc.answer).routed)
    (made : (c (conn.answer a)).routed → a < conn.objects) :
    (conn.alterAnswer a c).WellFormed := by
  have keeps : ∀ a', (conn.answer a').routed → ((conn.alterAnswer a c).answer a').routed := by
    intro a' was
    by_cases same : a' = a
    · subst same
      simpa [Conn.alterAnswer] using routed was
    · simpa [Conn.alterAnswer, same] using was
  refine { wellFormed with joined := ?_, queued := ?_, calls := ?_, unmade := ?_ }
  · intro a' waits
    by_cases same : a' = a
    · subst same
      simp only [Conn.alterAnswer, Function.update_self] at waits ⊢
      exact joined waits
    · simp only [Conn.alterAnswer, Function.update_of_ne same] at waits ⊢
      exact wellFormed.joined a' waits
  · intro a' pc member
    apply keeps
    by_cases same : a' = a
    · subst same
      simp only [Conn.alterAnswer, Function.update_self] at member
      rcases queued pc member with old | new
      · exact wellFormed.queued a' pc old
      · exact new
    · simp only [Conn.alterAnswer, Function.update_of_ne same] at member
      exact wellFormed.queued a' pc member
  · intro id a' call member
    exact keeps a' (wellFormed.calls id a' call member)
  · intro a' beyond
    by_cases same : a' = a
    · subst same
      simp only [Conn.alterAnswer, Function.update_self]
      by_contra isRouted
      have below := made (by simpa using isRouted)
      exact absurd below (by simpa [Conn.alterAnswer] using beyond)
    · simp only [Conn.alterAnswer, Function.update_of_ne same]
      exact wellFormed.unmade a' beyond

theorem setWaiters (wellFormed : conn.WellFormed) (id : Nat) {s : Option (List Nat)}
    (made : ∀ qs, s = some qs → ∀ q ∈ qs, q < conn.objects) : (conn.setWaiters id s).WellFormed := by
  refine { wellFormed with waiters := ?_ }
  intro id' qs found
  simp only [Conn.setWaiters, find_put] at found
  split at found
  · exact made qs found
  · exact wellFormed.waiters id' qs found

theorem clearWaiters (wellFormed : conn.WellFormed) (id : Nat) : (conn.setWaiters id none).WellFormed :=
  wellFormed.setWaiters id nofun

theorem touchAnswer (wellFormed : conn.WellFormed) {a : Nat} {change : AnswerEntry → AnswerEntry}
    (routed : (change (conn.answer a)).routed = (conn.answer a).routed)
    (joined : (change (conn.answer a)).joined.isSome → (conn.answer a).joined.isSome)
    (queued : ∀ pc ∈ (change (conn.answer a)).queue, pc ∈ (conn.answer a).queue) :
    (conn.alterAnswer a change).WellFormed := by
  apply wellFormed.alterAnswer
  · intro waits
    rw [routed]
    exact wellFormed.joined a (joined waits)
  · intro was
    rw [routed]
    exact was
  · intro pc member
    exact Or.inl (queued pc member)
  · intro isRouted
    rw [routed] at isRouted
    by_contra beyond
    rw [wellFormed.unmade a (Nat.le_of_not_lt beyond)] at isRouted
    cases isRouted

end Conn.WellFormed

end CapnpEs.Rpc
