import CapnpEs.Delivery.Fulfiller

/-! `AnswerEntry` with the calls that wait for it, and the `QueueClient`s that it puts in the table of its result. -/

namespace CapnpEs.Delivery

open CallTree Outcome

open Rpc (callQueueSize RPC_CALL_QUEUE_FULL)

open Fulfiller (Groups)

structure AnswerEntry where
  done : Bool := false
  sendResultsElsewhere : Bool := false
  queue : List (CallTree Request) := []
  -- `queueCall` takes no more calls than that
  room : queue.length ≤ callQueueSize := by decide
  -- the queue of the `QueueClient` in each slot of the capability table
  queueClients : Groups := []
  -- the entries of calls that have been rejected
  rejected : List Nat := []
  -- the entries of calls that the answer of a client has been joined to
  joined : List Nat := []
  -- the calls made on the answer and on its capabilities, in the order they were made
  made : List Request := []
  -- what the clients of the capability table have been called with
  received : List Request := []

namespace AnswerEntry

abbrev AnswerM := EStateM String AnswerEntry

def queueCall (tree : CallTree Request) : AnswerM PUnit := do
  let entry ← get
  if fits : entry.queue.length < callQueueSize then
    set { entry with
      queue := entry.queue ++ [tree], made := entry.made ++ [tree.call],
      room := by rw [List.length_append]; exact fits }
  else
    throw RPC_CALL_QUEUE_FULL

/-- `qs[cn].push`, in the order of `Object.keys`. -/
def insertCall (capId : Nat) (tree : CallTree Request) : Groups → Groups
  | [] => [(capId, [tree])]
  | (other, calls) :: groups =>
      if capId < other then
        (capId, [tree]) :: (other, calls) :: groups
      else if capId = other then
        (other, calls ++ [tree]) :: groups
      else
        (other, calls) :: insertCall capId tree groups

/-- The loop of `emptyQueue`: the queues, and the entries that are rejected. -/
def splitQueue : List (CallTree Request) → Groups → Groups × List Nat
  | [], groups => (groups, [])
  | tree :: trees, groups =>
      match tree.call.aim with
      | .ok (some capId) => splitQueue trees (insertCall capId tree groups)
      | _ => ((splitQueue trees groups).1, tree.call.ids ++ (splitQueue trees groups).2)

def emptyQueue : AnswerM Groups := do
  let entry ← get
  set { entry with queue := [], room := Nat.zero_le _, rejected := entry.rejected ++ (splitQueue entry.queue []).2 }
  return (splitQueue entry.queue []).1

def queueOf (capId : Nat) : Groups → List (CallTree Request)
  | [] => []
  | (other, calls) :: groups => if other = capId then calls else queueOf capId groups

def alterQueue (capId : Nat) (change : List (CallTree Request) → List (CallTree Request)) : Groups → Groups
  | [] => []
  | (other, calls) :: groups =>
      if other = capId then (other, change calls) :: groups else (other, calls) :: alterQueue capId change groups

section Clients

-- which slots of the capability table hold a client
variable (present : Nat → Bool)

mutual

/-- A call on a capability of the result, `QueueClient.call`: it waits behind those that wait already. -/
def call : CallTree Request → AnswerEntry → AnswerEntry
  | .mk request throws within, entry =>
      match request.aim with
      | .ok (some capId) =>
          if (queueOf capId entry.queueClients).isEmpty then
            if present capId then
              callAll within { entry with made := entry.made ++ [request], received := entry.received ++ [request] }
            else
              entry
          else if (queueOf capId entry.queueClients).length < callQueueSize then
            { entry with
              made := entry.made ++ [request]
              queueClients := alterQueue capId (· ++ [.mk request throws within]) entry.queueClients }
          else
            entry
      | _ => entry

/-- The calls that a client makes one after the other while it takes a call. -/
def callAll : List (CallTree Request) → AnswerEntry → AnswerEntry
  | [], entry => entry
  | tree :: trees, entry => callAll trees (call tree entry)

end

def joinFirst (capId : Nat) (tree : CallTree Request) (entry : AnswerEntry) : AnswerEntry :=
  { entry with
    joined := entry.joined ++ [tree.call.id], queueClients := alterQueue capId List.tail entry.queueClients }

/-- `QueueClient.flushQueue`. A call leaves the queue once its client has returned. -/
def flushQueue (capId : Nat) : Nat → AnswerM PUnit
  | 0 => return ()
  | turns + 1 => do
    let entry ← get
    match queueOf capId entry.queueClients with
    | [] => return ()
    | tree :: _ =>
        if present capId then do
          set (callAll present tree.within { entry with received := entry.received ++ [tree.call] })
          if tree.throws then
            throw "thrown by a client"
          else do
            modify (joinFirst capId tree)
            flushQueue capId turns
        else
          throw "Cannot read properties of null (reading 'call')"

/-- `copied` says how the result was copied into the Return, and `sent` how that was sent; only an error of the latter
is kept until the end. -/
def fulfill (copied sent : Except String PUnit) : AnswerM PUnit := do
  let entry ← get
  if entry.done then
    throw "answer.fulfill called more than once"
  else do
    set { entry with done := true }
    if entry.sendResultsElsewhere then
      return ()
    else do
      ofExcept copied
      let queues ← emptyQueue
      modify fun entry => { entry with queueClients := queues }
      -- every call is flushed at most once, also those that are made meanwhile
      queues.forM fun group => flushQueue present group.1 (trails entry.queue).length
      ofExcept sent

end Clients

/-- Calls have been queued, and nothing else has happened. -/
structure Pending (entry : AnswerEntry) : Prop where
  done : entry.done = false
  made : entry.made = entry.queue.map CallTree.call
  received : entry.received = []
  queueClients : entry.queueClients = []

theorem queueCall_pending {entry : AnswerEntry} (pending : entry.Pending) (tree : CallTree Request) :
    Meets (queueCall tree) entry (fun _ after => after.Pending) fun _ after => after.Pending := by
  apply Meets.get
  split
  · refine ⟨pending.done, ?_, pending.received, pending.queueClients⟩
    dsimp only
    rw [pending.made, List.map_append]
    rfl
  · exact pending

theorem queueCalls_pending {entry : AnswerEntry} (pending : entry.Pending) (trees : List (CallTree Request)) :
    Meets (trees.forM queueCall) entry (fun _ after => after.Pending) fun _ after => after.Pending := by
  induction trees generalizing entry with
  | nil => exact pending
  | cons tree trees ih =>
      rw [List.forM_eq_forM, List.forM_cons]
      apply Meets.bind
      apply (queueCall_pending pending tree).mono
      · intro _ after queued
        exact ih queued
      · exact fun _ _ refused => refused

/-- Every call that was queued has reached its capability, once and in order, or has been rejected; none still waits. -/
structure Delivered (before after : AnswerEntry) : Prop where
  emptied : after.queue = []
  flushed : ∀ capId, queueOf capId after.queueClients = []
  settled : ∀ tree ∈ before.queue, (∃ capId, tree.call.aim = .ok (some capId) ∧ tree.call.id ∈ after.joined) ∨
    ∀ id ∈ tree.call.ids, id ∈ after.rejected
  made : ∃ meanwhile, after.made = before.queue.map CallTree.call ++ meanwhile
  order : ∀ capId, after.received.filter (Request.aims capId) = after.made.filter (Request.aims capId)

section Queues

variable {capId : Nat} {change : List (CallTree Request) → List (CallTree Request)} {groups : Groups}

theorem queueOf_alterQueue (some : queueOf capId groups ≠ []) :
    queueOf capId (alterQueue capId change groups) = change (queueOf capId groups) := by
  induction groups with
  | nil => exact absurd rfl some
  | cons group groups ih =>
      obtain ⟨other, calls⟩ := group
      rw [queueOf] at some
      rw [alterQueue, queueOf]
      split
      · rename_i same
        rw [queueOf, if_pos same]
      · rename_i different
        rw [if_neg different] at some
        rw [queueOf, if_neg different]
        exact ih some

theorem queueOf_alterQueue_other {other : Nat} (different : other ≠ capId) :
    queueOf other (alterQueue capId change groups) = queueOf other groups := by
  induction groups with
  | nil => rfl
  | cons group groups ih =>
      obtain ⟨key, calls⟩ := group
      rw [alterQueue]
      split
      · rename_i same
        have elsewhere : key ≠ other := fun equal => different (equal.symm.trans same)
        rw [queueOf, queueOf, if_neg elsewhere, if_neg elsewhere]
      · rw [queueOf, queueOf, ih]

def size (groups : Groups) : Nat := (trails (groups.flatMap Prod.snd)).length

theorem trails_append (trees more : List (CallTree Request)) : trails (trees ++ more) = trails trees ++ trails more := by
  simp [trails_eq, Overtaking.nested]

theorem size_cons (group : Nat × List (CallTree Request)) (groups : Groups) :
    size (group :: groups) = (trails group.2).length + size groups := by
  rw [size, List.flatMap_cons, trails_append, List.length_append, size]

variable (change) in
theorem size_alterQueue (some : queueOf capId groups ≠ []) :
    size (alterQueue capId change groups) + (trails (queueOf capId groups)).length =
      size groups + (trails (change (queueOf capId groups))).length := by
  induction groups with
  | nil => exact absurd rfl some
  | cons group groups ih =>
      obtain ⟨other, calls⟩ := group
      rw [queueOf] at some
      rw [alterQueue, queueOf]
      split
      · rw [size_cons, size_cons]
        dsimp only
        omega
      · rename_i different
        rw [if_neg different] at some
        have rest := ih some
        rw [size_cons, size_cons]
        dsimp only
        omega

theorem insertCall_eq {tree : CallTree Request} (room : Groups.Room groups 1) :
    insertCall capId tree groups = Fulfiller.enqueue capId tree groups := by
  induction groups with
  | nil => rfl
  | cons group groups ih =>
      obtain ⟨other, calls⟩ := group
      have fits : calls.length < callQueueSize := room (other, calls) (by simp)
      have rest := ih fun group member => room group (List.mem_cons_of_mem _ member)
      rw [insertCall, Fulfiller.enqueue, rest, Fulfiller.pushPreparedLocal, if_pos fits]

theorem splitQueue_eq {trees : List (CallTree Request)} (room : Groups.Room groups trees.length)
    (some : trees.length ≤ callQueueSize) : splitQueue trees groups = Fulfiller.splitQueue trees groups := by
  induction trees generalizing groups with
  | nil => rfl
  | cons tree trees ih =>
      have fewer : trees.length ≤ callQueueSize := Nat.le_of_succ_le some
      have less : Groups.Room groups trees.length := by
        intro group member
        have bound := room group member
        rw [List.length_cons] at bound
        omega
      have one : Groups.Room groups 1 := by
        intro group member
        have bound := room group member
        rw [List.length_cons] at bound
        omega
      rw [splitQueue, Fulfiller.splitQueue]
      cases tree.call.aim with
      | error reason =>
          dsimp only
          rw [ih less fewer]
      | ok found =>
          cases found with
          | none =>
              dsimp only
              rw [ih less fewer]
          | some capId =>
              dsimp only
              rw [insertCall_eq one, ih (room.enqueue some capId tree) fewer]

theorem size_insertCall (tree : CallTree Request) (groups : Groups) :
    size (insertCall capId tree groups) = size groups + tree.trail.length := by
  have alone : (trails [tree]).length = tree.trail.length := by
    rw [trails, trails, List.append_nil]
  induction groups with
  | nil =>
      rw [insertCall, size_cons]
      dsimp only
      omega
  | cons group groups ih =>
      obtain ⟨other, calls⟩ := group
      rw [insertCall]
      split
      · rw [size_cons, size_cons]
        dsimp only
        omega
      · split
        · rw [size_cons, size_cons, trails_append, List.length_append]
          dsimp only
          omega
        · rw [size_cons, size_cons, ih]
          dsimp only
          omega

theorem size_splitQueue (trees : List (CallTree Request)) (groups : Groups) :
    size (splitQueue trees groups).1 ≤ size groups + (trails trees).length := by
  induction trees generalizing groups with
  | nil => exact Nat.le_add_right _ _
  | cons tree trees ih =>
      rw [splitQueue, trails, List.length_append]
      split
      · rename_i capId aim
        have rest := ih (insertCall capId tree groups)
        rw [size_insertCall] at rest
        omega
      · have rest := ih groups
        dsimp only
        omega

theorem queueOf_mem {tree : CallTree Request} (member : tree ∈ queueOf capId groups) :
    ∃ group ∈ groups, group.1 = capId ∧ tree ∈ group.2 := by
  induction groups with
  | nil => cases member
  | cons group groups ih =>
      obtain ⟨other, calls⟩ := group
      rw [queueOf] at member
      split at member
      · rename_i same
        exact ⟨(other, calls), List.mem_cons_self .., same, member⟩
      · obtain ⟨found, inside, rest⟩ := ih member
        exact ⟨found, List.mem_cons_of_mem _ inside, rest⟩

theorem queueOf_eq_filter (sorted : Groups.Sorted groups) :
    queueOf capId groups = (groups.flatMap Prod.snd).filter fun tree => tree.call.aims capId := by
  induction groups with
  | nil => rfl
  | cons group groups ih =>
      obtain ⟨other, calls⟩ := group
      obtain ⟨head, ascending⟩ := List.pairwise_cons.mp sorted.ascending
      have rest : Groups.Sorted groups :=
        ⟨ascending, fun group member => sorted.aims group (List.mem_cons_of_mem _ member)⟩
      have here : ∀ tree ∈ calls, tree.call.aim = .ok (some other) := sorted.aims (other, calls) (by simp)
      rw [queueOf, List.flatMap_cons, List.filter_append, ← ih rest]
      split
      · rename_i same
        have own : calls.filter (fun tree => tree.call.aims capId) = calls := by
          rw [List.filter_eq_self]
          intro tree member
          simp [Request.aims, here tree member, same]
        have none : queueOf capId groups = [] := by
          rw [List.eq_nil_iff_forall_not_mem]
          intro tree member
          obtain ⟨group, inside, key, _⟩ := queueOf_mem member
          have above := head group inside
          dsimp only at above
          omega
        rw [own, none, List.append_nil]
      · rename_i different
        have none : calls.filter (fun tree => tree.call.aims capId) = [] := by
          rw [List.filter_eq_nil_iff]
          intro tree member
          simpa [Request.aims, here tree member] using different
        rw [none, List.nil_append]

end Queues

/-- What calls made by a client do to the queues: they wait behind others, or go straight to a client. -/
structure Nests (calls : Nat) (before after : AnswerEntry) : Prop where
  queue : after.queue = before.queue
  rejected : after.rejected = before.rejected
  joined : after.joined = before.joined
  made : ∃ meanwhile, after.made = before.made ++ meanwhile
  size : size after.queueClients ≤ size before.queueClients + calls
  slot : ∀ capId, ∃ waiting direct,
    queueOf capId after.queueClients = queueOf capId before.queueClients ++ waiting ∧
    after.received.filter (Request.aims capId) = before.received.filter (Request.aims capId) ++ direct ∧
    after.made.filter (Request.aims capId) =
      before.made.filter (Request.aims capId) ++ (direct ++ waiting.map CallTree.call) ∧
    (∀ tree ∈ waiting, tree.call.aim = .ok (some capId)) ∧
    (queueOf capId before.queueClients = [] → waiting = []) ∧
    (queueOf capId before.queueClients ≠ [] → direct = [])

namespace Nests

theorem refl (entry : AnswerEntry) : Nests 0 entry entry where
  queue := rfl
  rejected := rfl
  joined := rfl
  made := ⟨[], by simp⟩
  size := Nat.le_refl _
  slot capId := ⟨[], [], by simp⟩

theorem more {calls many : Nat} {before after : AnswerEntry} (nests : Nests calls before after) (enough : calls ≤ many) :
    Nests many before after :=
  { nests with size := Nat.le_trans nests.size (Nat.add_le_add_left enough _) }

theorem trans {calls others : Nat} {first second third : AnswerEntry} (sooner : Nests calls first second)
    (later : Nests others second third) : Nests (calls + others) first third where
  queue := later.queue.trans sooner.queue
  rejected := later.rejected.trans sooner.rejected
  joined := later.joined.trans sooner.joined
  made := by
    obtain ⟨some, soon⟩ := sooner.made
    obtain ⟨others, late⟩ := later.made
    exact ⟨some ++ others, by rw [late, soon, List.append_assoc]⟩
  size := by
    have soon := sooner.size
    have late := later.size
    omega
  slot capId := by
    obtain ⟨waiting, direct, queued, received, made, aims, quiet, busy⟩ := sooner.slot capId
    obtain ⟨waiting', direct', queued', received', made', aims', quiet', busy'⟩ := later.slot capId
    refine ⟨waiting ++ waiting', direct ++ direct', ?_, ?_, ?_, ?_, ?_, ?_⟩
    · rw [queued', queued, List.append_assoc]
    · rw [received', received, List.append_assoc]
    · rw [made', made]
      by_cases empty : queueOf capId first.queueClients = []
      · rw [quiet empty]
        rw [quiet empty, empty] at queued
        rw [quiet' queued]
        simp
      · have still : queueOf capId second.queueClients ≠ [] := by
          rw [queued]
          exact List.append_ne_nil_of_left_ne_nil empty _
        rw [busy empty, busy' still]
        simp
    · intro tree member
      rcases List.mem_append.mp member with member | member
      · exact aims tree member
      · exact aims' tree member
    · intro empty
      have none := quiet empty
      rw [none, empty] at queued
      rw [none, quiet' queued]
      rfl
    · intro some
      have still : queueOf capId second.queueClients ≠ [] := by
        rw [queued]
        exact List.append_ne_nil_of_left_ne_nil some _
      rw [busy some, busy' still]
      rfl

end Nests

theorem aims_iff {request : Request} {capId other : Nat} (aim : request.aim = .ok (some capId)) :
    request.aims other = true ↔ other = capId := by
  rw [Request.aims, aim]
  dsimp only
  rw [beq_iff_eq]
  exact eq_comm

section Calls

variable (present : Nat → Bool)

theorem nests_direct {entry : AnswerEntry} {request : Request} {capId : Nat} (aim : request.aim = .ok (some capId))
    (empty : queueOf capId entry.queueClients = []) :
    Nests 0 entry { entry with made := entry.made ++ [request], received := entry.received ++ [request] } where
  queue := rfl
  rejected := rfl
  joined := rfl
  made := ⟨[request], rfl⟩
  size := Nat.le_refl _
  slot other := by
    refine ⟨[], [request].filter (Request.aims other), by simp, by simp, by simp, nofun, fun _ => rfl, ?_⟩
    intro busy
    rw [List.filter_eq_nil_iff]
    intro single member
    cases List.mem_singleton.mp member
    rw [aims_iff aim]
    rintro rfl
    exact busy empty

theorem nests_waiting {entry : AnswerEntry} {tree : CallTree Request} {capId : Nat}
    (aim : tree.call.aim = .ok (some capId)) (busy : queueOf capId entry.queueClients ≠ []) :
    Nests tree.trail.length entry { entry with
      made := entry.made ++ [tree.call], queueClients := alterQueue capId (· ++ [tree]) entry.queueClients } where
  queue := rfl
  rejected := rfl
  joined := rfl
  made := ⟨[tree.call], rfl⟩
  size := by
    have grows := size_alterQueue (· ++ [tree]) busy
    rw [trails_append, List.length_append, trails, trails, List.append_nil] at grows
    dsimp only
    omega
  slot other := by
    by_cases same : other = capId
    · subst same
      refine ⟨[tree], [], queueOf_alterQueue busy, by simp, ?_, ?_, fun empty => absurd empty busy, fun _ => rfl⟩
      · have own : tree.call.aims other = true := (aims_iff aim).mpr rfl
        simp [own]
      · intro single member
        rw [List.mem_singleton.mp member]
        exact aim
    · have plain : tree.call.aims other = false := by
        rw [Bool.eq_false_iff]
        exact fun aims => same ((aims_iff aim).mp aims)
      refine ⟨[], [], ?_, by simp, by simp [plain], nofun, fun _ => rfl, fun _ => rfl⟩
      rw [List.append_nil]
      exact queueOf_alterQueue_other same

mutual

theorem call_nests (tree : CallTree Request) (entry : AnswerEntry) :
    Nests tree.trail.length entry (call present tree entry) := by
  cases tree with
  | mk request throws within =>
      rw [call]
      split
      · rename_i capId aim
        split
        · rename_i empty
          split
          · have direct := nests_direct aim (List.isEmpty_iff.mp empty)
            have rest := callAll_nests within
              { entry with made := entry.made ++ [request], received := entry.received ++ [request] }
            apply (direct.trans rest).more
            rw [trail, List.length_cons]
            omega
          · exact (Nests.refl entry).more (Nat.zero_le _)
        · rename_i busy
          split
          · have waits : (CallTree.mk request throws within).call.aim = .ok (some capId) := aim
            exact nests_waiting waits fun empty => busy (List.isEmpty_iff.mpr empty)
          · exact (Nests.refl entry).more (Nat.zero_le _)
      · exact (Nests.refl entry).more (Nat.zero_le _)

theorem callAll_nests (trees : List (CallTree Request)) (entry : AnswerEntry) :
    Nests (trails trees).length entry (callAll present trees entry) := by
  cases trees with
  | nil =>
      rw [callAll, trails]
      exact .refl entry
  | cons tree trees =>
      rw [callAll, trails, List.length_append]
      exact (call_nests tree entry).trans (callAll_nests trees _)

end

end Calls

section Flush

variable (present : Nat → Bool)

def deliver (capId : Nat) (tree : CallTree Request) (entry : AnswerEntry) : AnswerEntry :=
  joinFirst capId tree (callAll present tree.within { entry with received := entry.received ++ [tree.call] })

/-- What a flush passes on if no client throws, and the state it ends in. -/
def passOn (capId : Nat) : Nat → AnswerEntry → List (CallTree Request) × AnswerEntry
  | 0, entry => ([], entry)
  | turns + 1, entry =>
      match queueOf capId entry.queueClients with
      | [] => ([], entry)
      | tree :: _ =>
          let rest := passOn capId turns (deliver present capId tree entry)
          (tree :: rest.1, rest.2)

def passOnAll (turns : Nat) : List Nat → AnswerEntry → List (CallTree Request) × AnswerEntry
  | [], entry => ([], entry)
  | capId :: capIds, entry =>
      let first := passOn present capId turns entry
      let rest := passOnAll turns capIds first.2
      (first.1 ++ rest.1, rest.2)

variable {before entry : AnswerEntry} {capId turns : Nat}

/-- Between two calls of a flush: what was queued has been passed on and joined, or waits for its capability. -/
structure Flushing (before entry : AnswerEntry) : Prop where
  queue : entry.queue = []
  rejected : ∀ tree ∈ before.queue, (∀ capId, tree.call.aim ≠ .ok (some capId)) →
    ∀ id ∈ tree.call.ids, id ∈ entry.rejected
  joined : ∀ tree ∈ before.queue, ∀ capId, tree.call.aim = .ok (some capId) →
    tree.call.id ∈ entry.joined ∨ tree ∈ queueOf capId entry.queueClients
  made : ∃ meanwhile, entry.made = before.queue.map CallTree.call ++ meanwhile
  aimed : ∀ capId, ∀ tree ∈ queueOf capId entry.queueClients, tree.call.aim = .ok (some capId)
  order : ∀ capId, entry.made.filter (Request.aims capId) = entry.received.filter (Request.aims capId) ++
    (queueOf capId entry.queueClients).map CallTree.call

theorem deliver_flushing (flushing : Flushing before entry) {tree : CallTree Request} {rest : List (CallTree Request)}
    (front : queueOf capId entry.queueClients = tree :: rest) :
    Flushing before (deliver present capId tree entry) ∧
      size (deliver present capId tree entry).queueClients < size entry.queueClients ∧
      ∀ other, queueOf other entry.queueClients = [] →
        queueOf other (deliver present capId tree entry).queueClients = [] := by
  let begun := { entry with received := entry.received ++ [tree.call] }
  let taken := callAll present tree.within begun
  have nests : Nests (trails tree.within).length begun taken := callAll_nests present tree.within begun
  have aim : tree.call.aim = .ok (some capId) := flushing.aimed capId tree (by rw [front]; simp)
  obtain ⟨waiting, direct, queued, received, made, aims, quiet, busy⟩ := nests.slot capId
  have some : queueOf capId begun.queueClients ≠ [] := by
    rw [show queueOf capId begun.queueClients = tree :: rest from front]
    exact List.cons_ne_nil _ _
  rw [show queueOf capId begun.queueClients = tree :: rest from front] at queued
  have still : queueOf capId taken.queueClients ≠ [] := by
    rw [queued]
    exact List.cons_ne_nil _ _
  have here : queueOf capId (deliver present capId tree entry).queueClients = rest ++ waiting := by
    rw [show (deliver present capId tree entry).queueClients = alterQueue capId List.tail taken.queueClients from rfl,
      queueOf_alterQueue still, queued]
    rfl
  have there : ∀ other, other ≠ capId →
      queueOf other (deliver present capId tree entry).queueClients = queueOf other taken.queueClients :=
    fun other different => queueOf_alterQueue_other different
  refine ⟨⟨?_, ?_, ?_, ?_, ?_, ?_⟩, ?_, ?_⟩
  · exact nests.queue.trans flushing.queue
  · intro other member aimless id named
    rw [show (deliver present capId tree entry).rejected = entry.rejected from nests.rejected]
    exact flushing.rejected other member aimless id named
  · intro other member key aims
    rw [show (deliver present capId tree entry).joined = taken.joined ++ [tree.call.id] from rfl, nests.joined]
    rcases flushing.joined other member key aims with joined | waits
    · exact Or.inl (List.mem_append_left _ joined)
    · by_cases same : key = capId
      · subst same
        rw [front] at waits
        rcases List.mem_cons.mp waits with rfl | later
        · exact Or.inl (List.mem_append_right _ (List.mem_singleton_self _))
        · right
          rw [here]
          exact List.mem_append_left _ later
      · right
        obtain ⟨more, _, grows, _⟩ := nests.slot key
        rw [there key same, grows]
        exact List.mem_append_left _ waits
  · obtain ⟨some, so⟩ := flushing.made
    obtain ⟨others, more⟩ := nests.made
    refine ⟨some ++ others, ?_⟩
    rw [← List.append_assoc, ← so]
    exact more
  · intro other item member
    by_cases same : other = capId
    · subst same
      rw [here] at member
      rcases List.mem_append.mp member with member | member
      · exact flushing.aimed other item (by rw [front]; exact List.mem_cons_of_mem _ member)
      · exact aims item member
    · obtain ⟨more, _, grows, _, _, aimed, _, _⟩ := nests.slot other
      rw [there other same, grows] at member
      rcases List.mem_append.mp member with member | member
      · exact flushing.aimed other item member
      · exact aimed item member
  · intro other
    by_cases same : other = capId
    · subst same
      have own : tree.call.aims other = true := (aims_iff aim).mpr rfl
      have order := flushing.order other
      rw [here]
      change taken.made.filter _ = taken.received.filter _ ++ _
      rw [made, received, busy some]
      change entry.made.filter _ ++ _ = (entry.received ++ [tree.call]).filter _ ++ [] ++ _
      rw [order, front]
      simp [own]
    · have plain : tree.call.aims other = false := by
        rw [Bool.eq_false_iff]
        exact fun aims => same ((aims_iff aim).mp aims)
      obtain ⟨more, straight, grows, got, makes, _, empty, full⟩ := nests.slot other
      have order := flushing.order other
      rw [there other same, grows]
      change taken.made.filter _ = taken.received.filter _ ++ _
      rw [makes, got]
      change entry.made.filter _ ++ _ = (entry.received ++ [tree.call]).filter _ ++ _ ++ _
      rw [order]
      by_cases none : queueOf other entry.queueClients = []
      · rw [empty none, show queueOf other begun.queueClients = [] from none]
        simp [plain]
      · rw [full none]
        simp [plain, begun]
  · have shrinks := size_alterQueue List.tail still
    have grows := nests.size
    rw [queued] at shrinks
    change size taken.queueClients ≤ size entry.queueClients + (trails tree.within).length at grows
    have counted : (trails (tree :: rest ++ waiting)).length =
        1 + (trails tree.within).length + (trails (rest ++ waiting)).length := by
      rw [List.cons_append, trails, trail_eq, List.length_append, List.length_cons, CallTree.inner]
      omega
    change size (alterQueue capId List.tail taken.queueClients) < _
    change _ = _ + (trails (rest ++ waiting)).length at shrinks
    omega
  · intro other none
    have different : other ≠ capId := by
      rintro rfl
      rw [front] at none
      cases none
    obtain ⟨more, _, grows, _, _, _, empty, _⟩ := nests.slot other
    rw [there other different, grows, empty none, show queueOf other begun.queueClients = [] from none]
    rfl

variable (capId) in
theorem passOn_flushing (flushing : Flushing before entry) (enough : size entry.queueClients ≤ turns) :
    Flushing before (passOn present capId turns entry).2 ∧
      size (passOn present capId turns entry).2.queueClients ≤ size entry.queueClients ∧
      queueOf capId (passOn present capId turns entry).2.queueClients = [] ∧
      ∀ other, queueOf other entry.queueClients = [] →
        queueOf other (passOn present capId turns entry).2.queueClients = [] := by
  induction turns generalizing entry with
  | zero =>
      refine ⟨flushing, Nat.le_refl _, ?_, fun _ none => none⟩
      rw [List.eq_nil_iff_forall_not_mem]
      intro tree member
      obtain ⟨group, inside, _, found⟩ := queueOf_mem member
      have waits : tree ∈ entry.queueClients.flatMap Prod.snd := List.mem_flatMap.mpr ⟨group, inside, found⟩
      have counted := QueueingClient.length_le_trails (entry.queueClients.flatMap Prod.snd)
      rw [size] at enough
      have none : entry.queueClients.flatMap Prod.snd = [] := List.length_eq_zero_iff.mp (by omega)
      rw [none] at waits
      cases waits
  | succ turns ih =>
      rw [passOn]
      cases front : queueOf capId entry.queueClients with
      | nil => exact ⟨flushing, Nat.le_refl _, front, fun _ none => none⟩
      | cons tree rest =>
          obtain ⟨still, fewer, quiet⟩ := deliver_flushing present flushing front
          obtain ⟨ends, less, empty, silent⟩ := ih still (by omega)
          exact ⟨ends, by dsimp only; omega, empty, fun other none => silent other (quiet other none)⟩

theorem passOnAll_flushing (flushing : Flushing before entry) (enough : size entry.queueClients ≤ turns)
    (capIds : List Nat) :
    Flushing before (passOnAll present turns capIds entry).2 ∧
      ∀ other, other ∈ capIds ∨ queueOf other entry.queueClients = [] →
        queueOf other (passOnAll present turns capIds entry).2.queueClients = [] := by
  induction capIds generalizing entry with
  | nil =>
      refine ⟨flushing, ?_⟩
      rintro other (none | none)
      · cases none
      · exact none
  | cons capId capIds ih =>
      obtain ⟨still, less, empty, silent⟩ := passOn_flushing present capId flushing enough
      obtain ⟨ends, quiet⟩ := ih still (Nat.le_trans less enough)
      refine ⟨ends, ?_⟩
      rintro other (member | none)
      · rcases List.mem_cons.mp member with rfl | later
        · exact quiet other (Or.inr empty)
        · exact quiet other (Or.inl later)
      · exact quiet other (Or.inr (silent other none))

/-- Every capability that these calls are for is there, and takes the call without throwing. -/
def AllTaken (present : Nat → Bool) (trees : List (CallTree Request)) : Prop :=
  ∀ tree ∈ trees, ∀ capId, tree.call.aim = .ok (some capId) → present capId = true ∧ tree.throws = false

theorem flushQueue_meets (flushing : Flushing before entry) :
    Meets (flushQueue present capId turns) entry
      (fun _ after => AllTaken present (passOn present capId turns entry).1 ∧
        after = (passOn present capId turns entry).2)
      fun _ after => ¬ AllTaken present (passOn present capId turns entry).1 ∧
        ∃ other, queueOf other after.queueClients ≠ [] := by
  induction turns generalizing entry with
  | zero => exact ⟨nofun, rfl⟩
  | succ turns ih =>
      apply Meets.get
      rw [passOn]
      cases front : queueOf capId entry.queueClients with
      | nil => exact ⟨nofun, rfl⟩
      | cons tree rest =>
          have aim : tree.call.aim = .ok (some capId) := flushing.aimed capId tree (by rw [front]; simp)
          have refused : ¬ (present capId = true ∧ tree.throws = false) →
              ¬ AllTaken present (tree :: (passOn present capId turns (deliver present capId tree entry)).1) :=
            fun refuses all => refuses (all tree (List.mem_cons_self ..) capId aim)
          have waits : queueOf capId entry.queueClients ≠ [] := by
            rw [front]
            exact List.cons_ne_nil _ _
          dsimp only
          split
          · rename_i found
            cases throws : tree.throws with
            | true =>
                refine ⟨refused (by simp [throws]), capId, ?_⟩
                obtain ⟨waiting, _, queued, _⟩ := (callAll_nests present tree.within
                  { entry with received := entry.received ++ [tree.call] }).slot capId
                rw [queued]
                exact List.append_ne_nil_of_left_ne_nil waits _
            | false =>
                have takes : AllTaken present
                    (tree :: (passOn present capId turns (deliver present capId tree entry)).1) ↔
                      AllTaken present (passOn present capId turns (deliver present capId tree entry)).1 := by
                  unfold AllTaken
                  rw [List.forall_mem_cons]
                  constructor
                  · exact fun all => all.2
                  · refine fun others => ⟨?_, others⟩
                    intro other same
                    rw [aim] at same
                    cases same
                    exact ⟨found, throws⟩
                change Meets (flushQueue present capId turns) (deliver present capId tree entry) _ _
                rw [takes]
                exact ih (deliver_flushing present flushing front).1
          · rename_i absent
            exact ⟨refused fun taken => absent taken.1, capId, waits⟩

theorem flushAll_meets (flushing : Flushing before entry) (enough : size entry.queueClients ≤ turns) (groups : Groups) :
    Meets (groups.forM fun group => flushQueue present group.1 turns) entry
      (fun _ after => AllTaken present (passOnAll present turns (groups.map Prod.fst) entry).1 ∧
        after = (passOnAll present turns (groups.map Prod.fst) entry).2)
      fun _ after => ¬ AllTaken present (passOnAll present turns (groups.map Prod.fst) entry).1 ∧
        ∃ other, queueOf other after.queueClients ≠ [] := by
  induction groups generalizing entry with
  | nil => exact ⟨nofun, rfl⟩
  | cons group groups ih =>
      obtain ⟨still, less, _, _⟩ := passOn_flushing present group.1 flushing enough
      have both : AllTaken present (passOnAll present turns ((group :: groups).map Prod.fst) entry).1 ↔
          AllTaken present (passOn present group.1 turns entry).1 ∧
            AllTaken present (passOnAll present turns (groups.map Prod.fst) (passOn present group.1 turns entry).2).1 := by
        unfold AllTaken
        rw [List.map_cons, passOnAll]
        exact List.forall_mem_append
      rw [both, List.forM_eq_forM, List.forM_cons]
      apply Meets.bind
      apply (flushQueue_meets present flushing).mono
      · rintro _ _ ⟨taken, rfl⟩
        have rest := ih still (Nat.le_trans less enough)
        rw [List.forM_eq_forM] at rest
        apply rest.mono
        · rintro _ after ⟨others, same⟩
          exact ⟨⟨taken, others⟩, same⟩
        · rintro _ after ⟨others, waits⟩
          exact ⟨fun all => others all.2, waits⟩
      · rintro _ after ⟨refused, waits⟩
        exact ⟨fun all => refused all.1, waits⟩

end Flush

def begun (entry : AnswerEntry) : AnswerEntry :=
  { entry with
    done := true, queue := [], room := Nat.zero_le _, rejected := entry.rejected ++ (splitQueue entry.queue []).2
    queueClients := (splitQueue entry.queue []).1 }

/-- The calls that leave the queues: those that were queued for a capability, and those that wait behind them. -/
def passedOn (present : Nat → Bool) (entry : AnswerEntry) : List (CallTree Request) :=
  (passOnAll present (trails entry.queue).length ((splitQueue entry.queue []).1.map Prod.fst) (begun entry)).1

/-- The results are returned to the caller and can be copied, and every call that leaves a queue is taken by a client of
the table. -/
def AllPassed (present : Nat → Bool) (copied : Except String PUnit) (entry : AnswerEntry) : Prop :=
  if entry.sendResultsElsewhere ∨ copied ≠ .ok () then entry.queue = [] else AllTaken present (passedOn present entry)

theorem splitQueue_of (entry : AnswerEntry) : Fulfiller.Split entry.queue [] (splitQueue entry.queue []) := by
  rw [splitQueue_eq (by intro group member; cases member) entry.room]
  exact Fulfiller.splitQueue_split ⟨.nil, nofun⟩ (by intro group member; cases member) entry.room

theorem begun_flushing {entry : AnswerEntry} (pending : entry.Pending) : Flushing entry (begun entry) := by
  have split := splitQueue_of entry
  have queued : ∀ capId, queueOf capId (begun entry).queueClients =
      entry.queue.filter fun tree => tree.call.aims capId := by
    intro capId
    rw [show (begun entry).queueClients = (splitQueue entry.queue []).1 from rfl, queueOf_eq_filter split.sorted,
      split.queued capId]
    rfl
  constructor
  · rfl
  · intro tree member aimless id named
    exact List.mem_append_right _ (split.rejected tree member aimless id named)
  · intro tree member capId aim
    right
    rw [queued]
    exact List.mem_filter.mpr ⟨member, (aims_iff aim).mpr rfl⟩
  · exact ⟨[], by rw [List.append_nil]; exact pending.made⟩
  · intro capId tree member
    obtain ⟨group, inside, rfl, found⟩ := queueOf_mem member
    exact split.sorted.aims group inside tree found
  · intro capId
    rw [queued]
    change entry.made.filter _ = entry.received.filter _ ++ _
    rw [pending.made, pending.received, List.filter_map]
    rfl

theorem fulfill_meets (present : Nat → Bool) {entry : AnswerEntry} (pending : entry.Pending)
    (here : entry.sendResultsElsewhere = false) (sent : Except String PUnit) :
    Meets (fulfill present (.ok ()) sent) entry
      (fun _ after => AllTaken present (passedOn present entry) ∧ Delivered entry after)
      fun _ after => AllTaken present (passedOn present entry) ∧ Delivered entry after ∨
        ¬ AllTaken present (passedOn present entry) ∧ ∃ other, queueOf other after.queueClients ≠ [] := by
  have begins := begun_flushing pending
  have enough : size (begun entry).queueClients ≤ (trails entry.queue).length := by
    have bound := size_splitQueue entry.queue []
    rw [show size [] = 0 from rfl, Nat.zero_add] at bound
    exact bound
  obtain ⟨ends, empties⟩ := passOnAll_flushing present begins enough
    ((splitQueue entry.queue []).1.map Prod.fst)
  have delivered : Delivered entry (passOnAll present (trails entry.queue).length
      ((splitQueue entry.queue []).1.map Prod.fst) (begun entry)).2 := by
    have flushed : ∀ capId, queueOf capId (passOnAll present (trails entry.queue).length
        ((splitQueue entry.queue []).1.map Prod.fst) (begun entry)).2.queueClients = [] := by
      intro capId
      apply empties
      by_cases some : queueOf capId (begun entry).queueClients = []
      · exact Or.inr some
      · obtain ⟨tree, member⟩ := List.exists_mem_of_ne_nil _ some
        obtain ⟨group, inside, rfl, _⟩ := queueOf_mem member
        exact Or.inl (List.mem_map_of_mem inside)
    refine ⟨ends.queue, flushed, ?_, ends.made, ?_⟩
    · intro tree member
      by_cases aims : ∃ capId, tree.call.aim = .ok (some capId)
      · obtain ⟨capId, aim⟩ := aims
        rcases ends.joined tree member capId aim with joined | waits
        · exact Or.inl ⟨capId, aim, joined⟩
        · rw [flushed capId] at waits
          cases waits
      · exact Or.inr (ends.rejected tree member fun capId aim => aims ⟨capId, aim⟩)
    · intro capId
      have order := ends.order capId
      rw [flushed capId, List.map_nil, List.append_nil] at order
      exact order.symm
  have runs : fulfill present (.ok ()) sent entry = ((splitQueue entry.queue []).1.forM (fun group =>
      flushQueue present group.1 (trails entry.queue).length) >>= fun _ => ofExcept sent) (begun entry) := by
    unfold fulfill
    rw [bind_apply, get_apply]
    dsimp only
    rw [pending.done, if_neg Bool.false_ne_true]
    change (if entry.sendResultsElsewhere = true then _ else _ : AnswerM PUnit) { entry with done := true } = _
    rw [if_neg (by rw [here]; exact Bool.false_ne_true)]
    rfl
  unfold Meets
  rw [runs]
  apply Meets.bind
  apply (flushAll_meets present begins enough _).mono
  · rintro _ _ ⟨taken, rfl⟩
    cases sent with
    | ok value => exact ⟨taken, delivered⟩
    | error reason => exact Or.inl ⟨taken, delivered⟩
  · rintro _ after ⟨refused, waits⟩
    exact Or.inr ⟨refused, waits⟩

theorem delivered_marked_iff {entry : AnswerEntry} (pending : entry.Pending) :
    Delivered entry { entry with done := true } ↔ entry.queue = [] := by
  constructor
  · exact fun delivered => delivered.emptied
  · intro empty
    have made : entry.made = [] := by
      rw [pending.made, empty]
      rfl
    refine ⟨empty, ?_, ?_, ⟨[], ?_⟩, ?_⟩
    · intro capId
      rw [show queueOf capId entry.queueClients = _ from by rw [pending.queueClients]]
      rfl
    · intro tree member
      rw [empty] at member
      cases member
    · rw [List.append_nil]
      exact pending.made
    · intro capId
      change entry.received.filter _ = entry.made.filter _
      rw [made, pending.received]

def twoCalls : AnswerEntry where
  queue := [.mk { id := 0, pointer := .ok (.interface 0) } false [], .mk { id := 1, pointer := .ok (.interface 0) } false []]
  made := [{ id := 0, pointer := .ok (.interface 0) }, { id := 1, pointer := .ok (.interface 0) }]

end AnswerEntry

end CapnpEs.Delivery
