import CapnpEs.Delivery.QueueingClients
import CapnpEs.Library.Outcome

/-! `Fulfiller` and `EmbargoClient`: an answer that calls are pipelined on before it is settled. -/

namespace CapnpEs.Delivery

open CallTree Outcome

open Rpc (PointerEnd callQueueSize INVARIANT_UNREACHABLE_CODE)

/-- The fulfillers that wait behind that of a queued call: calls pipelined on its answer, and so on. -/
inductive Follower where
  | mk (id : Nat) (followers : List Follower)

namespace Follower

mutual

def ids : Follower → List Nat
  | mk id followers => id :: idsOf followers

def idsOf : List Follower → List Nat
  | [] => []
  | follower :: followers => ids follower ++ idsOf followers

end

end Follower

structure Request where
  id : Nat
  -- where `transformPtr` ends in the result, or what it throws
  pointer : Except String PointerEnd
  followers : List Follower := []

/-- The capability that `emptyQueue` finds. -/
def Request.aim (request : Request) : Except String (Option Nat) := request.pointer.map PointerEnd.fromPointer

def Request.ids (request : Request) : List Nat := request.id :: Follower.idsOf request.followers

def Request.aims (capId : Nat) (request : Request) : Bool :=
  match request.aim with
  | .ok (some other) => other == capId
  | _ => false

inductive Settlement
  | pending
  | resolved
  | rejected (reason : String)
  deriving DecidableEq

structure Fulfiller where
  settled : Bool := false
  -- whether `answer` is set
  answered : Bool := false
  queue : List (CallTree Request) := []
  -- `pipelineCall` takes no more calls than that
  room : queue.length ≤ callQueueSize := by decide
  deferred : Settlement := .pending
  -- the fulfillers of calls that have been rejected
  rejected : List Nat := []
  -- the calls made on a capability of the result, in the order they were made
  accepted : List Request := []
  -- what the clients of the capability table have been called with
  received : List Request := []

namespace Fulfiller

abbrev FulfillerM := EStateM String Fulfiller

abbrev Groups := List (Nat × List (CallTree Request))

/-- `CallQueue.pushPreparedLocal`, whose result is not looked at -/
def pushPreparedLocal (calls : List (CallTree Request)) (tree : CallTree Request) : List (CallTree Request) :=
  if calls.length < callQueueSize then calls ++ [tree] else calls

/-- `qs[cn]`, in the order of `Object.keys`. -/
def enqueue (capId : Nat) (tree : CallTree Request) : Groups → Groups
  | [] => [(capId, [tree])]
  | (other, calls) :: groups =>
      if capId < other then
        (capId, [tree]) :: (other, calls) :: groups
      else if capId = other then
        (other, pushPreparedLocal calls tree) :: groups
      else
        (other, calls) :: enqueue capId tree groups

/-- The loop of `emptyQueue`: the queues, and the fulfillers that are rejected. -/
def splitQueue : List (CallTree Request) → Groups → Groups × List Nat
  | [], groups => (groups, [])
  | tree :: trees, groups =>
      match tree.call.aim with
      | .ok (some capId) => splitQueue trees (enqueue capId tree groups)
      | _ => ((splitQueue trees groups).1, tree.call.ids ++ (splitQueue trees groups).2)

def emptyQueue : FulfillerM Groups := do
  let f ← get
  set { f with queue := [], room := Nat.zero_le _, rejected := f.rejected ++ (splitQueue f.queue []).2 }
  return (splitQueue f.queue []).1

section Clients

-- which slots of the capability table hold a client
variable (present : Nat → Bool)

mutual

/-- `ImmediateAnswer.pipelineCall`: the call goes to the client in the table, or is answered with an error at once. -/
def answerCall : CallTree Request → Fulfiller → Fulfiller
  | .mk request _ within, f =>
      match request.pointer with
      | .ok found =>
          if present found.getInterfacePointer then
            answerCalls within
              { f with accepted := f.accepted ++ [request], received := f.received ++ [request] }
          else
            f
      | .error _ => f

def answerCalls : List (CallTree Request) → Fulfiller → Fulfiller
  | [], f => f
  | tree :: trees, f => answerCalls trees (answerCall tree f)

end

def pipelineCall (tree : CallTree Request) (f : Fulfiller) : Fulfiller :=
  if f.answered then
    answerCall present tree f
  else if fits : f.queue.length < callQueueSize then
    { f with
      queue := f.queue ++ [tree], accepted := f.accepted ++ [tree.call]
      room := by rw [List.length_append]; exact fits }
  else
    f

def pipelineCalls (trees : List (CallTree Request)) (f : Fulfiller) : Fulfiller :=
  trees.foldl (fun f tree => pipelineCall present tree f) f

/-- `new EmbargoClient(client, q)`, which flushes the queue before the table holds it. -/
def embargoClient : List (CallTree Request) → FulfillerM PUnit
  | [] => return ()
  | tree :: trees => do
    modify fun f => answerCalls present tree.within { f with received := f.received ++ [tree.call] }
    if tree.throws then throw "thrown by a client" else embargoClient trees

def flushGroup (group : Nat × List (CallTree Request)) : FulfillerM PUnit :=
  if present group.1 then embargoClient present group.2 else throw INVARIANT_UNREACHABLE_CODE

def tryFulfill : FulfillerM Bool := do
  let f ← get
  if f.settled then
    return false
  else do
    set { f with settled := true, answered := true }
    let queues ← emptyQueue
    queues.forM (flushGroup present)
    modify fun f => { f with deferred := .resolved }
    return true

end Clients

def tryReject (reason : String) : FulfillerM Bool := do
  let f ← get
  if f.settled then
    return false
  else do
    set { f with settled := true, queue := [], room := Nat.zero_le _ }
    f.queue.forM fun tree => modify fun f => { f with rejected := f.rejected ++ tree.call.ids }
    modify fun f => { f with deferred := .rejected reason }
    return true

def settle (settlement : FulfillerM Bool) (f : Fulfiller) : Fulfiller :=
  match settlement f with
  | .ok _ after => after
  | .error _ after => after

/-- The fulfiller is settled, of every call that was queued the target has been called or the fulfiller rejected, and
no call waits in its queue, which a settled fulfiller does not look at any more. -/
structure Accounted (before after : Fulfiller) : Prop where
  settled : after.deferred ≠ .pending
  waiting : after.queue = []
  calls : ∀ tree ∈ before.queue, tree.call ∈ after.received ∨ ∀ id ∈ tree.call.ids, id ∈ after.rejected

/-- Every capability that a queued call is for is there, and takes the call without throwing. -/
def Deliverable (present : Nat → Bool) (f : Fulfiller) : Prop :=
  ∀ tree ∈ f.queue, ∀ capId, tree.call.aim = .ok (some capId) → present capId = true ∧ tree.throws = false

structure Groups.Sorted (groups : Groups) : Prop where
  ascending : groups.Pairwise fun earlier later => earlier.1 < later.1
  aims : ∀ group ∈ groups, ∀ tree ∈ group.2, tree.call.aim = .ok (some group.1)

theorem mem_enqueue {capId : Nat} {tree : CallTree Request} {groups : Groups} {group : Nat × List (CallTree Request)}
    (member : group ∈ enqueue capId tree groups) :
    group ∈ groups ∨ group.1 = capId ∧ (group.2 = [tree] ∨
      ∃ calls, (capId, calls) ∈ groups ∧ group.2 = pushPreparedLocal calls tree) := by
  induction groups with
  | nil =>
      cases List.mem_singleton.mp member
      exact Or.inr ⟨rfl, Or.inl rfl⟩
  | cons first groups ih =>
      obtain ⟨other, calls⟩ := first
      rw [enqueue] at member
      split at member
      · rcases List.mem_cons.mp member with rfl | rest
        · exact Or.inr ⟨rfl, Or.inl rfl⟩
        · exact Or.inl rest
      · split at member
        · rename_i same
          rcases List.mem_cons.mp member with rfl | rest
          · exact Or.inr ⟨same.symm, Or.inr ⟨calls, by simp [same], rfl⟩⟩
          · exact Or.inl (List.mem_cons_of_mem _ rest)
        · rcases List.mem_cons.mp member with rfl | rest
          · exact Or.inl (List.mem_cons_self ..)
          · rcases ih rest with old | ⟨same, new | ⟨calls', old, pushed⟩⟩
            · exact Or.inl (List.mem_cons_of_mem _ old)
            · exact Or.inr ⟨same, Or.inl new⟩
            · exact Or.inr ⟨same, Or.inr ⟨calls', List.mem_cons_of_mem _ old, pushed⟩⟩

theorem mem_pushPreparedLocal {calls : List (CallTree Request)} {tree other : CallTree Request}
    (member : other ∈ pushPreparedLocal calls tree) : other ∈ calls ∨ other = tree := by
  unfold pushPreparedLocal at member
  split at member
  · simpa using member
  · exact Or.inl member

theorem length_pushPreparedLocal (calls : List (CallTree Request)) (tree : CallTree Request) :
    (pushPreparedLocal calls tree).length ≤ calls.length + 1 := by
  unfold pushPreparedLocal
  split
  · simp
  · exact Nat.le_succ _

theorem Groups.Sorted.enqueue {groups : Groups} (sorted : groups.Sorted) {capId : Nat} {tree : CallTree Request}
    (aims : tree.call.aim = .ok (some capId)) : Groups.Sorted (enqueue capId tree groups) := by
  constructor
  · have ascending := sorted.ascending
    clear sorted
    induction groups with
    | nil => exact List.pairwise_singleton _ _
    | cons first groups ih =>
        obtain ⟨other, calls⟩ := first
        obtain ⟨head, rest⟩ := List.pairwise_cons.mp ascending
        rw [Fulfiller.enqueue]
        split
        · rename_i below
          refine List.pairwise_cons.mpr ⟨?_, ascending⟩
          intro group member
          rcases List.mem_cons.mp member with rfl | later
          · exact below
          · exact Nat.lt_trans below (head group later)
        · split
          · exact List.pairwise_cons.mpr ⟨head, rest⟩
          · rename_i notBelow different
            refine List.pairwise_cons.mpr ⟨?_, ih rest⟩
            intro group member
            rcases mem_enqueue member with old | ⟨same, _⟩
            · exact head group old
            · dsimp only
              omega
  · intro group member other inside
    rcases mem_enqueue member with old | ⟨same, single | ⟨calls, old, pushed⟩⟩
    · exact sorted.aims group old other inside
    · rw [single] at inside
      rw [List.mem_singleton.mp inside, aims, same]
    · rw [pushed] at inside
      rw [same]
      rcases mem_pushPreparedLocal inside with earlier | rfl
      · exact sorted.aims _ old other earlier
      · exact aims

/-- No queue can fill up before so many more calls are pushed. -/
def Groups.Room (groups : Groups) (more : Nat) : Prop := ∀ group ∈ groups, group.2.length + more ≤ callQueueSize

theorem Groups.Room.enqueue {groups : Groups} {more : Nat} (room : groups.Room (more + 1))
    (some : more + 1 ≤ callQueueSize) (capId : Nat) (tree : CallTree Request) :
    Groups.Room (enqueue capId tree groups) more := by
  intro group member
  rcases mem_enqueue member with old | ⟨_, single | ⟨calls, old, pushed⟩⟩
  · have bound := room group old
    omega
  · rw [single, List.length_singleton]
    omega
  · have bound := room _ old
    have grows := length_pushPreparedLocal calls tree
    rw [pushed]
    dsimp only at bound
    omega

theorem filter_enqueue {groups : Groups} (sorted : groups.Sorted) (room : groups.Room 1) {capId : Nat}
    {tree : CallTree Request} (aims : tree.call.aim = .ok (some capId)) (other : Nat) :
    ((enqueue capId tree groups).flatMap Prod.snd).filter (fun t => t.call.aims other) =
      (groups.flatMap Prod.snd).filter (fun t => t.call.aims other) ++
        [tree].filter (fun t => t.call.aims other) := by
  induction groups with
  | nil => simp [enqueue]
  | cons first groups ih =>
      obtain ⟨key, calls⟩ := first
      obtain ⟨head, ascending⟩ := List.pairwise_cons.mp sorted.ascending
      have rest : Groups.Sorted groups :=
        ⟨ascending, fun group member => sorted.aims group (List.mem_cons_of_mem _ member)⟩
      rw [enqueue]
      split
      · rename_i below
        have absent : ((((key, calls) :: groups).flatMap Prod.snd).filter fun t => t.call.aims capId) = [] := by
          rw [List.filter_eq_nil_iff]
          intro t member
          obtain ⟨group, inside, found⟩ := List.mem_flatMap.mp member
          have above : capId < group.1 := by
            rcases List.mem_cons.mp inside with rfl | later
            · exact below
            · exact Nat.lt_trans below (head group later)
          rw [Request.aims, sorted.aims group inside t found]
          simpa using Nat.ne_of_gt above
        rw [List.flatMap_cons, List.filter_append]
        by_cases same : other = capId
        · subst same
          rw [absent, List.append_nil, List.nil_append]
        · have plain : [tree].filter (fun t => t.call.aims other) = [] := by
            simpa [Request.aims, aims] using fun h => same h.symm
          rw [plain, List.nil_append, List.append_nil]
      · split
        · rename_i same
          subst same
          have fits : calls.length < callQueueSize := by
            have bound := room (capId, calls) (by simp)
            dsimp only at bound
            omega
          have later : other = capId → ((groups.flatMap Prod.snd).filter fun t => t.call.aims other) = [] := by
            rintro rfl
            rw [List.filter_eq_nil_iff]
            intro t member
            obtain ⟨group, inside, found⟩ := List.mem_flatMap.mp member
            rw [Request.aims, rest.aims group inside t found]
            simpa using Nat.ne_of_gt (head group inside)
          rw [pushPreparedLocal, if_pos fits, List.flatMap_cons, List.flatMap_cons, List.filter_append,
            List.filter_append, List.filter_append]
          by_cases own : other = capId
          · rw [later own, List.append_nil, List.append_nil]
          · have plain : [tree].filter (fun t => t.call.aims other) = [] := by
              simpa [Request.aims, aims] using fun h => own h.symm
            rw [plain, List.append_nil, List.append_nil]
        · rw [List.flatMap_cons, List.flatMap_cons, List.filter_append, List.filter_append,
            ih rest fun group member => room group (List.mem_cons_of_mem _ member), List.append_assoc]

/-- What `splitQueue` makes of the calls: each is put in the queue of its capability, or rejected. -/
structure Split (trees : List (CallTree Request)) (groups : Groups) (result : Groups × List Nat) : Prop where
  sorted : result.1.Sorted
  queued : ∀ capId, (result.1.flatMap Prod.snd).filter (fun t => t.call.aims capId) =
    (groups.flatMap Prod.snd).filter (fun t => t.call.aims capId) ++ trees.filter fun t => t.call.aims capId
  origin : ∀ group ∈ result.1, ∀ tree ∈ group.2, tree ∈ trees ∨ ∃ group' ∈ groups, tree ∈ group'.2
  nonempty : (∀ group ∈ groups, group.2 ≠ []) → ∀ group ∈ result.1, group.2 ≠ []
  rejected : ∀ tree ∈ trees, (∀ capId, tree.call.aim ≠ .ok (some capId)) → ∀ id ∈ tree.call.ids, id ∈ result.2

theorem pushPreparedLocal_ne_nil (calls : List (CallTree Request)) (tree : CallTree Request) (some : calls ≠ []) :
    pushPreparedLocal calls tree ≠ [] := by
  unfold pushPreparedLocal
  split
  · simp
  · exact some

theorem splitQueue_split {trees : List (CallTree Request)} {groups : Groups} (sorted : groups.Sorted)
    (room : groups.Room trees.length) (some : trees.length ≤ callQueueSize) :
    Split trees groups (splitQueue trees groups) := by
  induction trees generalizing groups with
  | nil =>
      refine ⟨sorted, ?_, ?_, fun filled => filled, ?_⟩
      · intro capId
        simp [splitQueue]
      · intro group member tree inside
        exact Or.inr ⟨group, member, inside⟩
      · intro tree member
        cases member
  | cons tree trees ih =>
      have fewer : trees.length ≤ callQueueSize := Nat.le_of_succ_le some
      have less : groups.Room trees.length := by
        intro group member
        have bound := room group member
        rw [List.length_cons] at bound
        omega
      have refused : (∀ capId, tree.call.aim ≠ .ok (Option.some capId)) → Split (tree :: trees) groups
          ((splitQueue trees groups).1, tree.call.ids ++ (splitQueue trees groups).2) := by
        intro aimless
        have rest := ih sorted less fewer
        refine ⟨rest.sorted, ?_, ?_, rest.nonempty, ?_⟩
        · intro capId
          have plain : tree.call.aims capId = false := by
            unfold Request.aims
            split
            · rename_i other aim
              exact absurd aim (aimless other)
            · rfl
          rw [List.filter_cons, plain, if_neg Bool.false_ne_true]
          exact rest.queued capId
        · intro group member other inside
          exact (rest.origin group member other inside).imp_left (List.mem_cons_of_mem _)
        · intro other member aimless' id named
          rcases List.mem_cons.mp member with rfl | later
          · exact List.mem_append_left _ named
          · exact List.mem_append_right _ (rest.rejected other later aimless' id named)
      rw [splitQueue]
      split
      · rename_i capId aim
        have rest := ih (sorted.enqueue aim) (room.enqueue some capId tree) fewer
        refine ⟨rest.sorted, ?_, ?_, ?_, ?_⟩
        · intro other
          have one : groups.Room 1 := by
            intro group member
            have bound := room group member
            rw [List.length_cons] at bound
            omega
          rw [rest.queued, filter_enqueue sorted one aim, List.append_assoc, ← List.filter_append,
            List.singleton_append]
        · intro group member other inside
          rcases rest.origin group member other inside with later | ⟨group', old, found⟩
          · exact Or.inl (List.mem_cons_of_mem _ later)
          · rcases mem_enqueue old with earlier | ⟨same, single | ⟨calls, earlier, pushed⟩⟩
            · exact Or.inr ⟨group', earlier, found⟩
            · rw [single] at found
              exact Or.inl (by simp [List.mem_singleton.mp found])
            · rw [pushed] at found
              rcases mem_pushPreparedLocal found with waiting | rfl
              · exact Or.inr ⟨_, earlier, waiting⟩
              · exact Or.inl (List.mem_cons_self ..)
        · intro filled
          apply rest.nonempty
          intro group member
          rcases mem_enqueue member with earlier | ⟨_, single | ⟨calls, earlier, pushed⟩⟩
          · exact filled group earlier
          · rw [single]
            exact List.cons_ne_nil _ _
          · rw [pushed]
            exact pushPreparedLocal_ne_nil calls tree (filled _ earlier)
        · intro other member aimless
          rcases List.mem_cons.mp member with rfl | later
          · exact absurd aim (aimless capId)
          · exact rest.rejected other later aimless
      · rename_i other
        exact refused other

/-- The queues that a fulfiller hands to its embargo clients, one after the other. -/
def flushOrder (f : Fulfiller) : List (CallTree Request) := (splitQueue f.queue []).1.flatMap Prod.snd

theorem splitQueue_of (f : Fulfiller) : Split f.queue [] (splitQueue f.queue []) := by
  apply splitQueue_split
  · exact ⟨.nil, nofun⟩
  · intro group member
    cases member
  · exact f.room

theorem filter_flushOrder (f : Fulfiller) (capId : Nat) :
    (flushOrder f).filter (fun t => t.call.aims capId) = f.queue.filter fun t => t.call.aims capId := by
  have split := (splitQueue_of f).queued capId
  rw [List.flatMap_nil, List.filter_nil, List.nil_append] at split
  exact split

theorem mem_flushOrder {f : Fulfiller} {tree : CallTree Request} :
    tree ∈ flushOrder f ↔ tree ∈ f.queue ∧ ∃ capId, tree.call.aim = .ok (some capId) := by
  constructor
  · intro member
    obtain ⟨group, inside, found⟩ := List.mem_flatMap.mp member
    refine ⟨?_, group.1, (splitQueue_of f).sorted.aims group inside tree found⟩
    rcases (splitQueue_of f).origin group inside tree found with queued | ⟨group', none, _⟩
    · exact queued
    · cases none
  · rintro ⟨queued, capId, aim⟩
    have aims : tree.call.aims capId = true := by
      simp [Request.aims, aim]
    have member : tree ∈ f.queue.filter fun t => t.call.aims capId := List.mem_filter.mpr ⟨queued, aims⟩
    rw [← filter_flushOrder] at member
    exact List.mem_of_mem_filter member

section Runs

variable (present : Nat → Bool)

mutual

def ran : CallTree Request → List Request
  | .mk request _ within =>
      match request.pointer with
      | .ok found => if present found.getInterfacePointer then request :: ranAll within else []
      | .error _ => []

def ranAll : List (CallTree Request) → List Request
  | [] => []
  | tree :: trees => ran tree ++ ranAll trees

end

def ranWithin (tree : CallTree Request) : List Request := ranAll present tree.within

def passOn (f : Fulfiller) (made delivered : List Request) : Fulfiller :=
  { f with accepted := f.accepted ++ made, received := f.received ++ delivered }

variable {present}

mutual

theorem answerCall_eq (tree : CallTree Request) (f : Fulfiller) :
    answerCall present tree f = f.passOn (ran present tree) (ran present tree) := by
  cases tree with
  | mk request throws within =>
      rw [answerCall, ran]
      split
      · split
        · have rest := answerCalls_eq within
            { f with accepted := f.accepted ++ [request], received := f.received ++ [request] }
          rw [rest]
          simp [passOn]
        · simp [passOn]
      · simp [passOn]

theorem answerCalls_eq (trees : List (CallTree Request)) (f : Fulfiller) :
    answerCalls present trees f = f.passOn (ranAll present trees) (ranAll present trees) := by
  cases trees with
  | nil => simp [answerCalls, ranAll, passOn]
  | cons tree trees =>
      rw [answerCalls, answerCall_eq tree f, answerCalls_eq trees, ranAll]
      simp [passOn]

end

def take (present : Nat → Bool) (f : Fulfiller) (calls : List (CallTree Request)) : Fulfiller :=
  f.passOn (calls.flatMap (ranWithin present)) (Overtaking.nested call (ranWithin present) calls)

theorem take_append (f : Fulfiller) (calls more : List (CallTree Request)) :
    take present (take present f calls) more = take present f (calls ++ more) := by
  simp [take, passOn, Overtaking.nested]

theorem embargoClient_run {calls : List (CallTree Request)} (quiet : ∀ tree ∈ calls, tree.throws = false)
    (f : Fulfiller) : embargoClient present calls f = .ok () (take present f calls) := by
  induction calls generalizing f with
  | nil => simp [embargoClient, take, passOn, Overtaking.nested, pure_apply]
  | cons tree calls ih =>
      have rest := ih (fun other member => quiet other (List.mem_cons_of_mem _ member)) (take present f [tree])
      rw [embargoClient, bind_apply, modify_apply]
      dsimp only
      rw [quiet tree (by simp), if_neg Bool.false_ne_true, answerCalls_eq]
      have turn : take present f [tree] = passOn { f with received := f.received ++ [tree.call] }
          (ranAll present tree.within) (ranAll present tree.within) := by
        simp [take, passOn, ranWithin, Overtaking.nested]
      rw [← turn, rest, take_append, List.singleton_append]

theorem embargoClient_stuck {calls : List (CallTree Request)} {tree : CallTree Request} (member : tree ∈ calls)
    (throws : tree.throws = true) (f : Fulfiller) :
    ∃ reason after, embargoClient present calls f = .error reason after ∧ after.deferred = f.deferred ∧
      after.answered = f.answered := by
  induction calls generalizing f with
  | nil => cases member
  | cons first calls ih =>
      rw [embargoClient, bind_apply, modify_apply]
      dsimp only
      rw [answerCalls_eq]
      split
      · exact ⟨_, _, rfl, rfl, rfl⟩
      · rename_i quiet
        rcases List.mem_cons.mp member with rfl | later
        · exact absurd throws quiet
        · exact ih later _

theorem flushGroups_run {groups : Groups} (deliverable : ∀ group ∈ groups, present group.1 = true ∧
    ∀ tree ∈ group.2, tree.throws = false) (f : Fulfiller) :
    groups.forM (flushGroup present) f = .ok () (take present f (groups.flatMap Prod.snd)) := by
  induction groups generalizing f with
  | nil => simp [take, passOn, Overtaking.nested, pure_apply]
  | cons group groups ih =>
      obtain ⟨found, quiet⟩ := deliverable group (by simp)
      rw [List.forM_eq_forM, List.forM_cons, bind_apply, flushGroup, if_pos found, embargoClient_run quiet]
      dsimp only
      have rest := ih (fun other member => deliverable other (List.mem_cons_of_mem _ member))
        (take present f group.2)
      rw [List.forM_eq_forM] at rest
      rw [rest, take_append, List.flatMap_cons]

theorem flushGroups_stuck {groups : Groups} {group : Nat × List (CallTree Request)} (member : group ∈ groups)
    (stuck : present group.1 = false ∨ ∃ tree ∈ group.2, tree.throws = true) (f : Fulfiller) :
    ∃ reason after, groups.forM (flushGroup present) f = .error reason after ∧ after.deferred = f.deferred ∧
      after.answered = f.answered := by
  induction groups generalizing f with
  | nil => cases member
  | cons first groups ih =>
      rw [List.forM_eq_forM, List.forM_cons, bind_apply]
      by_cases found : present first.1 = true
      · by_cases quiet : ∀ tree ∈ first.2, tree.throws = false
        · rw [flushGroup, if_pos found, embargoClient_run quiet]
          dsimp only
          rcases List.mem_cons.mp member with rfl | later
          · rcases stuck with absent | ⟨tree, inside, throws⟩
            · cases found.symm.trans absent
            · cases throws.symm.trans (quiet tree inside)
          · exact ih later (take present f first.2)
        · obtain ⟨tree, inside, throws⟩ : ∃ tree ∈ first.2, tree.throws = true := by
            simpa using quiet
          obtain ⟨reason, after, runs, same⟩ := embargoClient_stuck inside throws f
          rw [flushGroup, if_pos found, runs]
          exact ⟨reason, after, rfl, same⟩
      · rw [flushGroup, if_neg found]
        exact ⟨_, _, rfl, rfl, rfl⟩

def begun (f : Fulfiller) : Fulfiller :=
  { f with settled := true, answered := true, queue := [], room := Nat.zero_le _,
           rejected := f.rejected ++ (splitQueue f.queue []).2 }

theorem tryFulfill_run {f : Fulfiller} (unsettled : f.settled = false) (deliverable : Deliverable present f) :
    tryFulfill present f = .ok true { take present (begun f) (flushOrder f) with deferred := .resolved } := by
  have each : ∀ group ∈ (splitQueue f.queue []).1, present group.1 = true ∧ ∀ tree ∈ group.2, tree.throws = false := by
    intro group member
    have takes : ∀ tree ∈ group.2, present group.1 = true ∧ tree.throws = false := by
      intro tree inside
      have flushed : tree ∈ flushOrder f := List.mem_flatMap.mpr ⟨group, member, inside⟩
      exact deliverable tree (mem_flushOrder.mp flushed).1 group.1
        ((splitQueue_of f).sorted.aims group member tree inside)
    obtain ⟨tree, inside⟩ := List.exists_mem_of_ne_nil _ ((splitQueue_of f).nonempty nofun group member)
    exact ⟨(takes tree inside).1, fun other inside => (takes other inside).2⟩
  have flushes := flushGroups_run each (begun f)
  unfold tryFulfill
  rw [bind_apply, get_apply]
  dsimp only
  rw [unsettled, if_neg Bool.false_ne_true]
  change (((splitQueue f.queue []).1.forM (flushGroup present) >>= fun _ => _) : FulfillerM Bool) (begun f) = _
  rw [bind_apply, flushes]
  rfl

theorem tryFulfill_stuck {f : Fulfiller} (unsettled : f.settled = false) (undeliverable : ¬ Deliverable present f) :
    ∃ reason after, tryFulfill present f = .error reason after ∧ after.deferred = f.deferred ∧
      after.answered = true := by
  obtain ⟨tree, queued, capId, aim, stuck⟩ : ∃ tree ∈ f.queue, ∃ capId, tree.call.aim = .ok (some capId) ∧
      ¬ (present capId = true ∧ tree.throws = false) := by
    simpa [Deliverable] using undeliverable
  obtain ⟨group, member, inside⟩ := List.mem_flatMap.mp (mem_flushOrder.mpr ⟨queued, capId, aim⟩)
  have same : group.1 = capId := by
    have aims := (splitQueue_of f).sorted.aims group member tree inside
    rw [aim] at aims
    simpa using aims.symm
  have fails : present group.1 = false ∨ ∃ tree ∈ group.2, tree.throws = true := by
    rw [same]
    by_cases found : present capId = true
    · refine Or.inr ⟨tree, inside, ?_⟩
      cases throws : tree.throws with
      | true => rfl
      | false => exact absurd ⟨found, throws⟩ stuck
    · exact Or.inl (Bool.eq_false_iff.mpr found)
  obtain ⟨reason, after, runs, kept⟩ := flushGroups_stuck member fails (begun f)
  refine ⟨reason, after, ?_, kept⟩
  unfold tryFulfill
  rw [bind_apply, get_apply]
  dsimp only
  rw [unsettled, if_neg Bool.false_ne_true]
  change (((splitQueue f.queue []).1.forM (flushGroup present) >>= fun _ => _) : FulfillerM Bool) (begun f) = _
  rw [bind_apply, runs]

theorem rejectQueue_run (trees : List (CallTree Request)) (f : Fulfiller) :
    (trees.forM fun tree => modify fun f => { f with rejected := f.rejected ++ tree.call.ids } : FulfillerM PUnit) f =
      .ok () { f with rejected := f.rejected ++ trees.flatMap fun tree => tree.call.ids } := by
  induction trees generalizing f with
  | nil => simp [pure_apply]
  | cons tree trees ih =>
      rw [List.forM_eq_forM, List.forM_cons, bind_apply, modify_apply]
      dsimp only
      have rest := ih { f with rejected := f.rejected ++ tree.call.ids }
      rw [List.forM_eq_forM] at rest
      rw [rest]
      simp

theorem tryReject_run {f : Fulfiller} (unsettled : f.settled = false) (reason : String) :
    tryReject reason f = .ok true { f with
      settled := true, queue := [], room := Nat.zero_le _, deferred := .rejected reason,
      rejected := f.rejected ++ f.queue.flatMap fun tree => tree.call.ids } := by
  unfold tryReject
  rw [bind_apply, get_apply]
  dsimp only
  rw [unsettled, if_neg Bool.false_ne_true]
  change (((f.queue.forM fun tree => modify fun f => { f with rejected := f.rejected ++ tree.call.ids }) >>=
    fun _ => _) : FulfillerM Bool) { f with settled := true, queue := [], room := Nat.zero_le _ } = _
  rw [bind_apply, rejectQueue_run]
  rfl

end Runs

section Later

variable {present : Nat → Bool} {f : Fulfiller}

theorem pipelineCalls_answered (answered : f.answered = true) (later : List (CallTree Request)) :
    pipelineCalls present later f = f.passOn (ranAll present later) (ranAll present later) := by
  induction later generalizing f with
  | nil => simp [pipelineCalls, ranAll, passOn]
  | cons tree later ih =>
      have turn : pipelineCall present tree f = f.passOn (ran present tree) (ran present tree) := by
        rw [pipelineCall, if_pos answered, answerCall_eq]
      have rest := ih (f := f.passOn (ran present tree) (ran present tree)) answered
      rw [pipelineCalls, List.foldl_cons, turn]
      rw [pipelineCalls] at rest
      rw [rest, ranAll]
      simp [passOn]

variable (present) in
theorem pipelineCall_queues (answered : f.answered = false) (tree : CallTree Request) :
    (pipelineCall present tree f).answered = false ∧ f.queue <+: (pipelineCall present tree f).queue ∧
      (f.queue = [] → (pipelineCall present tree f).queue ≠ []) := by
  rw [pipelineCall, if_neg (by simp [answered])]
  split
  · exact ⟨answered, List.prefix_append _ _, fun _ => by simp⟩
  · rename_i full
    refine ⟨answered, List.prefix_rfl, fun empty => ?_⟩
    rw [empty] at full
    exact absurd (by decide) full

variable (present) in
theorem pipelineCalls_queue (answered : f.answered = false) (later : List (CallTree Request)) :
    f.queue <+: (pipelineCalls present later f).queue := by
  induction later generalizing f with
  | nil => exact List.prefix_rfl
  | cons tree later ih =>
      obtain ⟨still, grows, _⟩ := pipelineCall_queues present answered tree
      exact grows.trans (ih still)

theorem pipelineCalls_waiting (answered : f.answered = false) (empty : f.queue = []) {later : List (CallTree Request)}
    (some : later ≠ []) : (pipelineCalls present later f).queue ≠ [] := by
  cases later with
  | nil => exact absurd rfl some
  | cons tree later =>
      obtain ⟨still, _, fills⟩ := pipelineCall_queues present answered tree
      intro none
      have grows := pipelineCalls_queue present still later
      rw [show (pipelineCalls present later (pipelineCall present tree f)).queue = [] from none] at grows
      exact fills empty (List.prefix_nil.mp grows)

end Later

theorem settle_ok {settlement : FulfillerM Bool} {f after : Fulfiller} {taken : Bool}
    (run : settlement f = .ok taken after) : settle settlement f = after := by
  rw [settle, run]

theorem settle_error {settlement : FulfillerM Bool} {f after : Fulfiller} {reason : String}
    (run : settlement f = .error reason after) : settle settlement f = after := by
  rw [settle, run]

structure Unsettled (f : Fulfiller) : Prop where
  settled : f.settled = false
  answered : f.answered = false
  deferred : f.deferred = .pending

def oneCall : Fulfiller := pipelineCall (fun _ => true) (.mk { id := 0, pointer := .ok (.interface 0) } false []) {}

end Fulfiller

end CapnpEs.Delivery
