import CapnpEs.Rpc.ReferenceLedger

/-! Two connections joined by a transport: what every interleaving of their steps keeps, and what the two sides
give each other and give back. -/

namespace CapnpEs.Rpc

open Transition

variable {start state : System} {n : Nat}

@[simp] theorem Side.peer_peer (side : Side) : side.peer.peer = side := by
  cases side <;> rfl

theorem Side.peer_ne (side : Side) : side.peer ≠ side := by
  cases side <;> decide

theorem Side.eq_peer {side other : Side} (different : side ≠ other) : side = other.peer := by
  cases side <;> cases other <;> first | rfl | exact absurd rfl different

/-- What a move feeds to the side that makes it, and what is left on the way to that side. -/
inductive System.Feeds (sys : System) : Move → Input → List RpcMessage → Prop
  | act (side : Side) (action : Action) : Feeds sys (side, some action) (.act action) (sys.channel side.peer)
  | arrive {side : Side} {m : RpcMessage} {rest : List RpcMessage} (waiting : sys.channel side.peer = m :: rest) :
      Feeds sys (side, none) (.receive m) rest

/-- A move of the system: one side takes a step, what it sends is put at the end of its channel, and nothing else
changes. -/
structure System.Moved (before : System) (side : Side) (input : Input) (rest : List RpcMessage) (after : System) :
    Prop where
  step : (before.conn side).step input = some (after.conn side)
  still : after.conn side.peer = before.conn side.peer
  outgoing : after.channel side = before.channel side ++ (after.conn side).sent
  incoming : after.channel side.peer = rest

theorem System.next_moved {before after : System} {side : Side} {input : Input} (taken : before.next side input = some after) :
    before.Moved side input (before.channel side.peer) after := by
  obtain ⟨next, stepped, rfl⟩ := Option.map_eq_some_iff.mp taken
  have other := side.peer_ne
  constructor
  · simpa using stepped
  · simp [other]
  · simp
  · simp [other]

theorem System.step_moved {before after : System} {move : Move} (taken : before.step move = some after) :
    ∃ input rest, before.Feeds move input rest ∧ before.Moved move.1 input rest after := by
  obtain ⟨side, action⟩ := move
  cases action with
  | some action => exact ⟨_, _, .act side action, System.next_moved taken⟩
  | none =>
      unfold System.step at taken
      dsimp only at taken
      split at taken
      · cases taken
      · rename_i m rest waiting
        have moved := System.next_moved taken
        have other : side ≠ side.peer := fun same => side.peer_ne same.symm
        refine ⟨_, _, .arrive waiting, moved.step, moved.still, ?_, ?_⟩
        · have outgoing := moved.outgoing
          simpa [other] using outgoing
        · have incoming := moved.incoming
          simpa using incoming

def System.WellFormed (sys : System) : Prop := ∀ side, (sys.conn side).WellFormed

theorem System.Initial.wellFormed (initial : start.Initial) : start.WellFormed := by
  intro side
  obtain ⟨registry, stack, fresh⟩ := initial.fresh side
  rw [fresh]
  exact .initial registry stack

theorem System.WellFormed.step {before after : System} {move : Move} (wellFormed : before.WellFormed)
    (taken : before.step move = some after) : after.WellFormed := by
  obtain ⟨input, rest, _, moved⟩ := System.step_moved taken
  intro side
  by_cases same : side = move.1
  · subst same
    exact ((before.conn move.1).step_effects (wellFormed _) moved.step).wellFormed
  · rw [Side.eq_peer same, moved.still]
    exact wellFormed _

/-- A move of the system as the protocol sees it: the side that moves takes effects of the abstract endpoint, on
what it is fed, and what it sends is put at the end of its channel. -/
structure System.Refines (before : System) (move : Move) (after : System) : Prop where
  effects : ∃ input rest, before.Feeds move input rest ∧ (before.conn move.1).Effects input (after.conn move.1) ∧
    after.channel move.1.peer = rest
  still : after.conn move.1.peer = before.conn move.1.peer
  outgoing : after.channel move.1 = before.channel move.1 ++ (after.conn move.1).sent

/-- In every interleaving of two connections, both stay well-formed, and every move is one of two abstract endpoints
joined by channels. -/
theorem system_refines_of_run (initial : start.Initial) (run : Run System.step (fun _ _ _ => True) start state) :
    state.WellFormed ∧ ∀ move after, state.step move = some after → state.Refines move after := by
  have wellFormed : state.WellFormed := by
    apply run.invariant initial.wellFormed
    intro before move after formed taken _
    exact formed.step taken
  refine ⟨wellFormed, ?_⟩
  intro move after taken
  obtain ⟨input, rest, feeds, moved⟩ := System.step_moved taken
  exact ⟨⟨input, rest, feeds, (state.conn move.1).step_effects (wellFormed _) moved.step, moved.incoming⟩,
    moved.still, moved.outgoing⟩

/-- One side exports a server under its bootstrap interface; the other asks for it and closes what it gets. -/
def askedAndClosed : List Move :=
  [(.bob, some (.newServer [])), (.bob, some (.initMain 0)), (.alice, some .bootstrap), (.bob, none), (.alice, none),
    (.alice, some (.close 3)), (.bob, none), (.bob, none)]

def freshSystem : System where
  conn := fun _ => { registry := fun _ => none }
  channel := fun _ => []

theorem freshSystem_initial : freshSystem.Initial where
  fresh := fun _ => ⟨_, _, rfl⟩
  quiet := fun _ => rfl

theorem system_refines_of_run_askedAndClosed :
    ∃ state, Run.follow System.step freshSystem askedAndClosed = some state ∧ state.WellFormed ∧
      ∀ move after, state.step move = some after → state.Refines move after := by
  have runs : (Run.follow System.step freshSystem askedAndClosed).isSome := by
    decide +kernel
  obtain ⟨state, followed⟩ := Option.isSome_iff_exists.mp runs
  exact ⟨state, followed, system_refines_of_run freshSystem_initial (.of_follow .start followed)⟩

def spoken (_ : System) (move : Move) (after : System) : List (Side × RpcMessage) :=
  (after.conn move.1).sent.map (move.1, ·)

/-- What is said by `side`, in some measure of messages. -/
def Side.saying (side : Side) (weight : RpcMessage → Nat) (said : Side × RpcMessage) : Nat :=
  if said.1 = side then weight said.2 else 0

theorem tally_saying_same (side : Side) (weight : RpcMessage → Nat) (messages : List RpcMessage) :
    tally (side.saying weight) (messages.map (side, ·)) = tally weight messages := by
  rw [tally_map]
  congr 1
  funext m
  simp [Side.saying]

theorem tally_saying_other {side other : Side} (different : other ≠ side) (weight : RpcMessage → Nat)
    (messages : List RpcMessage) : tally (side.saying weight) (messages.map (other, ·)) = 0 := by
  rw [tally_map]
  apply tally_eq_zero
  intro m _
  simp [Side.saying, different]

/-- The references to export `n` of the other side that a side counts, or that are on the way to it. -/
def System.outstanding (sys : System) (side : Side) (n : Nat) : Nat :=
  (sys.conn side).importRefs n + tally (RpcMessage.gives n) (sys.channel side.peer)

theorem System.Feeds.received {sys : System} {move : Move} {input : Input} {rest : List RpcMessage}
    (feeds : sys.Feeds move input rest) :
    tally (RpcMessage.gives n) (sys.channel move.1.peer) =
      tally (RpcMessage.gives n) input.received + tally (RpcMessage.gives n) rest := by
  cases feeds with
  | act side action => simp [Input.received]
  | arrive waiting =>
      rw [waiting]
      simp [Input.received]

theorem System.step_outstanding {before after : System} {move : Move} (wellFormed : before.WellFormed)
    (taken : before.step move = some after) (side : Side) :
    tally (side.saying (RpcMessage.releases n)) (spoken before move after) + after.outstanding side n ≤
      tally (side.peer.saying (RpcMessage.gives n)) (spoken before move after) + before.outstanding side n := by
  obtain ⟨input, rest, feeds, moved⟩ := System.step_moved taken
  unfold spoken System.outstanding
  by_cases same : side = move.1
  · subst same
    have step := (before.conn move.1).step_importRefs (n := n) (wellFormed _) moved.step
    have given := feeds.received (n := n)
    rw [tally_saying_same, tally_saying_other move.1.peer_ne.symm, moved.incoming]
    omega
  · have mine : move.1 = side.peer := Side.eq_peer (Ne.symm same)
    have still := moved.still
    rw [tally_saying_other (Ne.symm same), mine, tally_saying_same]
    rw [mine, Side.peer_peer] at still
    have outgoing := moved.outgoing
    rw [mine] at outgoing
    rw [still, outgoing, tally_append]
    omega

/-- In every interleaving of two connections, a side releases no more references to an export than the other side
has given it, less those that it still counts and those that are on the way. -/
theorem releases_covered_of_system_run (initial : start.Initial) {record : List (Side × RpcMessage)}
    (recording : Recording System.step spoken (fun _ _ _ => True) start state record) (side : Side) (n : Nat) :
    tally (side.saying (RpcMessage.releases n)) record + state.outstanding side n ≤
      tally (side.peer.saying (RpcMessage.gives n)) record := by
  have balance := recording.balanced System.WellFormed (fun sys => sys.outstanding side n)
    (side.saying (RpcMessage.releases n)) (side.peer.saying (RpcMessage.gives n)) initial.wellFormed (by
      intro before move after wellFormed taken _
      exact ⟨wellFormed.step taken, System.step_outstanding wellFormed taken side⟩)
  obtain ⟨registry, stack, fresh⟩ := initial.fresh side
  have fewest : start.outstanding side n = 0 := by
    rw [System.outstanding, fresh, initial.quiet]
    rfl
  omega

theorem releases_covered_of_system_run_askedAndClosed :
    ∃ state record, Run.follow (recorded System.step spoken) (freshSystem, []) askedAndClosed = some (state, record) ∧
      tally (Side.alice.saying (RpcMessage.releases 0)) record = 1 ∧
      tally (Side.alice.saying (RpcMessage.releases 0)) record + state.outstanding .alice 0 ≤
        tally (Side.bob.saying (RpcMessage.gives 0)) record := by
  have released : (Run.follow (recorded System.step spoken) (freshSystem, []) askedAndClosed).map
      (fun reached => tally (Side.alice.saying (RpcMessage.releases 0)) reached.2) = some 1 := by
    decide +kernel
  obtain ⟨⟨state, record⟩, followed, once⟩ := Option.map_eq_some_iff.mp released
  exact ⟨state, record, followed, once,
    releases_covered_of_system_run freshSystem_initial (Run.of_follow .start followed) .alice 0⟩

end CapnpEs.Rpc
