import CapnpEs.Library.History
import CapnpEs.Rpc.RefinementActions

/-! The references a connection has been given, and those it gives back: whatever its peer sends, never more. -/

namespace CapnpEs.Rpc

open Relation SlotTable Transition

variable {conn : Conn} {hand : Hand} {n : Nat}

inductive Traffic
  | received (message : RpcMessage)
  | sent (message : RpcMessage)

def Input.received : Input → List RpcMessage
  | .act _ => []
  | .receive m => [m]

def traffic (_ : Conn) (input : Input) (after : Conn) : List Traffic :=
  input.received.map Traffic.received ++ after.sent.map Traffic.sent

/-- How many of these references are to the export of number `n`. -/
def mentions (n : Nat) (ids : List WireId) : Nat := tally (fun id => if id.id = n then 1 else 0) ids

/-- The references to export `n` of its sender that a message hands over. -/
def RpcMessage.gives (n : Nat) (m : RpcMessage) : Nat := mentions n (hosted m.descriptors)

/-- The references to export `n` of its receiver that a message gives back. -/
def RpcMessage.releases (n : Nat) : RpcMessage → Nat
  | .release id referenceCount => if id.id = n then referenceCount else 0
  | _ => 0

def Conn.importRefs (conn : Conn) (n : Nat) : Nat := (find conn.imports n).elim 0 ImportEntry.refs

/-- What a side has given back in a step, what it counts, and what it has in hand. -/
def importStock (n : Nat) (state : Conn × Hand) : Nat :=
  tally (RpcMessage.releases n) state.1.sent + state.1.importRefs n + mentions n state.2.incoming

theorem tally_send (conn : Conn) (weight : RpcMessage → Nat) (m : RpcMessage) :
    tally weight (conn.send m).sent ≤ tally weight conn.sent + weight m := by
  unfold Conn.send
  dsimp only
  split
  · exact Nat.le_add_right _ _
  · simp

theorem importStock_send (conn : Conn) (hand : Hand) {m : RpcMessage} (plain : m.releases n = 0) :
    importStock n (conn.send m, hand) ≤ importStock n (conn, hand) := by
  have sends := tally_send conn (RpcMessage.releases n) m
  have counted : (conn.send m).importRefs n = conn.importRefs n := rfl
  unfold importStock
  dsimp only
  omega

theorem RpcMessage.releases_notice {m : RpcMessage} (plain : m.isNotice) : m.releases n = 0 := by
  cases m with
  | release => cases plain
  | _ => rfl

theorem importRefs_setImport (id : Nat) (entry : Option ImportEntry) :
    (conn.setImport id entry).importRefs n = if n = id then entry.elim 0 ImportEntry.refs else conn.importRefs n := by
  simp only [Conn.importRefs, Conn.setImport, find_put]
  split <;> rfl

theorem importRefs_le_of_setImport_none (id : Nat) : (conn.setImport id none).importRefs n ≤ conn.importRefs n := by
  rw [importRefs_setImport]
  split
  · exact Nat.zero_le _
  · exact Nat.le_refl _

theorem mentions_cons (id : WireId) (ids : List WireId) :
    mentions n (id :: ids) = (if id.id = n then 1 else 0) + mentions n ids := tally_cons _ _ _

theorem mentions_sublist {fewer ids : List WireId} (sublist : fewer.Sublist ids) : mentions n fewer ≤ mentions n ids := by
  induction sublist with
  | slnil => exact Nat.le_refl _
  | cons id _ ih =>
      rw [mentions_cons]
      omega
  | cons_cons id _ ih =>
      rw [mentions_cons, mentions_cons]
      omega

theorem QuietEffect.importStock_le {before after : Conn × Hand} (effect : QuietEffect before after) :
    importStock n after ≤ importStock n before := by
  cases effect with
  | @quiet conn after hand same =>
      have entries := same.imports n
      have counted : after.importRefs n = conn.importRefs n := by
        unfold Conn.importRefs
        cases later : find after.imports n with
        | none =>
            rw [later] at entries
            rw [Option.map_eq_none_iff.mp entries.symm]
        | some entry =>
            rw [later] at entries
            obtain ⟨earlier, found, same⟩ := Option.map_eq_some_iff.mp entries.symm
            rw [found]
            exact congrArg (fun core => core.2.1) same.symm
      simp [importStock, counted, same.sent]
  | forget fewer =>
      unfold importStock
      have left := mentions_sublist (n := n) fewer.incoming
      dsimp only
      omega

theorem importStock_release {id origin refs : Nat} {entry : ImportEntry} (held : find conn.imports id = some entry)
    (counted : refs = entry.refs) :
    importStock n ((conn.setImport id none).send (newReleaseMessage ⟨id, origin⟩ refs), hand) ≤
      importStock n (conn, hand) := by
  have sends := tally_send (conn.setImport id none) (RpcMessage.releases n) (newReleaseMessage ⟨id, origin⟩ refs)
  have released : (newReleaseMessage ⟨id, origin⟩ refs).releases n = if id = n then refs else 0 := rfl
  have counts : ((conn.setImport id none).send (newReleaseMessage ⟨id, origin⟩ refs)).importRefs n =
    (conn.setImport id none).importRefs n := rfl
  have same : (conn.setImport id none).sent = conn.sent := rfl
  rw [released, same] at sends
  unfold importStock
  dsimp only
  rw [counts, importRefs_setImport]
  by_cases here : n = id
  · subst here
    have had : conn.importRefs n = refs := by
      simp [Conn.importRefs, held, counted]
    simp only [if_true, Option.elim_none] at sends ⊢
    omega
  · simp only [here, Ne.symm here, if_false] at sends ⊢
    omega

theorem Effect.importStock_le {before after : Conn × Hand} (effect : Effect before after) :
    importStock n after ≤ importStock n before := by
  cases effect with
  | close effect =>
      cases effect with
      | quiet effect => exact effect.importStock_le
      | cancel q isOpen => exact importStock_send (Conn.say _ _) _ (m := newFinishMessage _ true) rfl
      | reject reason owed => exact importStock_send _ _ (m := .ret _ _ _ _) rfl
      | release held counted => exact importStock_release held rfl
      | _ => exact Nat.le_refl _
  | describe effect =>
      cases effect with
      | quiet effect => exact effect.importStock_le
      | create made free =>
          rw [Conn.withExport_eq]
          exact Nat.le_refl _
      | promise question transform free =>
          rw [Conn.withPromise_eq]
          exact Nat.le_refl _
      | _ => exact Nat.le_refl _
  | @ask conn hand id target rest method params =>
      exact importStock_send conn hand (m := .call id target method .caller params) rfl
  | bootstrap => exact importStock_send _ _ (m := .bootstrap _) rfl
  | @newImport conn hand id rest isPromise unknown given =>
      rw [Conn.withImport_eq]
      unfold importStock
      dsimp only
      have had : find conn.imports id.id = none := unknown
      rw [given, mentions_cons]
      simp only [Conn.importRefs, find_put]
      by_cases here : n = id.id
      · subst here
        simp [had]
        omega
      · simp only [here, Ne.symm here, if_false]
        omega
  | @countImport conn hand id rest entry counted known given more =>
      unfold importStock
      dsimp only
      rw [given, mentions_cons, importRefs_setImport]
      have refs : counted.refs = entry.refs + 1 := congrArg (fun core => core.2.1) more
      have same : (conn.setImport id.id (some counted)).sent = conn.sent := rfl
      rw [same]
      by_cases here : n = id.id
      · subst here
        have had : conn.importRefs id.id = entry.refs := by
          simp [Conn.importRefs, known]
        simp only [if_true, Option.elim_some]
        omega
      · simp only [here, Ne.symm here, if_false]
        omega
  | @discard conn hand id rest given =>
      have sends := tally_send conn (RpcMessage.releases n) (newReleaseMessage id 1)
      have released : (newReleaseMessage id 1).releases n = if id.id = n then 1 else 0 := rfl
      have counts : (conn.send (newReleaseMessage id 1)).importRefs n = conn.importRefs n := rfl
      unfold importStock
      dsimp only
      rw [given, mentions_cons, counts]
      omega
  | forgetAnswer reason asked found unrouted => exact importStock_send _ _ (m := newReturnMessage _ _) rfl
  | refuse reason asked => exact importStock_send _ _ (m := newReturnMessage _ _) rfl
  | refuseBootstrap reason asked => exact importStock_send _ _ (m := newReturnMessage _ _) rfl
  | results owed same prepared => exact importStock_send _ _ (m := .ret _ _ _ _) rfl
  | elsewhere owed => exact importStock_send _ _ (m := .ret _ _ _ _) rfl
  | finish returned took => exact importStock_send _ _ (m := newFinishMessage _ _) rfl
  | resolve resumed prepared => exact importStock_send _ _ (m := .resolve _ _) rfl
  | notice plain => exact importStock_send _ _ (RpcMessage.releases_notice plain)
  | embargo target client => exact importStock_send _ _ (m := .disembargo _ _) rfl
  | clearImport closed id => exact Nat.add_le_add_right (Nat.add_le_add_left (importRefs_le_of_setImport_none id) _) _
  | _ => exact Nat.le_refl _

theorem importStock_reached {before after : Conn × Hand} (steps : ReflTransGen Effect before after) :
    importStock n after ≤ importStock n before := by
  induction steps with
  | refl => exact Nat.le_refl _
  | tail _ effect ih => exact Nat.le_trans effect.importStock_le ih

theorem Conn.step_importRefs {after : Conn} {input : Input} (wellFormed : conn.WellFormed)
    (step : conn.step input = some after) :
    tally (RpcMessage.releases n) after.sent + after.importRefs n ≤
      tally (RpcMessage.gives n) input.received + conn.importRefs n := by
  obtain ⟨⟨left, steps, _⟩, _⟩ := conn.step_effects wellFormed step
  have stock := importStock_reached (n := n) steps
  have counted : conn.fresh.importRefs n = conn.importRefs n := rfl
  have unsent : conn.fresh.sent = [] := rfl
  simp only [importStock, counted, unsent, tally_nil] at stock
  cases input with
  | act action =>
      have nothing : mentions n (Input.act action).hand.incoming = 0 := rfl
      simp only [Input.received, tally_nil]
      omega
  | receive m =>
      have given : mentions n (Input.receive m).hand.incoming = m.gives n := rfl
      simp only [Input.received, tally_cons, tally_nil]
      omega

def Traffic.gives (n : Nat) : Traffic → Nat
  | .received m => m.gives n
  | .sent _ => 0

def Traffic.releases (n : Nat) : Traffic → Nat
  | .received _ => 0
  | .sent m => m.releases n

theorem traffic_releases (conn : Conn) (input : Input) (after : Conn) :
    tally (Traffic.releases n) (traffic conn input after) = tally (RpcMessage.releases n) after.sent := by
  rw [traffic, tally_append, tally_map, tally_map, tally_eq_zero, Nat.zero_add]
  · rfl
  · intro m _
    rfl

theorem traffic_gives (conn : Conn) (input : Input) (after : Conn) :
    tally (Traffic.gives n) (traffic conn input after) = tally (RpcMessage.gives n) input.received := by
  rw [traffic, tally_append, tally_map, tally_map, Nat.add_eq_left.mpr]
  · rfl
  · apply tally_eq_zero
    intro m _
    rfl

/-- Whatever a peer sends, in any order, a connection gives back at most the references it has been given, less
those it still counts. -/
theorem releases_covered_of_run {registry : Nat → Option (List Method)} {stack : Nat} {state : Conn}
    {record : List Traffic} (recording : Recording Conn.step traffic (fun _ _ _ => True)
      { registry := registry, stack := stack } state record) (n : Nat) :
    tally (Traffic.releases n) record + state.importRefs n ≤ tally (Traffic.gives n) record := by
  have balance := recording.balanced Conn.WellFormed (fun conn => conn.importRefs n) (Traffic.releases n)
    (Traffic.gives n) (Conn.WellFormed.initial registry stack) (by
      intro before input after wellFormed step _
      refine ⟨(before.step_effects wellFormed step).wellFormed, ?_⟩
      rw [traffic_releases, traffic_gives]
      exact before.step_importRefs wellFormed step)
  have fresh : Conn.importRefs { registry := registry, stack := stack } n = 0 := rfl
  omega

/-- A Resolve of a promise that is not known here: what it hands over goes back at once. -/
def lateResolve : RpcMessage := .resolve ⟨3, 0⟩ (.cap (.senderHosted ⟨7, 1⟩))

/-- The capability that a bootstrap brings stays in use, and the late Resolve hands the same over again. -/
def importedAndLate : List Input :=
  [.act .bootstrap,
    .receive (.ret ⟨0, 0⟩ false false (.results { content := .interface, capTable := [.senderHosted ⟨7, 1⟩] })),
    .receive lateResolve]

theorem releases_covered_of_run_importedAndLate :
    ∃ state record, Run.follow (recorded Conn.step traffic) ({ registry := fun _ => none }, []) importedAndLate =
        some (state, record) ∧
      tally (Traffic.releases 7) record = 1 ∧ state.importRefs 7 = 1 ∧
      tally (Traffic.releases 7) record + state.importRefs 7 ≤ tally (Traffic.gives 7) record := by
  have counts : (Run.follow (recorded Conn.step traffic) ({ registry := fun _ => none }, [])
      importedAndLate).map (fun reached => (tally (Traffic.releases 7) reached.2, reached.1.importRefs 7)) =
        some (1, 1) := by
    decide +kernel
  obtain ⟨⟨state, record⟩, followed, counted⟩ := Option.map_eq_some_iff.mp counts
  simp only [Prod.mk.injEq] at counted
  obtain ⟨released, kept⟩ := counted
  have recording : Recording Conn.step traffic (fun _ _ _ => True) { registry := fun _ => none } state record :=
    Run.of_follow .start followed
  exact ⟨state, record, followed, released, kept, releases_covered_of_run recording 7⟩

end CapnpEs.Rpc
