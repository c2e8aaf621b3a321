import CapnpEs.Rpc.RefinementPromises

/-! Reading the capabilities of a message: what is handed over is counted, and what names nothing is a
violation of the protocol. -/

namespace CapnpEs.Rpc

open Relation SlotTable

variable {conn : Conn} {hand : Hand}

/-- What is held when reading fails: nothing of what the message hands over. -/
def Hand.fault (hand : Hand) : RpcError → Hand
  | .protocol kind _ => { hand with incoming := [], violated := some kind }
  | .error _ => { hand with incoming := [] }

theorem Hand.drop_incoming : ReflTransGen Effect (conn, hand) (conn, { hand with incoming := [] }) := by
  apply Hand.forget
  constructor
  · rfl
  · exact List.Subset.refl _
  · exact List.nil_sublist _
  · exact List.Sublist.refl _
  · exact List.Sublist.refl _
  · exact Or.inl rfl
  · rfl
  · rfl
  · rfl
  · rfl

theorem throwProtocol_runs {α : Type} {returns : α → Conn → Hand → Prop} {kind : ProtocolErrorKind}
    {message : String} {m : RpcMessage} (received : hand.message = some m) (broken : conn.Broken kind m) :
    Runs Effect (throw (.protocol kind message) : ConnM α) conn hand returns
      fun error _ left => left = hand.fault error := by
  apply Runs.hold (Hand.drop_incoming.tail (.violate received broken))
  exact Runs.throw rfl

/-- `newClient_keeps`, for any way of failing. -/
theorem newClient_runs {client : Client} {fails : RpcError → Conn → Hand → Prop} (ordinary : client.ordinary)
    (leads : conn.WellFormed → ∀ other ∈ client.references, other < conn.objects)
    (routed : conn.WellFormed → ∀ a call, .remote a call ∈ client.calls → (conn.answer a).routed) :
    Runs Effect (newClient client) conn hand (fun id after left => left = hand ∧ id < after.objects) fails := by
  apply Runs.modifyGet (.single (QuietEffect.quiet (Quiet.newClient ordinary)).effect)
  · intro wellFormed
    exact wellFormed.withClient (leads wellFormed) (routed wellFormed) (by rintro i rfl; cases ordinary)
  · exact ⟨rfl, Nat.lt_succ_self _⟩

theorem ref_runs {rc : Nat} (made : rc < conn.objects) : Runs Effect (RefCount.ref rc) conn hand
    (fun client after left => left = hand ∧ client < after.objects)
    fun error after left => left = hand ∧ error.isPlain ∧ after = conn ∧ (conn.refCount rc).refs ≤ 0 := by
  apply Runs.get
  dsimp only
  split
  · rename_i zero
    exact Runs.throw ⟨rfl, rfl, rfl, zero⟩
  · rename_i positive
    apply Runs.of_ok (v := conn.objects) (h := hand)
      (n := (conn.setRefs rc ((conn.refCount rc).refs + 1)).withClient (.ref rc false))
    · rfl
    · exact .single (.newRef (by omega))
    · intro formed
      apply (formed.setRefs rc _).withClient
      · intro other member
        simp only [Client.references, List.mem_singleton] at member
        rw [member]
        exact made
      · simp [Client.calls]
      · intros
        contradiction
    · exact ⟨rfl, Nat.lt_succ_self _⟩

theorem Conn.WellFormed.withImport_closed (wellFormed : conn.WellFormed) (shut : conn.closed = true) (id : WireId)
    (isPromise : Bool) : (conn.withImport id isPromise).WellFormed := by
  have first := wellFormed.withClient (c := .importClient { id := id }) (by simp [Client.references])
    (by simp [Client.calls]) (by intro i same; cases same; exact ⟨shut, rfl⟩)
  have second := (first.setRefCount (conn.objects + 1) (c := { client := conn.objects, refs := 1 })
    (Or.inr (Nat.lt_succ_self _)) (Or.inl (Nat.le_refl _))).allocated
  have third := second.withClient (c := .ref (conn.objects + 1) false)
    (by
      intro other member
      simp only [Client.references, List.mem_singleton] at member
      rw [member]
      exact Nat.lt_succ_self _)
    (by simp [Client.calls]) (by intros; contradiction)
  apply third.setImport
  · intro entry same
    cases same
    exact Nat.lt_succ_of_lt (Nat.lt_succ_self _)
  · intro notClosed
    simp only [Conn.withClient, Conn.allocated, Conn.setRefCount, Conn.setClient, shut] at notClosed
    cases notClosed

theorem Conn.WellFormed.reopen (wellFormed : Conn.WellFormed { conn with closed := true })
    (held : conn.closed = false → ∀ i id, (conn.client i).core = .importClient { id := id } →
      ∃ entry, find conn.imports id.id = some entry ∧ (conn.refCount entry.rc).client = i) : conn.WellFormed :=
  { wellFormed with held := held }

theorem Conn.WellFormed.withImport (wellFormed : conn.WellFormed) {id : WireId} (isPromise : Bool)
    (unknown : find conn.imports id.id = none) : (conn.withImport id isPromise).WellFormed := by
  have shut : Conn.WellFormed { conn with closed := true } := { wellFormed with held := nofun }
  have same : Conn.withImport { conn with closed := true } id isPromise =
      { conn.withImport id isPromise with closed := true } := by
    rw [Conn.withImport_eq, Conn.withImport_eq]
  have formed := shut.withImport_closed rfl id isPromise
  rw [same] at formed
  apply formed.reopen
  rw [Conn.withImport_eq]
  intro notClosed i w isOpen
  dsimp only at notClosed isOpen ⊢
  rw [find_put]
  have apart : conn.objects ≠ conn.objects + 2 := by omega
  by_cases new : i = conn.objects
  · subst new
    rw [Function.update_of_ne apart, Function.update_self] at isOpen
    cases isOpen
    rw [if_pos rfl]
    exact ⟨_, rfl, by rw [Function.update_self]⟩
  · by_cases ref : i = conn.objects + 2
    · subst ref
      rw [Function.update_self] at isOpen
      cases isOpen
    · rw [Function.update_of_ne ref, Function.update_of_ne new] at isOpen
      obtain ⟨entry, found, client⟩ := wellFormed.held notClosed i w isOpen
      have other : w.id ≠ id.id := by
        intro same
        rw [same, unknown] at found
        cases found
      have below := wellFormed.imports w.id entry found
      rw [if_neg other]
      refine ⟨entry, found, ?_⟩
      rw [Function.update_of_ne (by omega)]
      exact client

theorem addImport_runs (id : WireId) (isPromise : Bool) {rest : List WireId} (given : hand.incoming = id :: rest) :
    Runs Effect (addImport id isPromise) conn hand
      (fun client after left => left = { hand with incoming := rest } ∧ client < after.objects)
      fun error _ left => left = { hand with incoming := rest } ∧ error.isPlain := by
  intro wellFormed
  refine Runs.get ?_ wellFormed
  cases found : find conn.imports id.id with
  | none =>
      apply Runs.of_ok (v := conn.objects + 2) (h := { hand with incoming := rest })
        (n := conn.withImport id isPromise)
      · rfl
      · exact .single (.newImport isPromise found given)
      · exact fun formed => formed.withImport isPromise found
      · refine ⟨rfl, ?_⟩
        rw [Conn.withImport_eq]
        exact Nat.lt_succ_self _
  | some entry =>
      have made := wellFormed.imports id.id entry found
      apply Runs.bind (Q := fun _ after left => left = { hand with incoming := rest } ∧
        after = conn.setImport id.id (some
          { entry with refs := entry.refs + 1, isPromise := entry.isPromise || isPromise }))
      · apply Runs.set (.single (.countImport found given rfl)) ?_ ⟨rfl, rfl⟩
        intro formed
        exact formed.recountImport found rfl
      · rintro _ after left _ _ ⟨rfl, rfl⟩
        refine Runs.mono (ref_runs ?_) ?_ ?_
        · exact made
        · intro client last left _ _ holds
          exact holds
        · intro error last left _ _ failed
          exact ⟨failed.1, failed.2.1⟩

theorem refExport_runs {m : RpcMessage} {id : WireId} {e : Export} (received : hand.message = some m)
    (member : .receiverHosted id ∈ m.descriptors) (found : conn.findExport id.id = some e)
    (made : e.rc < conn.objects) : Runs Effect (refExport e) conn hand
      (fun client after left => left = hand ∧ client < after.objects) fun error _ left => left = hand.fault error := by
  apply Runs.tryCatch (ref_runs made)
  rintro error after left _ _ ⟨rfl, _, rfl, zero⟩
  exact throwProtocol_runs received (.descriptor member (.zeroRefs found zero))

variable (conn hand) in
theorem clientFromCapDescriptor_runs {m : RpcMessage} {descriptor : CapDescriptor} {rest : List WireId}
    (received : hand.message = some m) (member : descriptor ∈ m.descriptors)
    (empty : descriptor = .none → ∃ id, m = .resolve id (.cap .none))
    (given : hand.incoming = descriptor.hosted.toList ++ rest) :
    Runs Effect (clientFromCapDescriptor descriptor) conn hand
      (fun client after left => left = { hand with incoming := rest } ∧ client < after.objects)
      fun error _ left => left = hand.fault error := by
  have imports : ∀ id isPromise, descriptor.hosted = some id → Runs Effect (addImport id isPromise) conn hand
      (fun client after left => left = { hand with incoming := rest } ∧ client < after.objects)
      fun error _ left => left = hand.fault error := by
    intro id isPromise hosts
    rw [hosts] at given
    apply (addImport_runs id isPromise given).dropping
    · intro client after left _ holds
      exact ⟨left, .refl, holds⟩
    · rintro error after left _ ⟨rfl, plain⟩
      refine ⟨_, Hand.drop_incoming, ?_⟩
      cases error with
      | protocol kind message => cases plain
      | error message => rfl
  have unchanged : descriptor.hosted = none → hand = { hand with incoming := rest } := by
    intro hosts
    rw [hosts] at given
    rw [← List.nil_append rest]
    exact given ▸ rfl
  intro wellFormed
  cases descriptor with
  | senderHosted id => exact imports id false rfl wellFormed
  | senderPromise id => exact imports id true rfl wellFormed
  | receiverHosted id =>
      refine Runs.get ?_ wellFormed
      cases found : conn.findExport id.id with
      | none => exact throwProtocol_runs received (.descriptor member (.noExport found))
      | some e =>
          rw [← unchanged rfl]
          exact refExport_runs received member found (wellFormed.exports id.id e found).1
  | receiverAnswer id transform =>
      refine Runs.get ?_ wellFormed
      cases found : find conn.answers id.id with
      | none => exact throwProtocol_runs received (.descriptor member (.noAnswer found))
      | some a =>
          rw [← unchanged rfl]
          exact newClient_runs rfl (by simp [Client.references]) (by simp [Client.calls])
  | none =>
      obtain ⟨id, rfl⟩ := empty rfl
      exact throwProtocol_runs received .nothing wellFormed
  | thirdPartyHosted => exact throwProtocol_runs received (.descriptor member .thirdParty) wellFormed

variable (conn hand) in
theorem populateMessageCapTable_runs {m : RpcMessage} {capTable : List CapDescriptor}
    (received : hand.message = some m) (members : ∀ descriptor ∈ capTable, descriptor ∈ m.descriptors)
    (given : hand.incoming = hosted capTable) :
    Runs Effect (populateMessageCapTable capTable) conn hand
      (fun table after left => left = { hand with incoming := [] } ∧
        ∀ client, some client ∈ table → client < after.objects)
      fun error _ left => left = hand.fault error := by
  induction capTable generalizing conn hand with
  | nil =>
      apply Runs.pure
      refine ⟨?_, by simp⟩
      rw [show ([] : List WireId) = hosted [] from rfl, ← given]
  | cons descriptor capTable ih =>
      have rest := fun other member => members other (List.mem_cons_of_mem descriptor member)
      have read : descriptor ≠ .none → Runs Effect (do
          let client ← clientFromCapDescriptor descriptor
          let rest ← populateMessageCapTable capTable
          return some client :: rest) conn hand
          (fun table after left => left = { hand with incoming := [] } ∧
            ∀ client, some client ∈ table → client < after.objects)
          fun error _ left => left = hand.fault error := by
        intro present
        rw [hosted_cons] at given
        apply Runs.bind (clientFromCapDescriptor_runs _ _ received (members descriptor (by simp))
          (fun none => absurd none present) given)
        rintro client after left _ _ ⟨rfl, made⟩
        have later := ih after { hand with incoming := hosted capTable } received rest rfl
        apply Runs.bind (Q := fun table last left => left = { hand with incoming := [] } ∧
          ∀ other, some other ∈ some client :: table → other < last.objects)
        · apply later.mono
          · rintro table last left steps _ ⟨rfl, clients⟩
            refine ⟨rfl, ?_⟩
            intro other member
            rcases List.mem_cons.mp member with same | member
            · cases same
              exact Nat.lt_of_lt_of_le made (objects_le_of_effects steps)
            · exact clients other member
          · rintro error last left _ _ rfl
            cases error with
            | _ => rfl
        · intro table last left _ _ holds
          exact Runs.pure holds
      cases descriptor with
      | none =>
          apply Runs.bind (ih _ _ received rest (by rw [given, hosted_cons]; rfl))
          rintro table last left _ _ ⟨rfl, clients⟩
          apply Runs.pure
          refine ⟨rfl, ?_⟩
          intro client member
          rcases List.mem_cons.mp member with same | member
          · cases same
          · exact clients client member
      | senderHosted id => exact read nofun
      | senderPromise id => exact read nofun
      | receiverHosted id => exact read nofun
      | receiverAnswer id transform => exact read nofun
      | thirdPartyHosted => exact read nofun

variable (conn hand) in
theorem readPayload_runs (payload : Payload) {m : RpcMessage} (received : hand.message = some m)
    (same : m.descriptors = payload.capTable) (given : hand.incoming = hosted payload.capTable) :
    Runs Effect (readPayload payload) conn hand (fun _ _ left => left = { hand with incoming := [] })
      fun error _ left => left = hand.fault error := by
  apply Runs.bind (populateMessageCapTable_runs _ _ received (by rw [same]; exact fun _ member => member) given)
  rintro table after left _ _ ⟨rfl, clients⟩
  apply Runs.bind (Q := fun _ _ left => left = { hand with incoming := [] })
  · apply Runs.modifyGet (.single (QuietEffect.quiet (Quiet.newMessage table)).effect) ?_ rfl
    intro formed
    exact (formed.setCapTable _ clients).allocated
  · intro message last left _ _ holds
    exact Runs.pure holds

variable (hand) in
theorem discardResolvedCap_runs {m : RpcMessage} {descriptor : CapDescriptor} (received : hand.message = some m)
    (member : descriptor ∈ m.descriptors) (empty : descriptor = .none → ∃ id, m = .resolve id (.cap .none))
    (given : hand.incoming = descriptor.hosted.toList) :
    Runs Effect (discardResolvedCap descriptor) conn hand (fun _ _ left => left = { hand with incoming := [] })
      fun error _ left => left = hand.fault error := by
  have unchanged : descriptor.hosted = none → hand = { hand with incoming := [] } := by
    intro hosts
    rw [hosts] at given
    rw [show ([] : List WireId) = hand.incoming from given.symm]
  have sends : ∀ id, descriptor.hosted = some id → Runs Effect (sendMessage (newReleaseMessage id 1)) conn hand
      (fun _ _ left => left = { hand with incoming := [] }) fun error _ left => left = hand.fault error := by
    intro id hosts
    rw [hosts] at given
    exact Runs.modify (.single (.discard given)) (fun formed => formed.send _) rfl
  cases descriptor with
  | senderHosted id => exact sends id rfl
  | senderPromise id => exact sends id rfl
  | receiverHosted id =>
      apply Runs.get
      cases found : conn.findExport id.id with
      | none => exact throwProtocol_runs received (.descriptor member (.noExport found))
      | some e => exact Runs.pure (unchanged rfl)
  | receiverAnswer id transform =>
      apply Runs.get
      cases found : find conn.answers id.id with
      | none => exact throwProtocol_runs received (.descriptor member (.noAnswer found))
      | some a => exact Runs.pure (unchanged rfl)
  | none =>
      obtain ⟨id, rfl⟩ := empty rfl
      exact throwProtocol_runs received .nothing
  | thirdPartyHosted => exact throwProtocol_runs received (.descriptor member .thirdParty)

theorem catchNonProtocol_runs {program : ConnM Unit} {handle : String → ConnM Unit}
    {returns : Unit → Conn → Hand → Prop}
    (runs : Runs Effect program conn hand returns fun error _ left => left = hand.fault error)
    (handled : ∀ message after, ReflTransGen Effect (conn, hand) (after, { hand with incoming := [] }) →
      after.WellFormed → Runs Effect (handle message) after { hand with incoming := [] } returns
        fun error _ left => left = hand.fault error) :
    Runs Effect (catchNonProtocol program handle) conn hand returns fun error _ left => left = hand.fault error := by
  apply Runs.tryCatch runs
  rintro error after left steps formed rfl
  cases error with
  | protocol kind message => exact Runs.throw rfl
  | error message => exact handled message after steps formed

theorem readNonProtocol_runs {α : Type} {program : ConnM α} {returns : α → Conn → Hand → Prop}
    (runs : Runs Effect program conn hand returns fun error _ left => left = hand.fault error) :
    Runs Effect (readNonProtocol program) conn hand
      (fun outcome after left => match outcome with
        | .ok value => returns value after left
        | .error _ => left = { hand with incoming := [] })
      fun error _ left => left = hand.fault error := by
  apply Runs.tryCatch (G := fun error _ left => left = hand.fault error)
  · apply Runs.bind runs
    intro value after left _ _ holds
    exact Runs.pure holds
  · rintro error after left _ _ rfl
    cases error with
    | protocol kind message => exact Runs.throw rfl
    | error message => exact Runs.pure rfl

end CapnpEs.Rpc
