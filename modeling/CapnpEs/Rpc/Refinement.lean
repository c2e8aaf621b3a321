import CapnpEs.Rpc.Effects

/-! Programs of a connection as sequences of effects: how such statements are put together. -/

namespace CapnpEs.Rpc

open Relation SlotTable

def RpcError.isPlain : RpcError → Bool
  | .protocol _ _ => false
  | .error _ => true

variable {α β : Type} {R S : Conn × Hand → Conn × Hand → Prop} {conn : Conn} {hand : Hand}

/-- A run makes changes of one kind only, however it ends, and leaves no dangling references. -/
def Runs (R : Conn × Hand → Conn × Hand → Prop) (program : ConnM α) (conn : Conn) (hand : Hand)
    (returns : α → Conn → Hand → Prop) (fails : RpcError → Conn → Hand → Prop) : Prop :=
  conn.WellFormed → Outcome.Meets program conn
    (fun value after => ∃ left, ReflTransGen R (conn, hand) (after, left) ∧ after.WellFormed ∧
      returns value after left)
    (fun error after => ∃ left, ReflTransGen R (conn, hand) (after, left) ∧ after.WellFormed ∧
      fails error after left)

/-- A run that holds in the end what it held before, and fails for no fault of the peer. -/
def Keeps (R : Conn × Hand → Conn × Hand → Prop) (program : ConnM α) (conn : Conn) (hand : Hand)
    (returns : α → Conn → Prop) : Prop :=
  Runs R program conn hand (fun value after left => left = hand ∧ returns value after)
    (fun error _ left => left = hand ∧ error.isPlain)

namespace Runs

variable {program : ConnM α} {Q Q' : α → Conn → Hand → Prop}
  {F G : RpcError → Conn → Hand → Prop}

theorem mono (runs : Runs R program conn hand Q F)
    (normal : ∀ value after left, ReflTransGen R (conn, hand) (after, left) → after.WellFormed →
      Q value after left → Q' value after left)
    (failure : ∀ error after left, ReflTransGen R (conn, hand) (after, left) → after.WellFormed →
      F error after left → G error after left) : Runs R program conn hand Q' G := by
  intro wellFormed
  apply (runs wellFormed).mono
  · rintro value after ⟨left, steps, formed, holds⟩
    exact ⟨left, steps, formed, normal value after left steps formed holds⟩
  · rintro error after ⟨left, steps, formed, holds⟩
    exact ⟨left, steps, formed, failure error after left steps formed holds⟩

theorem dropping (runs : Runs R program conn hand Q F)
    (normal : ∀ value after left, after.WellFormed → Q value after left →
      ∃ held, ReflTransGen R (after, left) (after, held) ∧ Q' value after held)
    (failure : ∀ error after left, after.WellFormed → F error after left →
      ∃ held, ReflTransGen R (after, left) (after, held) ∧ G error after held) :
    Runs R program conn hand Q' G := by
  intro wellFormed
  apply (runs wellFormed).mono
  · rintro value after ⟨left, steps, formed, holds⟩
    obtain ⟨held, later, holds⟩ := normal value after left formed holds
    exact ⟨held, steps.trans later, formed, holds⟩
  · rintro error after ⟨left, steps, formed, holds⟩
    obtain ⟨held, later, holds⟩ := failure error after left formed holds
    exact ⟨held, steps.trans later, formed, holds⟩

theorem lift (runs : Runs R program conn hand Q F) (into : ∀ before after, R before after → S before after) :
    Runs S program conn hand Q F := by
  intro wellFormed
  apply (runs wellFormed).mono
  · rintro value after ⟨left, steps, formed, holds⟩
    exact ⟨left, ReflTransGen.mono into _ _ steps, formed, holds⟩
  · rintro error after ⟨left, steps, formed, holds⟩
    exact ⟨left, ReflTransGen.mono into _ _ steps, formed, holds⟩

theorem pure {value : α} (holds : Q value conn hand) :
    Runs R (pure value) conn hand Q F := by
  intro wellFormed
  exact ⟨hand, .refl, wellFormed, holds⟩

theorem throw {error : RpcError} (holds : F error conn hand) :
    Runs R (throw error : ConnM α) conn hand Q F := by
  intro wellFormed
  exact ⟨hand, .refl, wellFormed, holds⟩

theorem after {rest : ConnM α} {middle : Conn} {held : Hand} (steps : ReflTransGen R (conn, hand) (middle, held))
    (wellFormed : conn.WellFormed → middle.WellFormed) (runs : Runs R rest middle held Q F)
    (same : program conn = rest middle) : Runs R program conn hand Q F := by
  intro formed
  unfold Outcome.Meets
  rw [same]
  apply (runs (wellFormed formed)).mono
  · rintro value after ⟨left, later, rest⟩
    exact ⟨left, steps.trans later, rest⟩
  · rintro error after ⟨left, later, rest⟩
    exact ⟨left, steps.trans later, rest⟩

theorem hold {held : Hand} (steps : ReflTransGen R (conn, hand) (conn, held))
    (runs : Runs R program conn held Q F) : Runs R program conn hand Q F :=
  runs.after steps id rfl

theorem of_ok {v : α} {n : Conn} {h : Hand} (run : program conn = .ok v n)
    (steps : ReflTransGen R (conn, hand) (n, h)) (wellFormed : conn.WellFormed → n.WellFormed)
    (holds : Q v n h) : Runs R program conn hand Q F := by
  intro formed
  unfold Outcome.Meets
  rw [run]
  exact ⟨h, steps, wellFormed formed, holds⟩

theorem bind {next : α → ConnM β} {ends : β → Conn → Hand → Prop}
    (first : Runs R program conn hand Q F)
    (continues : ∀ value after left, ReflTransGen R (conn, hand) (after, left) → after.WellFormed →
      Q value after left → Runs R (next value) after left ends F) :
    Runs R (program >>= next) conn hand ends F := by
  intro wellFormed
  apply Outcome.Meets.bind
  apply (first wellFormed).mono
  · rintro value after ⟨left, steps, formed, holds⟩
    apply (continues value after left steps formed holds formed).mono
    · rintro value' after' ⟨left', later, rest⟩
      exact ⟨left', steps.trans later, rest⟩
    · rintro error after' ⟨left', later, rest⟩
      exact ⟨left', steps.trans later, rest⟩
  · rintro error after found
    exact found

theorem tryCatch {handle : RpcError → ConnM α} (runs : Runs R program conn hand Q G)
    (handled : ∀ error after left, ReflTransGen R (conn, hand) (after, left) → after.WellFormed →
      G error after left → Runs R (handle error) after left Q F) :
    Runs R (tryCatch program handle) conn hand Q F := by
  intro wellFormed
  apply Outcome.Meets.tryCatch
  apply (runs wellFormed).mono
  · intro value after found
    exact found
  · rintro error after ⟨left, steps, formed, failed⟩
    apply (handled error after left steps formed failed formed).mono
    · rintro value' after' ⟨left', later, rest⟩
      exact ⟨left', steps.trans later, rest⟩
    · rintro error after' ⟨left', later, rest⟩
      exact ⟨left', steps.trans later, rest⟩

theorem get {next : Conn → ConnM β} {ends : β → Conn → Hand → Prop}
    (continues : Runs R (next conn) conn hand ends F) : Runs R (get >>= next) conn hand ends F :=
  continues

theorem modifyGet {change : Conn → α × Conn} {held : Hand}
    (steps : ReflTransGen R (conn, hand) ((change conn).2, held))
    (wellFormed : conn.WellFormed → (change conn).2.WellFormed)
    (holds : Q (change conn).1 (change conn).2 held) :
    Runs R (modifyGet change : ConnM α) conn hand Q F := by
  intro formed
  exact ⟨held, steps, wellFormed formed, holds⟩

theorem modify {change : Conn → Conn} {held : Hand} {Q : PUnit → Conn → Hand → Prop}
    (steps : ReflTransGen R (conn, hand) (change conn, held))
    (wellFormed : conn.WellFormed → (change conn).WellFormed) (holds : Q ⟨⟩ (change conn) held) :
    Runs R (modify change) conn hand Q F := by
  intro formed
  exact ⟨held, steps, wellFormed formed, holds⟩

theorem set {next : Conn} {held : Hand} {Q : PUnit → Conn → Hand → Prop}
    (steps : ReflTransGen R (conn, hand) (next, held)) (wellFormed : conn.WellFormed → next.WellFormed)
    (holds : Q ⟨⟩ next held) : Runs R (set next) conn hand Q F := by
  intro formed
  exact ⟨held, steps, wellFormed formed, holds⟩

end Runs

namespace Keeps

variable {program : ConnM α} {Q Q' : α → Conn → Prop}

theorem mono (keeps : Keeps R program conn hand Q)
    (normal : ∀ value after, ReflTransGen R (conn, hand) (after, hand) → after.WellFormed →
      Q value after → Q' value after) : Keeps R program conn hand Q' := by
  apply Runs.mono keeps
  · rintro value after left steps formed ⟨rfl, holds⟩
    exact ⟨rfl, normal value after steps formed holds⟩
  · intro error after left _ _ failed
    exact failed

theorem lift (keeps : Keeps R program conn hand Q)
    (into : ∀ before after, R before after → S before after) : Keeps S program conn hand Q :=
  Runs.lift keeps into

theorem pure {value : α} (holds : Q value conn) : Keeps R (pure value) conn hand Q :=
  Runs.pure ⟨rfl, holds⟩

theorem throw {message : String} : Keeps R (throw (.error message) : ConnM α) conn hand Q :=
  Runs.throw ⟨rfl, rfl⟩

theorem bind {next : α → ConnM β} {ends : β → Conn → Prop} (first : Keeps R program conn hand Q)
    (continues : ∀ value after, ReflTransGen R (conn, hand) (after, hand) → after.WellFormed →
      Q value after → Keeps R (next value) after hand ends) :
    Keeps R (program >>= next) conn hand ends := by
  apply Runs.bind first
  rintro value after left steps formed ⟨rfl, holds⟩
  exact continues value after steps formed holds

theorem get {next : Conn → ConnM β} {ends : β → Conn → Prop}
    (continues : Keeps R (next conn) conn hand ends) : Keeps R (get >>= next) conn hand ends :=
  continues

theorem modifyGet {change : Conn → α × Conn} (steps : ReflTransGen R (conn, hand) ((change conn).2, hand))
    (wellFormed : conn.WellFormed → (change conn).2.WellFormed)
    (holds : Q (change conn).1 (change conn).2) :
    Keeps R (modifyGet change : ConnM α) conn hand Q :=
  Runs.modifyGet steps wellFormed ⟨rfl, holds⟩

theorem modify {change : Conn → Conn} {Q : PUnit → Conn → Prop}
    (steps : ReflTransGen R (conn, hand) (change conn, hand))
    (wellFormed : conn.WellFormed → (change conn).WellFormed) (holds : Q ⟨⟩ (change conn)) :
    Keeps R (modify change) conn hand Q :=
  Runs.modify steps wellFormed ⟨rfl, holds⟩

theorem set {next : Conn} {Q : PUnit → Conn → Prop}
    (steps : ReflTransGen R (conn, hand) (next, hand)) (wellFormed : conn.WellFormed → next.WellFormed)
    (holds : Q ⟨⟩ next) : Keeps R (set next) conn hand Q :=
  Runs.set steps wellFormed ⟨rfl, holds⟩

theorem of_ok {v : α} {n : Conn} (run : program conn = .ok v n)
    (steps : ReflTransGen R (conn, hand) (n, hand)) (wellFormed : conn.WellFormed → n.WellFormed)
    (holds : Q v n) : Keeps R program conn hand Q :=
  Runs.of_ok run steps wellFormed ⟨rfl, holds⟩

theorem given_wellFormed (keeps : conn.WellFormed → Keeps R program conn hand Q) :
    Keeps R program conn hand Q :=
  fun wellFormed => keeps wellFormed wellFormed

theorem attempt {program : ConnM Unit} {Q : Unit → Conn → Prop} (keeps : Keeps R program conn hand Q) :
    Keeps R (attempt program) conn hand fun error _ => error.all RpcError.isPlain := by
  apply Runs.tryCatch
  · apply Runs.bind keeps
    rintro value after left _ _ ⟨rfl, _⟩
    exact Keeps.pure rfl
  · rintro error after left _ _ ⟨rfl, plain⟩
    exact Keeps.pure (by simpa using plain)

theorem forM {items : List β} {program : β → ConnM PUnit}
    (keeps : ∀ item ∈ items, ∀ after, ReflTransGen R (conn, hand) (after, hand) → after.WellFormed →
      Keeps R (program item) after hand fun _ _ => True) :
    Keeps R (items.forM program) conn hand fun _ _ => True := by
  induction items generalizing conn with
  | nil => exact Keeps.pure trivial
  | cons item items ih =>
      intro wellFormed
      refine Keeps.bind (keeps item (by simp) conn .refl wellFormed) ?_ wellFormed
      intro _ after steps formed _
      apply ih
      intro item' member after' later formed'
      exact keeps item' (by simp [member]) after' (steps.trans later) formed'

end Keeps

end CapnpEs.Rpc
