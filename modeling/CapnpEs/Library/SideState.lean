import CapnpEs.Library.Outcome

/-!
Programs that run callbacks. The callbacks have a state of their own; a program follows another one that has
nothing else, if a caller who sees only the callbacks' state cannot tell them apart.
-/

namespace SideState

variable {ε ω κ α β : Type} {good left : ω → Prop} {w after : ω} {k : κ}

def own (program : EStateM ε ω α) : EStateM ε (ω × κ) α := fun (w, k) =>
  match program w with
  | .ok value after => .ok value (after, k)
  | .error reason after => .error reason (after, k)

def callback (program : EStateM ε κ α) : EStateM ε (ω × κ) α := fun (w, k) =>
  match program k with
  | .ok value after => .ok value (w, after)
  | .error reason after => .error reason (w, after)

def shown : EStateM.Result ε (ω × κ) α → EStateM.Result ε κ α
  | .ok value (_, k) => .ok value k
  | .error reason (_, k) => .error reason k

def Follows (good : ω → Prop) (program : EStateM ε (ω × κ) α) (spec : EStateM ε κ α) (w : ω) (k : κ) : Prop :=
  match spec k with
  | .ok value after => ∃ left, program (w, k) = .ok value (left, after) ∧ good left
  | .error reason after => ∃ left, program (w, k) = .error reason (left, after)

namespace Follows

variable {program : EStateM ε (ω × κ) α} {spec : EStateM ε κ α}

theorem shown_eq (follows : Follows good program spec w k) : shown (program (w, k)) = spec k := by
  unfold Follows at follows
  cases result : spec k with
  | ok value after =>
      rw [result] at follows
      obtain ⟨left, run, -⟩ := follows
      rw [run]
      rfl
  | error reason after =>
      rw [result] at follows
      obtain ⟨left, run⟩ := follows
      rw [run]
      rfl

theorem mono (follows : Follows good program spec w k) (weaker : ∀ w, good w → left w) :
    Follows left program spec w k := by
  unfold Follows at follows ⊢
  cases result : spec k with
  | ok value after =>
      rw [result] at follows
      obtain ⟨last, run, holds⟩ := follows
      exact ⟨last, run, weaker last holds⟩
  | error reason after =>
      rw [result] at follows
      exact follows

theorem pure (value : α) (holds : good w) : Follows good (pure value : EStateM ε (ω × κ) α) (pure value) w k :=
  ⟨w, rfl, holds⟩

theorem throw (reason : ε) : Follows good (throw reason : EStateM ε (ω × κ) α) (throw reason) w k :=
  ⟨w, rfl⟩

theorem bind {next : α → EStateM ε (ω × κ) β} {rest : α → EStateM ε κ β} (follows : Follows good program spec w k)
    (step : ∀ value w k, good w → Follows left (next value) (rest value) w k) :
    Follows left (program >>= next) (spec >>= rest) w k := by
  unfold Follows at follows ⊢
  rw [Outcome.bind_apply, Outcome.bind_apply]
  cases result : spec k with
  | ok value after =>
      rw [result] at follows
      obtain ⟨middle, run, holds⟩ := follows
      rw [run]
      exact step value middle after holds
  | error reason after =>
      rw [result] at follows
      obtain ⟨middle, run⟩ := follows
      rw [run]
      exact ⟨middle, rfl⟩

theorem map (follows : Follows good program spec w k) (change : α → β) :
    Follows good (change <$> program) (change <$> spec) w k :=
  follows.bind fun value _ _ holds => pure (change value) holds

theorem own_bind {first : EStateM ε ω α} {value : α} {next : α → EStateM ε (ω × κ) β} {spec : EStateM ε κ β}
    (run : first w = .ok value after) (rest : Follows good (next value) spec after k) :
    Follows good (own first >>= next) spec w k := by
  unfold Follows at rest ⊢
  have unfolded : (own first >>= next) (w, k) = next value (after, k) := by
    rw [Outcome.bind_apply]
    simp only [own]
    rw [run]
  rw [unfolded]
  exact rest

theorem own_ofExcept {first : EStateM ε ω α} {result : Except ε α}
    (run : first w = (ofExcept result : EStateM ε ω α) after) (holds : good after) :
    Follows good (own first) (ofExcept result : EStateM ε κ α) w k := by
  cases result with
  | ok value =>
      have returned : first w = .ok value after := run
      refine ⟨after, ?_, holds⟩
      rw [own, returned]
  | error reason =>
      have failed : first w = .error reason after := run
      refine ⟨after, ?_⟩
      rw [own, failed]

theorem callback_self (program : EStateM ε κ α) (holds : good w) : Follows good (callback program) program w k := by
  unfold Follows
  cases result : program k with
  | ok value after =>
      refine ⟨w, ?_, holds⟩
      rw [callback, result]
  | error reason after =>
      refine ⟨w, ?_⟩
      rw [callback, result]

end Follows

theorem map_eq_iff {first second : EStateM ε κ α} {change : α → β} (injective : Function.Injective change) :
    (change <$> first) k = (change <$> second) k ↔ first k = second k := by
  change EStateM.map change first k = EStateM.map change second k ↔ _
  unfold EStateM.map
  cases first k with
  | ok value after =>
      cases second k with
      | ok value' after' =>
          simp only [EStateM.Result.ok.injEq, injective.eq_iff]
      | error reason after' => exact ⟨nofun, nofun⟩
  | error reason after =>
      cases second k with
      | ok value after' => exact ⟨nofun, nofun⟩
      | error reason' after' => simp only [EStateM.Result.error.injEq]

end SideState
