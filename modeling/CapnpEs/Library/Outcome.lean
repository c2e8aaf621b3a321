import Mathlib.Order.Defs.Unbundled

/-!
Running programs with mutable state and exceptions. A program is an `EStateM`; a thrown exception keeps the
state it was thrown in. `Meets` is what a run gives from one state: one postcondition for a normal result, one
for a failure.
-/

namespace Outcome

variable {ε σ α β : Type}

theorem bind_apply (program : EStateM ε σ α) (next : α → EStateM ε σ β) (state : σ) :
    (program >>= next) state =
      match program state with
      | .ok value after => next value after
      | .error reason after => .error reason after := by
  rfl

theorem pure_apply (value : α) (state : σ) :
    (pure value : EStateM ε σ α) state = .ok value state := by
  rfl

theorem get_apply (state : σ) : (get : EStateM ε σ σ) state = .ok state state := by
  rfl

theorem modify_apply (change : σ → σ) (state : σ) :
    (modify change : EStateM ε σ PUnit) state = .ok PUnit.unit (change state) := by
  rfl

theorem throw_apply (reason : ε) (state : σ) :
    (throw reason : EStateM ε σ α) state = .error reason state := by
  rfl

theorem except_ok_bind (value : α) (next : α → Except ε β) :
    ((Except.ok value : Except ε α) >>= next) = next value := rfl

theorem except_bind_eq_ok {first : Except ε α} {next : α → Except ε β} {result : β} :
    (first >>= next) = .ok result ↔ ∃ value, first = .ok value ∧ next value = .ok result := by
  cases first with
  | error reason => simp [bind, Except.bind]
  | ok value => simp [bind, Except.bind]

theorem ofExcept_eq_ok {result : Except ε α} {value : α} {state after : σ} :
    (ofExcept result : EStateM ε σ α) state = .ok value after ↔
      result = .ok value ∧ state = after := by
  cases result with
  | error reason => simp [ofExcept, throw_apply]
  | ok found => simp [ofExcept, pure_apply]

theorem bind_eq_ok {program : EStateM ε σ α} {next : α → EStateM ε σ β} {state after : σ}
    {result : β} :
    (program >>= next) state = .ok result after ↔
      ∃ value middle, program state = .ok value middle ∧ next value middle = .ok result after := by
  rw [bind_apply]
  cases program state with
  | error reason middle => simp
  | ok value middle =>
      constructor
      · intro found
        exact ⟨value, middle, rfl, found⟩
      · rintro ⟨_, _, same, found⟩
        cases same
        exact found

/-- What a program returns, if it ends normally. -/
def returned (program : EStateM ε σ α) (state : σ) : Option α :=
  match program state with
  | .ok value _ => some value
  | .error _ _ => none

theorem returned_eq_some {program : EStateM ε σ α} {state : σ} {value : α} :
    returned program state = some value ↔ ∃ after, program state = .ok value after := by
  rw [returned]
  cases program state with
  | error reason after => simp
  | ok found after => simp

theorem ofExcept_ok (value : α) (state : σ) :
    (ofExcept (Except.ok value) : EStateM ε σ α) state = .ok value state := by
  rfl

theorem ofExcept_bind {result : Except ε α} {value : α} (found : result = .ok value) (next : α → EStateM ε σ β)
    (state : σ) : ((ofExcept result : EStateM ε σ α) >>= next) state = next value state := by
  rw [found, bind_apply, ofExcept_ok]

theorem tryCatch_of_ok {program : EStateM ε σ α} {handle : ε → EStateM ε σ α} {state after : σ} {value : α}
    (run : program state = .ok value after) : tryCatch program handle state = .ok value after := by
  change EStateM.tryCatch program handle state = _
  unfold EStateM.tryCatch
  rw [run]

def Meets (program : EStateM ε σ α) (state : σ) (returns : α → σ → Prop) (fails : ε → σ → Prop) : Prop :=
  match program state with
  | .ok value after => returns value after
  | .error reason after => fails reason after

namespace Meets

variable {program : EStateM ε σ α} {state : σ} {returns returns' : α → σ → Prop} {fails fails' : ε → σ → Prop}

theorem mono (meets : Meets program state returns fails) (normal : ∀ value after, returns value after →
    returns' value after) (failure : ∀ reason after, fails reason after → fails' reason after) :
    Meets program state returns' fails' := by
  unfold Meets at *
  cases run : program state with
  | ok value after =>
      rw [run] at meets
      exact normal value after meets
  | error reason after =>
      rw [run] at meets
      exact failure reason after meets

theorem bind {next : α → EStateM ε σ β} {ends : β → σ → Prop}
    (meets : Meets program state (fun value after => Meets (next value) after ends fails) fails) :
    Meets (program >>= next) state ends fails := by
  unfold Meets at *
  rw [bind_apply]
  cases run : program state with
  | ok value after =>
      rw [run] at meets
      exact meets
  | error reason after =>
      rw [run] at meets
      exact meets

theorem and {returns' : α → σ → Prop} {fails' : ε → σ → Prop} (first : Meets program state returns fails)
    (second : Meets program state returns' fails') :
    Meets program state (fun value after => returns value after ∧ returns' value after)
      fun reason after => fails reason after ∧ fails' reason after := by
  unfold Meets at *
  cases run : program state with
  | ok value after =>
      rw [run] at first second
      exact ⟨first, second⟩
  | error reason after =>
      rw [run] at first second
      exact ⟨first, second⟩

theorem ran (meets : Meets program state returns fails) :
    Meets program state (fun value after => program state = .ok value after ∧ returns value after)
      fun reason after => program state = .error reason after ∧ fails reason after := by
  unfold Meets at *
  cases run : program state with
  | ok value after =>
      rw [run] at meets
      exact ⟨rfl, meets⟩
  | error reason after =>
      rw [run] at meets
      exact ⟨rfl, meets⟩

theorem get {next : σ → EStateM ε σ β} {ends : β → σ → Prop} {fails : ε → σ → Prop}
    (meets : Meets (next state) state ends fails) : Meets (get >>= next) state ends fails :=
  meets

theorem tryCatch {handle : ε → EStateM ε σ α}
    (meets : Meets program state returns fun reason after => Meets (handle reason) after returns fails) :
    Meets (tryCatch program handle) state returns fails := by
  unfold Meets at *
  change match EStateM.tryCatch program handle state with
    | .ok value after => returns value after
    | .error reason after => fails reason after
  unfold EStateM.tryCatch
  cases run : program state with
  | ok value after =>
      rw [run] at meets
      simpa using meets
  | error reason after =>
      rw [run] at meets
      simpa [EStateM.dummyRestore, EStateM.dummySave, EStateM.Backtrackable.restore] using meets

end Meets

/-- A run leaves what `view` sees of the state as it was, however it ends. -/
def Fixes (view : σ → β) (program : EStateM ε σ α) : Prop :=
  ∀ state, Meets program state (fun _ after => view after = view state) fun _ after => view after = view state

namespace Fixes

variable {γ : Type} {view : σ → β} {program : EStateM ε σ α}

theorem pure (value : α) : Fixes view (pure value : EStateM ε σ α) := by
  intro state
  rfl

theorem throw (reason : ε) : Fixes view (throw reason : EStateM ε σ α) := by
  intro state
  rfl

theorem modifyGet {change : σ → α × σ} (same : ∀ state, view (change state).2 = view state) :
    Fixes view (modifyGet change : EStateM ε σ α) :=
  same

theorem bind {next : α → EStateM ε σ γ} (first : Fixes view program) (rest : ∀ value, Fixes view (next value)) :
    Fixes view (program >>= next) := by
  intro state
  apply Meets.bind
  apply (first state).mono
  · intro value middle same
    apply (rest value middle).mono
    · intro _ after later
      exact later.trans same
    · intro _ after later
      exact later.trans same
  · intro reason after same
    exact same

theorem get {next : σ → EStateM ε σ γ}
    (rest : ∀ state, Meets (next state) state (fun _ after => view after = view state)
      fun _ after => view after = view state) : Fixes view (get >>= next) :=
  rest

theorem tryCatch {handle : ε → EStateM ε σ α} (first : Fixes view program)
    (handled : ∀ reason, Fixes view (handle reason)) : Fixes view (tryCatch program handle) := by
  intro state
  apply Meets.tryCatch
  apply (first state).mono
  · intro value after same
    exact same
  · intro reason middle same
    apply (handled reason middle).mono
    · intro _ after later
      exact later.trans same
    · intro _ after later
      exact later.trans same

end Fixes

/-- A run takes the state along a preorder, however it ends. -/
def Moves (R : σ → σ → Prop) (program : EStateM ε σ α) : Prop :=
  ∀ state, Meets program state (fun _ after => R state after) fun _ after => R state after

namespace Moves

variable {γ : Type} {R : σ → σ → Prop} {program : EStateM ε σ α}

theorem modify {change : σ → σ} (moves : ∀ state, R state (change state)) :
    Moves R (modify change : EStateM ε σ PUnit) :=
  moves

theorem modifyGet {change : σ → α × σ} (moves : ∀ state, R state (change state).2) :
    Moves R (modifyGet change : EStateM ε σ α) :=
  moves

theorem get {next : σ → EStateM ε σ γ}
    (rest : ∀ state, Meets (next state) state (fun _ after => R state after) fun _ after => R state after) :
    Moves R (get >>= next) :=
  rest

variable [IsPreorder σ R]

theorem pure (value : α) : Moves R (pure value : EStateM ε σ α) :=
  fun state => refl_of R state

theorem throw (reason : ε) : Moves R (throw reason : EStateM ε σ α) :=
  fun state => refl_of R state

theorem follow {next : α → EStateM ε σ γ} {state : σ}
    (first : Meets program state (fun _ after => R state after) fun _ after => R state after)
    (rest : ∀ value, Moves R (next value)) :
    Meets (program >>= next) state (fun _ after => R state after) fun _ after => R state after := by
  apply Meets.bind
  apply first.mono
  · intro value middle sooner
    apply (rest value middle).mono
    · intro _ after later
      exact trans_of R sooner later
    · intro _ after later
      exact trans_of R sooner later
  · intro reason after moved
    exact moved

theorem follow_bind {β : Type} {middle : α → EStateM ε σ β} {next : β → EStateM ε σ γ} {state : σ}
    (first : Meets (program >>= middle) state (fun _ after => R state after) fun _ after => R state after)
    (rest : ∀ value, Moves R (next value)) :
    Meets (program >>= fun value => middle value >>= next) state (fun _ after => R state after)
      fun _ after => R state after := by
  have grouped : (program >>= fun value => middle value >>= next) = (program >>= middle) >>= next := by
    rw [bind_assoc]
  rw [grouped]
  exact follow first rest

theorem bind {next : α → EStateM ε σ γ} (first : Moves R program) (rest : ∀ value, Moves R (next value)) :
    Moves R (program >>= next) :=
  fun state => follow (first state) rest

theorem tryCatch {handle : ε → EStateM ε σ α} (first : Moves R program) (handled : ∀ reason, Moves R (handle reason)) :
    Moves R (tryCatch program handle) := by
  intro state
  apply Meets.tryCatch
  apply (first state).mono
  · intro value after moved
    exact moved
  · intro reason middle sooner
    apply (handled reason middle).mono
    · intro _ after later
      exact trans_of R sooner later
    · intro _ after later
      exact trans_of R sooner later

theorem forM {items : List γ} {program : γ → EStateM ε σ PUnit} (moves : ∀ item ∈ items, Moves R (program item)) :
    Moves R (items.forM program) := by
  induction items with
  | nil => exact pure _
  | cons item items ih =>
      rw [List.forM_eq_forM, List.forM_cons]
      apply bind (moves item (List.mem_cons_self ..))
      intro _
      exact ih fun other member => moves other (List.mem_cons_of_mem _ member)

theorem forM_ok (items : List γ) {program : γ → EStateM ε σ PUnit} {reached : γ → σ → Prop} {allowed : σ → Prop}
    (keeps : ∀ state after, R state after → allowed state → allowed after)
    (stable : ∀ item state after, R state after → reached item state → reached item after)
    (turns : ∀ item state, allowed state →
      ∃ after, program item state = .ok ⟨⟩ after ∧ R state after ∧ reached item after)
    (state : σ) (fine : allowed state) :
    ∃ after, items.forM program state = .ok ⟨⟩ after ∧ R state after ∧ ∀ item ∈ items, reached item after := by
  induction items generalizing state with
  | nil => exact ⟨state, rfl, refl_of R state, by simp⟩
  | cons item items ih =>
      obtain ⟨middle, turn, sooner, done⟩ := turns item state fine
      obtain ⟨after, rest, later, others⟩ := ih middle (keeps state middle sooner fine)
      refine ⟨after, ?_, trans_of R sooner later, ?_⟩
      · rw [List.forM_eq_forM, List.forM_cons, bind_apply, turn]
        exact rest
      · intro other member
        rcases List.mem_cons.mp member with rfl | member
        · exact stable other middle after later done
        · exact others other member

end Moves

inductive Built (basic : (α : Type) → EStateM ε σ α → Prop) : {α : Type} → EStateM ε σ α → Prop
  | basic {α : Type} {program : EStateM ε σ α} : basic α program → Built basic program
  | pure {α : Type} (value : α) : Built basic (Pure.pure value)
  | throw {α : Type} (reason : ε) : Built basic (MonadExcept.throw reason : EStateM ε σ α)
  | bind {α β : Type} {program : EStateM ε σ α} {next : α → EStateM ε σ β} :
      Built basic program → (∀ value, Built basic (next value)) → Built basic (program >>= next)

namespace Built

variable {basic : (α : Type) → EStateM ε σ α → Prop} {α γ : Type}

theorem ofExcept_bind {result : Except ε α} {next : α → EStateM ε σ γ}
    (rest : ∀ value, result = .ok value → Built basic (next value)) : Built basic (ofExcept result >>= next) := by
  cases result with
  | ok value => exact rest value rfl
  | error reason => exact throw reason

theorem ofExcept (result : Except ε α) : Built basic (ofExcept result : EStateM ε σ α) := by
  cases result with
  | ok value => exact pure value
  | error reason => exact throw reason

theorem forM {items : List γ} {program : γ → EStateM ε σ PUnit} (each : ∀ item ∈ items, Built basic (program item)) :
    Built basic (items.forM program) := by
  induction items with
  | nil => exact pure _
  | cons item items ih =>
      rw [List.forM_eq_forM, List.forM_cons]
      apply bind (each item (List.mem_cons_self ..))
      intro _
      exact ih fun other member => each other (List.mem_cons_of_mem _ member)

theorem mono {basic' : (α : Type) → EStateM ε σ α → Prop}
    (each : ∀ {α : Type} {program : EStateM ε σ α}, basic α program → basic' α program) {program : EStateM ε σ α}
    (built : Built basic program) : Built basic' program := by
  induction built with
  | basic allowed => exact .basic (each allowed)
  | pure value => exact .pure value
  | throw reason => exact .throw reason
  | bind _ _ first rest => exact .bind first rest

theorem moves {R : σ → σ → Prop} [IsPreorder σ R]
    (each : ∀ {α : Type} {program : EStateM ε σ α}, basic α program → Moves R program) {program : EStateM ε σ α}
    (built : Built basic program) : Moves R program := by
  induction built with
  | basic allowed => exact each allowed
  | pure value => exact Moves.pure value
  | throw reason => exact Moves.throw reason
  | bind _ _ first rest => exact Moves.bind first rest

theorem ends {R : σ → σ → Prop} [IsPreorder σ R]
    (each : ∀ {α : Type} {program : EStateM ε σ α}, basic α program →
      ∀ {state after : σ} {value : α}, program state = .ok value after → R state after)
    {program : EStateM ε σ α} (built : Built basic program) {state after : σ} {value : α}
    (run : program state = .ok value after) : R state after := by
  induction built generalizing state after with
  | basic allowed => exact each allowed run
  | pure value =>
      cases run
      exact refl_of R state
  | throw reason => cases run
  | bind _ _ first rest =>
      obtain ⟨found, middle, ran, later⟩ := bind_eq_ok.mp run
      exact trans_of R (first ran) (rest found later)

end Built

end Outcome
