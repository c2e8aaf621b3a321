import Mathlib.Logic.Basic

/-! Runs of a machine that takes one input at a time and may refuse it. `allowed` restricts the steps that are
looked at. -/

namespace Transition

variable {σ ι : Type}

/-- The states that a run from `start` reaches by steps that are all allowed. -/
inductive Run (step : σ → ι → Option σ) (allowed : σ → ι → σ → Prop) (start : σ) : σ → Prop
  | start : Run step allowed start start
  | step {state after : σ} {input : ι} (run : Run step allowed start state)
      (taken : step state input = some after) (fine : allowed state input after) : Run step allowed start after

namespace Run

variable {step : σ → ι → Option σ} {allowed weaker : σ → ι → σ → Prop} {start state : σ}

theorem invariant {holds : σ → Prop} (run : Run step allowed start state) (initially : holds start)
    (kept : ∀ before input after, holds before → step before input = some after → allowed before input after →
      holds after) : holds state := by
  induction run with
  | start => exact initially
  | step _ taken fine ih => exact kept _ _ _ ih taken fine

theorem weaken (run : Run step allowed start state)
    (into : ∀ before input after, allowed before input after → weaker before input after) :
    Run step weaker start state := by
  induction run with
  | start => exact .start
  | step _ taken fine ih => exact .step ih taken (into _ _ _ fine)

def follow (step : σ → ι → Option σ) (state : σ) : List ι → Option σ
  | [] => some state
  | input :: inputs => (step state input).bind fun after => follow step after inputs

theorem of_follow_allowed {inputs : List ι} {after : σ} (run : Run step allowed start state)
    (fine : ∀ before input after, input ∈ inputs → allowed before input after)
    (followed : follow step state inputs = some after) : Run step allowed start after := by
  induction inputs generalizing state with
  | nil =>
      cases followed
      exact run
  | cons input inputs ih =>
      obtain ⟨next, taken, rest⟩ := Option.bind_eq_some_iff.mp followed
      exact ih (.step run taken (fine _ _ _ List.mem_cons_self))
        (fun before later after member => fine before later after (List.mem_cons_of_mem _ member)) rest

theorem of_follow {inputs : List ι} {after : σ} (run : Run step (fun _ _ _ => True) start state)
    (followed : follow step state inputs = some after) : Run step (fun _ _ _ => True) start after :=
  of_follow_allowed run (fun _ _ _ _ => trivial) followed

/-- A list of inputs, as long as every step passes a test. -/
def followTested (step : σ → ι → Option σ) (test : σ → ι → σ → Bool) (state : σ) : List ι → Option σ
  | [] => some state
  | input :: inputs => ((step state input).filter (test state input)).bind fun after =>
      followTested step test after inputs

theorem follow_of_tested {test : σ → ι → σ → Bool} {inputs : List ι} {after : σ}
    (followed : followTested step test state inputs = some after) : follow step state inputs = some after := by
  induction inputs generalizing state with
  | nil => exact followed
  | cons input inputs ih =>
      obtain ⟨next, taken, rest⟩ := Option.bind_eq_some_iff.mp followed
      exact Option.bind_eq_some_iff.mpr ⟨next, (Option.filter_eq_some_iff.mp taken).1, ih rest⟩

theorem of_followTested {test : σ → ι → σ → Bool} {inputs : List ι} {after : σ} (run : Run step allowed start state)
    (passes : ∀ before input after, test before input after = true → allowed before input after)
    (followed : followTested step test state inputs = some after) : Run step allowed start after := by
  induction inputs generalizing state with
  | nil =>
      cases followed
      exact run
  | cons input inputs ih =>
      obtain ⟨next, taken, rest⟩ := Option.bind_eq_some_iff.mp followed
      obtain ⟨taken, fine⟩ := Option.filter_eq_some_iff.mp taken
      exact ih (.step run taken (passes _ _ _ fine)) rest

end Run

end Transition
