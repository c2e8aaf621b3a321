import CapnpEs.Library.Transition
import Mathlib.Algebra.GroupWithZero.Nat
import Mathlib.Data.List.Basic

/-! Machines that put something out with every step, the record of a run, and balances kept along it. -/

namespace Transition

variable {σ ι ω : Type}

/-- The machine together with all that its steps have put out. -/
def recorded (step : σ → ι → Option σ) (out : σ → ι → σ → List ω) (state : σ × List ω) (input : ι) :
    Option (σ × List ω) :=
  (step state.1 input).map fun after => (after, state.2 ++ out state.1 input after)

/-- A run from `start` to `state` whose steps, all allowed, put out `record`. -/
def Recording (step : σ → ι → Option σ) (out : σ → ι → σ → List ω) (allowed : σ → ι → σ → Prop) (start state : σ)
    (record : List ω) : Prop :=
  Run (recorded step out) (fun before input after => allowed before.1 input after.1) (start, []) (state, record)

def tally (weight : ω → Nat) (record : List ω) : Nat := (record.map weight).sum

@[simp] theorem tally_nil (weight : ω → Nat) : tally weight [] = 0 := rfl

@[simp] theorem tally_cons (weight : ω → Nat) (entry : ω) (record : List ω) :
    tally weight (entry :: record) = weight entry + tally weight record := by
  simp [tally]

@[simp] theorem tally_append (weight : ω → Nat) (record more : List ω) :
    tally weight (record ++ more) = tally weight record + tally weight more := by
  simp [tally]

theorem tally_map {κ : Type} (weight : ω → Nat) (entry : κ → ω) (record : List κ) :
    tally weight (record.map entry) = tally (weight ∘ entry) record := by
  simp [tally]

theorem tally_eq_zero {weight : ω → Nat} {record : List ω} (none : ∀ entry ∈ record, weight entry = 0) :
    tally weight record = 0 := by
  induction record with
  | nil => rfl
  | cons entry record ih =>
      rw [tally_cons, none entry List.mem_cons_self,
        ih fun later member => none later (List.mem_cons_of_mem _ member)]

variable {step : σ → ι → Option σ} {out : σ → ι → σ → List ω} {allowed : σ → ι → σ → Prop} {start state : σ}

theorem recorded_step {before after : σ × List ω} {input : ι} (taken : recorded step out before input = some after) :
    step before.1 input = some after.1 ∧ after.2 = before.2 ++ out before.1 input after.1 := by
  obtain ⟨next, stepped, rfl⟩ := Option.map_eq_some_iff.mp taken
  exact ⟨stepped, rfl⟩

theorem Run.recording (run : Run step allowed start state) (out : σ → ι → σ → List ω) :
    ∃ record, Recording step out allowed start state record := by
  induction run with
  | start => exact ⟨[], .start⟩
  | @step before after input _ taken fine ih =>
      obtain ⟨record, recording⟩ := ih
      refine ⟨record ++ out before input after, Run.step recording ?_ fine⟩
      show recorded step out (before, record) input = _
      simp [recorded, taken]

namespace Recording

variable {record : List ω}

theorem run (recording : Recording step out allowed start state record) : Run step allowed start state := by
  suffices whole : ∀ reached : σ × List ω,
      Run (recorded step out) (fun before input after => allowed before.1 input after.1) (start, []) reached →
        Run step allowed start reached.1 from whole _ recording
  intro reached run
  induction run with
  | start => exact .start
  | step _ taken fine ih => exact .step ih (recorded_step taken).1 fine

theorem invariant (recording : Recording step out allowed start state record) (holds : σ → List ω → Prop)
    (initially : holds start [])
    (kept : ∀ before past input after, holds before past → step before input = some after →
      allowed before input after → holds after (past ++ out before input after)) : holds state record := by
  have whole := @Run.invariant _ _ _ _ _ _ (fun reached : σ × List ω => holds reached.1 reached.2) recording initially
  apply whole
  intro before input after held taken fine
  obtain ⟨stepped, grown⟩ := recorded_step taken
  rw [grown]
  exact kept before.1 before.2 input after.1 held stepped fine

theorem balanced (recording : Recording step out allowed start state record) (holds : σ → Prop) (stock : σ → Nat)
    (spent earned : ω → Nat) (initially : holds start)
    (kept : ∀ before input after, holds before → step before input = some after → allowed before input after →
      holds after ∧ tally spent (out before input after) + stock after ≤
        tally earned (out before input after) + stock before) :
    tally spent record + stock state ≤ tally earned record + stock start := by
  suffices whole : holds state ∧ tally spent record + stock state ≤ tally earned record + stock start from whole.2
  refine recording.invariant (fun reached past =>
    holds reached ∧ tally spent past + stock reached ≤ tally earned past + stock start) ⟨initially, Nat.le_refl _⟩ ?_
  rintro before past input after ⟨formed, sofar⟩ taken fine
  obtain ⟨stays, more⟩ := kept before input after formed taken fine
  refine ⟨stays, ?_⟩
  rw [tally_append, tally_append]
  omega

end Recording

end Transition
