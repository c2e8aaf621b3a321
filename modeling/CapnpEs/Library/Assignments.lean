import CapnpEs.Library.Outcome
import Mathlib.Logic.Function.Basic

/-! Variables, each with values of its own type, and programs that assign to them one after the other. -/

namespace Assignments

section assign

variable {ι : Type} [DecidableEq ι] {Value : ι → Type}

def assign (values : (i : ι) → Value i) (writes : List (Sigma Value)) : (i : ι) → Value i :=
  writes.foldl (fun values write => Function.update values write.1 write.2) values

end assign

/-- Programs that follow an abstract step, one after the other. `Holds` also says how many more may come. -/
theorem forM_follows {ε σ κ α : Type} {program : κ → EStateM ε σ Unit} {next : α → κ → α}
    {Holds : Nat → α → σ → Prop} {allowed : κ → Prop}
    (step : ∀ left values entry state, allowed entry → Holds (left + 1) values state →
      ∃ after, program entry state = .ok () after ∧ Holds left (next values entry) after)
    {entries : List κ} (fine : ∀ entry ∈ entries, allowed entry) {left : Nat} {values : α} {state : σ}
    (holds : Holds (left + entries.length) values state) :
    ∃ after, entries.forM program state = .ok () after ∧ Holds left (entries.foldl next values) after := by
  induction entries generalizing values state with
  | nil => exact ⟨state, rfl, holds⟩
  | cons entry rest ih =>
      obtain ⟨middle, ran, held⟩ := step (left + rest.length) values entry state (fine entry List.mem_cons_self) holds
      obtain ⟨after, finished, last⟩ := ih (fun later member => fine later (List.mem_cons_of_mem _ member)) held
      refine ⟨after, ?_, last⟩
      change (program entry >>= fun _ => rest.forM program) state = _
      rw [Outcome.bind_apply, ran]
      exact finished

end Assignments
