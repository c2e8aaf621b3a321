import CapnpEs.Library.Transition
import CapnpEs.Rpc.Conn
import Mathlib.Data.List.Basic

/-! A question and the handles of its pipeline: one for its root, one for each derived transform. -/

namespace CapnpEs.Delivery

open Rpc (Transform QuestionState)
open Transition

/-- Of a `Question`, what its pipeline handles read and write. -/
structure PipelineQuestion where
  state : QuestionState := .inProgress
  -- whether the table of the connection holds it
  inTable : Bool := true
  derived : List Transform := []
  rootClosePending : Bool := false
  -- at which transforms the result has a capability
  obj : Transform → Bool := fun _ => false
  -- the Finish messages sent to give it up
  finishes : Nat := 0
  -- the transforms at which the capability of the result has been closed
  closed : List Transform := []

inductive HandleInput
  -- `sent`: the Call message could be made and was sent
  | pipelineCall (transform : Transform) (sent : Bool)
  | pipelineClose (transform : Transform)
  -- a Return, which takes the question out of the table
  | fulfill (obj : Transform → Bool)
  | reject

namespace PipelineQuestion

def addPromise (q : PipelineQuestion) (transform : Transform) : PipelineQuestion :=
  if transform ∈ q.derived then q else { q with derived := q.derived ++ [transform] }

def pipelineCall (q : PipelineQuestion) (transform : Transform) (sent : Bool) : PipelineQuestion :=
  if q.inTable && sent then q.addPromise transform else q

def closePendingRoot (q : PipelineQuestion) : PipelineQuestion :=
  { q with
    finishes := if q.inTable then q.finishes + 1 else q.finishes
    inTable := false
    rootClosePending := false
    state := .canceled }

/-- `clientFromResolution(transform, obj, err).close()` -/
def closeResolution (q : PipelineQuestion) (transform : Transform) : PipelineQuestion :=
  if q.obj transform then { q with closed := q.closed ++ [transform] } else q

def pipelineClose (q : PipelineQuestion) (transform : Transform) : PipelineQuestion :=
  if transform ≠ [] then
    let q := { q with derived := q.derived.filter (· ≠ transform) }
    if q.state = .inProgress then
      if q.rootClosePending ∧ q.derived = [] then q.closePendingRoot else q
    else
      q.closeResolution transform
  else if q.derived ≠ [] then
    { q with rootClosePending := true }
  else if q.state = .inProgress then
    q.closePendingRoot
  else
    q.closeResolution transform

def fulfill (q : PipelineQuestion) (obj : Transform → Bool) : Option PipelineQuestion :=
  if q.state = .inProgress then some { q with state := .resolved, inTable := false, obj } else none

def reject (q : PipelineQuestion) : Option PipelineQuestion :=
  if q.state = .inProgress then some { q with state := .resolved, inTable := false } else none

end PipelineQuestion

/-- A question, and what has been done with its handles. -/
structure Handles where
  question : PipelineQuestion := {}
  -- the transforms that were called through and have not been closed since
  unclosed : List Transform := []
  -- every transform that has been closed
  closes : List Transform := []

namespace Handles

def step (s : Handles) : HandleInput → Option Handles
  | .pipelineCall transform sent =>
      some { s with
        question := s.question.pipelineCall transform sent
        unclosed := s.unclosed ++ [transform] }
  | .pipelineClose transform =>
      some { s with
        question := s.question.pipelineClose transform
        unclosed := s.unclosed.filter (· ≠ transform)
        closes := s.closes ++ [transform] }
  | .fulfill obj => (s.question.fulfill obj).map fun question => { s with question }
  | .reject => s.question.reject.map fun question => { s with question }

def AllClosed (s : Handles) : Prop := s.unclosed = [] ∧ [] ∈ s.closes

/-- Given up with one Finish, or resolved with every capability closed whose handle was. -/
def Released (s : Handles) : Prop :=
  (s.question.state = .canceled ∧ s.question.finishes = 1 ∧ s.question.inTable = false) ∨
    s.question.state = .resolved ∧
      ∀ transform ∈ s.closes, s.question.obj transform = true → transform ∈ s.question.closed

/-- No call goes out through the root, no handle is closed before a result with a capability there, and the root is
closed after the result only when no derived handle is left. -/
def Sound (s : Handles) : HandleInput → Prop
  | .pipelineCall transform sent => s.question.state = .inProgress → sent = true → transform ≠ []
  | .pipelineClose transform =>
      s.question.state = .resolved → transform = [] → s.question.obj [] = true → s.question.derived = []
  | .fulfill obj => ∀ transform ∈ s.closes, obj transform = false
  | .reject => True

/-- What the table, the Finish messages and the handles have to do with the state of the question. -/
structure Invariant (s : Handles) : Prop where
  inTable : s.question.inTable = true ↔ s.question.state = .inProgress
  finishes : s.question.finishes = if s.question.state = .canceled then 1 else 0
  derived : s.question.state = .inProgress → ∀ transform ∈ s.question.derived, transform ∈ s.unclosed ∧ transform ≠ []
  pending : s.question.state = .inProgress → [] ∈ s.closes →
    s.question.rootClosePending = true ∧ s.question.derived ≠ []
  empty : s.question.state ≠ .resolved → ∀ transform, s.question.obj transform = false
  closed : s.question.state = .resolved →
    ∀ transform ∈ s.closes, s.question.obj transform = true → transform ∈ s.question.closed

theorem Invariant.released {s : Handles} (invariant : s.Invariant) (all : s.AllClosed) : s.Released := by
  obtain ⟨none, root⟩ := all
  cases state : s.question.state with
  | inProgress =>
      obtain ⟨_, some⟩ := invariant.pending state root
      obtain ⟨transform, member⟩ := List.exists_mem_of_ne_nil _ some
      have unclosed := (invariant.derived state transform member).1
      rw [none] at unclosed
      cases unclosed
  | resolved => exact Or.inr ⟨state, invariant.closed state⟩
  | canceled =>
      refine Or.inl ⟨state, ?_, ?_⟩
      · rw [invariant.finishes, if_pos state]
      · cases inTable : s.question.inTable with
        | false => rfl
        | true => cases state.symm.trans (invariant.inTable.mp inTable)

theorem invariant_start : ({} : Handles).Invariant where
  inTable := iff_of_true rfl rfl
  finishes := rfl
  derived := nofun
  pending := nofun
  empty := fun _ _ => rfl
  closed := nofun

theorem mem_addPromise {q : PipelineQuestion} {transform other : Transform} :
    other ∈ (q.addPromise transform).derived ↔ other ∈ q.derived ∨ other = transform := by
  unfold PipelineQuestion.addPromise
  split
  · rename_i known
    constructor
    · exact Or.inl
    · rintro (old | rfl)
      · exact old
      · exact known
  · simp

theorem addPromise_rest (q : PipelineQuestion) (transform : Transform) :
    ∃ derived, q.addPromise transform = { q with derived } := by
  unfold PipelineQuestion.addPromise
  split
  · exact ⟨q.derived, rfl⟩
  · exact ⟨_, rfl⟩

theorem Invariant.pipelineCall {s after : Handles} (invariant : s.Invariant) {transform : Transform} {sent : Bool}
    (sound : s.Sound (.pipelineCall transform sent)) (taken : s.step (.pipelineCall transform sent) = some after) :
    after.Invariant := by
  cases taken
  by_cases goes : (s.question.inTable && sent) = true
  · obtain ⟨inTable, wasSent⟩ := Bool.and_eq_true_iff.mp goes
    have inProgress := invariant.inTable.mp inTable
    have adds : s.question.pipelineCall transform sent = s.question.addPromise transform := by
      rw [PipelineQuestion.pipelineCall, if_pos goes]
    obtain ⟨derived, changed⟩ := addPromise_rest s.question transform
    have members : ∀ other, other ∈ derived ↔ other ∈ s.question.derived ∨ other = transform := by
      intro other
      rw [← mem_addPromise, changed]
    rw [adds, changed]
    constructor
    · exact invariant.inTable
    · exact invariant.finishes
    · intro _ other member
      rcases (members other).mp member with old | rfl
      · obtain ⟨unclosed, proper⟩ := invariant.derived inProgress other old
        exact ⟨List.mem_append_left _ unclosed, proper⟩
      · exact ⟨List.mem_append_right _ (List.mem_singleton.mpr rfl), sound inProgress wasSent⟩
    · intro _ root
      refine ⟨(invariant.pending inProgress root).1, ?_⟩
      exact List.ne_nil_of_mem ((members transform).mpr (Or.inr rfl))
    · exact invariant.empty
    · exact invariant.closed
  · have keeps : s.question.pipelineCall transform sent = s.question := by
      rw [PipelineQuestion.pipelineCall, if_neg goes]
    rw [keeps]
    refine { invariant with derived := ?_ }
    intro inProgress other member
    obtain ⟨unclosed, proper⟩ := invariant.derived inProgress other member
    exact ⟨List.mem_append_left _ unclosed, proper⟩

theorem Invariant.fulfill {s after : Handles} (invariant : s.Invariant) {obj : Transform → Bool}
    (sound : s.Sound (.fulfill obj)) (taken : s.step (.fulfill obj) = some after) : after.Invariant := by
  obtain ⟨question, fulfilled, rfl⟩ := Option.map_eq_some_iff.mp taken
  unfold PipelineQuestion.fulfill at fulfilled
  split at fulfilled
  · rename_i inProgress
    cases fulfilled
    have finishes : s.question.finishes = 0 := by
      rw [invariant.finishes, inProgress]
      rfl
    refine ⟨iff_of_false Bool.false_ne_true nofun, finishes, nofun, nofun, fun unresolved => (unresolved rfl).elim, ?_⟩
    intro _ transform closed has
    cases (sound transform closed).symm.trans has
  · cases fulfilled

theorem Invariant.reject {s after : Handles} (invariant : s.Invariant) (taken : s.step .reject = some after) :
    after.Invariant := by
  obtain ⟨question, rejected, rfl⟩ := Option.map_eq_some_iff.mp taken
  unfold PipelineQuestion.reject at rejected
  split at rejected
  · rename_i inProgress
    cases rejected
    have finishes : s.question.finishes = 0 := by
      rw [invariant.finishes, inProgress]
      rfl
    have nothing : ∀ transform, s.question.obj transform = false :=
      invariant.empty (by rw [inProgress]; exact nofun)
    refine ⟨iff_of_false Bool.false_ne_true nofun, finishes, nofun, nofun, fun unresolved => (unresolved rfl).elim, ?_⟩
    intro _ transform _ has
    cases (nothing transform).symm.trans has
  · cases rejected

theorem derived_of_filter {s : Handles} (invariant : s.Invariant) (inProgress : s.question.state = .inProgress)
    (transform : Transform) : ∀ other ∈ s.question.derived.filter (· ≠ transform),
      other ∈ s.unclosed.filter (· ≠ transform) ∧ other ≠ [] := by
  intro other member
  obtain ⟨old, different⟩ := List.mem_filter.mp member
  obtain ⟨unclosed, proper⟩ := invariant.derived inProgress other old
  exact ⟨List.mem_filter.mpr ⟨unclosed, different⟩, proper⟩

theorem closePendingRoot_invariant {question : PipelineQuestion} {unclosed closes : List Transform}
    (inTable : question.inTable = true) (finishes : question.finishes = 0)
    (nothing : ∀ transform, question.obj transform = false) :
    Invariant { question := question.closePendingRoot, unclosed, closes } := by
  refine ⟨iff_of_false Bool.false_ne_true nofun, ?_, nofun, nofun, fun _ => nothing, nofun⟩
  simp [PipelineQuestion.closePendingRoot, inTable, finishes]

theorem closeResolution_invariant {s : Handles} (invariant : s.Invariant) {transform : Transform}
    {derived : List Transform} (ended : s.question.state ≠ .inProgress) (unclosed : List Transform) :
    Invariant
      { question := { s.question with derived }.closeResolution transform
        unclosed
        closes := s.closes ++ [transform] } := by
  unfold PipelineQuestion.closeResolution
  split
  · rename_i has
    refine ⟨invariant.inTable, invariant.finishes, fun inProgress => (ended inProgress).elim,
      fun inProgress => (ended inProgress).elim, invariant.empty, ?_⟩
    intro resolved other member hasOther
    rcases List.mem_append.mp member with old | new
    · exact List.mem_append_left _ (invariant.closed resolved other old hasOther)
    · exact List.mem_append_right _ new
  · rename_i hasNone
    refine ⟨invariant.inTable, invariant.finishes, fun inProgress => (ended inProgress).elim,
      fun inProgress => (ended inProgress).elim, invariant.empty, ?_⟩
    intro resolved other member hasOther
    rcases List.mem_append.mp member with old | new
    · exact invariant.closed resolved other old hasOther
    · cases List.mem_singleton.mp new
      exact (hasNone hasOther).elim

theorem Invariant.pipelineClose {s after : Handles} (invariant : s.Invariant) {transform : Transform}
    (sound : s.Sound (.pipelineClose transform)) (taken : s.step (.pipelineClose transform) = some after) :
    after.Invariant := by
  cases taken
  unfold PipelineQuestion.pipelineClose
  by_cases proper : transform ≠ []
  · rw [if_pos proper]
    dsimp only
    by_cases inProgress : s.question.state = .inProgress
    · rw [if_pos inProgress]
      have inTable := invariant.inTable.mpr inProgress
      have finishes : s.question.finishes = 0 := by
        rw [invariant.finishes, inProgress]
        rfl
      have nothing := invariant.empty (by rw [inProgress]; exact nofun)
      split
      · exact closePendingRoot_invariant inTable finishes nothing
      · rename_i waits
        refine ⟨invariant.inTable, invariant.finishes, fun _ => derived_of_filter invariant inProgress transform, ?_,
          invariant.empty, ?_⟩
        · intro _ root
          rcases List.mem_append.mp root with old | new
          · have pending := (invariant.pending inProgress old).1
            exact ⟨pending, fun none => waits ⟨pending, none⟩⟩
          · exact (proper (List.mem_singleton.mp new).symm).elim
        · intro resolved
          cases inProgress.symm.trans resolved
    · rw [if_neg inProgress]
      exact closeResolution_invariant invariant inProgress _
  · rw [if_neg proper]
    obtain rfl := not_not.mp proper
    split
    · rename_i some
      refine ⟨invariant.inTable, invariant.finishes, ?_, fun _ _ => ⟨rfl, some⟩, invariant.empty, ?_⟩
      · intro inProgress other member
        obtain ⟨unclosed, properOther⟩ := invariant.derived inProgress other member
        exact ⟨List.mem_filter.mpr ⟨unclosed, decide_eq_true properOther⟩, properOther⟩
      · intro resolved other member has
        rcases List.mem_append.mp member with old | new
        · exact invariant.closed resolved other old has
        · cases List.mem_singleton.mp new
          exact (some (sound resolved rfl has)).elim
    · split
      · rename_i inProgress
        have finishes : s.question.finishes = 0 := by
          rw [invariant.finishes, inProgress]
          rfl
        exact closePendingRoot_invariant (invariant.inTable.mpr inProgress) finishes
          (invariant.empty (by rw [inProgress]; exact nofun))
      · rename_i ended
        exact closeResolution_invariant invariant ended _

theorem Invariant.step {s after : Handles} (invariant : s.Invariant) {input : HandleInput} (sound : s.Sound input)
    (taken : s.step input = some after) : after.Invariant := by
  cases input with
  | pipelineCall transform sent => exact invariant.pipelineCall sound taken
  | pipelineClose transform => exact invariant.pipelineClose sound taken
  | fulfill obj => exact invariant.fulfill sound taken
  | reject => exact invariant.reject taken

/-- Closing every handle of a question releases it. -/
theorem closed_handles_release {s : Handles} (run : Run step (fun s input _ => s.Sound input) {} s)
    (all : s.AllClosed) : s.Released := by
  have invariant : s.Invariant := by
    apply run.invariant invariant_start
    intro before input after invariant taken sound
    exact invariant.step sound taken
  exact invariant.released all

/-- A call on a field of the result to come, and both handles closed, the root first. -/
def givenUp : Handles where
  question := { state := .canceled, inTable := false, finishes := 1 }
  closes := [[], [0]]

theorem closed_handles_release_givenUp : givenUp.AllClosed ∧ givenUp.Released := by
  have all : givenUp.AllClosed := ⟨rfl, List.mem_cons_self⟩
  have called : Run step (fun s input _ => s.Sound input) {} { question := { derived := [[0]] }, unclosed := [[0]] } :=
    .step .start (show step {} (.pipelineCall [0] true) = _ from rfl) (fun _ _ => by decide)
  have rooted : Run step (fun s input _ => s.Sound input) {}
      { question := { derived := [[0]], rootClosePending := true }, unclosed := [[0]], closes := [[]] } :=
    .step called (show step _ (.pipelineClose []) = _ from rfl) nofun
  have run : Run step (fun s input _ => s.Sound input) {} givenUp :=
    .step rooted (show step _ (.pipelineClose [0]) = _ from rfl) nofun
  exact ⟨all, closed_handles_release run all⟩

theorem closed_handles_may_not_release :
    ¬ ∀ s, Run step (fun _ _ _ => True) {} s → s.AllClosed → s.Released := by
  intro always
  have called : Run step (fun _ _ _ => True) {} { question := { derived := [[]] }, unclosed := [[]] } :=
    .step .start (show step {} (.pipelineCall [] true) = _ from rfl) trivial
  have closed : Run step (fun _ _ _ => True) {}
      { question := { derived := [[]], rootClosePending := true }, closes := [[]] } :=
    .step called (show step _ (.pipelineClose []) = _ from rfl) trivial
  rcases always _ closed ⟨rfl, List.mem_cons_self⟩ with ⟨canceled, _⟩ | ⟨resolved, _⟩
  · cases canceled
  · cases resolved

end Handles

end CapnpEs.Delivery
