import CapnpEs.Library.Transition
import CapnpEs.Rpc.RefinementActions

/-! The numbers that a connection hands out: each table agrees with its generator in every state of a run in
which releasing an export does not fail. -/

namespace CapnpEs.Rpc

open Relation SlotTable

namespace IdGen

variable {α : Type} {gen : IdGen} {slots : List (Option α)}

/-- The slots of a table are the numbers issued so far, and the empty ones are free. -/
structure Numbers (gen : IdGen) (slots : List (Option α)) : Prop where
  length : gen.i = slots.length
  nodup : gen.free.Nodup
  free : ∀ id, id ∈ gen.free ↔ id < slots.length ∧ find slots id = none

namespace Numbers

theorem empty : Numbers {} ([] : List (Option α)) := by
  constructor
  · rfl
  · exact List.nodup_nil
  · intro id
    simp

theorem next_free (numbers : gen.Numbers slots) : find slots gen.next.1 = none := by
  cases shape : gen.free with
  | nil =>
      apply find_of_length_le
      simp [IdGen.next, shape, numbers.length]
  | cons first free =>
      have member : first ∈ gen.free := by simp [shape]
      simp only [IdGen.next, shape]
      exact ((numbers.free first).mp member).2

theorem issue (numbers : gen.Numbers slots) (value : α) :
    gen.next.2.Numbers (put slots gen.next.1 (some value)) := by
  obtain ⟨length, nodup, free⟩ := numbers
  cases shape : gen.free with
  | nil =>
      simp only [IdGen.next, shape]
      rw [shape] at free
      constructor
      · rw [length_put]
        dsimp only
        omega
      · exact List.nodup_nil
      · intro id
        rw [length_put, find_put]
        have unused := free id
        simp only [List.not_mem_nil, false_iff, not_and] at unused ⊢
        intro bound
        split
        · simp
        · exact unused (by omega)
  | cons first others =>
      simp only [IdGen.next, shape]
      have inside := ((free first).mp (by simp [shape])).1
      rw [shape] at nodup
      have once := List.nodup_cons.mp nodup
      constructor
      · rw [length_put]
        dsimp only
        omega
      · exact once.2
      · intro id
        rw [length_put, find_put]
        by_cases same : id = first
        · subst same
          simp [once.1]
        · have unused := free id
          simp only [shape, List.mem_cons, same, false_or] at unused
          simp only [same, if_false]
          rw [unused, show max slots.length (first + 1) = slots.length by omega]

theorem drop (numbers : gen.Numbers slots) {id : Nat} {value : α} (found : find slots id = some value) :
    (gen.remove id).Numbers (put slots id none) := by
  obtain ⟨length, nodup, free⟩ := numbers
  have inside := lt_length_of_find found
  constructor
  · rw [length_put]
    dsimp only [IdGen.remove]
    omega
  · apply List.nodup_cons.mpr
    constructor
    · intro member
      rw [((free id).mp member).2] at found
      cases found
    · exact nodup
  · intro other
    rw [length_put, find_put, show max slots.length (id + 1) = slots.length by omega]
    simp only [IdGen.remove, List.mem_cons, free other]
    by_cases same : other = id
    · simp [same, inside]
    · simp [same]

theorem replace (numbers : gen.Numbers slots) {id : Nat} {value : α} (found : find slots id = some value)
    (other : α) : gen.Numbers (put slots id (some other)) := by
  obtain ⟨length, nodup, free⟩ := numbers
  have inside := lt_length_of_find found
  have kept : (put slots id (some other)).length = slots.length := by
    rw [length_put]
    omega
  constructor
  · rw [kept, length]
  · exact nodup
  · intro id'
    rw [kept, find_put, free id']
    split
    · rename_i same
      simp [same, found]
    · rfl

end Numbers

end IdGen

inductive QuestionChange (conn after : Conn) : Prop
  | same (gen : after.questionID = conn.questionID) (slots : after.questions = conn.questions)
  | issue (gen : after.questionID = conn.questionID.next.2)
      (slots : after.questions = put conn.questions conn.questionID.next.1 (some conn.objects))
      (question : (after.question conn.objects).id = conn.questionID.next.1)
      (made : conn.objects < after.objects)
  | drop {id q : Nat} (isOpen : conn.findQuestion id = some q) (gen : after.questionID = conn.questionID.remove id)
      (slots : after.questions = put conn.questions id none)

theorem Effect.questionChange {before after : Conn × Hand} (effect : Effect before after) :
    QuestionChange before.1 after.1 := by
  have quiets : ∀ {before after : Conn × Hand}, QuietEffect before after → QuestionChange before.1 after.1 := by
    intro before after effect
    cases effect with
    | quiet same => exact .same same.questionID same.questions
    | forget fewer => exact .same rfl rfl
  cases effect with
  | close effect =>
      cases effect with
      | quiet effect => exact quiets effect
      | cancel q isOpen => exact .drop isOpen rfl rfl
      | abandon q isOpen unsent => exact .drop isOpen rfl rfl
      | _ => exact .same rfl rfl
  | describe effect =>
      cases effect with
      | quiet effect => exact quiets effect
      | create made free =>
          rw [Conn.withExport_eq]
          exact .same rfl rfl
      | promise question transform free =>
          rw [Conn.withPromise_eq]
          exact .same rfl rfl
      | _ => exact .same rfl rfl
  | issue method =>
      refine .issue rfl rfl ?_ (Nat.lt_succ_self _)
      simp [Conn.issueQuestion, Conn.say, Conn.allocated, Conn.alterQuestion]
  | unissue isOpen unsent => exact .drop isOpen rfl rfl
  | takeReturn returned isOpen => exact .drop isOpen rfl rfl
  | clearQuestion closed isOpen => exact .drop isOpen rfl rfl
  | newImport isPromise unknown given =>
      rw [Conn.withImport_eq]
      exact .same rfl rfl
  | _ => exact .same rfl rfl

theorem Effect.question_id {before after : Conn × Hand} (effect : Effect before after) {q : Nat}
    (made : q < before.1.objects) : (after.1.question q).id = (before.1.question q).id := by
  have quiets : ∀ {before after : Conn × Hand}, QuietEffect before after → q < before.1.objects →
      (after.1.question q).id = (before.1.question q).id := by
    intro before after effect made
    cases effect with
    | quiet same => exact congrArg (·.2.1) (same.question q made)
    | forget fewer => rfl
  cases effect with
  | close effect =>
      cases effect with
      | quiet effect => exact quiets effect made
      | _ => rfl
  | describe effect =>
      cases effect with
      | quiet effect => exact quiets effect made
      | create made free =>
          rw [Conn.withExport_eq]
      | promise question transform free =>
          rw [Conn.withPromise_eq]
      | _ => rfl
  | issue method =>
      rename_i conn hand
      have other : q ≠ conn.objects := Nat.ne_of_lt made
      simp [Conn.issueQuestion, Conn.say, Conn.allocated, Conn.alterQuestion, Conn.setQuestionSlot, other]
  | ask method params isOpen unsent targets prepared =>
      rename_i conn hand id target rest
      by_cases same : q = id.object
      · simp [Conn.askQuestion, Conn.alterQuestion, Conn.send, same]
      · simp [Conn.askQuestion, Conn.alterQuestion, Conn.send, same]
  | bootstrap isOpen unsent =>
      rename_i conn hand id
      by_cases same : q = id.object
      · simp [Conn.askBootstrap, Conn.alterQuestion, Conn.send, same]
      · simp [Conn.askBootstrap, Conn.alterQuestion, Conn.send, same]
  | newImport isPromise unknown given =>
      rw [Conn.withImport_eq]
  | _ => rfl

theorem Effect.trace {before after : Conn × Hand} (effect : Effect before after) {event : Event}
    (said : event ∈ before.1.trace) : event ∈ after.1.trace := by
  have quiets : ∀ {before after : Conn × Hand}, QuietEffect before after → event ∈ before.1.trace →
      event ∈ after.1.trace := by
    intro before after effect said
    cases effect with
    | quiet same => exact same.trace ▸ said
    | forget fewer => exact said
  cases effect with
  | close effect =>
      cases effect with
      | quiet effect => exact quiets effect said
      | cancel q isOpen => exact List.mem_append_left _ said
      | rejectHere owner reason calls => exact List.mem_append_left _ said
      | closeImport reason found closed => exact List.mem_append_left _ said
      | _ => exact said
  | describe effect =>
      cases effect with
      | quiet effect => exact quiets effect said
      | mention found => exact List.mem_append_left _ said
      | create made free =>
          rw [Conn.withExport_eq]
          exact said
      | promise question transform free =>
          rw [Conn.withPromise_eq]
          exact said
      | exported current number found sameExport origin => exact List.mem_append_left _ said
      | _ => exact said
  | issue method => exact List.mem_append_left _ said
  | refuse reason asked => exact List.mem_append_left _ said
  | forgetAnswer reason asked found unrouted => exact List.mem_append_left _ said
  | takeReturn returned isOpen => exact List.mem_append_left _ said
  | releaseFailed releasing => exact List.mem_append_left _ said
  | resolve resumed prepared => exact List.mem_append_left _ said
  | abort violated isOpen => exact List.mem_append_left _ said
  | newImport isPromise unknown given =>
      rw [Conn.withImport_eq]
      exact said
  | _ => exact said

/-- What an effect does to the export table and to the export that is being released. -/
inductive ExportChange (before after : Conn × Hand) : Prop
  | same (gen : after.1.exportID = before.1.exportID) (slots : after.1.exports = before.1.exports)
      (releasing : after.2.releasing = before.2.releasing)
  | create {e : Export} (gen : after.1.exportID = before.1.exportID.next.2)
      (slots : after.1.exports = put before.1.exports before.1.exportID.next.1 (some e))
      (number : e.id = before.1.exportID.next.1) (referenced : e.wireRefs = 1)
      (releasing : after.2.releasing = before.2.releasing)
  | count {id : Nat} {e counted : Export} (found : before.1.findExport id = some e)
      (gen : after.1.exportID = before.1.exportID) (slots : after.1.exports = put before.1.exports id (some counted))
      (number : counted.id = e.id) (referenced : 1 ≤ counted.wireRefs ∨ after.2.releasing = some id)
      (releasing : after.2.releasing = before.2.releasing ∨ before.2.releasing = none)
  | drop {id : Nat} {e : Export} (found : before.1.findExport id = some e)
      (gen : after.1.exportID = before.1.exportID.remove id) (slots : after.1.exports = put before.1.exports id none)
      (releasing : after.2.releasing = before.2.releasing ∨ before.2.releasing = some id)
  | failed {id : Nat} (gen : after.1.exportID = before.1.exportID) (slots : after.1.exports = before.1.exports)
      (releasing : before.2.releasing = some id) (said : .releaseFailed id ∈ after.1.trace)

theorem Effect.exportChange {before after : Conn × Hand} (effect : Effect before after) :
    ExportChange before after := by
  have quiets : ∀ {before after : Conn × Hand}, QuietEffect before after → ExportChange before after := by
    intro before after effect
    cases effect with
    | quiet same => exact .same same.exportID same.exports rfl
    | forget fewer => exact .same rfl rfl fewer.releasing
  cases effect with
  | close effect =>
      cases effect with
      | quiet effect => exact quiets effect
      | _ => exact .same rfl rfl rfl
  | describe effect =>
      cases effect with
      | quiet effect => exact quiets effect
      | retain found => exact .count found rfl rfl rfl (Or.inl (Nat.succ_le_succ (Nat.zero_le _))) (Or.inl rfl)
      | create made free =>
          rw [Conn.withExport_eq]
          exact .create rfl rfl rfl rfl rfl
      | promise question transform free =>
          rw [Conn.withPromise_eq]
          exact .create rfl rfl rfl rfl rfl
      | _ => exact .same rfl rfl rfl
  | decrement found given idle =>
      refine .count found rfl rfl rfl ?_ (Or.inr idle)
      dsimp only
      split
      · exact Or.inr rfl
      · rename_i left
        exact Or.inl (Nat.pos_of_ne_zero left)
  | dropExport found unheld releasing unresumed => exact .drop found rfl rfl (Or.inr releasing)
  | clearExport closed found unresumed => exact .drop found rfl rfl (Or.inl rfl)
  | releaseFailed releasing => exact .failed rfl rfl releasing (by simp [Conn.say])
  | newImport isPromise unknown given =>
      rw [Conn.withImport_eq]
      exact .same rfl rfl rfl
  | _ => exact .same rfl rfl rfl

/-- The numbers of questions and exports, in the middle of a step. -/
structure Numbered (state : Conn × Hand) : Prop where
  questions : state.1.questionID.Numbers state.1.questions
  questionIds : ∀ id q, state.1.findQuestion id = some q → (state.1.question q).id = id ∧ q < state.1.objects
  exports : state.1.exportID.Numbers state.1.exports
  exportIds : ∀ id e, state.1.findExport id = some e → e.id = id
  wireRefs : ∀ id e, state.1.findExport id = some e →
    1 ≤ e.wireRefs ∨ state.2.releasing = some id ∨ .releaseFailed id ∈ state.1.trace

namespace Numbered

variable {before after : Conn × Hand}

theorem questions_kept (numbered : Numbered before) (effect : Effect before after) :
    after.1.questionID.Numbers after.1.questions ∧
      ∀ id q, after.1.findQuestion id = some q → (after.1.question q).id = id ∧ q < after.1.objects := by
  have grows := effect.objects_le
  have old : ∀ id q, before.1.findQuestion id = some q → (after.1.question q).id = id ∧ q < after.1.objects := by
    intro id q found
    obtain ⟨number, made⟩ := numbered.questionIds id q found
    constructor
    · rw [effect.question_id made]
      exact number
    · omega
  cases effect.questionChange with
  | same gen slots =>
      constructor
      · rw [gen, slots]
        exact numbered.questions
      · intro id q found
        rw [Conn.findQuestion, slots] at found
        exact old id q found
  | issue gen slots question made =>
      constructor
      · rw [gen, slots]
        exact numbered.questions.issue _
      · intro id q found
        rw [Conn.findQuestion, slots, find_put] at found
        split at found
        · rename_i same
          cases found
          exact ⟨same ▸ question, made⟩
        · exact old id q found
  | drop isOpen gen slots =>
      constructor
      · rw [gen, slots]
        exact numbered.questions.drop isOpen
      · intro id q found
        rw [Conn.findQuestion, slots, find_put] at found
        split at found
        · cases found
        · exact old id q found

theorem exports_kept (numbered : Numbered before) (effect : Effect before after) :
    after.1.exportID.Numbers after.1.exports ∧
      ∀ id e, after.1.findExport id = some e → e.id = id ∧
        (1 ≤ e.wireRefs ∨ after.2.releasing = some id ∨ .releaseFailed id ∈ after.1.trace) := by
  -- an export that stays without references is still being released, unless that ends here
  have old : ∀ id e, before.1.findExport id = some e →
      (before.2.releasing = some id → after.2.releasing = some id ∨ .releaseFailed id ∈ after.1.trace) →
      e.id = id ∧ (1 ≤ e.wireRefs ∨ after.2.releasing = some id ∨ .releaseFailed id ∈ after.1.trace) := by
    intro id e found releasing
    constructor
    · exact numbered.exportIds id e found
    · rcases numbered.wireRefs id e found with referenced | held | said
      · exact Or.inl referenced
      · exact Or.inr (releasing held)
      · exact Or.inr (Or.inr (effect.trace said))
  cases effect.exportChange with
  | same gen slots releasing =>
      constructor
      · rw [gen, slots]
        exact numbered.exports
      · intro id e found
        rw [Conn.findExport, slots] at found
        exact old id e found fun held => Or.inl (releasing.trans held)
  | create gen slots number referenced releasing =>
      constructor
      · rw [gen, slots]
        exact numbered.exports.issue _
      · intro id e found
        rw [Conn.findExport, slots, find_put] at found
        split at found
        · rename_i same
          cases found
          exact ⟨number.trans same.symm, Or.inl (Nat.le_of_eq referenced.symm)⟩
        · exact old id e found fun held => Or.inl (releasing.trans held)
  | count known gen slots number referenced releasing =>
      constructor
      · rw [gen, slots]
        exact numbered.exports.replace known _
      · intro id e found
        rw [Conn.findExport, slots, find_put] at found
        split at found
        · rename_i same
          cases found
          subst same
          refine ⟨number.trans (numbered.exportIds _ _ known), ?_⟩
          rcases referenced with referenced | held
          · exact Or.inl referenced
          · exact Or.inr (Or.inl held)
        · apply old id e found
          intro held
          rcases releasing with same | idle
          · exact Or.inl (same.trans held)
          · rw [idle] at held
            cases held
  | drop known gen slots releasing =>
      constructor
      · rw [gen, slots]
        exact numbered.exports.drop known
      · intro id e found
        rw [Conn.findExport, slots, find_put] at found
        split at found
        · cases found
        · rename_i other
          apply old id e found
          intro held
          rcases releasing with same | dropped
          · exact Or.inl (same.trans held)
          · rw [dropped] at held
            cases held
            exact absurd rfl other
  | failed gen slots releasing said =>
      constructor
      · rw [gen, slots]
        exact numbered.exports
      · intro id e found
        rw [Conn.findExport, slots] at found
        apply old id e found
        intro held
        rw [releasing] at held
        cases held
        exact Or.inr said

theorem kept (numbered : Numbered before) (effect : Effect before after) : Numbered after := by
  obtain ⟨questions, questionIds⟩ := numbered.questions_kept effect
  obtain ⟨exports, exportIds⟩ := numbered.exports_kept effect
  exact {
    questions := questions
    questionIds := questionIds
    exports := exports
    exportIds := fun id e found => (exportIds id e found).1
    wireRefs := fun id e found => (exportIds id e found).2
  }

theorem kept_of_effects (numbered : Numbered before) (steps : ReflTransGen Effect before after) :
    Numbered after := by
  induction steps with
  | refl => exact numbered
  | tail _ effect ih => exact ih.kept effect

end Numbered

/-- The tables agree with the generators of their numbers, and what is in a table knows its number. -/
structure Conn.NumbersAgree (conn : Conn) : Prop where
  questions : conn.questionID.Numbers conn.questions
  questionIds : ∀ id q, conn.findQuestion id = some q → (conn.question q).id = id
  exports : conn.exportID.Numbers conn.exports
  exportIds : ∀ id e, conn.findExport id = some e → e.id = id ∧ 1 ≤ e.wireRefs
  disembargoes : conn.disembargoID.Serves fun id => (find conn.disembargoes id).isSome
  questionUnused : conn.findQuestion conn.questionID.next.1 = none
  exportUnused : conn.findExport conn.exportID.next.1 = none
  disembargoUnused : find conn.disembargoes conn.disembargoID.next.1 = none

/-- What holds between the steps of a run in which no export stays behind without references. -/
structure Conn.Counted (conn : Conn) : Prop where
  wellFormed : conn.WellFormed
  questions : conn.questionID.Numbers conn.questions
  questionIds : ∀ id q, conn.findQuestion id = some q → (conn.question q).id = id ∧ q < conn.objects
  exports : conn.exportID.Numbers conn.exports
  exportIds : ∀ id e, conn.findExport id = some e → e.id = id ∧ 1 ≤ e.wireRefs

theorem Conn.Counted.agree {conn : Conn} (counted : conn.Counted) : conn.NumbersAgree := by
  have disembargoes := counted.wellFormed.disembargoIds
  exact {
    questions := counted.questions
    questionIds := fun id q found => (counted.questionIds id q found).1
    exports := counted.exports
    exportIds := counted.exportIds
    disembargoes := disembargoes
    questionUnused := counted.questions.next_free
    exportUnused := counted.exports.next_free
    disembargoUnused := by simpa using disembargoes.next_unused
  }

theorem Conn.counted_initial (registry : Nat → Option (List Method)) (stack : Nat) :
    Conn.Counted { registry := registry, stack := stack } := by
  constructor
  · exact Conn.WellFormed.initial registry stack
  · exact IdGen.Numbers.empty
  · intro id q found
    simp [Conn.findQuestion] at found
  · exact IdGen.Numbers.empty
  · intro id e found
    simp [Conn.findExport] at found

theorem Conn.Counted.step {conn after : Conn} {input : Input} (counted : conn.Counted)
    (taken : conn.step input = some after) (unfailed : ∀ id, .releaseFailed id ∉ after.trace) :
    after.Counted := by
  have effects := Conn.step_effects counted.wellFormed taken
  obtain ⟨left, steps, idle⟩ := effects.reached
  have begins : Numbered (conn.fresh, input.hand) := {
    questions := counted.questions
    questionIds := counted.questionIds
    exports := counted.exports
    exportIds := fun id e found => (counted.exportIds id e found).1
    wireRefs := fun id e found => Or.inl (counted.exportIds id e found).2
  }
  have ends := begins.kept_of_effects steps
  constructor
  · exact effects.wellFormed
  · exact ends.questions
  · exact ends.questionIds
  · exact ends.exports
  · intro id e found
    refine ⟨ends.exportIds id e found, ?_⟩
    rcases ends.wireRefs id e found with referenced | held | said
    · exact referenced
    · rw [idle] at held
      cases held
    · exact absurd said (unfailed id)

/-- No step leaves an export behind because closing its client threw. -/
def Releases (_ : Conn) (_ : Input) (after : Conn) : Prop := ∀ id, .releaseFailed id ∉ after.trace

theorem numbersAgree_of_run {registry : Nat → Option (List Method)} {stack : Nat} {conn : Conn}
    (run : Transition.Run Conn.step Releases { registry := registry, stack := stack } conn) :
    conn.NumbersAgree := by
  apply Conn.Counted.agree
  apply run.invariant (Conn.counted_initial registry stack)
  intro before input after counted taken unfailed
  exact counted.step taken unfailed

/-- A server that is exported, released and exported again, an embargo that is lifted, and a question whose number
the next one takes. -/
def busyTables : List Input :=
  [.act (.newServer [{ interfaceId := 0, methodId := 0 }]), .act (.initMain 0),
    .receive (.call { id := 0, object := 0 } (.importedCap { id := 0, object := 1 })
      { interfaceId := 0, methodId := 0 } .caller
      { content := { caps := [0], pointer := fun _ => .ok (.other 0) }
        capTable := [.senderPromise { id := 10, object := 0 }] }),
    .receive (.resolve { id := 10, object := 0 } (.cap (.receiverHosted { id := 0, object := 1 }))),
    .receive (.disembargo .other (.receiverLoopback { id := 0, object := 3 })),
    .act .bootstrap, .receive (.ret { id := 0, object := 9 } true false (.exception "none")), .act .bootstrap,
    .receive (.release { id := 0, object := 1 } 1), .receive (.bootstrap { id := 1, object := 0 })]

def exportStays : Event → Bool
  | .releaseFailed _ => false
  | _ => true

theorem numbersAgree_of_run_busyTables :
    ∃ conn, Transition.Run.follow Conn.step { registry := fun _ => none } busyTables = some conn ∧
      conn.questions = [some 10] ∧ conn.exports.map (Option.map (·.wireRefs)) = [some 1] ∧
      conn.disembargoes = [none] ∧ conn.NumbersAgree := by
  have reaches : ((Transition.Run.followTested Conn.step (fun _ _ after => after.trace.all exportStays)
      { registry := fun _ => none } busyTables).map fun conn =>
        (conn.questions, conn.exports.map (Option.map (·.wireRefs)), conn.disembargoes)) =
          some ([some 10], [some 1], [none]) := by
    decide +kernel
  obtain ⟨conn, followed, shape⟩ := Option.map_eq_some_iff.mp reaches
  simp only [Prod.mk.injEq] at shape
  obtain ⟨asked, exported, lifted⟩ := shape
  refine ⟨conn, Transition.Run.follow_of_tested followed, asked, exported, lifted, ?_⟩
  apply numbersAgree_of_run (.of_followTested .start ?_ followed)
  intro before input after passes id said
  cases List.all_eq_true.mp passes _ said

/-- A capability of a failed answer goes out with a call, and the peer releases it. -/
def brokenRelease : List Input :=
  [.act .bootstrap, .act (.newPipeline 0 []), .act (.newFixedPipeline (.error "broken") []),
    .act (.newCapTable [some 2]),
    .act (.call 1 { method := { interfaceId := 0, methodId := 0 }
                    params := { content := .interface, message := 3 } }),
    .receive (.release { id := 0, object := 5 } 1)]

theorem numbers_not_always_agree :
    ¬ ∀ conn, Transition.Run Conn.step (fun _ _ _ => True) { registry := fun _ => none } conn →
      conn.NumbersAgree := by
  intro always
  have stays : ((Transition.Run.follow Conn.step { registry := fun _ => none } brokenRelease).bind fun conn =>
      (conn.findExport 0).map (·.wireRefs)) = some 0 := by
    decide
  obtain ⟨conn, followed, found⟩ := Option.bind_eq_some_iff.mp stays
  obtain ⟨e, found, unheld⟩ := Option.map_eq_some_iff.mp found
  have agree := always conn (.of_follow .start followed)
  have held := (agree.exportIds 0 e found).2
  omega

end CapnpEs.Rpc
