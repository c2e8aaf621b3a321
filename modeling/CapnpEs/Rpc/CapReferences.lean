import CapnpEs.Library.Transition
import CapnpEs.Rpc.RefinementAnswers
import CapnpEs.Rpc.System

/-!
The references that a capability table takes. `walk` says what each capability is described as, and so which
descriptors count a reference.
-/

namespace CapnpEs.Rpc

open Outcome SlotTable

variable {conn : Conn}

def Conn.wireRefs (conn : Conn) (id : Nat) : Nat := ((conn.findExport id).map Export.wireRefs).getD 0

/-- What the loop of `descriptorForClient` makes of a client. -/
inductive Walk
  -- it throws
  | stuck
  -- the peer has it: one of its exports, or the answer of a question in progress
  | known
  -- a pipeline on a question of another connection in progress, exported as a promise
  | promised
  | hosted
  deriving DecidableEq

def Walk.exports : Walk → Bool
  | .promised => true
  | .hosted => true
  | _ => false

def CapDescriptor.walk : CapDescriptor → Walk
  | .senderHosted _ => .hosted
  | .senderPromise _ => .promised
  | _ => .known

/-- The client that `clientFromResolution` finds, if it makes none that fails; an error where it throws. -/
def Conn.resolution (conn : Conn) (transform : Transform) (obj : Option Struct) (err : Option String) :
    Except RpcError (Option Nat) :=
  match err, obj with
  | none, some struct =>
      match struct.content.capIndex transform with
      | .error reason => .error (.error reason)
      | .ok capId => .ok (capId.bind (conn.slot struct))
  | _, _ => .ok none

def Conn.fixedResolution (conn : Conn) (transform : Transform) : Except String Struct → Except RpcError (Option Nat)
  | .ok struct => conn.resolution transform (some struct) none
  | .error reason => conn.resolution transform none (some reason)

/-- Goes on with what a resolution has found; a client that fails is hosted. -/
def Walk.resume (fuel : Nat) (next : Nat → Walk) : Except RpcError (Option Nat) → Walk
  | .error _ => .stuck
  | .ok none => if fuel = 0 then .stuck else .hosted
  | .ok (some client) => next client

def Conn.walk (conn : Conn) : Nat → Nat → Walk
  | 0, _ => .stuck
  | fuel + 1, client =>
      match conn.client client with
      | .importClient _ => .known
      | .ref rc _ => conn.walk fuel (conn.refCount rc).client
      | .fixedPipeline answer transform => Walk.resume fuel (conn.walk fuel) (conn.fixedResolution transform answer)
      | .pipeline q transform =>
          if (conn.question q).state = .inProgress then
            if (conn.question q).own then .known else .promised
          else
            Walk.resume fuel (conn.walk fuel)
              (conn.resolution transform (conn.question q).obj (conn.question q).err)
      | _ => .hosted

def Conn.walkSlot (conn : Conn) : Option Nat → Walk
  | none => .known
  | some client => conn.walk conn.stack client

/-- A connection to which describing clients has added objects, and references to the exports `ids`. -/
structure Extends (ids : List Nat) (before after : Conn) : Prop where
  objects : before.objects ≤ after.objects
  client : ∀ i < before.objects, after.client i = before.client i
  refCount : ∀ rc < before.objects, after.refCount rc = before.refCount rc
  capTable : after.capTable = before.capTable
  question : after.question = before.question
  questions : after.questions = before.questions
  stack : after.stack = before.stack
  references : ∀ id, after.wireRefs id = before.wireRefs id + ids.count id

/-- What a connection keeps of the capabilities it has exported. -/
structure SameExports (before after : Conn) : Prop where
  exports : ∀ id, after.findExport id = before.findExport id
  promises : ∀ id, find after.exportPromises id = find before.exportPromises id
  index : after.exportPromiseIndex = before.exportPromiseIndex

/-- Describing clients: without a reference nothing is exported. -/
structure Describes (ids : List Nat) (before after : Conn) : Prop extends Extends ids before after where
  untouched : ids = [] → SameExports before after

theorem SameExports.refl (conn : Conn) : SameExports conn conn :=
  ⟨fun _ => rfl, fun _ => rfl, rfl⟩

theorem SameExports.trans {first second third : Conn} (sooner : SameExports first second)
    (later : SameExports second third) : SameExports first third where
  exports id := (later.exports id).trans (sooner.exports id)
  promises id := (later.promises id).trans (sooner.promises id)
  index := later.index.trans sooner.index

theorem SameExports.wireRefs {before after : Conn} (same : SameExports before after) (id : Nat) :
    after.wireRefs id = before.wireRefs id := by
  unfold Conn.wireRefs
  rw [same.exports]

theorem Conn.walk_congr {before after : Conn} (wellFormed : before.WellFormed)
    (clients : ∀ i < before.objects, after.client i = before.client i)
    (refCounts : ∀ rc < before.objects, after.refCount rc = before.refCount rc)
    (capTables : after.capTable = before.capTable)
    (questions : ∀ i q transform, before.client i = .pipeline q transform → after.question q = before.question q)
    (fuel : Nat) {client : Nat} (made : client < before.objects) :
    after.walk fuel client = before.walk fuel client := by
  have slots : ∀ struct, after.slot struct = before.slot struct := by
    intro struct
    funext capId
    unfold Conn.slot
    rw [capTables]
  have found : ∀ transform obj err, after.resolution transform obj err = before.resolution transform obj err := by
    intro transform obj err
    unfold Conn.resolution
    simp only [slots]
  induction fuel generalizing client with
  | zero => rfl
  | succ fuel ih =>
      have resumes : ∀ transform obj err,
          Walk.resume fuel (after.walk fuel) (after.resolution transform obj err) =
            Walk.resume fuel (before.walk fuel) (before.resolution transform obj err) := by
        intro transform obj err
        rw [found]
        cases shape : before.resolution transform obj err with
        | error reason => rfl
        | ok next =>
            cases next with
            | none => rfl
            | some next =>
                apply ih
                unfold Conn.resolution at shape
                split at shape
                · split at shape
                  · cases shape
                  · rename_i struct capId _
                    cases capId with
                    | none => cases shape
                    | some capId => exact wellFormed.slot (Except.ok.inj shape)
                · cases shape
      unfold Conn.walk
      rw [clients client made]
      cases shape : before.client client with
      | ref rc closed =>
          have counted : rc < before.objects := by
            apply wellFormed.clients client
            rw [shape]
            exact List.mem_singleton_self rc
          dsimp only
          rw [refCounts rc counted]
          apply ih
          rcases wellFormed.refCounts rc with unset | below
          · omega
          · exact below
      | fixedPipeline answer transform =>
          cases answer with
          | ok struct => exact resumes transform (some struct) none
          | error reason => exact resumes transform none (some reason)
      | pipeline q transform =>
          dsimp only
          rw [questions client q transform shape, resumes]
      | _ => rfl

namespace Extends

theorem refl (conn : Conn) : Extends [] conn conn where
  objects := Nat.le_refl _
  client _ _ := rfl
  refCount _ _ := rfl
  capTable := rfl
  question := rfl
  questions := rfl
  stack := rfl
  references _ := rfl

theorem trans {ids others : List Nat} {first second third : Conn} (sooner : Extends ids first second)
    (later : Extends others second third) : Extends (ids ++ others) first third where
  objects := Nat.le_trans sooner.objects later.objects
  client i below := (later.client i (Nat.lt_of_lt_of_le below sooner.objects)).trans (sooner.client i below)
  refCount rc below := (later.refCount rc (Nat.lt_of_lt_of_le below sooner.objects)).trans (sooner.refCount rc below)
  capTable := later.capTable.trans sooner.capTable
  question := later.question.trans sooner.question
  questions := later.questions.trans sooner.questions
  stack := later.stack.trans sooner.stack
  references id := by rw [later.references, sooner.references, List.count_append, Nat.add_assoc]

theorem walk {ids : List Nat} {before after : Conn} (extends_ : Extends ids before after)
    (wellFormed : before.WellFormed) (fuel : Nat) {client : Nat} (made : client < before.objects) :
    after.walk fuel client = before.walk fuel client := by
  apply Conn.walk_congr wellFormed extends_.client extends_.refCount extends_.capTable ?_ fuel made
  intro _ q _ _
  rw [extends_.question]

theorem walkSlot {ids : List Nat} {before after : Conn} (extends_ : Extends ids before after)
    (wellFormed : before.WellFormed) {slot : Option Nat} (made : ∀ client, slot = some client → client < before.objects) :
    after.walkSlot slot = before.walkSlot slot := by
  cases slot with
  | none => rfl
  | some client =>
      unfold Conn.walkSlot
      rw [extends_.stack]
      exact extends_.walk wellFormed _ (made client rfl)

end Extends

namespace Describes

theorem refl (conn : Conn) : Describes [] conn conn where
  toExtends := .refl conn
  untouched _ := .refl conn

theorem trans {ids others : List Nat} {first second third : Conn} (sooner : Describes ids first second)
    (later : Describes others second third) : Describes (ids ++ others) first third where
  toExtends := sooner.toExtends.trans later.toExtends
  untouched none_ := (sooner.untouched (List.append_eq_nil_iff.mp none_).1).trans
    (later.untouched (List.append_eq_nil_iff.mp none_).2)

theorem of_extends {id : Nat} {ids : List Nat} {before after : Conn} (extends_ : Extends (id :: ids) before after) :
    Describes (id :: ids) before after where
  toExtends := extends_
  untouched none_ := absurd none_ (List.cons_ne_nil _ _)

theorem say (conn : Conn) (event : Event) : Describes [] conn (conn.say event) :=
  { refl conn with untouched := fun _ => ⟨fun _ => rfl, fun _ => rfl, rfl⟩ }

theorem newClient (conn : Conn) (client : Client) : Describes [] conn (conn.withClient client) where
  objects := Nat.le_succ _
  client i below := by
    simp [Conn.withClient, Conn.allocated, Conn.setClient, Function.update_of_ne (Nat.ne_of_lt below)]
  refCount _ _ := rfl
  capTable := rfl
  question := rfl
  questions := rfl
  stack := rfl
  references _ := rfl
  untouched _ := ⟨fun _ => rfl, fun _ => rfl, rfl⟩

end Describes

theorem Conn.wireRefs_setExport (conn : Conn) (id : Nat) (slot : Option Export) (other : Nat) :
    (conn.setExport id slot).wireRefs other =
      if other = id then (slot.map Export.wireRefs).getD 0 else conn.wireRefs other := by
  unfold wireRefs findExport setExport
  rw [find_put]
  split
  · rfl
  · rfl

theorem count_singleton_nat (id other : Nat) : [id].count other = if other = id then 1 else 0 := by
  rw [List.count_singleton]
  by_cases same : other = id
  · simp [same]
  · simp [same, Ne.symm same]

namespace Extends

theorem retainExport {id : Nat} {e : Export} (found : conn.findExport id = some e) :
    Extends [id] conn (conn.retainExport id e) := by
  refine { refl conn with references := ?_ }
  intro other
  rw [Conn.retainExport, Conn.wireRefs_setExport, count_singleton_nat]
  split
  · rename_i same
    subst same
    simp [Conn.wireRefs, found]
  · rfl

theorem withExport (wellFormed : conn.WellFormed) (client : Nat) :
    Extends [conn.nextExport.id] conn (conn.withExport client) where
  objects := conn.objects_le_withExport client
  client i below := by
    rw [Conn.withExport_eq]
    exact Function.update_of_ne (by omega) _ _
  refCount rc below := by
    rw [Conn.withExport_eq]
    exact Function.update_of_ne (by omega) _ _
  capTable := rfl
  question := rfl
  questions := rfl
  stack := rfl
  references other := by
    have unused : conn.wireRefs conn.exportID.next.1 = 0 := by
      have free := wellFormed.exportIds.next_unused
      rw [Bool.not_eq_true, Option.isSome_eq_false_iff, Option.isNone_iff_eq_none] at free
      simp [Conn.wireRefs, free]
    unfold Conn.withExport
    rw [Conn.wireRefs_setExport, count_singleton_nat]
    change (if other = conn.exportID.next.1 then 1 else conn.wireRefs other) =
      conn.wireRefs other + if other = conn.exportID.next.1 then 1 else 0
    split
    · rename_i same
      rw [same, unused]
    · rfl

theorem indexExportPromise (question : Nat) (transform : Transform) (id : Option WireId) :
    Extends [] conn (conn.indexExportPromise question transform id) :=
  { refl conn with }

theorem awaitPromise (promise : Continuation) (client : Nat) : Extends [] conn (conn.awaitPromise promise client) :=
  { refl conn with }

end Extends

theorem addExport_describes (wellFormed : conn.WellFormed) (client : Nat) :
    Meets (addExport client) conn (fun id after => Describes [id.id] conn after) fun _ _ => False := by
  have created : Meets (createExport client) conn (fun id after => Describes [id.id] conn after) fun _ _ => False :=
    .of_extends (.withExport wellFormed client)
  apply Meets.get
  cases conn.exportOf client with
  | none => exact created
  | some i =>
      dsimp only
      cases found : conn.findExport i with
      | none => exact created
      | some e => exact .of_extends (.retainExport found)

theorem newExportPromise_extends (wellFormed : conn.WellFormed) (question : Nat) (transform : Transform) :
    Meets (newExportPromise question transform) conn (fun id after => Extends [id.id] conn after)
      fun _ _ => False := by
  have promised : Extends [conn.allocated.nextExport.id] conn (conn.withPromise question transform) := by
    have made := (Describes.newClient conn (.promiseExport { question := question, transform := transform })).toExtends
    have formed := wellFormed.withClient
      (c := .promiseExport { question := question, transform := transform })
      (by simp [Client.references]) (by simp [Client.calls]) nofun
    exact (made.trans (.withExport formed conn.objects)).trans (.indexExportPromise question transform _)
  unfold Meets
  rw [newExportPromise_run wellFormed]
  by_cases known : (find conn.exportPromises conn.allocated.nextExport.id).isSome
  · rw [if_pos known]
    exact promised
  · rw [if_neg known]
    exact promised.trans (.awaitPromise _ _)

theorem addExportPromise_describes (wellFormed : conn.WellFormed) (question : Nat) (transform : Transform) :
    Meets (addExportPromise question transform) conn (fun id after => Describes [id.id] conn after)
      fun _ _ => False := by
  have indexed : Meets (indexedExportPromise question transform) conn (fun id after => Extends [id.id] conn after)
      fun _ _ => False := by
    apply Meets.get
    cases conn.exportPromiseIndex question transform with
    | none => exact newExportPromise_extends wellFormed question transform
    | some existing =>
        dsimp only
        cases found : conn.findExport existing.id with
        | some e => exact Extends.retainExport found
        | none =>
            apply Meets.bind
            apply (newExportPromise_extends (wellFormed.indexExportPromise question transform none) question
              transform).mono
            · intro id after extends_
              exact (Extends.indexExportPromise question transform none).trans extends_
            · intro _ _ failed
              exact failed
  apply Meets.get
  apply Meets.bind
  apply indexed.mono
  · intro id after extends_
    exact .of_extends (extends_.trans (Describes.say after _).toExtends)
  · intro _ _ failed
    exact failed

/-- What becomes of a resolution: the client it found, or a new one that fails. -/
def Conn.Resolves (conn : Conn) (found : Except RpcError (Option Nat)) (next : Nat) (after : Conn) : Prop :=
  (found = .ok (some next) ∧ after = conn) ∨
    found = .ok none ∧ next = conn.objects ∧ ∃ reason, after = conn.withClient (.error reason)

theorem clientFromResolution_resolves (conn : Conn) (transform : Transform) (obj : Option Struct)
    (err : Option String) :
    Meets (clientFromResolution transform obj err) conn (conn.Resolves (conn.resolution transform obj err))
      fun _ after => (∃ reason, conn.resolution transform obj err = .error reason) ∧ after = conn := by
  cases err with
  | some reason => exact Or.inr ⟨rfl, rfl, reason, rfl⟩
  | none =>
      cases obj with
      | none => exact Or.inr ⟨rfl, rfl, _, rfl⟩
      | some struct =>
          unfold Conn.resolution
          apply Meets.get
          dsimp only
          cases struct.content.capIndex transform with
          | error reason => exact ⟨⟨_, rfl⟩, rfl⟩
          | ok capId =>
              dsimp only
              cases capId.bind (conn.slot struct) with
              | none => exact Or.inr ⟨rfl, rfl, _, rfl⟩
              | some client => exact Or.inl ⟨rfl, rfl⟩

theorem clientFromFixed_resolves (conn : Conn) (transform : Transform) (answer : Except String Struct) :
    Meets (clientFromFixed transform answer) conn (conn.Resolves (conn.fixedResolution transform answer))
      fun _ after => (∃ reason, conn.fixedResolution transform answer = .error reason) ∧ after = conn := by
  cases answer with
  | ok struct => exact clientFromResolution_resolves conn transform (some struct) none
  | error reason => exact clientFromResolution_resolves conn transform none (some reason)

/-- What `dig` returns from where a walk ends; `none` where it breaks off. -/
def Walk.Ends (walk : Walk) (before : Conn) (found : Option CapDescriptor) (after : Conn) : Prop :=
  found.elim .hosted CapDescriptor.walk = walk ∧
    Describes (found.bind CapDescriptor.hosted |>.map WireId.id).toList before after

def Walk.Fails (walk : Walk) (before after : Conn) : Prop := walk = .stuck ∧ Describes [] before after

theorem dig_resumes {fuel : Nat} {program : ConnM Nat} {found : Except RpcError (Option Nat)}
    (resolves : Meets program conn (conn.Resolves found) fun _ after => (∃ reason, found = .error reason) ∧ after = conn)
    (continues : ∀ client, Meets (dig fuel client) conn ((conn.walk fuel client).Ends conn)
      fun _ after => (conn.walk fuel client).Fails conn after) :
    Meets (program >>= dig fuel) conn ((Walk.resume fuel (conn.walk fuel) found).Ends conn)
      fun _ after => (Walk.resume fuel (conn.walk fuel) found).Fails conn after := by
  apply Meets.bind
  apply resolves.mono
  · rintro next after (⟨rfl, rfl⟩ | ⟨rfl, rfl, reason, rfl⟩)
    · exact continues next
    · have described := Describes.newClient conn (.error reason)
      cases fuel with
      | zero => exact ⟨rfl, described⟩
      | succ fuel =>
          apply Meets.get
          have here : (conn.withClient (.error reason)).client conn.objects = .error reason := by
            simp [Conn.withClient, Conn.allocated, Conn.setClient]
          rw [here]
          exact ⟨rfl, described⟩
  · rintro _ after ⟨⟨reason, rfl⟩, rfl⟩
    exact ⟨rfl, .refl _⟩

theorem dig_walks (wellFormed : conn.WellFormed) (fuel client : Nat) :
    Meets (dig fuel client) conn ((conn.walk fuel client).Ends conn)
      fun _ after => (conn.walk fuel client).Fails conn after := by
  induction fuel generalizing client with
  | zero => exact ⟨rfl, .refl conn⟩
  | succ fuel ih =>
      apply Meets.get
      unfold Conn.walk
      cases conn.client client with
      | importClient c => exact ⟨rfl, .say conn _⟩
      | ref rc closed => exact ih _
      | fixedPipeline answer transform => exact dig_resumes (clientFromFixed_resolves conn transform answer) ih
      | pipeline q transform =>
          dsimp only
          split
          · split
            · exact ⟨rfl, .refl conn⟩
            · apply Meets.bind
              apply (addExportPromise_describes wellFormed q transform).mono
              · intro id after describes
                exact ⟨rfl, describes⟩
              · intro _ _ failed
                exact failed.elim
          · exact dig_resumes (clientFromResolution_resolves conn transform _ _) ih
      | _ => exact ⟨rfl, .refl conn⟩

theorem descriptorForSlot_walks (wellFormed : conn.WellFormed) (slot : Option Nat) :
    Meets (descriptorForSlot slot) conn
      (fun descriptor after => descriptor.walk = conn.walkSlot slot ∧
        Describes (descriptor.hosted.map WireId.id).toList conn after)
      fun _ after => (conn.walkSlot slot).Fails conn after := by
  cases slot with
  | none => exact ⟨rfl, .refl conn⟩
  | some client =>
      apply Meets.get
      apply Meets.bind
      have runs := @dig_runs conn {} conn.stack client wellFormed
      apply ((dig_walks wellFormed conn.stack client).and runs).mono
      · rintro found middle ⟨⟨walk, described⟩, _, _, formed, _⟩
        cases found with
        | some descriptor => exact ⟨walk, described⟩
        | none =>
            apply Meets.bind
            apply (addExport_describes formed client).mono
            · intro id after added
              exact ⟨walk, described.trans added⟩
            · intro _ _ failed
              exact failed.elim
      · rintro _ after ⟨failed, _⟩
        exact failed

def counted (capTable : List CapDescriptor) : List Nat := (hosted capTable).map WireId.id

theorem counted_cons (descriptor : CapDescriptor) (capTable : List CapDescriptor) :
    counted (descriptor :: capTable) = (descriptor.hosted.map WireId.id).toList ++ counted capTable := by
  rw [counted, hosted_cons, List.map_append]
  cases descriptor.hosted with
  | none => rfl
  | some id => rfl

theorem CapDescriptor.exports_walk (descriptor : CapDescriptor) :
    descriptor.walk.exports = descriptor.hosted.isSome := by
  cases descriptor with
  | _ => rfl

def Conn.walks (conn : Conn) (table : List (Option Nat)) : List Walk := table.map conn.walkSlot

/-- What is described before the first capability that cannot be. -/
def described (walks : List Walk) : List Walk := walks.takeWhile (· ≠ .stuck)

theorem Extends.walks {ids : List Nat} {before after : Conn} (extends_ : Extends ids before after)
    (wellFormed : before.WellFormed) {table : List (Option Nat)}
    (made : ∀ client, some client ∈ table → client < before.objects) : after.walks table = before.walks table := by
  apply List.map_congr_left
  intro slot member
  apply extends_.walkSlot wellFormed
  rintro client rfl
  exact made client member

theorem makeCapTable_walks (wellFormed : conn.WellFormed) {table : List (Option Nat)}
    (made : ∀ client, some client ∈ table → client < conn.objects) :
    Meets (makeCapTable table) conn
      (fun capTable after => capTable.map CapDescriptor.walk = conn.walks table ∧
        Describes (counted capTable) conn after)
      fun _ after => ∃ ids, Describes ids conn after ∧
        (ids = [] ↔ ∀ walk ∈ described (conn.walks table), walk.exports = false) := by
  induction table generalizing conn with
  | nil => exact ⟨rfl, .refl conn⟩
  | cons slot table ih =>
      apply Meets.bind
      have runs := @descriptorForSlot_runs conn {} slot
        (fun client same => made client (by simp [same])) wellFormed
      apply ((descriptorForSlot_walks wellFormed slot).and runs).mono
      · rintro descriptor middle ⟨⟨walk, first⟩, _, _, formed, _⟩
        have below : ∀ client, some client ∈ table → client < conn.objects := fun client member =>
          made client (List.mem_cons_of_mem _ member)
        have later : middle.walks table = conn.walks table := first.walks wellFormed below
        apply Meets.bind
        apply (ih formed fun client member => Nat.lt_of_lt_of_le (below client member) first.objects).mono
        · rintro rest after ⟨walks, second⟩
          refine ⟨?_, ?_⟩
          · rw [List.map_cons, walk, walks, later]
            rfl
          · rw [counted_cons]
            exact first.trans second
        · rintro _ after ⟨ids, second, none_⟩
          refine ⟨_, first.trans second, ?_⟩
          have fine : conn.walkSlot slot ≠ .stuck := by
            rw [← walk]
            cases descriptor with
            | _ => exact nofun
          have here : (descriptor.hosted.map WireId.id).toList = [] ↔ (conn.walkSlot slot).exports = false := by
            rw [← walk, CapDescriptor.exports_walk]
            cases descriptor.hosted with
            | none => simp
            | some id => simp
          have split_ : described (conn.walks (slot :: table)) = conn.walkSlot slot :: described (conn.walks table) :=
            List.takeWhile_cons_of_pos (by simpa using fine)
          rw [List.append_eq_nil_iff, here, none_, later, split_, List.forall_mem_cons]
      · rintro _ after ⟨⟨stuck, unchanged⟩, _⟩
        refine ⟨[], unchanged, ?_⟩
        simp [described, Conn.walks, stuck]

theorem hosted_length (capTable : List CapDescriptor) : (hosted capTable).length =
    (collectPayloadSenderHosted capTable).length + (capTable.filter (·.walk = .promised)).length := by
  induction capTable with
  | nil => rfl
  | cons descriptor capTable ih =>
      unfold hosted collectPayloadSenderHosted at ih ⊢
      rw [List.filterMap_cons, List.filterMap_cons, List.filter_cons]
      cases descriptor with
      | senderHosted id =>
          simp only [CapDescriptor.hosted, senderHosted, CapDescriptor.walk, List.length_cons, ih]
          simp only [reduceCtorEq, decide_false, Bool.false_eq_true, ↓reduceIte]
          omega
      | senderPromise id =>
          simp only [CapDescriptor.hosted, senderHosted, CapDescriptor.walk, List.length_cons, ih]
          simp only [decide_true, ↓reduceIte, List.length_cons]
          omega
      | _ => exact ih

theorem hosted_eq_collected {capTable : List CapDescriptor}
    (none_ : ∀ descriptor ∈ capTable, descriptor.walk ≠ .promised) :
    hosted capTable = collectPayloadSenderHosted capTable := by
  apply List.filterMap_congr
  intro descriptor member
  cases descriptor with
  | senderPromise id => exact absurd rfl (none_ _ member)
  | _ => rfl

theorem releaseExport_wireRefs (wellFormed : conn.WellFormed) (id : Nat) :
    Meets (releaseExport id 1) conn
      (fun _ after => ∀ other, after.wireRefs other = conn.wireRefs other - [id].count other)
      fun _ after => ∀ other, after.wireRefs other = conn.wireRefs other - [id].count other := by
  apply Meets.get
  cases found : conn.findExport id with
  | none =>
      intro other
      rw [count_singleton_nat]
      split
      · rename_i same
        simp [same, Conn.wireRefs, found]
      · rfl
  | some e =>
      have refs : conn.wireRefs id = e.wireRefs := by simp [Conn.wireRefs, found]
      have left : e.wireRefs - min 1 e.wireRefs = e.wireRefs - 1 := by omega
      have lowered : ∀ other, (conn.setExport id (some { e with wireRefs := e.wireRefs - 1 })).wireRefs other =
          conn.wireRefs other - [id].count other := by
        intro other
        rw [Conn.wireRefs_setExport, count_singleton_nat]
        split
        · rename_i same
          rw [same, refs]
          rfl
        · rfl
      dsimp only
      rw [if_neg Nat.one_ne_zero, left]
      apply Meets.bind
      split
      · exact lowered
      · rename_i zero
        have counts : (conn.setExport id (some { e with wireRefs := e.wireRefs - 1 })).WellFormed :=
          wellFormed.setExport (by simp [found]) (wellFormed.exports id e found)
        have formed := counts.setExportPromise id (s := none) nofun
        have closes := @close_keeps _ {} e.client formed
        apply Meets.bind
        apply Meets.bind
        apply Meets.tryCatch
        apply closes.mono
        · rintro _ after ⟨_, steps, _, _⟩ other
          have same := sameExports_of_closes steps
          have dropped : (after.dropExport id).wireRefs other =
              if other = id then 0 else after.wireRefs other := Conn.wireRefs_setExport after id none other
          rw [dropped, ← lowered, Conn.wireRefs_setExport]
          split
          · exact (Nat.eq_zero_of_not_pos zero).symm
          · rename_i different
            have kept : after.wireRefs other =
                (conn.setExport id (some { e with wireRefs := e.wireRefs - 1 })).wireRefs other := by
              unfold Conn.wireRefs Conn.findExport
              rw [same]
              rfl
            rw [kept, Conn.wireRefs_setExport, if_neg different]
        · rintro _ after ⟨_, steps, _, _⟩
          intro other
          have same := sameExports_of_closes steps
          rw [← lowered]
          unfold Conn.wireRefs Conn.findExport
          change ((find after.exports other).map _).getD 0 = _
          rw [same]
          rfl

theorem releaseExports_wireRefs (wellFormed : conn.WellFormed) (caps : List WireId) :
    Meets (caps.forM fun cap => releaseExport cap.id 1) conn
      (fun _ after => ∀ id, after.wireRefs id = conn.wireRefs id - (caps.map WireId.id).count id)
      fun error after => ∃ reached left, caps = reached ++ left ∧
        (reached.forM fun cap => releaseExport cap.id 1) conn = .error error after ∧
        ∀ id, after.wireRefs id = conn.wireRefs id - (reached.map WireId.id).count id := by
  induction caps generalizing conn with
  | nil => exact fun _ => rfl
  | cons cap caps ih =>
      have joined : ∀ (later : List WireId) id, ((cap :: later).map WireId.id).count id =
          [cap.id].count id + (later.map WireId.id).count id := by
        intro later id
        rw [← List.count_append]
        rfl
      have runs := @releaseExport_runs conn { returned := [cap] } cap 1 [] rfl rfl rfl wellFormed
      have turn := (releaseExport_wireRefs wellFormed cap.id).and runs
      unfold Meets at turn ⊢
      rw [List.forM_eq_forM, List.forM_cons, bind_apply]
      cases released : releaseExport cap.id 1 conn with
      | error error middle =>
          rw [released] at turn
          refine ⟨[cap], caps, rfl, ?_, turn.1⟩
          rw [List.forM_cons, bind_apply, released]
      | ok value middle =>
          rw [released] at turn
          obtain ⟨lowered, _, _, formed, _⟩ := turn
          apply (ih formed).mono
          · intro _ after rest id
            rw [rest, lowered, joined, Nat.sub_sub]
          · rintro error after ⟨reached, left, split_, ran, rest⟩
            refine ⟨cap :: reached, left, by rw [split_, List.cons_append], ?_, ?_⟩
            · rw [List.forM_cons, bind_apply, released]
              exact ran
            · intro id
              rw [rest, lowered, joined, Nat.sub_sub]

/-- Releasing references throws at no turn but the last. -/
def Conn.KeepsReleasing (conn : Conn) (caps : List WireId) : Prop :=
  ∀ reached left, caps = reached ++ left → left ≠ [] →
    Meets (reached.forM fun cap => releaseExport cap.id 1) conn (fun _ _ => True) fun _ _ => False

/-- The orders in which a Return and a Finish release what is recorded for a payload. -/
def releaseOrders (capTable : List CapDescriptor) : List (List WireId) :=
  [collectPayloadSenderHosted capTable, (collectPayloadSenderHosted capTable).reverse]

/-- The references recorded for a payload are those it took. -/
def Conn.Records (before : Conn) (capTable : List CapDescriptor) (after : Conn) : Prop :=
  ∀ id, after.wireRefs id = before.wireRefs id + ((collectPayloadSenderHosted capTable).map WireId.id).count id

/-- Giving the recorded references back restores the counts, also where the loop ends with an error. -/
def Conn.GivesBack (before : Conn) (capTable : List CapDescriptor) (after : Conn) : Prop :=
  before.Records capTable after ∧ ∀ order ∈ releaseOrders capTable,
    Meets (order.forM fun cap => releaseExport cap.id 1) after
      (fun _ last => ∀ id, last.wireRefs id = before.wireRefs id)
      fun _ last => ∀ id, last.wireRefs id = before.wireRefs id

theorem perm_of_mem_releaseOrders {capTable : List CapDescriptor} {order : List WireId}
    (member : order ∈ releaseOrders capTable) : order.Perm (collectPayloadSenderHosted capTable) := by
  rcases List.mem_cons.mp member with rfl | member
  · exact .refl _
  · rw [List.mem_singleton.mp member]
    exact List.reverse_perm _

theorem restores_iff {before after : Conn} (wellFormed : after.WellFormed) {capTable : List CapDescriptor}
    (recorded : before.Records capTable after) {order : List WireId} (member : order ∈ releaseOrders capTable) :
    Meets (order.forM fun cap => releaseExport cap.id 1) after
      (fun _ last => ∀ id, last.wireRefs id = before.wireRefs id)
      (fun _ last => ∀ id, last.wireRefs id = before.wireRefs id) ↔ after.KeepsReleasing order := by
  have counts : ∀ id, ((collectPayloadSenderHosted capTable).map WireId.id).count id =
      (order.map WireId.id).count id := fun id => ((perm_of_mem_releaseOrders member).map WireId.id).symm.count_eq id
  constructor
  · rintro restores reached left rfl some_
    have whole := restores
    have reaches := releaseExports_wireRefs wellFormed reached
    unfold Meets at whole reaches ⊢
    cases ran : (reached.forM fun cap => releaseExport cap.id 1) after with
    | ok value last => exact trivial
    | error error last =>
        rw [ran] at reaches
        rw [List.forM_eq_forM, List.forM_append, ← List.forM_eq_forM, bind_apply, ran] at whole
        obtain ⟨begun, rest, rfl, _, lowered⟩ := reaches
        obtain ⟨cap, left, rfl⟩ := List.exists_cons_of_ne_nil some_
        have same := (lowered cap.id).symm.trans (whole cap.id)
        have here := recorded cap.id
        rw [counts] at here
        simp only [List.map_append, List.count_append, List.map_cons, List.count_cons_self] at here same
        omega
  · intro keeps
    apply (releaseExports_wireRefs wellFormed order).mono
    · intro _ last lowered id
      rw [lowered, recorded, counts, Nat.add_sub_cancel]
    · rintro error last ⟨reached, left, rfl, ran, lowered⟩ id
      cases left with
      | cons cap left =>
          have fine := keeps reached (cap :: left) rfl (List.cons_ne_nil _ _)
          unfold Meets at fine
          rw [ran] at fine
          exact fine.elim
      | nil => rw [lowered, recorded, counts, List.append_nil, Nat.add_sub_cancel]

theorem payload_gives_back_iff (wellFormed : conn.WellFormed) (obj : Struct) {capTable : List CapDescriptor}
    {after : Conn} (encoded : makeCapTable (conn.copiedTable obj) conn = .ok capTable after) :
    conn.GivesBack capTable after ↔
      (∀ slot ∈ conn.copiedTable obj, conn.walkSlot slot ≠ .promised) ∧
        ∀ order ∈ releaseOrders capTable, after.KeepsReleasing order := by
  have made := wellFormed.copiedTable obj
  have run := (makeCapTable_walks wellFormed made).and (makeCapTable_runs {} made wellFormed)
  unfold Meets at run
  rw [encoded] at run
  obtain ⟨⟨walks, describes⟩, _, _, formed, _⟩ := run
  have kinds : (∀ slot ∈ conn.copiedTable obj, conn.walkSlot slot ≠ .promised) ↔
      ∀ descriptor ∈ capTable, descriptor.walk ≠ .promised := by
    have slots : (∀ walk ∈ conn.walks (conn.copiedTable obj), walk ≠ .promised) ↔
        ∀ slot ∈ conn.copiedTable obj, conn.walkSlot slot ≠ .promised := List.forall_mem_map
    rw [← slots, ← walks, List.forall_mem_map]
  rw [kinds]
  constructor
  · rintro ⟨recorded, restores⟩
    refine ⟨?_, fun order member => (restores_iff formed recorded member).mp (restores order member)⟩
    have same : (counted capTable).Perm ((collectPayloadSenderHosted capTable).map WireId.id) := by
      rw [List.perm_iff_count]
      intro id
      exact Nat.add_left_cancel ((describes.references id).symm.trans (recorded id))
    have lengths := same.length_eq
    rw [counted, List.length_map, List.length_map, hosted_length] at lengths
    have promised : capTable.filter (·.walk = .promised) = [] := List.eq_nil_of_length_eq_zero (by omega)
    intro descriptor member isPromise
    exact List.filter_eq_nil_iff.mp promised descriptor member (decide_eq_true isPromise)
  · rintro ⟨none_, keeps⟩
    have same : counted capTable = (collectPayloadSenderHosted capTable).map WireId.id := by
      rw [counted, hosted_eq_collected none_]
    have recorded : conn.Records capTable after := by
      intro id
      rw [describes.references, same]
    exact ⟨recorded, fun order member => (restores_iff formed recorded member).mpr (keeps order member)⟩

/-- A connection whose application has a server, and a message that mentions it twice. -/
def servedConn : Conn :=
  ((({ registry := fun _ => none } : Conn).withClient (.server [])).setCapTable 1 [some 0]).allocated

def servedParams : Struct := { content := { caps := [0, 7, 0], pointer := fun _ => .ok (.interface 2) }, message := 1 }

theorem servedConn_wellFormed : servedConn.WellFormed := by
  have served := (Conn.WellFormed.initial (fun _ => none) 64).withClient (c := .server [])
    (by simp [Client.references]) (by simp [Client.calls]) nofun
  refine (served.setCapTable 1 ?_).allocated
  intro client member
  cases List.mem_singleton.mp member
  exact Nat.zero_lt_one

theorem payload_gives_back_iff_server : ∃ after, makeCapTable (servedConn.copiedTable servedParams) servedConn =
    .ok [.senderHosted ⟨0, 2⟩, .senderHosted ⟨0, 2⟩] after ∧
      servedConn.GivesBack [.senderHosted ⟨0, 2⟩, .senderHosted ⟨0, 2⟩] after := by
  refine ⟨_, rfl, (payload_gives_back_iff servedConn_wellFormed servedParams (by rfl)).mpr ⟨?_, ?_⟩⟩
  · decide +kernel
  · intro order member reached left split_ some_
    have same : order = [⟨0, 2⟩, ⟨0, 2⟩] := by
      simpa [releaseOrders, collectPayloadSenderHosted, senderHosted] using member
    rw [same] at split_
    rcases reached with _ | ⟨first, _ | ⟨second, reached⟩⟩
    · exact trivial
    · cases (List.cons.inj split_).1
      exact trivial
    · exact absurd (List.append_eq_nil_iff.mp (List.cons.inj (List.cons.inj split_).2).2.symm).2 some_

/-- A message that mentions a pipeline on a question of another connection. -/
def foreignPipeline : List Input :=
  [.act .newForeignQuestion, .act (.newPipeline 0 []), .act (.newCapTable [some 1])]

theorem payload_not_always_gives_back :
    ¬ ∀ conn, Transition.Run Conn.step (fun _ _ _ => True) { registry := fun _ => none } conn →
      ∀ obj capTable after, makeCapTable (conn.copiedTable obj) conn = .ok capTable after →
        conn.GivesBack capTable after := by
  intro always
  have kept : ((Transition.Run.follow Conn.step { registry := fun _ => none } foreignPipeline).map fun conn =>
      match makeCapTable (conn.copiedTable { content := .interface, message := 2 }) conn with
      | .ok capTable after => decide (after.wireRefs 0 = 1 ∧ conn.wireRefs 0 = 0 ∧
          (collectPayloadSenderHosted capTable).length = 0)
      | .error _ _ => false) = some true := by
    decide +kernel
  obtain ⟨conn, followed, kept⟩ := Option.map_eq_some_iff.mp kept
  split at kept
  · rename_i capTable after encoded
    obtain ⟨raised, before, empty⟩ := of_decide_eq_true kept
    have recorded := (always conn (.of_follow .start followed) _ capTable after encoded).1 0
    rw [raised, before, List.eq_nil_of_length_eq_zero empty] at recorded
    cases recorded
  · cases kept

end CapnpEs.Rpc
