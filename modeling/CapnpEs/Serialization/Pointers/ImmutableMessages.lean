import CapnpEs.Serialization.Framing
import CapnpEs.Serialization.Pointers.ReadOnlyMessages

/-! A read-only message is immutable: also the calls that give a message more room leave the segments it has. -/

namespace CapnpEs

open Outcome

/-- An operation, or one of the calls behind the operations. `copied` is the message that `copy` makes. -/
inductive MessageCall
  | operation (inner : Operation)
  | allocateSegment (target : Nat) (byteLength : Int)
  | copy (copied target : Nat)
  | toArrayBuffer (target : Nat)
  | toPackedArrayBuffer (target : Nat)
  | initStruct (size : ObjectSize) (s : Pointer)
  | initListAt (elementSize : ListElementSize) (length : Int) (compositeSize : Option ObjectSize) (l : Pointer)
  | textGet (index : Nat) (t : Pointer)
  | dataGet (byteOffset : Int) (d : Pointer)
  | dataSet (byteOffset value : Int) (d : Pointer)
  | listGet (list : ListClass) (l : Pointer) (index : Int)
  | compositeListGet (l : Pointer) (index : Nat)
  | pointerListGet (l : Pointer) (index : Int)
  | pointerListSet (l : Pointer) (index : Int) (value : Pointer)
  | textListGet (l : Pointer) (index : Int)
  | textListSet (l : Pointer) (index : Int) (value : String)

section calls

variable (nullMessage : Nat) (native : Bool) (encode : String → Bytes) (decode : Bytes → String)

namespace MessageCall

def copyTo (copied target : Nat) : WorldM PUnit := do
  let w ← get
  let message ← ofExcept (w target).copy
  set (Function.update w copied message)

def left {α : Type} (program : WorldM α) (w : World) : World := (outcome program w).2

/-- The world that a call leaves behind, whether it returns or throws. The null message is a bare object: it has no
arena to allocate from. -/
def after : MessageCall → World → World
  | operation inner => inner.after nullMessage native encode decode
  | allocateSegment target byteLength => fun w =>
      if target = nullMessage then w else left (onMessage target (Message.allocateSegment byteLength)) w
  | copy copied target => left (copyTo copied target)
  | toArrayBuffer target => left (onMessage target Message.toArrayBuffer)
  | toPackedArrayBuffer target => left (onMessage target Message.toPackedArrayBuffer)
  | initStruct size s => left (Pointer.initStruct size s)
  | initListAt elementSize length compositeSize l => left (Pointer.initList elementSize length l compositeSize)
  | textGet index t => left (Text.get decode index t)
  | dataGet byteOffset d => left (Data.get byteOffset d)
  | dataSet byteOffset value d => left (Data.set byteOffset value d)
  | listGet list l index => left (list.get l index)
  | compositeListGet l index => left (CompositeList.get l index)
  | pointerListGet l index => left (PointerList.get l index)
  | pointerListSet l index value => left (PointerList.set l index value)
  | textListGet l index => left (TextList.get decode l index)
  | textListSet l index value => left (TextList.set encode l index value)

def makes : MessageCall → List Nat
  | operation inner => inner.makes
  | copy copied _ => [copied]
  | _ => []

end MessageCall

end calls

/-! What the calls are made of. -/

section uses

variable {nullMessage message : Nat} (encode : String → Bytes) (decode : Bytes → String) (l : Pointer)

theorem Data.get_uses (byteOffset : Int) : Uses (fun _ => True) (Data.get byteOffset l) :=
  Built.bind (l.getContent_uses false) fun c => segmentGet_uses c _ _ _

theorem Data.set_uses (byteOffset value : Int) : Uses (fun _ => True) (Data.set byteOffset value l) :=
  Built.bind (l.getContent_uses false) fun c => segmentSet_uses c _ _ _

theorem PointerList.get_uses (index : Int) : Uses (fun _ => True) (PointerList.get l index) :=
  Built.bind (l.getContent_uses false) fun _ => newPointer_uses _ _ _ _

theorem PointerList.set_uses (index : Int) (value : Pointer) : Uses (fun _ => True) (PointerList.set l index value) :=
  Built.bind (PointerList.get_uses l index) fun p => copyFrom_uses value p

theorem TextList.get_uses (index : Int) : Uses (fun _ => True) (TextList.get decode l index) := by
  apply Built.bind (l.getContent_uses false)
  intro c
  exact Built.bind (Text.fromPointer_uses _) fun t => Text.get_uses decode t 0

theorem TextList.set_calls (index : Int) (value : String) :
    Calls nullMessage message (TextList.set encode l index value) := by
  apply Built.bind (calls_of_uses (l.getContent_uses false))
  intro c
  exact Built.bind (calls_of_uses (Text.fromPointer_uses _)) fun t => Built.basic (.text encode 0 value t)

end uses

namespace World

variable {nullMessage message : Nat} {w w' : World}

/-- A read-only message; the null message is still as it was made. -/
structure Frozen (nullMessage message : Nat) (w : World) : Prop where
  readonly : (w message).readonly = true
  null : message = nullMessage → (w message).segments = readOnlyNullMessage.segments

def Freezes (nullMessage message : Nat) (w w' : World) : Prop :=
  w.Frozen nullMessage message → w'.Frozen nullMessage message ∧ (w message).segments <+: (w' message).segments

instance (nullMessage message : Nat) : IsPreorder World (Freezes nullMessage message) where
  refl _ frozen := ⟨frozen, List.prefix_rfl⟩
  trans _ _ _ := by
    intro sooner later frozen
    obtain ⟨still, kept⟩ := sooner frozen
    obtain ⟨last, again⟩ := later still
    exact ⟨last, kept.trans again⟩

theorem Stays.freezes (stays : w.Stays message w') : w.Freezes nullMessage message w' := by
  intro frozen
  refine ⟨⟨(stays frozen.readonly).1, ?_⟩, (Message.Stays.keeps stays frozen.readonly).2⟩
  intro shared
  have first := frozen.null shared
  have some : (w message).segments ≠ [] := by
    rw [first]
    exact List.cons_ne_nil _ _
  exact ((stays frozen.readonly).2 some).trans first

theorem Freezes.elsewhere {other : Nat} (apart : message ≠ other) (w : World) (m : Message) :
    w.Freezes nullMessage message (Function.update w other m) :=
  (Stays.elsewhere apart w m).freezes

end World

section freezes

variable {nullMessage message : Nat} {α : Type}

theorem freezes_of_stays {program : WorldM α} (stays : Moves (World.Stays message) program) :
    Moves (World.Freezes nullMessage message) program := fun w =>
  (stays w).mono (fun _ _ stays => stays.freezes) fun _ _ stays => stays.freezes

theorem onMessage_freezes {target : Nat} {run : MessageM α} (keeps : Moves Message.Keeps run)
    (apart : target ≠ nullMessage) : Moves (World.Freezes nullMessage message) (onMessage target run) := by
  by_cases here : message = target
  · subst here
    intro w
    have freezes {m : Message} (kept : (w message).Keeps m) :
        w.Freezes nullMessage message (Function.update w message m) := by
      intro frozen
      obtain ⟨readonly, same⟩ := kept frozen.readonly
      rw [Function.update_self]
      exact ⟨⟨by rw [Function.update_self]; exact readonly, fun shared => absurd shared apart⟩, same⟩
    have kept := keeps (w message)
    unfold Meets onMessage at *
    cases ran : run (w message) with
    | ok value m =>
        rw [ran] at kept
        exact freezes kept
    | error reason m =>
        rw [ran] at kept
        exact freezes kept
  · exact freezes_of_stays (onMessage_elsewhere here run)

theorem Primitive.freezes {program : WorldM α} (primitive : Primitive nullMessage message α program) :
    Moves (World.Freezes nullMessage message) program := by
  cases primitive with
  | accessor accessor => exact freezes_of_stays accessor.stays
  | null =>
      apply Moves.modify
      intro w frozen
      by_cases shared : message = nullMessage
      · subst shared
        have same := frozen.null rfl
        rw [Function.update_self]
        refine ⟨⟨?_, fun _ => ?_⟩, same ▸ List.prefix_rfl⟩
        · rw [Function.update_self]
          rfl
        · rw [Function.update_self]
      · exact World.Freezes.elsewhere shared w _ frozen
  | copy new src =>
      intro w
      change Meets (ofExcept (w src.message).copy >>= _) w _ _
      cases (w src.message).copy with
      | error reason => exact refl_of (World.Freezes nullMessage message) w
      | ok m => exact World.Freezes.elsewhere new w _
  | text encode index value t => exact freezes_of_stays (Text.set_stays encode t index value)
  | buffer src d => exact freezes_of_stays (Data.copyBuffer_stays src d)

theorem ensureFirstSegment_stays : Moves Message.Stays Message.ensureFirstSegment := by
  intro m
  unfold Message.ensureFirstSegment
  apply Meets.get
  split
  · exact Moves.bind (Message.getSegment_stays 0) (fun _ => Moves.pure _) m
  · exact Message.Stays.refl m

theorem toArrayBuffer_stays : Moves Message.Stays Message.toArrayBuffer := by
  intro m
  unfold Message.toArrayBuffer
  apply Meets.get
  apply Moves.bind (moves_ofExcept _) _ m
  intro streamFrame
  apply Moves.bind ensureFirstSegment_stays
  intro _ first
  exact moves_ofExcept _ first

theorem toPackedArrayBuffer_stays : Moves Message.Stays Message.toPackedArrayBuffer := by
  intro m
  unfold Message.toPackedArrayBuffer
  apply Meets.get
  apply Moves.bind (moves_ofExcept _) _ m
  intro streamFrame
  apply Moves.bind ensureFirstSegment_stays
  intro _ first
  apply Meets.get
  exact Moves.bind (moves_ofExcept _) (fun _ => Moves.pure _) first

variable {native : Bool} {encode : String → Bytes} {decode : Bytes → String}

theorem MessageCall.after_freezes (call : MessageCall) (new : message ∉ call.makes) (w : World) :
    w.Freezes nullMessage message (call.after nullMessage native encode decode w) := by
  have left_freezes {α : Type} {program : WorldM α} (calls : Calls nullMessage message program) :
      w.Freezes nullMessage message (left program w) :=
    outcome_moves (calls.moves Primitive.freezes) w
  have stays_freezes {α : Type} {target : Nat} {run : MessageM α} (stays : Moves Message.Stays run) :
      w.Freezes nullMessage message (left (onMessage target run) w) :=
    outcome_moves (freezes_of_stays (onMessage_stays target stays)) w
  cases call with
  | operation inner =>
      rcases inner.call_built new w with refused | ⟨α, program, calls, called⟩
      · rw [after, Operation.after, refused]
        exact refl_of (World.Freezes nullMessage message) w
      · rw [after, Operation.after, called]
        exact left_freezes calls
  | allocateSegment target byteLength =>
      rw [after]
      dsimp only
      split
      · exact refl_of (World.Freezes nullMessage message) w
      · rename_i apart
        exact outcome_moves (onMessage_freezes (Message.allocateSegment_keeps byteLength) apart) w
  | copy copied target =>
      have apart : message ≠ copied := List.ne_of_not_mem_cons new
      have copies : Moves (World.Freezes nullMessage message) (copyTo copied target) := by
        intro w
        change Meets (ofExcept (w target).copy >>= _) w _ _
        cases (w target).copy with
        | error reason => exact refl_of (World.Freezes nullMessage message) w
        | ok m => exact World.Freezes.elsewhere apart w m
      exact outcome_moves copies w
  | toArrayBuffer target => exact stays_freezes toArrayBuffer_stays
  | toPackedArrayBuffer target => exact stays_freezes toPackedArrayBuffer_stays
  | initStruct size s => exact left_freezes (calls_of_uses (s.initStruct_uses size))
  | initListAt elementSize length compositeSize l => exact left_freezes (calls_of_uses (l.initList_uses _ _ _))
  | textGet index t => exact left_freezes (calls_of_uses (Text.get_uses decode t index))
  | dataGet byteOffset d => exact left_freezes (calls_of_uses (Data.get_uses d byteOffset))
  | dataSet byteOffset value d => exact left_freezes (calls_of_uses (Data.set_uses d byteOffset value))
  | listGet list l index => exact left_freezes (calls_of_uses (list.get_uses l index))
  | compositeListGet l index => exact left_freezes (calls_of_uses (CompositeList.get_uses l index))
  | pointerListGet l index => exact left_freezes (calls_of_uses (PointerList.get_uses l index))
  | pointerListSet l index value => exact left_freezes (calls_of_uses (PointerList.set_uses l index value))
  | textListGet l index => exact left_freezes (calls_of_uses (TextList.get_uses decode l index))
  | textListSet l index value => exact left_freezes (TextList.set_calls encode l index value)

/-- Whatever is called, and however it ends: a read-only message keeps every segment that it has, with all its bytes
and its length. -/
theorem readonly_message_immutable (calls : List MessageCall) {w : World} (new : ∀ call ∈ calls, message ∉ call.makes)
    (frozen : w.Frozen nullMessage message) {id : Nat} {segment : Segment}
    (found : (w message).segments[id]? = some segment) :
    ((calls.foldl (fun w call => call.after nullMessage native encode decode w) w) message).segments[id]? =
      some segment := by
  have freezes : w.Freezes nullMessage message
      (calls.foldl (fun w call => call.after nullMessage native encode decode w) w) := by
    clear frozen found
    induction calls generalizing w with
    | nil => exact refl_of (World.Freezes nullMessage message) w
    | cons call calls ih =>
        have first : w.Freezes nullMessage message (call.after nullMessage native encode decode w) :=
          call.after_freezes (new call List.mem_cons_self) w
        exact trans_of (World.Freezes nullMessage message) first
          (ih fun other member => new other (List.mem_cons_of_mem _ member))
  obtain ⟨rest, longer⟩ := (freezes frozen).2
  have inside := (List.getElem?_eq_some_iff.mp found).1
  rw [← longer, List.getElem?_append_left inside]
  exact found

/-- A root struct with one field, the text "hi", and a second segment. -/
def hiSegment : Segment :=
  { buffer := [0, 0, 0, 0, 0, 0, 1, 0, 1, 0, 0, 0, 26, 0, 0, 0, 104, 105, 0, 0, 0, 0, 0, 0]
    byteLength := 24 }

def hiMessage : Message :=
  { arena := { kind := .MULTI_SEGMENT, buffers := [] }
    segments := [hiSegment, { buffer := List.replicate 8 0, byteLength := 8 }]
    traversalLimit := DEFAULT_TRAVERSE_LIMIT
    readonly := true
    capTable := none }

def hiWorld : World := fun message => if message = 3 then readOnlyNullMessage else { hiMessage with readonly := message = 0 }

def hiCalls : List MessageCall :=
  let root (message : Nat) : Pointer := { message, segment := 0, byteOffset := 0, depthLimit := 8 }
  let text (message : Nat) : Pointer := { message, segment := 0, byteOffset := 8, depthLimit := 7 }
  [.operation (.getRoot 0 ⟨8, 2⟩), .operation (.getText 0 (root 0) none), .operation (.setText 0 "ho" (root 0)),
    .operation (.getStruct 5 1 ⟨8, 1⟩ (root 0) (some (root 1))), .operation (.copyFrom (root 1) (root 0)),
    .operation (.erase (root 0)), .operation (.disown (text 0)), .operation (.setTextAt 1 "a" (text 0)),
    .operation (.copyBuffer (.arrayBuffer [1, 2]) (text 0)), .dataSet 0 7 (text 0), .initStruct ⟨8, 1⟩ (root 0),
    .textListSet (text 0) 0 "x", .operation (.copyFrom (root 0) (root 1)), .operation (.setText 0 "ho" (root 1)),
    .allocateSegment 0 64, .toArrayBuffer 0, .copy 6 0]

/-- The message gets a third segment, and its copy in another message is written to. -/
theorem readonly_message_immutable_hi :
    let after := hiCalls.foldl (fun w call => call.after 3 true (fun _ => [104, 111]) (fun _ => "") w) hiWorld
    (after 0).segments[0]? = some hiSegment ∧ (after 0).segments.length = 3 ∧ (after 1).segments[0]? ≠ some hiSegment := by
  refine ⟨?_, by decide +kernel, by decide +kernel⟩
  apply readonly_message_immutable hiCalls _ ⟨rfl, fun shared => absurd shared (by decide)⟩ rfl
  decide

end freezes

end CapnpEs
