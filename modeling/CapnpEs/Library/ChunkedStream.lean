import Mathlib.Data.List.Basic

/-! Cutting a stream that arrives in chunks into frames. A framing says where the first frame of a buffer ends
as soon as the buffer holds all of it, and never says anything else when more follows. -/

structure Framing (α ε : Type) where
  first : List α → Except ε (Option Nat)
  positive : ∀ {buffer size}, first buffer = .ok (some size) → 0 < size
  inside : ∀ {buffer size}, first buffer = .ok (some size) → size ≤ buffer.length
  stable : ∀ {buffer size} more, first buffer = .ok (some size) → first (buffer ++ more) = .ok (some size)
  stable_error : ∀ {buffer error} more, first buffer = .error error → first (buffer ++ more) = .error error

namespace Framing

variable {α ε : Type} (framing : Framing α ε)

/-- What is left of a buffer when its complete frames are taken off. -/
structure Taken (α ε : Type) where
  frames : List (List α)
  pending : List α
  error : Option ε

def Taken.cons (frame : List α) (taken : Taken α ε) : Taken α ε :=
  { taken with frames := frame :: taken.frames }

def takeFrames (buffer : List α) : Taken α ε :=
  match _found : framing.first buffer with
  | .error error => ⟨[], buffer, some error⟩
  | .ok none => ⟨[], buffer, none⟩
  | .ok (some size) => (takeFrames (buffer.drop size)).cons (buffer.take size)
termination_by buffer.length
decreasing_by
  have positive := framing.positive _found
  have inside := framing.inside _found
  rw [List.length_drop]
  omega

variable {framing}

theorem takeFrames_of_error {buffer : List α} {error : ε} (found : framing.first buffer = .error error) :
    framing.takeFrames buffer = ⟨[], buffer, some error⟩ := by
  unfold takeFrames
  split
  · rename_i error' found'
    rw [found] at found'
    cases found'
    rfl
  · rename_i found'
    rw [found] at found'
    cases found'
  · rename_i size found'
    rw [found] at found'
    cases found'

theorem takeFrames_of_none {buffer : List α} (found : framing.first buffer = .ok none) :
    framing.takeFrames buffer = ⟨[], buffer, none⟩ := by
  unfold takeFrames
  split
  · rename_i error found'
    rw [found] at found'
    cases found'
  · rfl
  · rename_i size found'
    rw [found] at found'
    cases found'

theorem takeFrames_of_some {buffer : List α} {size : Nat} (found : framing.first buffer = .ok (some size)) :
    framing.takeFrames buffer = (framing.takeFrames (buffer.drop size)).cons (buffer.take size) := by
  conv => lhs; unfold takeFrames
  split
  · rename_i error found'
    rw [found] at found'
    cases found'
  · rename_i found'
    rw [found] at found'
    cases found'
  · rename_i size' found'
    rw [found] at found'
    cases found'
    rfl

theorem takeFrames_append {frame : List α} (whole : framing.first frame = .ok (some frame.length))
    (more : List α) : framing.takeFrames (frame ++ more) = (framing.takeFrames more).cons frame := by
  rw [takeFrames_of_some (framing.stable more whole), List.drop_left, List.take_left]

theorem takeFrames_partial {part r : List α} (more : r ≠ [])
    (whole : framing.first (part ++ r) = .ok none ∨
      framing.first (part ++ r) = .ok (some (part ++ r).length)) :
    framing.takeFrames part = ⟨[], part, none⟩ := by
  apply takeFrames_of_none
  cases found : framing.first part with
  | error error =>
      have later := framing.stable_error r found
      rw [later] at whole
      rcases whole with impossible | impossible
      · cases impossible
      · cases impossible
  | ok size =>
      cases size with
      | none => rfl
      | some size =>
          have later := framing.stable r found
          have inside := framing.inside found
          have left := List.length_pos_iff.mpr more
          rw [later] at whole
          rcases whole with impossible | same
          · cases impossible
          · simp only [Except.ok.injEq, Option.some.injEq, List.length_append] at same
            omega

theorem takeFrames_whole {buffer : List α} : ∀ frame ∈ (framing.takeFrames buffer).frames,
    ∃ more, framing.first (frame ++ more) = .ok (some frame.length) := by
  induction buffer using takeFrames.induct framing with
  | case1 buffer error found => simp [takeFrames_of_error found]
  | case2 buffer found => simp [takeFrames_of_none found]
  | case3 buffer size found ih =>
      rw [takeFrames_of_some found]
      intro frame member
      rcases List.mem_cons.mp member with same | later
      · subst same
        refine ⟨buffer.drop size, ?_⟩
        rw [List.take_append_drop, found, List.length_take, Nat.min_eq_left (framing.inside found)]
      · exact ih frame later

theorem takeFrames_more (buffer more : List α) (fine : (framing.takeFrames buffer).error = none) :
    framing.takeFrames (buffer ++ more) =
      { framing.takeFrames ((framing.takeFrames buffer).pending ++ more) with
        frames := (framing.takeFrames buffer).frames ++
          (framing.takeFrames ((framing.takeFrames buffer).pending ++ more)).frames } := by
  induction buffer using takeFrames.induct framing with
  | case1 buffer error found =>
      rw [takeFrames_of_error found] at fine
      cases fine
  | case2 buffer found => simp [takeFrames_of_none found]
  | case3 buffer size found ih =>
      rw [takeFrames_of_some found] at fine ⊢
      have inside := framing.inside found
      rw [takeFrames_of_some (framing.stable more found), List.drop_append_of_le_length inside,
        List.take_append_of_le_length inside, ih fine]
      rfl

/-- A reader that keeps what is not complete, and is given one chunk after the other. -/
inductive Feeds (framing : Framing α ε) : List α → List (List α) → List (List (List α)) → Prop
  | nil (pending : List α) : Feeds framing pending [] []
  | cons {pending chunk : List α} {chunks : List (List α)} {emitted : List (List (List α))}
      (fine : (framing.takeFrames (pending ++ chunk)).error = none)
      (rest : Feeds framing (framing.takeFrames (pending ++ chunk)).pending chunks emitted) :
      Feeds framing pending (chunk :: chunks) ((framing.takeFrames (pending ++ chunk)).frames :: emitted)

theorem Feeds.length {pending : List α} {chunks : List (List α)} {emitted : List (List (List α))}
    (feeds : framing.Feeds pending chunks emitted) : emitted.length = chunks.length := by
  induction feeds with
  | nil pending => rfl
  | cons fine rest ih => simp [ih]

theorem Feeds.take {pending : List α} {chunks : List (List α)} {emitted : List (List (List α))}
    (feeds : framing.Feeds pending chunks emitted) (idle : framing.takeFrames pending = ⟨[], pending, none⟩)
    (count : Nat) : (emitted.take count).flatten =
      (framing.takeFrames (pending ++ (chunks.take count).flatten)).frames := by
  induction feeds generalizing count with
  | nil pending => simp [idle]
  | @cons pending chunk chunks emitted fine rest ih =>
      cases count with
      | zero => simp [idle]
      | succ count =>
          have settled : framing.takeFrames (framing.takeFrames (pending ++ chunk)).pending =
              ⟨[], (framing.takeFrames (pending ++ chunk)).pending, none⟩ := by
            have same := takeFrames_more (pending ++ chunk) [] fine
            simp only [List.append_nil] at same
            have frames := congrArg Taken.frames same
            have left := congrArg Taken.pending same
            have error := congrArg Taken.error same
            simp only [List.self_eq_append_right] at frames left error
            cases shape : framing.takeFrames (framing.takeFrames (pending ++ chunk)).pending with
            | mk frames' pending' error' =>
                rw [shape] at frames left error
                simp only at frames left error
                rw [frames, ← left, ← error, fine]
          have whole := takeFrames_more (pending ++ chunk) (chunks.take count).flatten fine
          simp only [List.take_succ_cons, List.flatten_cons]
          rw [ih settled, ← List.append_assoc, whole]

theorem fine_of_append {buffer more : List α} (fine : (framing.takeFrames (buffer ++ more)).error = none) :
    (framing.takeFrames buffer).error = none := by
  induction buffer using takeFrames.induct framing with
  | case1 buffer error found =>
      rw [takeFrames_of_error (framing.stable_error more found)] at fine
      cases fine
  | case2 buffer found => rw [takeFrames_of_none found]
  | case3 buffer size found ih =>
      rw [takeFrames_of_some found]
      have inside := framing.inside found
      rw [takeFrames_of_some (framing.stable more found), List.drop_append_of_le_length inside] at fine
      exact ih fine

theorem exists_feeds {pending : List α} (chunks : List (List α))
    (fine : (framing.takeFrames (pending ++ chunks.flatten)).error = none) :
    ∃ emitted, framing.Feeds pending chunks emitted := by
  induction chunks generalizing pending with
  | nil => exact ⟨[], .nil pending⟩
  | cons chunk chunks ih =>
      rw [List.flatten_cons, ← List.append_assoc] at fine
      have first := fine_of_append fine
      rw [takeFrames_more _ _ first] at fine
      obtain ⟨emitted, rest⟩ := ih fine
      exact ⟨_, .cons first rest⟩

/-- The frames of a list whose last byte is among the first `count` bytes. -/
def completeWithin : List (List α) → Nat → List (List α)
  | [], _ => []
  | frame :: frames, count =>
      if frame.length ≤ count then frame :: completeWithin frames (count - frame.length) else []

theorem completeWithin_all (frames : List (List α)) {count : Nat} (enough : frames.flatten.length ≤ count) :
    completeWithin frames count = frames := by
  induction frames generalizing count with
  | nil => rfl
  | cons frame frames ih =>
      rw [List.flatten_cons, List.length_append] at enough
      rw [completeWithin, if_pos (by omega), ih (by omega)]

theorem takeFrames_take {frames : List (List α)} {tail last : List α}
    (whole : ∀ frame ∈ frames, framing.first frame = .ok (some frame.length))
    (more : last ≠ []) (unfinished : framing.first (tail ++ last) = .ok none ∨
      framing.first (tail ++ last) = .ok (some (tail ++ last).length)) (count : Nat) :
    (framing.takeFrames ((frames.flatten ++ tail).take count)).frames = completeWithin frames count ∧
      (framing.takeFrames ((frames.flatten ++ tail).take count)).error = none := by
  induction frames generalizing count with
  | nil =>
      have nothing : framing.takeFrames (tail.take count) = ⟨[], tail.take count, none⟩ := by
        apply takeFrames_partial (r := tail.drop count ++ last)
        · intro empty
          exact more (List.append_eq_nil_iff.mp empty).2
        · rw [← List.append_assoc, List.take_append_drop]
          exact unfinished
      simp [nothing, completeWithin]
  | cons frame frames ih =>
      have first := whole frame (by simp)
      rw [List.flatten_cons, List.append_assoc, completeWithin]
      by_cases complete : frame.length ≤ count
      · obtain ⟨sameFrames, fine⟩ := ih (fun other member => whole other (by simp [member])) (count - frame.length)
        rw [if_pos complete, List.take_append, List.take_of_length_le complete, takeFrames_append first]
        exact ⟨congrArg (frame :: ·) sameFrames, fine⟩
      · have nothing : framing.takeFrames (frame.take count) = ⟨[], frame.take count, none⟩ := by
          apply takeFrames_partial (r := frame.drop count)
          · intro empty
            exact complete (List.drop_eq_nil_iff.mp empty)
          · rw [List.take_append_drop]
            exact Or.inr first
        rw [if_neg complete, List.take_append_of_le_length (by omega), nothing]
        exact ⟨rfl, rfl⟩

end Framing
