import CapnpEs.Serialization.Pointers.DataBuffers
import CapnpEs.Serialization.Pointers.PrimitiveLists

/-! `fill` and `copyWithin` of `list.ts`, against the methods of arrays. -/

namespace CapnpEs

/-! The methods of arrays. -/

namespace ArrayMethods

variable {α : Type}

/-- A relative index counts from the end if it is negative, and is cut to the array. -/
def relativeIndex (length : Nat) (index : Option Int) (omitted : Nat) : Nat :=
  match index with
  | none => omitted
  | some index => if index < 0 then (length + index).toNat else min index.toNat length

def InFill (length : Nat) (start final : Option Int) (j : Nat) : Prop :=
  relativeIndex length start 0 ≤ j ∧ j < relativeIndex length final length

instance (length : Nat) (start final : Option Int) (j : Nat) : Decidable (InFill length start final j) :=
  inferInstanceAs (Decidable (_ ∧ _))

def fill (values : List α) (value : α) (start final : Option Int) : List α :=
  values.mapIdx fun j old => if InFill values.length start final j then value else old

/-- Where `copyWithin` takes an element from: overlapping ranges are copied from the side that keeps them. -/
def copySource (length : Nat) (target start final : Option Int) (j : Nat) : Nat :=
  let place := relativeIndex length target 0
  let first := relativeIndex length start 0
  let count := min (relativeIndex length final length - first) (length - place)
  if place ≤ j ∧ j < place + count then first + (j - place) else j

def copyWithin (values : List α) (target start final : Option Int) : List α :=
  values.mapIdx fun j old => values.getD (copySource values.length target start final j) old

theorem relativeIndex_le {length omitted : Nat} (index : Option Int) (small : omitted ≤ length) :
    relativeIndex length index omitted ≤ length := by
  unfold relativeIndex
  split
  · exact small
  · split <;> omega

theorem copySource_lt {length j : Nat} (target start final : Option Int) (below : j < length) :
    copySource length target start final j < length := by
  have last := relativeIndex_le final (Nat.le_refl length)
  simp only [copySource]
  split <;> omega

end ArrayMethods

inductive InPlace (α : Type)
  | fill (value : α) (start final : Option Int)
  | copyWithin (target start final : Option Int)

def InPlace.onArray {α : Type} (values : List α) : InPlace α → List α
  | fill value start final => ArrayMethods.fill values value start final
  | copyWithin target start final => ArrayMethods.copyWithin values target start final

namespace ListClass

variable {list : ListClass} {l : Pointer} {w start : World} {index : Nat} {b : Int}

def run (list : ListClass) (l : Pointer) : InPlace list.Value → WorldM Unit
  | .fill value start final => list.fill l value start final
  | .copyWithin target start final => list.copyWithin l target start final

def IsBitOfList (list : ListClass) (l : Pointer) (w : World) (message segment place : Nat) : Prop :=
  message = l.message ∧ segment = (l.content w).segment ∧ 8 * (l.content w).byteOffset ≤ place ∧
    (place : Int) < 8 * (l.content w).byteOffset + list.bitWidth * l.listLength w

/-- What the documentation promises of a list: it changes as its array does, and nothing else changes. -/
def FollowsArray (list : ListClass) (l : Pointer) (op : InPlace list.Value) (w : World) : Prop :=
  ∃ values seen after later, list.toArray l w = .ok values seen ∧ list.run l op seen = .ok () after ∧
    list.toArray l after = .ok (op.onArray values) later ∧
    ∀ message segment place, ¬list.IsBitOfList l w message segment place →
      after.bit message segment place = w.bit message segment place

/-! A list in the middle of a loop. -/

/-- The list of `start`, with these elements and nothing else changed, and so much of the traversal limit left. -/
structure Leaves (list : ListClass) (l : Pointer) (start : World) (elements : Nat → Option list.Value) (b : Int)
    (w : World) : Prop where
  holds : l.IsPrimitiveList list w
  wf : (w l.message).WellFormed
  writable : (w l.message).readonly = false
  budget : b < (w l.message).traversalLimit
  content : l.content w = l.content start
  length : l.listLength w = l.listLength start
  element : ∀ place, list.element l w place = elements place
  bits : ∀ message segment place, ¬list.IsBitOfList l start message segment place →
    w.bit message segment place = start.bit message segment place

theorem bit_spend (message count other segment place : Nat) :
    (w.spend message count).bit other segment place = w.bit other segment place := by
  rw [World.bit, World.bit, World.spend_memory]

namespace Leaves

variable {elements : Nat → Option list.Value}

theorem begin (holds : l.IsPrimitiveList list w) (wf : (w l.message).WellFormed)
    (writable : (w l.message).readonly = false) (budget : b < (w l.message).traversalLimit) :
    Leaves list l w (list.element l w) b w :=
  ⟨holds, wf, writable, budget, rfl, rfl, fun _ => rfl, fun _ _ _ _ => rfl⟩

variable (leaves : Leaves list l start elements b w)
include leaves

theorem weaken {less : Int} (le : less ≤ b) : Leaves list l start elements less w :=
  { leaves with budget := by have budget := leaves.budget; omega }

theorem congr {others : Nat → Option list.Value} (same : ∀ place, elements place = others place) :
    Leaves list l start others b w :=
  { leaves with element := fun place => (leaves.element place).trans (same place) }

theorem spend (count : Nat) {less : Int} (cost : less + 8 * count ≤ b) :
    Leaves list l start elements less (w.spend l.message count) := by
  have budget := leaves.budget
  have like := spend_like leaves.wf count (l.path w)
  obtain ⟨kept, content, length⟩ := IsPrimitiveList.kept leaves.holds like
  refine ⟨kept, like.wellFormed, like.readonly.trans leaves.writable, ?_, content.trans leaves.content,
    length.trans leaves.length, ?_, ?_⟩
  · rw [World.spend_traversalLimit]
    omega
  · intro place
    rw [element_spend, leaves.element]
  · intro message segment place outside
    rw [bit_spend]
    exact leaves.bits message segment place outside

theorem length_run (enough : 8 ≤ b) : ∃ after, l.getTargetListLength w = .ok (l.listLength start) after ∧
    Leaves list l start elements (b - 8) after := by
  obtain ⟨count, le, run⟩ := leaves.holds.getTargetListLength_reads leaves.wf (by have budget := leaves.budget; omega)
  rw [leaves.length] at run
  exact ⟨_, run, leaves.spend _ (by omega)⟩

theorem atIndex_run (enough : 32 ≤ b) (index : Nat) : ∃ after,
    list.atIndex l index w = orRangeError (elements (list.place index)) after ∧
    Leaves list l start elements (b - 32) after := by
  obtain ⟨count, le, run⟩ := get_cases leaves.holds.toIsSimpleList leaves.wf (by have budget := leaves.budget; omega) index
  rw [leaves.element] at run
  refine ⟨_, ?_, leaves.spend count (by omega)⟩
  rw [atIndex, if_neg (by omega)]
  exact run

theorem set_run (enough : 32 ≤ b) (below : (index : Int) < l.listLength start) (value : list.Value) :
    ∃ after, list.set l index value w = .ok () after ∧
      Leaves list l start (Function.update elements index (some (list.stored value))) (b - 32) after := by
  obtain ⟨after, run, set⟩ := set_at leaves.holds leaves.wf leaves.writable (by have budget := leaves.budget; omega)
    (leaves.length ▸ below) value
  obtain ⟨kept, content, length⟩ := IsPrimitiveList.kept leaves.holds set.like
  have budget := leaves.budget
  have spent := set.budget
  refine ⟨after, run, kept, set.like.wellFormed, set.like.readonly.trans leaves.writable, by omega,
    content.trans leaves.content, length.trans leaves.length, ?_, ?_⟩
  · intro place
    rw [set.element, leaves.element, Function.update_apply]
  · intro message segment place outside
    rw [set.bits message segment place, leaves.bits message segment place outside]
    rintro ⟨same, here, above, before⟩
    rw [leaves.content] at here above before
    refine outside ⟨same, here, ?_, ?_⟩
    · have positive := Int.mul_nonneg (Int.natCast_nonneg list.bitWidth) (Int.natCast_nonneg index)
      omega
    · have next : (index : Int) + 1 ≤ l.listLength start := by omega
      have scaled := Int.mul_le_mul_of_nonneg_left next (Int.natCast_nonneg list.bitWidth)
      omega

theorem isSome {index : Nat} (below : (index : Int) < l.listLength start) : (elements index).isSome := by
  rw [← leaves.element]
  exact element_isSome leaves.holds leaves.wf (leaves.length ▸ below)

theorem place_of_lt (below : (index : Int) < l.listLength start) : list.place index = index :=
  ListClass.place_of_lt leaves.holds (leaves.length ▸ below)

end Leaves

/-! The loops. -/

section loops

variable {elements : Nat → Option list.Value}

theorem readFrom_run (count : Nat) : ∀ {i : Nat} {b : Int} {w : World}, Leaves list l start elements b w →
    32 * count ≤ b → (i + count : Nat) ≤ l.listLength start →
    ∃ values after, list.readFrom l i count w = .ok values after ∧ Leaves list l start elements (b - 32 * count) after ∧
      values.length = count ∧ ∀ j < count, values[j]? = elements (i + j) := by
  induction count with
  | zero =>
      intro i b w leaves _ _
      exact ⟨[], w, rfl, leaves.weaken (by omega), rfl, nofun⟩
  | succ count ih =>
      intro i b w leaves enough inside
      have below : (i : Int) < l.listLength start := by omega
      obtain ⟨middle, first, left⟩ := leaves.atIndex_run (by omega) i
      obtain ⟨value, found⟩ := Option.isSome_iff_exists.mp (leaves.isSome below)
      rw [leaves.place_of_lt below, found] at first
      obtain ⟨values, after, rest, done, length, shown⟩ := ih left (i := i + 1) (by omega) (by omega)
      refine ⟨value :: values, after, ?_, done.weaken (by omega), by rw [List.length_cons, length], fun j less => ?_⟩
      · rw [readFrom, Outcome.bind_apply, first]
        simp only [orRangeError]
        rw [Outcome.bind_apply, show (i : Int) + 1 = (i + 1 : Nat) from rfl, rest]
        rfl
      · cases j with
        | zero => exact found.symm
        | succ j =>
            rw [List.getElem?_cons_succ, shown j (by omega)]
            congr 1
            omega

theorem toArray_run (leaves : Leaves list l start elements b w) (enough : 32 * (l.listLength start + 1) ≤ b) :
    ∃ values after, list.toArray l w = .ok values after ∧
      Leaves list l start elements (b - 32 * (l.listLength start + 1)) after ∧
      values.length = (l.listLength start).toNat ∧ ∀ j < (l.listLength start).toNat, values[j]? = elements j := by
  have nonneg : 0 ≤ l.listLength start := by
    rw [← leaves.length]
    exact leaves.holds.length_nonneg
  obtain ⟨middle, length, left⟩ := leaves.length_run (by omega)
  obtain ⟨values, after, run, done, size, shown⟩ := readFrom_run (l.listLength start).toNat left (i := 0) (by omega) (by omega)
  refine ⟨values, after, ?_, done.weaken (by omega), size, fun j less => ?_⟩
  · rw [toArray, Outcome.bind_apply, length]
    exact run
  · rw [shown j less, Nat.zero_add]

theorem fillFrom_run (value : list.Value) (count : Nat) : ∀ {i : Nat} {b : Int} {w : World}
    {elements : Nat → Option list.Value}, Leaves list l start elements b w → 32 * count ≤ b →
    (i + count : Nat) ≤ l.listLength start →
    ∃ after, list.fillFrom l value i count w = .ok () after ∧
      Leaves list l start (fun j => if i ≤ j ∧ j < i + count then some (list.stored value) else elements j)
        (b - 32 * count) after := by
  induction count with
  | zero =>
      intro i b w elements leaves _ _
      exact ⟨w, rfl, (leaves.weaken (by omega)).congr fun place => (if_neg (by omega)).symm⟩
  | succ count ih =>
      intro i b w elements leaves enough inside
      obtain ⟨middle, first, left⟩ := leaves.set_run (by omega) (by omega : (i : Int) < l.listLength start) value
      obtain ⟨after, rest, done⟩ := ih left (i := i + 1) (by omega) (by omega)
      refine ⟨after, ?_, (done.weaken (by omega)).congr fun place => ?_⟩
      · rw [fillFrom, Outcome.bind_apply, first]
        exact rest
      · by_cases later : i + 1 ≤ place ∧ place < i + 1 + count
        · rw [if_pos later, if_pos (by omega)]
        · rw [if_neg later, Function.update_apply]
          by_cases here : place = i
          · rw [if_pos here, if_pos (by omega)]
          · rw [if_neg here, if_neg (by omega)]

/-- Where the loop of `copyWithin` takes its turn `i` from: from what it has copied itself, where it has got there
first. -/
def copySource (list : ListClass) (t s i : Nat) : Nat :=
  if t ≤ list.place (s + i) ∧ list.place (s + i) < t + i then
    list.copySource t s (list.place (s + i) - t)
  else list.place (s + i)
termination_by i

/-- The elements after `i` turns. -/
def copied (list : ListClass) (elements : Nat → Option list.Value) (t s i j : Nat) : Option list.Value :=
  if t ≤ j ∧ j < t + i then elements (list.copySource t s (j - t)) else elements j

theorem copied_source (t s i : Nat) :
    list.copied elements t s i (list.place (s + i)) = elements (list.copySource t s i) := by
  rw [copied]
  conv_rhs => rw [copySource]
  split
  · rfl
  · rfl

theorem copied_succ {t s i : Nat} {value : list.Value} (found : elements (list.copySource t s i) = some value)
    (same : list.stored value = value) :
    Function.update (list.copied elements t s i) (t + i) (some (list.stored value)) = list.copied elements t s (i + 1) := by
  funext j
  rw [Function.update_apply]
  by_cases here : j = t + i
  · rw [if_pos here, here, copied, if_pos (by omega), Nat.add_sub_cancel_left, found, same]
  · rw [if_neg here, copied, copied]
    by_cases before : t ≤ j ∧ j < t + i
    · rw [if_pos before, if_pos (by omega)]
    · rw [if_neg before, if_neg (by omega)]

theorem copyFrom_cases (t s count : Nat) : ∀ {i : Nat} {b : Int} {w : World},
    Leaves list l start (list.copied (list.element l start) t s i) b w → 64 * count ≤ b →
    (∀ k, i ≤ k → k < i + count → ((t + k : Nat) : Int) < l.listLength start) →
    (∃ after, list.copyFrom l t s i count w = .ok () after ∧
      (∀ k, i ≤ k → k < i + count → (list.element l start (list.copySource t s k)).isSome) ∧
      Leaves list l start (list.copied (list.element l start) t s (i + count)) (b - 64 * count) after) ∨
    (∃ error after, list.copyFrom l t s i count w = .error error after) ∧
      ∃ k, i ≤ k ∧ k < i + count ∧ list.element l start (list.copySource t s k) = none := by
  induction count with
  | zero =>
      intro i b w leaves _ _
      exact Or.inl ⟨w, rfl, fun k above below => absurd below (by omega), leaves.weaken (by omega)⟩
  | succ count ih =>
      intro i b w leaves enough inside
      obtain ⟨middle, read, left⟩ := leaves.atIndex_run (by omega) (s + i)
      rw [copied_source] at read
      have unfolded : list.copyFrom l t s i (count + 1) w = (do
          list.set l (t + i) (← list.atIndex l (s + i))
          list.copyFrom l t s (i + 1) count : WorldM Unit) w := rfl
      rw [unfolded]
      cases found : list.element l start (list.copySource t s i) with
      | none =>
          rw [found] at read
          refine Or.inr ⟨⟨.RangeError, middle, ?_⟩, i, Nat.le_refl i, by omega, found⟩
          rw [Outcome.bind_apply, show (s : Int) + i = (s + i : Nat) from rfl, read]
          rfl
      | some value =>
          rw [found] at read
          obtain ⟨next, set, step⟩ := left.set_run (by omega) (inside i (Nat.le_refl i) (by omega)) value
          rw [copied_succ found (element_stored found)] at step
          have run : (do
              list.set l (t + i) (← list.atIndex l (s + i))
              list.copyFrom l t s (i + 1) count : WorldM Unit) w = list.copyFrom l t s (i + 1 : Nat) count next := by
            rw [Outcome.bind_apply, show (s : Int) + i = (s + i : Nat) from rfl, read]
            simp only [orRangeError]
            rw [Outcome.bind_apply, show (t : Int) + i = (t + i : Nat) from rfl, set]
            rfl
          rw [run]
          rcases ih step (by omega) (fun k above below => inside k (by omega) (by omega)) with
            ⟨after, rest, all, done⟩ | ⟨failed, k, above, below, none⟩
          · refine Or.inl ⟨after, rest, fun k above below => ?_, ?_⟩
            · rcases Nat.lt_or_eq_of_le above with later | rfl
              · exact all k later (by omega)
              · rw [found]
                rfl
            · rw [show i + (count + 1) = i + 1 + count by omega]
              exact done.weaken (by omega)
          · exact Or.inr ⟨failed, k, by omega, by omega, none⟩

end loops

/-! When the methods follow those of arrays. -/

/-- The indices that `fill` sets. -/
def InFill (length : Int) (start final : Option Int) (j : Nat) : Prop :=
  max (start.getD 0) 0 ≤ j ∧ j < min (final.getD length) length

/-- The ranges of both `fill`s are the same and the value fits, but for elements that are the same anyway. -/
structure FillAgrees (list : ListClass) (l : Pointer) (w : World) (value : list.Value) (start final : Option Int) :
    Prop where
  fits : ∀ j < (l.listLength w).toNat, InFill (l.listLength w) start final j →
    ArrayMethods.InFill (l.listLength w).toNat start final j → list.stored value = value
  more : ∀ j < (l.listLength w).toNat, InFill (l.listLength w) start final j →
    ¬ArrayMethods.InFill (l.listLength w).toNat start final j → list.element l w j = some (list.stored value)
  fewer : ∀ j < (l.listLength w).toNat, ¬InFill (l.listLength w) start final j →
    ArrayMethods.InFill (l.listLength w).toNat start final j → list.element l w j = some value

def fromEnd (length index : Int) : Int := if index < 0 then max (length + index) 0 else index

/-- The loop of `copyWithin`. -/
structure CopyRange where
  target : Nat
  start : Nat
  turns : Nat
  deriving DecidableEq

def copyRange (length : Int) : (target start final : Option Int) → CopyRange
  | some target, some start, final =>
      let s := fromEnd length start
      let t := fromEnd length target
      ⟨t.toNat, s.toNat, (min (final.getD length - s) (length - t)).toNat⟩
  | _, _, _ => ⟨0, 0, 0⟩

theorem fromEnd_nonneg (length index : Int) : 0 ≤ fromEnd length index := by
  unfold fromEnd
  split <;> omega

/-- Where `copyWithin` takes the element of an index from. -/
def copyWithinSource (list : ListClass) (range : CopyRange) (j : Nat) : Nat :=
  if range.target ≤ j ∧ j < range.target + range.turns then
    list.copySource range.target range.start (j - range.target)
  else j

/-- Both `copyWithin`s take every element from one place, or from places with one value. -/
def CopyAgrees (list : ListClass) (l : Pointer) (w : World) (target start final : Option Int) : Prop :=
  ∀ j < (l.listLength w).toNat, list.element l w (list.copyWithinSource (copyRange (l.listLength w) target start final) j) =
    list.element l w (ArrayMethods.copySource (l.listLength w).toNat target start final j)

def Agrees (list : ListClass) (l : Pointer) (w : World) : InPlace list.Value → Prop
  | .fill value start final => list.FillAgrees l w value start final
  | .copyWithin target start final => list.CopyAgrees l w target start final

section

theorem fill_run {elements : Nat → Option list.Value} (leaves : Leaves list l start elements b w)
    (enough : 32 * (l.listLength start + 1) ≤ b) (value : list.Value) (first final : Option Int) :
    ∃ after, list.fill l value first final w = .ok () after ∧ ∃ filled : Nat → Option list.Value,
      Leaves list l start filled (b - 32 * (l.listLength start + 1)) after ∧
      ∀ j, (InFill (l.listLength start) first final j → filled j = some (list.stored value)) ∧
        (¬InFill (l.listLength start) first final j → filled j = elements j) := by
  have nonneg : 0 ≤ l.listLength start := by
    rw [← leaves.length]
    exact leaves.holds.length_nonneg
  obtain ⟨middle, length, left⟩ := leaves.length_run (by omega)
  obtain ⟨s, same⟩ := Int.eq_ofNat_of_zero_le (by omega : 0 ≤ max (first.getD 0) 0)
  by_cases empty : min (final.getD (l.listLength start)) (l.listLength start) ≤ s
  · refine ⟨middle, ?_, elements, left.weaken (by omega), fun j => ⟨fun inside => ?_, fun _ => rfl⟩⟩
    · rw [fill, Outcome.bind_apply, length]
      simp only
      rw [same, show (min (final.getD (l.listLength start)) (l.listLength start) - (s : Int)).toNat = 0 by omega]
      rfl
    · obtain ⟨above, below⟩ := inside
      omega
  · obtain ⟨after, run, done⟩ := fillFrom_run value
      (min (final.getD (l.listLength start)) (l.listLength start) - (s : Int)).toNat left (i := s) (by omega) (by omega)
    refine ⟨after, ?_, _, done.weaken (by omega), fun j => ⟨fun inside => ?_, fun outside => ?_⟩⟩
    · rw [fill, Outcome.bind_apply, length]
      simp only
      rw [same]
      exact run
    · obtain ⟨above, below⟩ := inside
      exact if_pos (by omega)
    · refine if_neg fun inside => outside ?_
      unfold InFill
      omega

theorem copyRange_inside {length : Int} (target first final : Option Int) {k : Nat}
    (below : k < (copyRange length target first final).turns) :
    (((copyRange length target first final).target + k : Nat) : Int) < length := by
  cases target with
  | none => cases below
  | some target =>
      cases first with
      | none => cases below
      | some first =>
          have lower := fromEnd_nonneg length target
          simp only [copyRange] at below ⊢
          omega

theorem copyWithin_eq {before middle : World} {length : Int}
    (run : l.getTargetListLength before = .ok length middle) (target first final : Option Int) :
    list.copyWithin l target first final before =
      list.copyFrom l (copyRange length target first final).target (copyRange length target first final).start (0 : Nat)
        (copyRange length target first final).turns middle := by
  rw [copyWithin, Outcome.bind_apply, run]
  cases target with
  | none => rfl
  | some target =>
      cases first with
      | none => rfl
      | some first =>
          have s := Int.toNat_of_nonneg (fromEnd_nonneg length first)
          have t := Int.toNat_of_nonneg (fromEnd_nonneg length target)
          simp only [copyRange]
          rw [s, t]
          rfl

theorem copyWithin_cases {before : World} (leaves : Leaves list l start (list.element l start) b before)
    (enough : 64 * (l.listLength start + 1) ≤ b) (target first final : Option Int) :
    (∃ after, list.copyWithin l target first final before = .ok () after ∧
      Leaves list l start
        (fun j => list.element l start (list.copyWithinSource (copyRange (l.listLength start) target first final) j))
        (b - 64 * (l.listLength start + 1)) after) ∨
    (∃ error after, list.copyWithin l target first final before = .error error after) ∧
      ∃ j < (l.listLength start).toNat,
        list.element l start (list.copyWithinSource (copyRange (l.listLength start) target first final) j) = none := by
  have nonneg : 0 ≤ l.listLength start := by
    rw [← leaves.length]
    exact leaves.holds.length_nonneg
  obtain ⟨middle, length, left⟩ := leaves.length_run (by omega)
  rw [copyWithin_eq length]
  have inside (k : Nat) := @copyRange_inside (l.listLength start) target first final k
  generalize copyRange (l.listLength start) target first final = range at *
  have few : (range.turns : Int) ≤ l.listLength start := by
    cases turns : range.turns with
    | zero => omega
    | succ k =>
        have last := inside k (by omega)
        omega
  have begins : Leaves list l start (list.copied (list.element l start) range.target range.start 0) (b - 8) middle :=
    left.congr fun place => (if_neg (by omega)).symm
  rcases copyFrom_cases range.target range.start range.turns begins (by omega)
      (fun k _ below => inside k (by omega)) with ⟨after, run, -, done⟩ | ⟨failed, k, -, below, none⟩
  · refine Or.inl ⟨after, run, (done.weaken (by omega)).congr fun place => ?_⟩
    rw [copied, Nat.zero_add, copyWithinSource]
    split
    · rfl
    · rfl
  · have bound := inside k (by omega)
    refine Or.inr ⟨failed, range.target + k, by omega, ?_⟩
    rw [copyWithinSource, if_pos (by omega), Nat.add_sub_cancel_left]
    exact none

theorem getElem?_fill {values : List list.Value} {value : list.Value} {first final : Option Int} (j : Nat) :
    (ArrayMethods.fill values value first final)[j]? =
      values[j]?.map fun old => if ArrayMethods.InFill values.length first final j then value else old :=
  List.getElem?_mapIdx

theorem getElem?_copyWithin {values : List list.Value} {target first final : Option Int} {j : Nat}
    (below : j < values.length) : (ArrayMethods.copyWithin values target first final)[j]? =
      values[ArrayMethods.copySource values.length target first final j]? := by
  have source := ArrayMethods.copySource_lt target first final below
  rw [ArrayMethods.copyWithin, List.getElem?_mapIdx, List.getElem?_eq_getElem below, Option.map_some,
    List.getD_eq_getElem?_getD, List.getElem?_eq_getElem source]
  rfl

theorem length_onArray {values : List list.Value} (op : InPlace list.Value) : (op.onArray values).length = values.length := by
  cases op with
  | fill value first final => exact List.length_mapIdx
  | copyWithin target first final => exact List.length_mapIdx

theorem follows_of_run (op : InPlace list.Value) {values : List list.Value} {seen after : World}
    {elements : Nat → Option list.Value} (read : list.toArray l w = .ok values seen)
    (size : values.length = (l.listLength w).toNat) (run : list.run l op seen = .ok () after)
    (leaves : Leaves list l w elements b after) (enough : 32 * (l.listLength w + 1) ≤ b) :
    list.FollowsArray l op w ↔ ∀ j < (l.listLength w).toNat, elements j = (op.onArray values)[j]? := by
  obtain ⟨shown, later, again, -, length, same⟩ := toArray_run leaves enough
  constructor
  · rintro ⟨values', seen', after', later', read', run', again', -⟩ j below
    rw [read] at read'
    cases read'
    rw [run] at run'
    cases run'
    rw [again] at again'
    cases again'
    exact (same j below).symm
  · intro agree
    refine ⟨values, seen, after, later, read, run, ?_, leaves.bits⟩
    rw [again]
    refine congrArg (EStateM.Result.ok · later) (List.ext_getElem? fun j => ?_)
    by_cases below : j < (l.listLength w).toNat
    · rw [same j below, agree j below]
    · rw [List.getElem?_eq_none (by omega), List.getElem?_eq_none]
      rw [length_onArray]
      omega

variable (holds : l.IsPrimitiveList list w) (wf : (w l.message).WellFormed) (writable : (w l.message).readonly = false)
  (budget : 128 * (l.listLength w + 1) < (w l.message).traversalLimit)
include holds wf writable budget

theorem fill_follows_iff (value : list.Value) (first final : Option Int) :
    list.FollowsArray l (.fill value first final) w ↔ list.FillAgrees l w value first final := by
  have nonneg := holds.length_nonneg
  obtain ⟨values, seen, read, leaves, size, shown⟩ := toArray_run (Leaves.begin holds wf writable budget) (by omega)
  obtain ⟨after, run, filled, left, set⟩ := fill_run leaves (by omega) value first final
  rw [follows_of_run (.fill value first final) read size run left (by omega)]
  have result (j : Nat) (below : j < (l.listLength w).toNat) :
      ∃ old, list.element l w j = some old ∧ ((InPlace.fill value first final).onArray values)[j]? =
        some (if ArrayMethods.InFill (l.listLength w).toNat first final j then value else old) := by
    obtain ⟨old, found⟩ := Option.isSome_iff_exists.mp (leaves.isSome (by omega : (j : Int) < l.listLength w))
    refine ⟨old, found, ?_⟩
    change (ArrayMethods.fill values value first final)[j]? = _
    rw [getElem?_fill, shown j below, found, size]
    rfl
  constructor
  · intro agree
    constructor
    · intro j below inLoop inArray
      obtain ⟨old, found, expected⟩ := result j below
      have same := agree j below
      rw [expected, if_pos inArray, (set j).1 inLoop] at same
      exact Option.some.inj same
    · intro j below inLoop outside
      obtain ⟨old, found, expected⟩ := result j below
      have same := agree j below
      rw [expected, if_neg outside, (set j).1 inLoop] at same
      rw [found, same]
    · intro j below outside inArray
      obtain ⟨old, found, expected⟩ := result j below
      have same := agree j below
      rw [expected, if_pos inArray, (set j).2 outside] at same
      exact same
  · intro agrees j below
    obtain ⟨old, found, expected⟩ := result j below
    rw [expected]
    by_cases inLoop : InFill (l.listLength w) first final j
    · rw [(set j).1 inLoop]
      by_cases inArray : ArrayMethods.InFill (l.listLength w).toNat first final j
      · rw [if_pos inArray, agrees.fits j below inLoop inArray]
      · rw [if_neg inArray, ← agrees.more j below inLoop inArray, found]
    · rw [(set j).2 inLoop]
      by_cases inArray : ArrayMethods.InFill (l.listLength w).toNat first final j
      · rw [if_pos inArray, agrees.fewer j below inLoop inArray]
      · rw [if_neg inArray, found]

theorem copyWithin_follows_iff (target first final : Option Int) :
    list.FollowsArray l (.copyWithin target first final) w ↔ list.CopyAgrees l w target first final := by
  have nonneg := holds.length_nonneg
  obtain ⟨values, seen, read, leaves, size, shown⟩ := toArray_run (Leaves.begin holds wf writable budget) (by omega)
  rcases copyWithin_cases leaves (by omega) target first final with ⟨after, run, left⟩ | ⟨⟨error, after, failed⟩, j, below, none⟩
  · rw [follows_of_run (.copyWithin target first final) read size run left (by omega)]
    refine forall₂_congr fun j below => ?_
    have source := ArrayMethods.copySource_lt target first final below
    change _ = (ArrayMethods.copyWithin values target first final)[j]? ↔ _
    rw [getElem?_copyWithin (by omega), size, shown _ source]
  · constructor
    · rintro ⟨values', seen', after', later, read', run, -⟩
      rw [read] at read'
      cases read'
      rw [show list.run l (.copyWithin target first final) seen = _ from failed] at run
      cases run
    · intro agrees
      have source := ArrayMethods.copySource_lt target first final below
      have found := leaves.isSome
        (by omega : (ArrayMethods.copySource (l.listLength w).toNat target first final j : Int) < l.listLength w)
      rw [← agrees j below, none] at found
      cases found

end

end ListClass

/-- A method follows that of arrays exactly if it takes every element from where the other one does, or from
an equal one. -/
theorem ListClass.followsArray_iff (list : ListClass) {l : Pointer} {w : World} (op : InPlace list.Value)
    (holds : l.IsPrimitiveList list w) (wf : (w l.message).WellFormed) (writable : (w l.message).readonly = false)
    (budget : 128 * (l.listLength w + 1) < (w l.message).traversalLimit) :
    list.FollowsArray l op w ↔ list.Agrees l w op := by
  cases op with
  | fill value first final => exact fill_follows_iff holds wf writable budget value first final
  | copyWithin target first final => exact copyWithin_follows_iff holds wf writable budget target first final

/-! The arguments for which the methods agree on every list. -/

namespace ListClass

variable {list : ListClass} {l : Pointer} {w : World}

theorem fillAgrees_of_nonneg {value : list.Value} {first final : Option Int} (fits : list.stored value = value)
    (lower : ∀ index ∈ first, 0 ≤ index) (upper : ∀ index ∈ final, 0 ≤ index) :
    list.FillAgrees l w value first final := by
  have same : ∀ j < (l.listLength w).toNat, InFill (l.listLength w) first final j ↔
      ArrayMethods.InFill (l.listLength w).toNat first final j := by
    intro j below
    simp only [InFill, ArrayMethods.InFill, ArrayMethods.relativeIndex]
    cases first with
    | none =>
        cases final with
        | none =>
            simp only [Option.getD_none]
            omega
        | some last =>
            have bound := upper last rfl
            simp only [Option.getD_none, Option.getD_some]
            rw [if_neg (by omega)]
            omega
    | some index =>
        have bound := lower index rfl
        simp only [Option.getD_some]
        rw [if_neg (by omega : ¬index < 0)]
        cases final with
        | none =>
            simp only [Option.getD_none]
            omega
        | some last =>
            have bound := upper last rfl
            simp only [Option.getD_some]
            rw [if_neg (by omega)]
            omega
  exact ⟨fun _ _ _ _ => fits, fun j below inLoop outside => absurd ((same j below).mp inLoop) outside,
    fun j below outside inArray => absurd ((same j below).mpr inArray) outside⟩

theorem copySource_apart {t s i : Nat} (place : list.place (s + i) = s + i) (apart : t ≤ s ∨ s + i < t) :
    list.copySource t s i = s + i := by
  rw [copySource, place, if_neg (by omega)]

theorem relativeIndex_some {length : Int} (nonneg : 0 ≤ length) (index : Int) :
    ArrayMethods.relativeIndex length.toNat (some index) 0 =
      min (fromEnd length index).toNat length.toNat := by
  unfold ArrayMethods.relativeIndex fromEnd
  by_cases negative : index < 0
  · simp only [if_pos negative]
    omega
  · simp only [if_neg negative]

theorem relativeIndex_some_of_nonneg {length omitted : Nat} {index : Int} (lower : 0 ≤ index) :
    ArrayMethods.relativeIndex length (some index) omitted = min index.toNat length :=
  if_neg (by omega)

theorem relativeIndex_final {length : Int} {final : Option Int} (nonneg : 0 ≤ length)
    (bounds : ∀ index ∈ final, 0 ≤ index ∧ index ≤ length) :
    ArrayMethods.relativeIndex length.toNat final length.toNat = (final.getD length).toNat ∧
      0 ≤ final.getD length ∧ final.getD length ≤ length := by
  cases final with
  | none => exact ⟨rfl, nonneg, Int.le_refl _⟩
  | some index =>
      obtain ⟨lower, upper⟩ := bounds index rfl
      refine ⟨?_, lower, upper⟩
      rw [relativeIndex_some_of_nonneg lower, Option.getD_some]
      omega

theorem copyAgrees_of_apart {target first : Int} {final : Option Int} (holds : l.IsPrimitiveList list w)
    (bounds : ∀ index ∈ final, 0 ≤ index ∧ index ≤ l.listLength w)
    (apart : (copyRange (l.listLength w) target first final).target ≤ (copyRange (l.listLength w) target first final).start ∨
      (copyRange (l.listLength w) target first final).start + (copyRange (l.listLength w) target first final).turns ≤
        (copyRange (l.listLength w) target first final).target) :
    list.CopyAgrees l w target first final := by
  intro j below
  have nonneg := holds.length_nonneg
  obtain ⟨last, lower, upper⟩ := relativeIndex_final nonneg bounds
  have place := relativeIndex_some nonneg target
  have start := relativeIndex_some nonneg first
  have t := fromEnd_nonneg (l.listLength w) target
  have s := fromEnd_nonneg (l.listLength w) first
  have target_eq : (copyRange (l.listLength w) target first final).target = (fromEnd (l.listLength w) target).toNat := rfl
  have start_eq : (copyRange (l.listLength w) target first final).start = (fromEnd (l.listLength w) first).toNat := rfl
  have turns_eq : (copyRange (l.listLength w) target first final).turns = (min (final.getD (l.listLength w) -
    fromEnd (l.listLength w) first) (l.listLength w - fromEnd (l.listLength w) target)).toNat := rfl
  generalize copyRange (l.listLength w) target first final = range at *
  by_cases inside : range.target ≤ j ∧ j < range.target + range.turns
  · have position := place_of_lt holds (by omega : ((range.start + (j - range.target) : Nat) : Int) < l.listLength w)
    rw [copyWithinSource, if_pos inside, copySource_apart position (by omega), ArrayMethods.copySource, place, start, last,
      if_pos (by omega)]
    congr 1
    omega
  · rw [copyWithinSource, if_neg inside, ArrayMethods.copySource, place, start, last, if_neg (by omega)]

end ListClass

/-! A list of three numbers. -/

namespace Pointer

theorem threeBytes_isList : threeBytes.IsPrimitiveList (.number Uint8List) fun _ => threeBytesMessage where
  toIsSimpleList := threeBytes_isData.toIsSimpleList
  fits := by decide +kernel
  apart := by
    rw [Set.disjoint_left]
    rintro ⟨segment, address⟩ path ⟨-, above, -⟩
    have start : (threeBytes.content fun _ => threeBytesMessage).byteOffset = 8 := by decide +kernel
    have near : threeBytes.pads (fun _ => threeBytesMessage) = ∅ := if_neg (by decide +kernel)
    rw [start] at above
    rw [Pointer.path, near, Set.union_empty] at path
    obtain ⟨-, -, below⟩ := path
    change (address : Int) < 0 + 8 at below
    omega

theorem followsArray_threeBytes :
    (ListClass.number Uint8List).FollowsArray threeBytes (.copyWithin (some 0) (some 1) none) (fun _ => threeBytesMessage) ↔
      (ListClass.number Uint8List).Agrees threeBytes (fun _ => threeBytesMessage) (.copyWithin (some 0) (some 1) none) :=
  ListClass.followsArray_iff _ _ threeBytes_isList threeBytesMessage_wellFormed rfl (by decide +kernel)

/-- The ranges overlap: the list ends as 1, 1, 1 and its array as 1, 1, 2. -/
theorem copyWithin_overlap_repeats :
    threeBytes.IsPrimitiveList (.number Uint8List) (fun _ => threeBytesMessage) ∧
    ¬(ListClass.number Uint8List).FollowsArray threeBytes (.copyWithin (some 1) (some 0) none) fun _ => threeBytesMessage := by
  refine ⟨threeBytes_isList, fun follows => ?_⟩
  have agrees := (ListClass.copyWithin_follows_iff threeBytes_isList threeBytesMessage_wellFormed rfl (by decide +kernel)
    _ _ _).mp follows 2 (by decide +kernel)
  have range : ListClass.copyRange (threeBytes.listLength fun _ => threeBytesMessage) (some 1) (some 0) none = ⟨1, 0, 2⟩ := by
    decide +kernel
  have source : (ListClass.number Uint8List).copyWithinSource ⟨1, 0, 2⟩ 2 = 0 := by
    rw [ListClass.copyWithinSource, if_pos (by decide), ListClass.copySource, if_pos (by decide), ListClass.copySource,
      if_neg (by decide)]
    rfl
  have bits : threeBytes.bitsAt (fun _ => threeBytesMessage) 0 1 = some 1 ∧
      threeBytes.bitsAt (fun _ => threeBytesMessage) 1 1 = some 2 := by decide +kernel
  have looped : Uint8List.element threeBytes (fun _ => threeBytesMessage) 0 = some (1 : Int) :=
    congrArg (Option.map (DataView.number false 1)) bits.1
  have expected : Uint8List.element threeBytes (fun _ => threeBytesMessage) 1 = some (2 : Int) :=
    congrArg (Option.map (DataView.number false 1)) bits.2
  have array : ArrayMethods.copySource (threeBytes.listLength fun _ => threeBytesMessage).toNat (some 1) (some 0) none 2 = 1 := by
    decide +kernel
  rw [range, source, array] at agrees
  have same : some (1 : Int) = some 2 := looped.symm.trans (agrees.trans expected)
  cases same

end Pointer

end CapnpEs
