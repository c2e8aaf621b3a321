import CapnpEs.Serialization.Pointers.ListMethods

/-! Reading a list and reading its array. -/

namespace CapnpEs

open SideState (own callback shown Follows)

def Call.index {V : Type} : Call V → Nat
  | .element _ index => index
  | .fold _ _ index => index
  | .compare _ _ => 0

namespace ElementReader

variable {ε ω κ V S : Type} {list : ElementReader ε ω V} {engine : Engine ε κ V} {values : List V}
  {outcome : Option Int → Except ε V} {good : Nat → ω → Prop} {b i : Nat} {w : ω} {k : Called κ V}

/-- The list can be read again and again, for as long as `good` counts: `get` gives the same for an index every
time, and the elements for the indices of the list. -/
structure Reads (list : ElementReader ε ω V) (values : List V) (outcome : Option Int → Except ε V)
    (good : Nat → ω → Prop) : Prop where
  less : ∀ {b w}, good (b + 1) w → good b w
  length : ∀ {b w}, good (b + 1) w → ∃ after, list.length w = .ok (values.length : Int) after ∧ good b after
  get : ∀ {b w} index, good (b + 1) w →
    ∃ after, list.get index w = (ofExcept (outcome index) : EStateM ε ω V) after ∧ good b after
  element : ∀ {i} (below : i < values.length), outcome (some (i : Int)) = .ok values[i]

/-- What `at` gives. -/
def shownAt (values : List V) (outcome : Option Int → Except ε V) : Option Int → Except ε V
  | none => outcome none
  | some index => outcome (some (if index < 0 then values.length + index else index))

namespace Reads

variable (reads : Reads list values outcome good)
include reads

theorem weaken {more : Nat} (enough : good more w) (le : b ≤ more) : good b w := by
  induction le with
  | refl => exact enough
  | step _ ih => exact ih (reads.less enough)

theorem atIndex_run (index : Option Int) (enough : good (b + 2) w) :
    ∃ after, list.atIndex index w = (ofExcept (shownAt values outcome index) : EStateM ε ω V) after ∧ good b after := by
  cases index with
  | none => exact reads.get none (reads.less enough)
  | some index =>
      by_cases negative : index < 0
      · obtain ⟨middle, length, left⟩ := reads.length enough
        obtain ⟨after, run, done⟩ := reads.get (some (values.length + index)) left
        refine ⟨after, ?_, done⟩
        rw [atIndex, if_pos negative, Outcome.bind_apply, length, shownAt, if_pos negative]
        exact run
      · rw [atIndex, if_neg negative, shownAt, if_neg negative]
        exact reads.get (some index) (reads.less enough)

theorem atIndex_element (below : i < values.length) (enough : good (b + 1) w) :
    ∃ after, list.atIndex (some (i : Int)) w = .ok values[i] after ∧ good b after := by
  obtain ⟨after, run, done⟩ := reads.get (some (i : Int)) enough
  refine ⟨after, ?_, done⟩
  rw [atIndex, if_neg (by omega), run, reads.element below]
  rfl

theorem readFrom_run (count : Nat) : ∀ {i w}, good (b + count) w → i + count = values.length →
    ∃ after, list.readFrom i count w = .ok (values.drop i) after ∧ good b after := by
  induction count with
  | zero =>
      intro i w enough ends
      refine ⟨w, ?_, enough⟩
      rw [List.drop_eq_nil_of_le (by omega)]
      rfl
  | succ count ih =>
      intro i w enough ends
      have below : i < values.length := by omega
      obtain ⟨middle, first, left⟩ := reads.atIndex_element below enough
      obtain ⟨after, rest, done⟩ := ih (i := i + 1) left (by omega)
      refine ⟨after, ?_, done⟩
      rw [readFrom, Outcome.bind_apply, first, List.drop_eq_getElem_cons below]
      simp only
      rw [Outcome.bind_apply, rest]
      rfl

theorem toArray_run (enough : good (b + values.length + 1) w) :
    ∃ after, list.toArray w = .ok values after ∧ good b after := by
  obtain ⟨middle, length, left⟩ := reads.length enough
  obtain ⟨after, rest, done⟩ := reads.readFrom_run values.length (i := 0) left (Nat.zero_add _)
  refine ⟨after, ?_, done⟩
  rw [toArray, Outcome.bind_apply, length]
  exact rest

theorem eachFrom_follows (turn : S → V → Nat → EStateM ε (Called κ V) (ForInStep S)) (rest : List V) :
    ∀ {i state fuel w k}, values.drop i = rest → good (b + 2 * rest.length + 1) w → rest.length < fuel →
    Follows (good b) (list.eachFrom turn fuel i state) (some <$> ArrayMethods.each turn rest i state) w k := by
  induction rest with
  | nil =>
      intro i state fuel w k shown enough fueled
      obtain ⟨fuel, rfl⟩ := Nat.exists_eq_succ_of_ne_zero (Nat.ne_of_gt fueled)
      obtain ⟨after, length, left⟩ := reads.length enough
      have ends := List.drop_eq_nil_iff.mp shown
      rw [eachFrom]
      refine Follows.own_bind length ?_
      rw [if_neg (by omega)]
      exact Follows.pure _ left
  | cons value rest ih =>
      intro i state fuel w k shown enough fueled
      obtain ⟨fuel, rfl⟩ := Nat.exists_eq_succ_of_ne_zero (Nat.ne_of_gt (Nat.zero_lt_of_lt fueled))
      have below : i < values.length := by
        by_contra past
        rw [List.drop_eq_nil_of_le (by omega)] at shown
        cases shown
      rw [List.drop_eq_getElem_cons below] at shown
      obtain ⟨here, next⟩ := List.cons.inj shown
      rw [List.length_cons] at enough fueled
      obtain ⟨middle, length, left⟩ := reads.length enough
      obtain ⟨after, read, left⟩ := reads.atIndex_element below (b := b + 2 * rest.length + 1) left
      rw [eachFrom]
      refine Follows.own_bind length ?_
      rw [if_pos (by omega)]
      refine Follows.own_bind read ?_
      rw [here, ArrayMethods.each, map_bind]
      refine (Follows.callback_self _ left).bind fun step w k left => ?_
      cases step with
      | done state => exact Follows.pure _ (reads.weaken left (by omega))
      | yield state => exact ih next left (by omega)

theorem mapFrom_follows (cb : V → Nat → EStateM ε κ V) (count : Nat) : ∀ {i w k}, good (b + count) w →
    i + count = values.length →
    Follows (good b) (list.mapFrom cb i count) (ArrayMethods.mapFrom cb (values.drop i) i) w k := by
  induction count with
  | zero =>
      intro i w k enough ends
      rw [List.drop_eq_nil_of_le (by omega)]
      exact Follows.pure _ enough
  | succ count ih =>
      intro i w k enough ends
      have below : i < values.length := by omega
      obtain ⟨after, read, left⟩ := reads.atIndex_element below enough
      rw [mapFrom, List.drop_eq_getElem_cons below, ArrayMethods.mapFrom]
      refine Follows.own_bind read ?_
      refine (Follows.callback_self _ left).bind fun res w k left => ?_
      exact (ih left (by omega)).bind fun results w k left => Follows.pure _ left

theorem foldRightFrom_follows (cb : V → V → Nat → EStateM ε κ V) (count : Nat) : ∀ {res w k}, good (b + count) w →
    count ≤ values.length →
    Follows (good b) (list.foldRightFrom cb count res) (ArrayMethods.foldRight cb values count res) w k := by
  induction count with
  | zero =>
      intro res w k enough _
      exact Follows.pure _ enough
  | succ i ih =>
      intro res w k enough le
      have below : i < values.length := by omega
      obtain ⟨after, read, left⟩ := reads.atIndex_element below enough
      rw [foldRightFrom, ArrayMethods.foldRight, List.getElem?_eq_getElem below]
      refine Follows.own_bind read ?_
      exact (Follows.callback_self _ left).bind fun res w k left => ih left (by omega)

theorem sliceFrom_run (undefined : V) (turns : Nat) : ∀ {i res w}, good (b + 2 * turns) w → ∃ after,
    sliceFrom undefined (fun i => list.atIndex (some i)) i turns res w =
      (ofExcept (sliceFrom undefined (fun i => shownAt values outcome (some i)) i turns res) :
        EStateM ε ω (JsArray V)) after ∧ good b after := by
  induction turns with
  | zero =>
      intro i res w enough
      exact ⟨w, rfl, enough⟩
  | succ turns ih =>
      intro i res w enough
      obtain ⟨middle, read, left⟩ := reads.atIndex_run (some i) (b := b + 2 * turns) enough
      rw [sliceFrom, sliceFrom, Outcome.bind_apply, read]
      cases shownAt values outcome (some i) with
      | error reason => exact ⟨middle, rfl, reads.weaken left (by omega)⟩
      | ok value => exact ih left

end Reads

/-- What the methods of a list do, told of its elements. -/
def shownSlice (engine : Engine ε κ V) (values : List V) (outcome : Option Int → Except ε V) (start final : Option Int) :
    Except ε (JsArray V) :=
  let start := start.getD 0
  let length := sliceEnd values.length final
  sliceFrom engine.undefined (fun i => shownAt values outcome (some i)) start (length - start).toNat
    ⟨List.replicate (length - start).toNat engine.undefined, []⟩

/-- A list without elements has no first one either: `get` is asked for it. -/
def orMissing (missing : Except ε V) (initial : Option V) (values : List V) (program : EStateM ε (Called κ V) V) :
    EStateM ε (Called κ V) V :=
  if initial.isNone && values.isEmpty then ofExcept missing else program

section

variable [DecidableEq V]

def shownRun (engine : Engine ε κ V) (values : List V) (outcome : Option Int → Except ε V) :
    ReadMethod ε κ V → EStateM ε (Called κ V) (Returned V)
  | .atIndex index => .value <$> ofExcept (shownAt values outcome index)
  | .concat [] => throw engine.typeError
  | .concat (other :: _) => return .ofList (values ++ other)
  | .slice start final => .array <$> ofExcept (shownSlice engine values outcome start final)
  | .toSpliced arguments => return .ofList (ArrayMethods.splice values arguments.counted)
  | .reduce cb initialValue => .value <$> orMissing (outcome (some 0)) (initialOf engine initialValue) values
      (ArrayMethods.reduce engine.typeError cb (initialOf engine initialValue) values)
  | .reduceRight cb initialValue => .value <$> orMissing (outcome (some (-1))) (initialOf engine initialValue) values
      (ArrayMethods.reduceRight engine.typeError cb (initialOf engine initialValue) values)
  | method => method.onArray engine values

end

def cost (length : Nat) : ReadMethod ε κ V → Nat
  | .slice start _ => 2 * (length + (start.getD 0).natAbs) + 3
  | _ => 2 * length + 3

namespace Reads

variable (reads : Reads list values outcome good)
include reads

theorem each_follows (turn : S → V → Nat → EStateM ε (Called κ V) (ForInStep S)) (initial : S) {fuel : Nat}
    (enough : good (2 * values.length + 3) w) (fueled : values.length < fuel) :
    Follows (good 0) (list.eachFrom turn fuel 0 initial) (some <$> ArrayMethods.each turn values 0 initial) w k :=
  reads.eachFrom_follows turn values rfl (reads.weaken enough (by omega)) fueled

theorem each_returns (turn : S → V → Nat → EStateM ε (Called κ V) (ForInStep S)) (initial : S)
    (change : S → Returned V) {fuel : Nat} (enough : good (2 * values.length + 3) w) (fueled : values.length < fuel) :
    Follows (good 0) (Option.map change <$> list.eachFrom turn fuel 0 initial)
      (some <$> change <$> ArrayMethods.each turn values 0 initial) w k := by
  have follows := (reads.each_follows turn initial enough fueled (k := k)).map (Option.map change)
  rw [Functor.map_map] at follows ⊢
  exact follows

theorem concat_run (engine : Engine ε κ V) (others : List (List V)) (enough : good (2 * values.length + 3) w) : ∃ after,
    list.concat engine others w = (ofExcept (match others with
      | [] => .error engine.typeError
      | other :: _ => .ok (values ++ other)) : EStateM ε ω (List V)) after ∧ good 0 after := by
  obtain ⟨middle, length, left⟩ := reads.length enough
  rw [concat, Outcome.bind_apply, length]
  cases others with
  | nil => exact ⟨middle, rfl, reads.weaken left (by omega)⟩
  | cons other rest =>
      obtain ⟨after, read, done⟩ := reads.readFrom_run values.length (b := 0) (i := 0)
        (reads.weaken left (by omega)) (by omega)
      refine ⟨after, ?_, done⟩
      simp only [Int.toNat_natCast]
      rw [Outcome.bind_apply, read]
      rfl

theorem slice_run (engine : Engine ε κ V) (start final : Option Int)
    (enough : good (2 * (values.length + (start.getD 0).natAbs) + 3) w) :
    ∃ after, list.slice engine start final w =
      (ofExcept (shownSlice engine values outcome start final) : EStateM ε ω (JsArray V)) after ∧ good 0 after := by
  have bound : sliceEnd values.length final ≤ values.length := by
    unfold sliceEnd
    split
    · omega
    · split <;> omega
  obtain ⟨middle, length, left⟩ := reads.length enough
  rw [slice, Outcome.bind_apply, length]
  exact reads.sliceFrom_run engine.undefined _ (reads.weaken left (by omega))

theorem toArray_bind {α : Type} (next : List V → Except ε α) (enough : good (2 * values.length + 3) w) : ∃ after,
    (do ofExcept (next (← list.toArray)) : EStateM ε ω α) w = (ofExcept (next values) : EStateM ε ω α) after ∧
      good 0 after := by
  obtain ⟨after, run, done⟩ := reads.toArray_run (b := 0) (reads.weaken enough (by omega))
  refine ⟨after, ?_, done⟩
  rw [Outcome.bind_apply, run]

variable [DecidableEq V]

theorem reduce_follows (engine : Engine ε κ V) (cb : V → V → Nat → EStateM ε κ V) (initialValue : Option V) {fuel : Nat}
    (enough : good (2 * values.length + 3) w) (fueled : values.length < fuel) :
    Follows (good 0) (list.reduce engine cb initialValue fuel) (some <$>
      orMissing (outcome (some 0)) (initialOf engine initialValue) values
        (ArrayMethods.reduce engine.typeError cb (initialOf engine initialValue) values)) w k := by
  rw [reduce]
  cases initialOf engine initialValue with
  | some initial => exact reads.each_follows _ initial enough fueled
  | none =>
      cases values with
      | nil =>
          obtain ⟨after, read, left⟩ := reads.atIndex_run (some 0) enough
          exact (Follows.own_ofExcept read left).bind fun value w k left =>
            reads.eachFrom_follows _ [] rfl left fueled
      | cons first rest =>
          obtain ⟨after, read, left⟩ := reads.atIndex_element (i := 0) (Nat.zero_lt_succ _) (reads.less enough)
          refine Follows.own_bind read ?_
          rw [List.length_cons] at left fueled
          exact reads.eachFrom_follows _ rest rfl (reads.weaken left (by omega)) (by omega)

theorem reduceRight_follows (cb : V → V → Nat → EStateM ε κ V) (initialValue : Option V)
    (enough : good (2 * values.length + 3) w) :
    Follows (good 0) (list.reduceRight engine cb initialValue)
      (orMissing (outcome (some (-1))) (initialOf engine initialValue) values
        (ArrayMethods.reduceRight engine.typeError cb (initialOf engine initialValue) values)) w k := by
  obtain ⟨middle, length, left⟩ := reads.length enough
  rw [reduceRight]
  refine Follows.own_bind length ?_
  cases initialOf engine initialValue with
  | some initial =>
      simp only [Int.sub_add_cancel, Int.toNat_natCast]
      exact reads.foldRightFrom_follows cb values.length (reads.weaken left (by omega)) (Nat.le_refl _)
  | none =>
      simp only
      rcases List.eq_nil_or_concat' values with rfl | ⟨front, last, rfl⟩
      · obtain ⟨after, read, left⟩ := reads.atIndex_run (some (-1)) left
        have follows : Follows (good 0) (own (list.atIndex (some (-1))) >>= list.foldRightFrom cb 0)
            (ofExcept (outcome (some (-1))) >>= Pure.pure) middle k :=
          (Follows.own_ofExcept read left).bind fun value w k left => Follows.pure value left
        rw [bind_pure] at follows
        exact follows
      · have size : (front ++ [last]).length = front.length + 1 := List.length_append
        have start : (((front ++ [last]).length : Int) - 1) = (front.length : Nat) := by omega
        obtain ⟨after, read, left⟩ := reads.atIndex_element (i := front.length) (by omega)
          (reads.weaken left (by omega) : good (front.length + 1) middle)
        have filled : orMissing (outcome (some (-1))) none (front ++ [last])
            (ArrayMethods.reduceRight engine.typeError cb none (front ++ [last])) =
            ArrayMethods.foldRight cb (front ++ [last]) front.length last := by
          rw [orMissing, if_neg (by simp)]
          unfold ArrayMethods.reduceRight
          rw [List.getLast?_concat, size]
          rfl
        rw [start, filled]
        rw [List.getElem_concat_length rfl] at read
        refine Follows.own_bind read ?_
        exact reads.foldRightFrom_follows cb front.length (b := 0) (reads.weaken left (by omega)) (by omega)

theorem run_follows (method : ReadMethod ε κ V) {fuel : Nat} (enough : good (cost values.length method) w)
    (fueled : values.length < fuel) :
    Follows (good 0) (list.run engine fuel method) (some <$> shownRun engine values outcome method) w k := by
  cases method with
  | atIndex index =>
      obtain ⟨after, read, left⟩ := reads.atIndex_run index (reads.weaken enough (by simp only [cost]; omega) : good (0 + 2) w)
      rw [shownRun, Functor.map_map]
      exact (Follows.own_ofExcept read left).map _
  | concat others =>
      obtain ⟨after, read, left⟩ := reads.concat_run engine others enough
      have follows := (Follows.own_ofExcept read left (k := k)).map fun res => some (Returned.ofList res)
      cases others with
      | nil => exact follows
      | cons other rest => exact follows
  | slice start final =>
      obtain ⟨after, read, left⟩ := reads.slice_run engine start final enough
      rw [shownRun, Functor.map_map]
      exact (Follows.own_ofExcept read left).map _
  | toSpliced arguments =>
      obtain ⟨after, read, left⟩ :=
        reads.toArray_bind (fun values => .ok (ArrayMethods.splice values arguments.counted)) enough
      exact (Follows.own_ofExcept read left).map _
  | toReversed =>
      obtain ⟨after, read, left⟩ := reads.toArray_bind (fun values => .ok values.reverse) enough
      exact (Follows.own_ofExcept read left).map _
  | toSorted compareFn =>
      obtain ⟨after, read, left⟩ := reads.toArray_run (b := 0) (reads.weaken enough (by simp only [cost]; omega))
      change Follows _ _ (some <$> Returned.ofList <$> engine.sort _ values) w k
      rw [Functor.map_map]
      exact Follows.map (Follows.own_bind read (Follows.callback_self _ left)) _
  | withValue index value =>
      obtain ⟨after, read, left⟩ :=
        reads.toArray_bind (fun values => ArrayMethods.withValue engine.rangeError values index value) enough
      change Follows _ _ (some <$> Returned.ofList <$> ofExcept _) w k
      rw [Functor.map_map]
      exact (Follows.own_ofExcept read left).map _
  | reduce cb initialValue =>
      have follows := (reads.reduce_follows engine cb initialValue enough fueled (k := k)).map
        (Option.map Returned.value)
      rw [Functor.map_map] at follows
      rw [shownRun, Functor.map_map]
      exact follows
  | reduceRight cb initialValue =>
      rw [shownRun, Functor.map_map]
      exact (reads.reduceRight_follows cb initialValue enough).map _
  | map cb =>
      obtain ⟨middle, length, left⟩ := reads.length enough
      change Follows _ _ (some <$> Returned.ofList <$> ArrayMethods.mapFrom cb values 0) w k
      rw [Functor.map_map]
      refine Follows.map (Follows.own_bind length ?_) _
      exact reads.mapFrom_follows cb values.length (b := 0) (i := 0) (reads.weaken left (by omega)) (Nat.zero_add _)
  | filter cb => exact reads.each_returns _ _ _ enough fueled
  | find cb => exact reads.each_returns _ _ _ enough fueled
  | findIndex cb => exact reads.each_returns _ _ _ enough fueled
  | someOf cb => exact reads.each_returns _ _ _ enough fueled
  | every cb =>
      have same : (fun (_ : Bool) (value : V) (i : Nat) => do
          return if !(← logged (.element value i) (cb value i)) then ForInStep.done false else .yield true) =
          fun _ value i => (do
            return if ← logged (.element value i) (cb value i) then .yield true else .done false :
              EStateM ε (Called κ V) (ForInStep Bool)) := by
        funext _ value i
        congr 1
        funext holds
        cases holds with
        | false => rfl
        | true => rfl
      rw [run, ElementReader.every, same]
      exact reads.each_returns _ _ _ enough fueled
  | flatMap cb => exact reads.each_returns _ _ _ enough fueled
  | forEach cb => exact reads.each_returns _ _ _ enough fueled

end Reads

/-! When the methods agree. -/

/-- An index of the array, or one where `get` reads `undefined`. -/
def AtAgrees (engine : Engine ε κ V) (values : List V) (outcome : Option Int → Except ε V) : Option Int → Prop
  | none => outcome none = .ok (values.getD 0 engine.undefined)
  | some index => (-values.length ≤ index ∧ index < values.length) ∨
      outcome (some (if index < 0 then values.length + index else index)) = .ok engine.undefined

/-- The copied elements start at the first one, and are not copied to an end of zero; or there are none. -/
def SliceAgrees (length : Nat) (start final : Option Int) : Prop :=
  if start.getD 0 < sliceEnd length final then
    start.getD 0 = 0 ∧ final ≠ some 0
  else
    ArrayMethods.relativeIndex length final length ≤ ArrayMethods.relativeIndex length start 0

/-- There is a value to start with: one that is given, or an element. Without elements, it depends on what `get`
does. -/
def StartAgrees (engine : Engine ε κ V) (values : List V) (missing : Except ε V) : Option V → Prop
  | none => values = [] → missing = .error engine.typeError
  | some initial => initial = engine.undefined → values = [] ∧ missing = .ok engine.undefined

/-- The elements that would be deleted are those that would be left. Without a count the list deletes none, and an array
all from the start on. -/
def SplicedAgrees (values : List V) : SpliceArguments V → Prop
  | .missing => values = []
  | .start start => values = [] ∨ ArrayMethods.relativeIndex values.length start 0 = 0
  | .count start deleteCount items =>
      let (first, deleted) := ArrayMethods.spliced values.length (.count start deleteCount items)
      2 * deleted = values.length + items.length ∧
        (values.drop first).take deleted = values.take first ++ items ++ values.drop (first + deleted)

theorem splice_eq_toSpliced_iff (values : List V) (arguments : SpliceArguments V) :
    ArrayMethods.splice values arguments.counted = ArrayMethods.toSpliced values arguments ↔
      SplicedAgrees values arguments := by
  cases arguments with
  | missing =>
      change (values.drop _).take (min 0 _) = values.take 0 ++ [] ++ values.drop (0 + 0) ↔ values = []
      rw [Nat.zero_min, List.take_zero, List.take_zero, List.nil_append, List.nil_append, List.drop_zero, eq_comm]
  | start start =>
      let first := ArrayMethods.relativeIndex values.length start 0
      change (values.drop first).take (min 0 _) =
        values.take first ++ [] ++ values.drop (first + (values.length - first)) ↔ values = [] ∨ first = 0
      rw [Nat.zero_min, List.take_zero, List.drop_eq_nil_of_le (by omega), List.append_nil, List.append_nil, eq_comm,
        List.take_eq_nil_iff, or_comm]
  | count start deleteCount items =>
      refine ⟨fun same => ⟨?_, same⟩, fun agrees => agrees.2⟩
      have lengths := congrArg List.length same
      simp only [ArrayMethods.splice, ArrayMethods.toSpliced, SpliceArguments.counted, ArrayMethods.inserted,
        List.length_take, List.length_drop, List.length_append, ArrayMethods.spliced] at lengths ⊢
      omega

def Agrees (engine : Engine ε κ V) (values : List V) (outcome : Option Int → Except ε V) : ReadMethod ε κ V → Prop
  | .atIndex index => AtAgrees engine values outcome index
  | .concat others => ∃ other rest, others = other :: rest ∧ rest.flatten = []
  | .slice start final => SliceAgrees values.length start final
  | .toSpliced arguments => SplicedAgrees values arguments
  | .reduce _ initialValue => StartAgrees engine values (outcome (some 0)) initialValue
  | .reduceRight _ initialValue => StartAgrees engine values (outcome (some (-1))) initialValue
  | _ => True

theorem shownAt_eq_iff (reads : Reads list values outcome good) (index : Option Int) :
    shownAt values outcome index = .ok (ArrayMethods.atIndex engine.undefined values index) ↔
      AtAgrees engine values outcome index := by
  cases index with
  | none => exact Iff.rfl
  | some index =>
      by_cases inside : -values.length ≤ index ∧ index < values.length
      · refine ⟨fun _ => Or.inl inside, fun _ => ?_⟩
        obtain ⟨place, same⟩ := Int.eq_ofNat_of_zero_le
          (by split <;> omega : 0 ≤ if index < 0 then values.length + index else index)
        have below : place < values.length := by
          split at same
          · omega
          · omega
        simp only [shownAt, ArrayMethods.atIndex, Option.getD_some]
        rw [same, reads.element below, if_neg (by omega), Int.toNat_natCast, List.getD_eq_getElem values _ below]
      · have missing : ArrayMethods.atIndex engine.undefined values (some index) = engine.undefined := by
          simp only [ArrayMethods.atIndex, Option.getD_some]
          by_cases negative : index < 0
          · rw [if_pos negative, if_pos (by omega)]
          · rw [if_neg negative, if_neg negative, List.getD_eq_default _ _ (by omega)]
        rw [missing]
        exact ⟨Or.inr, fun agrees => agrees.resolve_left inside⟩

section slice

variable {undefined : V} {read : Int → Except ε V}

theorem JsArray.set_of_nonneg (undefined : V) (res : JsArray V) {index : Int} (lower : 0 ≤ index) (value : V) :
    (res.set undefined index value).named = res.named ∧
      (res.set undefined index value).elements.length = max res.elements.length (index.toNat + 1) := by
  rw [JsArray.set, if_neg (by omega)]
  refine ⟨rfl, ?_⟩
  rw [List.length_set, List.length_append, List.length_replicate]
  omega

theorem sliceFrom_length (turns : Nat) : ∀ {i : Int} {res last : JsArray V}, 0 ≤ i →
    sliceFrom undefined read i turns res = .ok last →
    res.elements.length ≤ last.elements.length ∧ (0 < turns → i + turns ≤ last.elements.length) := by
  induction turns with
  | zero =>
      intro i res last _ run
      cases run
      exact ⟨Nat.le_refl _, fun positive => absurd positive (Nat.lt_irrefl 0)⟩
  | succ turns ih =>
      intro i res last lower run
      obtain ⟨value, -, rest⟩ := Outcome.except_bind_eq_ok.mp run
      obtain ⟨grown, ends⟩ := ih (by omega) rest
      have size := (JsArray.set_of_nonneg undefined res lower value).2
      refine ⟨by omega, fun _ => ?_⟩
      by_cases more : 0 < turns
      · have bound := ends more
        omega
      · omega

theorem sliceFrom_named (turns : Nat) : ∀ {i : Int} {res last : JsArray V},
    sliceFrom undefined read i turns res = .ok last →
    res.named.length ≤ last.named.length ∧ (i < 0 → 0 < turns → res.named.length < last.named.length) := by
  induction turns with
  | zero =>
      intro i res last run
      cases run
      exact ⟨Nat.le_refl _, fun _ positive => absurd positive (Nat.lt_irrefl 0)⟩
  | succ turns ih =>
      intro i res last run
      obtain ⟨value, -, rest⟩ := Outcome.except_bind_eq_ok.mp run
      have grown := (ih rest).1
      by_cases negative : i < 0
      · have size : (res.set undefined i value).named.length = res.named.length + 1 := by
          rw [JsArray.set, if_pos negative]
          exact List.length_append
        exact ⟨by omega, fun _ _ => by omega⟩
      · rw [(JsArray.set_of_nonneg undefined res (by omega) value).1] at grown
        exact ⟨grown, fun lower => absurd lower negative⟩

theorem sliceFrom_elements (undefined : V) (read : Int → Except ε V)
    (shows : ∀ {i} (below : i < values.length), read (i : Int) = .ok values[i]) (turns : Nat) :
    ∀ {i : Nat}, i + turns ≤ values.length →
    sliceFrom undefined read (i : Int) turns ⟨values.take i ++ List.replicate turns undefined, []⟩ =
      .ok ⟨values.take (i + turns), []⟩ := by
  induction turns with
  | zero =>
      intro i _
      rw [List.replicate_zero, List.append_nil]
      rfl
  | succ turns ih =>
      intro i inside
      have below : i < values.length := by omega
      have step : JsArray.set undefined ⟨values.take i ++ List.replicate (turns + 1) undefined, []⟩ (i : Int) values[i] =
          ⟨values.take (i + 1) ++ List.replicate turns undefined, []⟩ := by
        rw [JsArray.set, if_neg (by omega), Int.toNat_natCast]
        have taken : (values.take i).length = i := List.length_take_of_le (by omega)
        simp only [List.length_append, List.length_replicate, taken]
        rw [show i + 1 - (i + (turns + 1)) = 0 by omega, List.replicate_zero, List.append_nil,
          List.set_append_right _ _ (by omega), taken, Nat.sub_self, List.replicate_succ, List.set_cons_zero,
          List.take_succ_eq_append_getElem below, List.append_assoc]
        rfl
      rw [sliceFrom, shows below, Outcome.except_ok_bind, step]
      have rest := ih (i := i + 1) (by omega)
      rw [show i + 1 + turns = i + (turns + 1) by omega] at rest
      exact rest

end slice

theorem ofList_eq_iff {array : JsArray V} {elements : List V} :
    Returned.array array = .ofList elements ↔ array.named = [] ∧ array.elements = elements := by
  cases array
  simp only [Returned.ofList, Returned.array.injEq, JsArray.mk.injEq, and_comm]

theorem length_slice (values : List V) (start final : Option Int) : (ArrayMethods.slice values start final).length =
    ArrayMethods.relativeIndex values.length final values.length - ArrayMethods.relativeIndex values.length start 0 := by
  have le := ArrayMethods.relativeIndex_le final (Nat.le_refl values.length)
  rw [ArrayMethods.slice, List.length_drop, List.length_take_of_le le]

theorem sliceEnd_eq {length : Nat} {final : Option Int} (positive : 0 < sliceEnd length final) (given : final ≠ some 0) :
    sliceEnd length final = ArrayMethods.relativeIndex length final length := by
  cases final with
  | none => rfl
  | some final =>
      have nonzero : final ≠ 0 := fun zero => given (congrArg some zero)
      simp only [sliceEnd] at positive ⊢
      rw [if_neg nonzero] at positive ⊢
      rw [ArrayMethods.relativeIndex, if_neg (by omega)]
      omega

theorem shownSlice_eq_iff (engine : Engine ε κ V) (reads : Reads list values outcome good) (start final : Option Int) :
    (∃ array, shownSlice engine values outcome start final = .ok array ∧
      Returned.array array = .ofList (ArrayMethods.slice values start final)) ↔ SliceAgrees values.length start final := by
  have upper : sliceEnd values.length final ≤ values.length := by
    unfold sliceEnd
    split
    · omega
    · split <;> omega
  have first : ArrayMethods.relativeIndex values.length start 0 =
      ArrayMethods.relativeIndex values.length (some (start.getD 0)) 0 := by
    cases start with
    | none => rfl
    | some start => rfl
  have size := length_slice values start final
  unfold SliceAgrees shownSlice
  simp only [ofList_eq_iff]
  generalize start.getD 0 = s at *
  by_cases copies : s < sliceEnd values.length final
  · rw [if_pos copies]
    constructor
    · rintro ⟨array, run, unnamed, same⟩
      by_cases negative : s < 0
      · have named := (sliceFrom_named _ run).2 negative (by omega)
        rw [unnamed] at named
        exact absurd named (Nat.lt_irrefl 0)
      · have long := (sliceFrom_length _ (by omega) run).2 (by omega)
        rw [same, size, first, ListClass.relativeIndex_some_of_nonneg (by omega)] at long
        have given : final ≠ some 0 := by
          rintro rfl
          rw [ListClass.relativeIndex_some_of_nonneg (Int.le_refl 0)] at long
          omega
        have ends := sliceEnd_eq (by omega : 0 < sliceEnd values.length final) given
        exact ⟨by omega, given⟩
    · rintro ⟨rfl, given⟩
      have ends := sliceEnd_eq copies given
      have start : ArrayMethods.relativeIndex values.length (some 0) 0 = 0 := by
        rw [ListClass.relativeIndex_some_of_nonneg (Int.le_refl 0)]
        omega
      have run := sliceFrom_elements engine.undefined (fun i => shownAt values outcome (some i)) (fun {i} below => by
          rw [shownAt, if_neg (by omega)]
          exact reads.element below) (sliceEnd values.length final - 0).toNat (i := 0) (by omega)
      refine ⟨_, run, rfl, ?_⟩
      rw [ArrayMethods.slice, first, start, Int.sub_zero, ends, Int.toNat_natCast, Nat.zero_add]
      rfl
  · rw [if_neg copies, show (sliceEnd values.length final - s).toNat = 0 by omega]
    constructor
    · rintro ⟨array, run, -, same⟩
      cases run
      rw [← same, List.replicate_zero, List.length_nil] at size
      omega
    · intro empty
      refine ⟨_, rfl, rfl, ?_⟩
      rw [List.replicate_zero, List.eq_nil_of_length_eq_zero (by omega : (ArrayMethods.slice values start final).length = 0)]

/-! The calls of a fold: one that starts at another element cannot make the same. -/

section fold

def callsOf : EStateM.Result ε (Called κ V) S → List (Call V)
  | .ok _ (_, calls) => calls
  | .error _ (_, calls) => calls

def CallsOnly (allowed : Call V → Prop) (program : EStateM ε (Called κ V) S) : Prop :=
  ∀ k, ∃ more, callsOf (program k) = k.2 ++ more ∧ ∀ call ∈ more, allowed call

variable {allowed : Call V → Prop} {call : Call V} {program : EStateM ε κ V} {next : V → EStateM ε (Called κ V) V}

theorem callsOf_logged_bind (only : ∀ value, CallsOnly allowed (next value)) (k : Called κ V) :
    ∃ more, callsOf ((logged call program >>= next) k) = k.2 ++ call :: more ∧ ∀ call ∈ more, allowed call := by
  obtain ⟨state, calls⟩ := k
  rw [Outcome.bind_apply, logged]
  cases program state with
  | error reason after => exact ⟨[], rfl, nofun⟩
  | ok value after =>
      obtain ⟨more, made, all⟩ := only value (after, calls ++ [call])
      refine ⟨more, ?_, all⟩
      rw [made, List.append_assoc, List.singleton_append]

theorem CallsOnly.logged_bind (here : allowed call) (only : ∀ value, CallsOnly allowed (next value)) :
    CallsOnly allowed (logged call program >>= next) := by
  intro k
  obtain ⟨more, made, all⟩ := callsOf_logged_bind only k
  refine ⟨call :: more, made, fun other among => ?_⟩
  rcases List.mem_cons.mp among with rfl | among
  · exact here
  · exact all other among

theorem CallsOnly.pure (value : S) : CallsOnly allowed (Pure.pure value : EStateM ε (Called κ V) S) :=
  fun k => ⟨[], (List.append_nil k.2).symm, nofun⟩

theorem CallsOnly.apart {first second : EStateM ε (Called κ V) S} (only : CallsOnly allowed first)
    (begins : ∃ more, callsOf (second k) = k.2 ++ call :: more) (differs : ¬allowed call) : first k ≠ second k := by
  intro same
  obtain ⟨some, made, all⟩ := only k
  obtain ⟨more, made'⟩ := begins
  rw [same, made'] at made
  rw [← List.append_cancel_left made] at all
  exact differs (all call List.mem_cons_self)

variable (cb : V → V → Nat → EStateM ε κ V)

theorem fold_cons (value : V) (rest : List V) (i : Nat) (res : V) : ArrayMethods.fold cb (value :: rest) i res =
    logged (.fold res value i) (cb res value i) >>= ArrayMethods.fold cb rest (i + 1) := by
  rw [ArrayMethods.fold, ArrayMethods.each, bind_assoc]
  rfl

theorem fold_callsOnly (values : List V) : ∀ {i least : Nat} {res : V}, least ≤ i →
    CallsOnly (fun call => least ≤ call.index) (ArrayMethods.fold cb values i res) := by
  induction values with
  | nil => exact fun _ => CallsOnly.pure _
  | cons value rest ih =>
      intro i least res above
      rw [fold_cons]
      exact CallsOnly.logged_bind above fun value => ih (by omega)

theorem foldRight_callsOnly (values : List V) (count : Nat) : ∀ {bound : Nat} {res : V}, count ≤ bound →
    CallsOnly (fun call => call.index < bound) (ArrayMethods.foldRight cb values count res) := by
  induction count with
  | zero => exact fun _ => CallsOnly.pure _
  | succ i ih =>
      intro bound res le
      rw [ArrayMethods.foldRight]
      cases values[i]? with
      | none => exact ih (by omega)
      | some value => exact CallsOnly.logged_bind (show i < bound by omega) fun value => ih (by omega)

theorem fold_begins (value : V) (rest : List V) (i : Nat) (res : V) :
    ∃ more, callsOf (ArrayMethods.fold cb (value :: rest) i res k) = k.2 ++ .fold res value i :: more := by
  rw [fold_cons]
  exact (callsOf_logged_bind (fun _ => fold_callsOnly cb rest (Nat.le_refl (i + 1))) k).imp fun _ made => made.1

theorem foldRight_begins {value : V} {i : Nat} (found : values[i]? = some value) (res : V) :
    ∃ more, callsOf (ArrayMethods.foldRight cb values (i + 1) res k) = k.2 ++ .fold res value i :: more := by
  rw [ArrayMethods.foldRight, found]
  exact (callsOf_logged_bind (fun _ => foldRight_callsOnly cb values i (Nat.le_refl i)) k).imp fun _ made => made.1

theorem reduce_apart (typeError : ε) (filled : values ≠ []) (initial : V) :
    ArrayMethods.reduce typeError cb none values k ≠ ArrayMethods.reduce typeError cb (some initial) values k := by
  cases values with
  | nil => exact absurd rfl filled
  | cons first rest =>
      exact (fold_callsOnly cb rest (Nat.le_refl 1)).apart (fold_begins cb first rest 0 initial)
        (Nat.not_succ_le_zero 0)

theorem reduceRight_apart (typeError : ε) (filled : values ≠ []) (initial : V) :
    ArrayMethods.reduceRight typeError cb none values k ≠ ArrayMethods.reduceRight typeError cb (some initial) values k := by
  rcases List.eq_nil_or_concat' values with rfl | ⟨front, last, rfl⟩
  · exact absurd rfl filled
  · have size : (front ++ [last]).length = front.length + 1 := List.length_append
    unfold ArrayMethods.reduceRight
    rw [List.getLast?_concat, size]
    exact (foldRight_callsOnly cb (front ++ [last]) front.length (Nat.le_refl _)).apart
      (foldRight_begins cb List.getElem?_concat_length initial) (Nat.lt_irrefl front.length)

end fold

section

variable [DecidableEq V]

theorem orMissing_eq_iff (program : Option V → EStateM ε (Called κ V) V) (missing : Except ε V)
    (empty : values = [] → program none = throw engine.typeError ∧ ∀ initial, program (some initial) = pure initial)
    (apart : values ≠ [] → ∀ initial, program none k ≠ program (some initial) k) (initialValue : Option V) :
    orMissing missing (initialOf engine initialValue) values (program (initialOf engine initialValue)) k =
      program initialValue k ↔ StartAgrees engine values missing initialValue := by
  cases initialValue with
  | none =>
      change orMissing missing none values (program none) k = _ ↔ (values = [] → _)
      by_cases none : values = []
      · rw [(empty none).1, none]
        cases missing with
        | ok value => exact ⟨nofun, fun failed => nomatch failed rfl⟩
        | error reason =>
            change EStateM.Result.error reason k = .error engine.typeError k ↔ _
            simp only [EStateM.Result.error.injEq, and_true, forall_const, Except.error.injEq]
      · rw [orMissing, if_neg (by simpa using none)]
        exact ⟨fun _ nil => absurd nil none, fun _ => rfl⟩
  | some initial =>
      by_cases given : initial = engine.undefined
      · have omitted : initialOf engine (some initial) = none := Option.filter_eq_none_iff.mpr (by simpa using given)
        rw [omitted]
        by_cases none : values = []
        · rw [(empty none).2, none]
          change (ofExcept missing : EStateM ε (Called κ V) V) k = .ok initial k ↔ (initial = _ → [] = [] ∧ _)
          rw [Outcome.ofExcept_eq_ok, given]
          simp only [and_true, true_and, forall_const]
        · rw [orMissing, if_neg (by simpa using none)]
          exact ⟨fun same => absurd same (apart none initial), fun agrees => absurd (agrees given).1 none⟩
      · have kept : initialOf engine (some initial) = some initial := Option.filter_eq_some_iff.mpr ⟨rfl, by simpa using given⟩
        rw [kept]
        exact ⟨fun _ same => absurd same given, fun _ => rfl⟩

theorem shownRun_eq_iff (reads : Reads list values outcome good) (method : ReadMethod ε κ V) :
    shownRun engine values outcome method k = method.onArray engine values k ↔ Agrees engine values outcome method := by
  cases method with
  | atIndex index =>
      rw [Agrees, ← shownAt_eq_iff reads, shownRun]
      cases shownAt values outcome index with
      | ok value =>
          change EStateM.Result.ok (Returned.value value) k = .ok (.value _) k ↔ _
          simp only [EStateM.Result.ok.injEq, Returned.value.injEq, and_true, Except.ok.injEq]
      | error reason => exact ⟨nofun, nofun⟩
  | concat others =>
      cases others with
      | nil => exact ⟨nofun, fun ⟨_, _, same, _⟩ => nomatch same⟩
      | cons other rest =>
          change EStateM.Result.ok (Returned.ofList (values ++ other)) k =
            .ok (.ofList (values ++ (other :: rest).flatten)) k ↔ _
          simp [Agrees, Returned.ofList]
  | slice start final =>
      rw [Agrees, ← shownSlice_eq_iff engine reads, shownRun]
      cases shownSlice engine values outcome start final with
      | ok array =>
          change EStateM.Result.ok (Returned.array array) k = .ok (.ofList _) k ↔ _
          simp
      | error reason => exact ⟨nofun, fun ⟨_, same, _⟩ => nomatch same⟩
  | toSpliced arguments =>
      rw [Agrees, ← splice_eq_toSpliced_iff]
      change EStateM.Result.ok (Returned.ofList _) k = .ok (.ofList _) k ↔ _ = _
      simp only [EStateM.Result.ok.injEq, and_true, Returned.ofList, Returned.array.injEq, JsArray.mk.injEq]
  | reduce cb initialValue =>
      refine (SideState.map_eq_iff fun _ _ same => Returned.value.inj same).trans ?_
      refine orMissing_eq_iff (fun initial => ArrayMethods.reduce engine.typeError cb initial values) _ ?_
        (fun filled => reduce_apart cb engine.typeError filled) initialValue
      rintro rfl
      exact ⟨rfl, fun _ => rfl⟩
  | reduceRight cb initialValue =>
      refine (SideState.map_eq_iff fun _ _ same => Returned.value.inj same).trans ?_
      refine orMissing_eq_iff (fun initial => ArrayMethods.reduceRight engine.typeError cb initial values) _ ?_
        (fun filled => reduceRight_apart cb engine.typeError filled) initialValue
      rintro rfl
      exact ⟨rfl, fun _ => rfl⟩
  | toReversed => exact ⟨fun _ => trivial, fun _ => rfl⟩
  | toSorted compareFn => exact ⟨fun _ => trivial, fun _ => rfl⟩
  | withValue index value => exact ⟨fun _ => trivial, fun _ => rfl⟩
  | map cb => exact ⟨fun _ => trivial, fun _ => rfl⟩
  | filter cb => exact ⟨fun _ => trivial, fun _ => rfl⟩
  | find cb => exact ⟨fun _ => trivial, fun _ => rfl⟩
  | findIndex cb => exact ⟨fun _ => trivial, fun _ => rfl⟩
  | someOf cb => exact ⟨fun _ => trivial, fun _ => rfl⟩
  | every cb => exact ⟨fun _ => trivial, fun _ => rfl⟩
  | flatMap cb => exact ⟨fun _ => trivial, fun _ => rfl⟩
  | forEach cb => exact ⟨fun _ => trivial, fun _ => rfl⟩

end

end ElementReader

variable {ε ω κ V : Type}

theorem ElementReader.Reads.returns_iff_shownRun [DecidableEq V] {list : ElementReader ε ω V} (engine : Engine ε κ V)
    (method : ReadMethod ε κ V) {values : List V} {outcome : Option Int → Except ε V} {good : Nat → ω → Prop} {w : ω}
    (k : Called κ V) (reads : list.Reads values outcome good) (enough : good (cost values.length method) w) :
    list.ReturnsAsArray engine method w k ↔ shownRun engine values outcome method k = method.onArray engine values k := by
  have small : 2 * values.length + 3 ≤ cost values.length method := by
    unfold cost
    split <;> omega
  obtain ⟨after, read, -⟩ := reads.toArray_run (reads.weaken enough (by omega) : good (0 + values.length + 1) w)
  constructor
  · rintro ⟨values', after', read', returns⟩
    rw [read] at read'
    cases read'
    have follows : Follows (good 0) (list.run engine _ method) _ w k :=
      reads.run_follows method enough (Nat.lt_succ_self _)
    have same := follows.shown_eq
    rw [returns _ (Nat.lt_succ_self _)] at same
    exact ((SideState.map_eq_iff (Option.some_injective _)).mp same).symm
  · intro same
    refine ⟨values, after, read, fun fuel fueled => ?_⟩
    rw [(reads.run_follows method enough fueled).shown_eq]
    exact (SideState.map_eq_iff (Option.some_injective _)).mpr same

namespace ListClass

/-- Without an index, an offset is not a number, and that is zero to a `DataView` and to an operator on bits. -/
def getOmitted : (list : ListClass) → Pointer → WorldM list.Value
  | bool, l => BoolList.get l 0
  | number format, l => do
      let c ← l.getContent
      return format.decode (← onMessage c.message (Message.getUint format.width c.segment 0))

inductive Exception
  | thrown (error : CapnpError)
  | TypeError
  deriving DecidableEq

def raised {α : Type} (program : WorldM α) : EStateM Exception World α := fun w =>
  match program w with
  | .ok value after => .ok value after
  | .error error after => .error (.thrown error) after

def read (list : ListClass) (l : Pointer) : Option Int → WorldM list.Value
  | some index => list.get l index
  | none => list.getOmitted l

/-- No element is `undefined`. -/
def reader (list : ListClass) (l : Pointer) : ElementReader Exception World (Option list.Value) where
  length := raised l.getTargetListLength
  get index := raised (some <$> list.read l index)

def outcomeOf {ε σ α : Type} : EStateM.Result ε σ α → Except ε α
  | .ok value _ => .ok value
  | .error reason _ => .error reason

def outcome (list : ListClass) (l : Pointer) (w : World) (index : Option Int) : Except Exception (Option list.Value) :=
  outcomeOf ((list.reader l).get index w)

def elements (list : ListClass) (l : Pointer) (w : World) : List (Option list.Value) :=
  (List.range (l.listLength w).toNat).map (list.element l w)

/-- `start`, with so many reads left of the traversal limit. -/
def ReadsLeft (l : Pointer) (start : World) (b : Nat) (w : World) : Prop :=
  ∃ count, w = start.spend l.message count ∧ 32 * (b : Int) < (w l.message).traversalLimit

variable {list : ListClass} {l : Pointer} {w : World} {α : Type}

/-- A program that gives the same whatever has been spent, and spends at most four words. -/
def Steady (l : Pointer) (w : World) (program : WorldM α) : Prop :=
  ∃ result : Except CapnpError α, ∀ count, 32 < (w.spend l.message count l.message).traversalLimit →
    ∃ more ≤ 4, program (w.spend l.message count) = (ofExcept result : WorldM α) (w.spend l.message (count + more))

theorem Steady.run {program : WorldM α} (steady : Steady l w program) (budget : 32 < (w l.message).traversalLimit)
    {count : Nat} (left : 32 < (w.spend l.message count l.message).traversalLimit) : ∃ more ≤ 4,
    raised program (w.spend l.message count) =
      (ofExcept (outcomeOf (raised program w)) : EStateM Exception World α) (w.spend l.message (count + more)) := by
  obtain ⟨result, all⟩ := steady
  obtain ⟨first, -, here⟩ := all 0 (by rw [World.spend_zero]; exact budget)
  obtain ⟨more, le, there⟩ := all count left
  rw [World.spend_zero] at here
  refine ⟨more, le, ?_⟩
  rw [raised, raised, here, there]
  cases result with
  | ok value => rfl
  | error reason => rfl

theorem getUint_spend (width segment : Nat) (byteOffset : Int) : ∃ result : Except CapnpError Nat, ∀ count,
    onMessage l.message (Message.getUint width segment byteOffset) (w.spend l.message count) =
      (ofExcept result : WorldM Nat) (w.spend l.message count) := by
  have whole (count : Nat) : Function.update (w.spend l.message count) l.message (w.spend l.message count l.message) =
      w.spend l.message count := Function.update_eq_self _ _
  cases found : (w l.message).segments[segment]? with
  | none =>
      refine ⟨.error .INVARIANT_UNREACHABLE_CODE, fun count => ?_⟩
      rw [onMessage, Message.getUint, Outcome.bind_apply, Message.segment, World.spend_segments, found]
      exact congrArg (EStateM.Result.error _) (whole count)
  | some s =>
      refine ⟨DataView.getUint width s.buffer byteOffset, fun count => ?_⟩
      rw [onMessage, Message.getUint, Outcome.bind_apply, Message.segment, World.spend_segments, found]
      simp only
      cases DataView.getUint width s.buffer byteOffset with
      | ok value => exact congrArg (EStateM.Result.ok value) (whole count)
      | error reason => exact congrArg (EStateM.Result.error reason) (whole count)

theorem steady_read {β : Type} {size : ListElementSize} (holds : l.IsSimpleList size w) (wf : (w l.message).WellFormed)
    (width : Nat) (offset : Int → Int) (change : Nat → β) : Steady l w (do
      let c ← l.getContent
      return change (← onMessage c.message (Message.getUint width c.segment (offset c.byteOffset)))) := by
  obtain ⟨result, read⟩ := getUint_spend (l := l) (w := w) width (l.content w).segment (offset (l.content w).byteOffset)
  refine ⟨change <$> result, fun count left => ?_⟩
  have like := spend_like wf count (l.path w)
  obtain ⟨more, le, content⟩ := (holds.spend l.message count).getContent_reads like.wellFormed left
  rw [World.spend_spend, Pointer.content_spend] at content
  refine ⟨more, le, ?_⟩
  rw [Outcome.bind_apply, content]
  simp only
  rw [Outcome.bind_apply, Pointer.content_message, read]
  cases result with
  | ok value => rfl
  | error reason => rfl

theorem Steady.map {β : Type} {program : WorldM α} (steady : Steady l w program) (change : α → β) :
    Steady l w (change <$> program) := by
  obtain ⟨result, all⟩ := steady
  refine ⟨change <$> result, fun count left => ?_⟩
  obtain ⟨more, le, run⟩ := all count left
  refine ⟨more, le, ?_⟩
  rw [← bind_pure_comp, Outcome.bind_apply, run]
  cases result with
  | ok value => rfl
  | error reason => rfl

theorem BoolList.get_eq (l : Pointer) (index : Int) : BoolList.get l index = (do
    let c ← l.getContent
    return decide (BitVec.ofInt 32 (DataView.number false 1
      (← onMessage c.message (Message.getUint 1 c.segment (c.byteOffset + byteIndex index)))) &&&
        bitMaskOf index ≠ 0)) := by
  simp only [BoolList.get, Pointer.segmentGet, bind_assoc, pure_bind]

theorem steady_get (holds : l.IsSimpleList list.size w) (wf : (w l.message).WellFormed) (index : Option Int) :
    Steady l w (some <$> list.read l index) := by
  cases list with
  | bool =>
      have any (index : Int) : Steady l w (BoolList.get l index) := by
        rw [BoolList.get_eq]
        exact steady_read holds wf 1 (· + byteIndex index) _
      cases index with
      | none => exact (any 0).map some
      | some index => exact (any index).map some
  | number format =>
      cases index with
      | none => exact (steady_read holds wf format.width (fun _ => 0) format.decode).map some
      | some index => exact (steady_read holds wf format.width (· + index * format.width) format.decode).map some

theorem reader_reads (holds : l.IsPrimitiveList list w) (wf : (w l.message).WellFormed)
    (budget : 32 < (w l.message).traversalLimit) :
    (list.reader l).Reads (list.elements l w) (list.outcome l w) (ReadsLeft l w) := by
  have nonneg := holds.length_nonneg
  have size : (list.elements l w).length = (l.listLength w).toNat := by
    rw [elements, List.length_map, List.length_range]
  refine ⟨?_, ?_, ?_, ?_⟩
  · rintro b w' ⟨count, same, left⟩
    exact ⟨count, same, by omega⟩
  · rintro b _ ⟨count, rfl, left⟩
    have like := spend_like wf count (l.path w)
    obtain ⟨more, le, run⟩ := (holds.toIsSimpleList.spend l.message count).getTargetListLength_reads like.wellFormed
      (by omega)
    rw [World.spend_spend, Pointer.listLength_spend] at run
    refine ⟨w.spend l.message (count + more), ?_, count + more, rfl, ?_⟩
    · rw [size, Int.toNat_of_nonneg nonneg]
      change raised l.getTargetListLength _ = _
      rw [raised, run]
    · rw [World.spend_traversalLimit] at left ⊢
      omega
  · rintro b _ index ⟨count, rfl, left⟩
    obtain ⟨more, le, run⟩ := (steady_get holds.toIsSimpleList wf index).run budget
      (by omega : 32 < (w.spend l.message count l.message).traversalLimit)
    refine ⟨_, run, count + more, rfl, ?_⟩
    rw [World.spend_traversalLimit] at left ⊢
    omega
  · intro i below
    obtain ⟨count, -, run⟩ := get_cases holds.toIsSimpleList wf budget i
    obtain ⟨value, found⟩ := Option.isSome_iff_exists.mp (element_isSome holds wf (by omega : (i : Int) < l.listLength w))
    rw [ListClass.place_of_lt holds (by omega), found] at run
    have shown : (list.elements l w)[i] = some value := by
      simp only [elements, List.getElem_map, List.getElem_range]
      exact found
    have returned : (some <$> list.get l i) w = .ok (some value) (w.spend l.message count) := by
      rw [← bind_pure_comp, Outcome.bind_apply, run]
      rfl
    rw [shown, outcome]
    change outcomeOf (raised (some <$> list.get l i) w) = _
    rw [raised, returned]
    rfl

theorem methods_agree_iff [DecidableEq list.Value] {κ : Type} (engine : Engine Exception κ (Option list.Value))
    (method : ReadMethod Exception κ (Option list.Value)) (k : Called κ (Option list.Value))
    (holds : l.IsPrimitiveList list w) (wf : (w l.message).WellFormed)
    (enough : 32 * (ElementReader.cost (list.elements l w).length method : Int) < (w l.message).traversalLimit) :
    (list.reader l).ReturnsAsArray engine method w k ↔
      ElementReader.Agrees engine (list.elements l w) (list.outcome l w) method := by
  have positive : 1 ≤ ElementReader.cost (list.elements l w).length method := by
    unfold ElementReader.cost
    split <;> omega
  have reads := reader_reads holds wf (by omega)
  have left : ReadsLeft l w (ElementReader.cost (list.elements l w).length method) w :=
    ⟨0, by rw [World.spend_zero], enough⟩
  rw [reads.returns_iff_shownRun engine method k left, ElementReader.shownRun_eq_iff reads]

end ListClass

/-! The lists of structs. -/

namespace CompositeList

open ListClass (Exception raised outcomeOf)

/-- The struct at an index: a pointer a level below the list, and the index as `get` was given it. -/
structure Element where
  pointer : Pointer
  index : Option Int
  deriving DecidableEq

def under (l : Pointer) : Pointer :=
  { message := l.message, segment := l.segment, byteOffset := l.byteOffset, depthLimit := l.depthLimit - 1 }

def newElement (l : Pointer) (index : Option Int) : WorldM Element := do
  let pointer ← newPointer l.message l.segment l.byteOffset (l.depthLimit - 1)
  return { pointer, index }

def reader (l : Pointer) : ElementReader Exception World (Option Element) where
  length := raised l.getTargetListLength
  get index := raised (some <$> newElement l index)

def elements (l : Pointer) (w : World) : List (Option Element) :=
  (List.range (l.listLength w).toNat).map fun (index : Nat) => some { pointer := under l, index := some index }

/-- `start`, with so many reads of the length left of the traversal limit. -/
def ReadsLeft (l : Pointer) (start : World) (b : Nat) (w : World) : Prop :=
  ∃ count, w = start.spend l.message count ∧ 40 * (b : Int) < (w l.message).traversalLimit

/-- A pointer to a list of structs that lies in the message with its tag. -/
structure IsCompositeList (l : Pointer) (w : World) : Prop where
  resolves : l.Resolves w
  plain : l.compositeIndex = none
  kind : l.targetType w = .LIST
  composite : l.isComposite w = true
  tag : (l.objectStart w).InBounds w
  counted : 0 ≤ l.listLength w
  depth : 2 ≤ l.depthLimit

variable {l : Pointer} {w : World}

theorem newElement_run (holds : IsCompositeList l w) (index : Option Int) {count : Nat}
    (left : 8 < (w.spend l.message count l.message).traversalLimit) : ∃ more ≤ 1,
    raised (some <$> newElement l index) (w.spend l.message count) =
      .ok (some { pointer := under l, index }) (w.spend l.message (count + more)) := by
  have inBounds := holds.resolves.inBounds
  have depth := holds.depth
  have upper := inBounds.upper
  have reads : Reads (newPointer l.message l.segment l.byteOffset (l.depthLimit - 1)) l.message 1
      (w.spend l.message count) (under l) := by
    apply newPointer_reads (by omega) left
    · rw [World.spend_segments]
      exact inBounds.bound
    · exact inBounds.lower
    · rw [World.spend_allocated]
      omega
  obtain ⟨more, le, run⟩ := reads
  rw [World.spend_spend] at run
  refine ⟨more, le, ?_⟩
  have made : newElement l index (w.spend l.message count) =
      .ok { pointer := under l, index } (w.spend l.message (count + more)) := by
    rw [newElement, Outcome.bind_apply, run]
    rfl
  rw [raised, ← bind_pure_comp, Outcome.bind_apply, made]
  rfl

theorem reader_reads (holds : IsCompositeList l w) (wf : (w l.message).WellFormed) :
    (reader l).Reads (elements l w) (fun index => .ok (some { pointer := under l, index })) (ReadsLeft l w) := by
  have size : (elements l w).length = (l.listLength w).toNat := by
    rw [elements, List.length_map, List.length_range]
  refine ⟨?_, ?_, ?_, ?_⟩
  · rintro b w' ⟨count, same, left⟩
    exact ⟨count, same, by omega⟩
  · rintro b _ ⟨count, rfl, left⟩
    obtain ⟨more, le, run⟩ := Pointer.getTargetListLength_reads (wf.spend l.message count)
      (holds.resolves.spend l.message count) (by omega) holds.plain (by rw [Pointer.targetType_spend]; exact holds.kind)
      (fun _ => by rw [Pointer.objectStart_spend]; exact holds.tag.spend l.message count)
    rw [World.spend_spend, Pointer.listLength_spend] at run
    refine ⟨w.spend l.message (count + more), ?_, count + more, rfl, ?_⟩
    · rw [size, Int.toNat_of_nonneg holds.counted]
      change raised l.getTargetListLength _ = _
      rw [raised, run]
    · rw [World.spend_traversalLimit] at left ⊢
      omega
  · rintro b _ index ⟨count, rfl, left⟩
    obtain ⟨more, le, run⟩ := newElement_run holds index
      (by omega : 8 < (w.spend l.message count l.message).traversalLimit)
    refine ⟨_, run, count + more, rfl, ?_⟩
    rw [World.spend_traversalLimit] at left ⊢
    omega
  · intro i below
    simp only [elements, List.getElem_map, List.getElem_range]

theorem methods_agree_iff {κ : Type} (engine : Engine Exception κ (Option Element))
    (method : ReadMethod Exception κ (Option Element)) (k : Called κ (Option Element)) (holds : IsCompositeList l w)
    (wf : (w l.message).WellFormed)
    (enough : 40 * (ElementReader.cost (elements l w).length method : Int) < (w l.message).traversalLimit) :
    (reader l).ReturnsAsArray engine method w k ↔
      ElementReader.Agrees engine (elements l w) (fun index => .ok (some { pointer := under l, index })) method := by
  have reads := reader_reads holds wf
  have left : ReadsLeft l w (ElementReader.cost (elements l w).length method) w :=
    ⟨0, by rw [World.spend_zero], enough⟩
  rw [reads.returns_iff_shownRun engine method k left, ElementReader.shownRun_eq_iff reads]

end CompositeList

/-! A list of three numbers, the methods of which call nothing back. -/

namespace ListClass

def sampleEngine : Engine Exception Unit (Option (number Uint8List).Value) where
  undefined := none
  typeError := .TypeError
  rangeError := .thrown .RangeError
  sort _ values := return values

instance : DecidableEq (number Uint8List).Value := inferInstanceAs (DecidableEq Int)

theorem threeBytes_reads : ((number Uint8List).reader Pointer.threeBytes).Reads
    ((number Uint8List).elements Pointer.threeBytes fun _ => Pointer.threeBytesMessage)
    ((number Uint8List).outcome Pointer.threeBytes fun _ => Pointer.threeBytesMessage)
    (ReadsLeft Pointer.threeBytes fun _ => Pointer.threeBytesMessage) :=
  reader_reads Pointer.threeBytes_isList Pointer.threeBytesMessage_wellFormed (by decide +kernel)

theorem threeBytes_left (b : Nat) (small : b ≤ 100) :
    ReadsLeft Pointer.threeBytes (fun _ => Pointer.threeBytesMessage) b fun _ => Pointer.threeBytesMessage := by
  refine ⟨0, by rw [World.spend_zero], ?_⟩
  have limit : (100 : Int) * 32 < Pointer.threeBytesMessage.traversalLimit := by decide +kernel
  change 32 * (b : Int) < Pointer.threeBytesMessage.traversalLimit
  omega

end ListClass

end CapnpEs
