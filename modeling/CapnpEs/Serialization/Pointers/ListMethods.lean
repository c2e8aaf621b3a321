import CapnpEs.Library.SideState
import CapnpEs.Serialization.Pointers.InPlaceLists

/-! The methods of `list.ts` that read a list, beside those of arrays. -/

namespace CapnpEs

open SideState (own callback shown Follows)

/-- What a callback is called with, but for the list or the array itself. -/
inductive Call (V : Type)
  | element (value : V) (index : Nat)
  | fold (previous current : V) (index : Nat)
  | compare (first second : V)
  deriving DecidableEq

abbrev Called (κ V : Type) := κ × List (Call V)

def logged {ε κ V α : Type} (call : Call V) (program : EStateM ε κ α) : EStateM ε (Called κ V) α := fun (k, calls) =>
  match program k with
  | .ok value after => .ok value (after, calls ++ [call])
  | .error reason after => .error reason (after, calls ++ [call])

/-- What the engine brings: the value of what is missing, the exceptions of arrays, and the algorithm behind `sort`
and `toSorted`. -/
structure Engine (ε κ V : Type) where
  undefined : V
  typeError : ε
  rangeError : ε
  sort : Option (V → V → EStateM ε (Called κ V) Int) → List V → EStateM ε (Called κ V) (List V)

/-- An array: a negative index is the name of a property. -/
structure JsArray (V : Type) where
  elements : List V
  named : List (Int × V)
  deriving DecidableEq

def JsArray.set {V : Type} (undefined : V) (array : JsArray V) (index : Int) (value : V) : JsArray V :=
  if index < 0 then
    { array with named := array.named ++ [(index, value)] }
  else
    { array with
      elements := (array.elements ++
        List.replicate (index.toNat + 1 - array.elements.length) undefined).set index.toNat value }

inductive Returned (V : Type)
  | value (value : V)
  | flag (flag : Bool)
  | index (index : Int)
  | array (array : JsArray V)
  | nothing
  deriving DecidableEq

def Returned.ofList {V : Type} (elements : List V) : Returned V := .array ⟨elements, []⟩

/-- The arguments of `toSpliced`: an array counts them. -/
inductive SpliceArguments (V : Type)
  | missing
  | start (start : Option Int)
  | count (start deleteCount : Option Int) (items : List V)

/-- The methods that only read, with their arguments. An argument that is left out or `undefined` is `none`; an
initial value that is left out is. A callback that returns an array to `flatMap` is in the right of the sum. -/
inductive ReadMethod (ε κ V : Type)
  | atIndex (index : Option Int)
  | concat (others : List (List V))
  | slice (start final : Option Int)
  | toSpliced (arguments : SpliceArguments V)
  | toReversed
  | toSorted (compareFn : Option (V → V → EStateM ε κ Int))
  | withValue (index : Option Int) (value : V)
  | reduce (cb : V → V → Nat → EStateM ε κ V) (initialValue : Option V)
  | reduceRight (cb : V → V → Nat → EStateM ε κ V) (initialValue : Option V)
  | map (cb : V → Nat → EStateM ε κ V)
  | filter (cb : V → Nat → EStateM ε κ Bool)
  | find (cb : V → Nat → EStateM ε κ Bool)
  | findIndex (cb : V → Nat → EStateM ε κ Bool)
  | someOf (cb : V → Nat → EStateM ε κ Bool)
  | every (cb : V → Nat → EStateM ε κ Bool)
  | flatMap (cb : V → Nat → EStateM ε κ (V ⊕ List V))
  | forEach (cb : V → Nat → EStateM ε κ Unit)

def flattened {V : Type} : V ⊕ List V → List V
  | .inl value => [value]
  | .inr values => values

/-! The methods of arrays. -/

namespace ArrayMethods

variable {ε κ V S : Type}

def each (turn : S → V → Nat → EStateM ε κ (ForInStep S)) : List V → Nat → S → EStateM ε κ S
  | [], _, state => return state
  | value :: rest, i, state => do
      match ← turn state value i with
      | .done state => return state
      | .yield state => each turn rest (i + 1) state

def mapFrom (cb : V → Nat → EStateM ε κ V) : List V → Nat → EStateM ε (Called κ V) (List V)
  | [], _ => return []
  | value :: rest, i => do
      let res ← logged (.element value i) (cb value i)
      return res :: (← mapFrom cb rest (i + 1))

def map (cb : V → Nat → EStateM ε κ V) (values : List V) : EStateM ε (Called κ V) (List V) :=
  mapFrom cb values 0

def filter (cb : V → Nat → EStateM ε κ Bool) (values : List V) : EStateM ε (Called κ V) (List V) :=
  each (fun res value i => do return .yield (if ← logged (.element value i) (cb value i) then res ++ [value] else res))
    values 0 []

def find (undefined : V) (cb : V → Nat → EStateM ε κ Bool) (values : List V) : EStateM ε (Called κ V) V :=
  each (fun res value i => do return if ← logged (.element value i) (cb value i) then .done value else .yield res)
    values 0 undefined

def findIndex (cb : V → Nat → EStateM ε κ Bool) (values : List V) : EStateM ε (Called κ V) Int :=
  each (fun res value i => do return if ← logged (.element value i) (cb value i) then .done (i : Int) else .yield res)
    values 0 (-1)

def someOf (cb : V → Nat → EStateM ε κ Bool) (values : List V) : EStateM ε (Called κ V) Bool :=
  each (fun _ value i => do return if ← logged (.element value i) (cb value i) then .done true else .yield false)
    values 0 false

def every (cb : V → Nat → EStateM ε κ Bool) (values : List V) : EStateM ε (Called κ V) Bool :=
  each (fun _ value i => do return if ← logged (.element value i) (cb value i) then .yield true else .done false)
    values 0 true

def flatMap (cb : V → Nat → EStateM ε κ (V ⊕ List V)) (values : List V) : EStateM ε (Called κ V) (List V) :=
  each (fun res value i => do return .yield (res ++ flattened (← logged (.element value i) (cb value i)))) values 0 []

def forEach (cb : V → Nat → EStateM ε κ Unit) (values : List V) : EStateM ε (Called κ V) Unit :=
  each (fun _ value i => do return .yield (← logged (.element value i) (cb value i))) values 0 ()

def fold (cb : V → V → Nat → EStateM ε κ V) (values : List V) (i : Nat) (initial : V) : EStateM ε (Called κ V) V :=
  each (fun res value i => do return .yield (← logged (.fold res value i) (cb res value i))) values i initial

/-- The first `count` elements from the last one on. -/
def foldRight (cb : V → V → Nat → EStateM ε κ V) (values : List V) : Nat → V → EStateM ε (Called κ V) V
  | 0, res => return res
  | i + 1, res =>
      match values[i]? with
      | some value => do foldRight cb values i (← logged (.fold res value i) (cb res value i))
      | none => foldRight cb values i res

def reduce (typeError : ε) (cb : V → V → Nat → EStateM ε κ V) (initialValue : Option V) (values : List V) :
    EStateM ε (Called κ V) V :=
  match initialValue, values with
  | some initial, values => fold cb values 0 initial
  | none, first :: rest => fold cb rest 1 first
  | none, [] => throw typeError

def reduceRight (typeError : ε) (cb : V → V → Nat → EStateM ε κ V) (initialValue : Option V) (values : List V) :
    EStateM ε (Called κ V) V :=
  match initialValue, values.getLast? with
  | some initial, _ => foldRight cb values values.length initial
  | none, some last => foldRight cb values (values.length - 1) last
  | none, none => throw typeError

def atIndex (undefined : V) (values : List V) (index : Option Int) : V :=
  let index := index.getD 0
  let place := if index < 0 then values.length + index else index
  if place < 0 then undefined else values.getD place.toNat undefined

def slice (values : List V) (start final : Option Int) : List V :=
  (values.take (relativeIndex values.length final values.length)).drop (relativeIndex values.length start 0)

/-- The elements that `splice` deletes: from where on, and how many. -/
def spliced (length : Nat) : SpliceArguments V → Nat × Nat
  | .missing => (0, 0)
  | .start start => (relativeIndex length start 0, length - relativeIndex length start 0)
  | .count start deleteCount _ =>
      (relativeIndex length start 0, min (deleteCount.getD 0).toNat (length - relativeIndex length start 0))

def inserted : SpliceArguments V → List V
  | .count _ _ items => items
  | _ => []

/-- What `splice` returns. -/
def splice (values : List V) (arguments : SpliceArguments V) : List V :=
  (values.drop (spliced values.length arguments).1).take (spliced values.length arguments).2

def toSpliced (values : List V) (arguments : SpliceArguments V) : List V :=
  values.take (spliced values.length arguments).1 ++ inserted arguments ++
    values.drop ((spliced values.length arguments).1 + (spliced values.length arguments).2)

def withValue (rangeError : ε) (values : List V) (index : Option Int) (value : V) : Except ε (List V) :=
  let index := index.getD 0
  let place := if index < 0 then values.length + index else index
  if 0 ≤ place ∧ place < values.length then .ok (values.set place.toNat value) else .error rangeError

end ArrayMethods

def ReadMethod.onArray {ε κ V : Type} (engine : Engine ε κ V) (values : List V) :
    ReadMethod ε κ V → EStateM ε (Called κ V) (Returned V)
  | .atIndex index => return .value (ArrayMethods.atIndex engine.undefined values index)
  | .concat others => return .ofList (values ++ others.flatten)
  | .slice start final => return .ofList (ArrayMethods.slice values start final)
  | .toSpliced arguments => return .ofList (ArrayMethods.toSpliced values arguments)
  | .toReversed => return .ofList values.reverse
  | .toSorted compareFn => .ofList <$>
      engine.sort (compareFn.map fun cb first second => logged (.compare first second) (cb first second)) values
  | .withValue index value => .ofList <$> ofExcept (ArrayMethods.withValue engine.rangeError values index value)
  | .reduce cb initialValue => .value <$> ArrayMethods.reduce engine.typeError cb initialValue values
  | .reduceRight cb initialValue => .value <$> ArrayMethods.reduceRight engine.typeError cb initialValue values
  | .map cb => .ofList <$> ArrayMethods.map cb values
  | .filter cb => .ofList <$> ArrayMethods.filter cb values
  | .find cb => .value <$> ArrayMethods.find engine.undefined cb values
  | .findIndex cb => .index <$> ArrayMethods.findIndex cb values
  | .someOf cb => .flag <$> ArrayMethods.someOf cb values
  | .every cb => .flag <$> ArrayMethods.every cb values
  | .flatMap cb => .ofList <$> ArrayMethods.flatMap cb values
  | .forEach cb => (fun _ => .nothing) <$> ArrayMethods.forEach cb values

/-! The methods of lists. -/

/-- What a list class is to the methods of `List`: its `length`, and its `get` with an index or with `undefined`. -/
structure ElementReader (ε ω V : Type) where
  length : EStateM ε ω Int
  get : Option Int → EStateM ε ω V

/-- The loop of `slice`, with so many turns left. -/
def sliceFrom {m : Type → Type} [Monad m] {V : Type} (undefined : V) (read : Int → m V) (i : Int) :
    Nat → JsArray V → m (JsArray V)
  | 0, res => return res
  | turns + 1, res => do sliceFrom undefined read (i + 1) turns (res.set undefined i (← read i))

/-- `splice` is called with a start and a count. -/
def SpliceArguments.counted {V : Type} : SpliceArguments V → SpliceArguments V
  | .missing => .count none none []
  | .start first => .count first none []
  | .count first deleteCount items => .count first deleteCount items

namespace ElementReader

variable {ε ω κ V S : Type} (list : ElementReader ε ω V) (engine : Engine ε κ V)

/-- `at` -/
def atIndex : Option Int → EStateM ε ω V
  | none => list.get none
  | some index => do
      if index < 0 then
        list.get (some ((← list.length) + index))
      else
        list.get (some index)

def readFrom (i : Nat) : Nat → EStateM ε ω (List V)
  | 0 => return []
  | count + 1 => do
      let value ← list.atIndex (some i)
      return value :: (← readFrom (i + 1) count)

def toArray : EStateM ε ω (List V) := do
  list.readFrom 0 (← list.length).toNat

def concat (others : List (List V)) : EStateM ε ω (List V) := do
  let length ← list.length
  match others with
  | [] => throw engine.typeError
  | other :: _ => return (← list.readFrom 0 length.toNat) ++ other

/-- The loops that compare with the length again in every turn. Nothing is returned when the fuel is not enough. -/
def eachFrom (turn : S → V → Nat → EStateM ε (Called κ V) (ForInStep S)) :
    Nat → Nat → S → EStateM ε (ω × Called κ V) (Option S)
  | 0, _, _ => return none
  | fuel + 1, i, state => do
      if i < (← own list.length) then
        let value ← own (list.atIndex (some i))
        match ← callback (turn state value i) with
        | .done state => return some state
        | .yield state => eachFrom turn fuel (i + 1) state
      else
        return some state

def someOf (cb : V → Nat → EStateM ε κ Bool) (fuel : Nat) : EStateM ε (ω × Called κ V) (Option Bool) :=
  list.eachFrom (fun _ value i => do
    return if ← logged (.element value i) (cb value i) then .done true else .yield false) fuel 0 false

def filter (cb : V → Nat → EStateM ε κ Bool) (fuel : Nat) : EStateM ε (ω × Called κ V) (Option (List V)) :=
  list.eachFrom (fun res value i => do
    return .yield (if ← logged (.element value i) (cb value i) then res ++ [value] else res)) fuel 0 []

def find (cb : V → Nat → EStateM ε κ Bool) (fuel : Nat) : EStateM ε (ω × Called κ V) (Option V) :=
  list.eachFrom (fun res value i => do
    return if ← logged (.element value i) (cb value i) then .done value else .yield res) fuel 0 engine.undefined

def findIndex (cb : V → Nat → EStateM ε κ Bool) (fuel : Nat) : EStateM ε (ω × Called κ V) (Option Int) :=
  list.eachFrom (fun res value i => do
    return if ← logged (.element value i) (cb value i) then .done (i : Int) else .yield res) fuel 0 (-1)

def forEach (cb : V → Nat → EStateM ε κ Unit) (fuel : Nat) : EStateM ε (ω × Called κ V) (Option Unit) :=
  list.eachFrom (fun _ value i => do return .yield (← logged (.element value i) (cb value i))) fuel 0 ()

/-- The loop of `map`, which has read the length before. -/
def mapFrom (cb : V → Nat → EStateM ε κ V) (i : Nat) : Nat → EStateM ε (ω × Called κ V) (List V)
  | 0 => return []
  | count + 1 => do
      let value ← own (list.atIndex (some i))
      let res ← callback (logged (.element value i) (cb value i))
      return res :: (← mapFrom cb (i + 1) count)

def map (cb : V → Nat → EStateM ε κ V) : EStateM ε (ω × Called κ V) (List V) := do
  list.mapFrom cb 0 (← own list.length).toNat

def flatMap (cb : V → Nat → EStateM ε κ (V ⊕ List V)) (fuel : Nat) : EStateM ε (ω × Called κ V) (Option (List V)) :=
  list.eachFrom (fun res value i => do
    return .yield (res ++ flattened (← logged (.element value i) (cb value i)))) fuel 0 []

def every (cb : V → Nat → EStateM ε κ Bool) (fuel : Nat) : EStateM ε (ω × Called κ V) (Option Bool) :=
  list.eachFrom (fun _ value i => do
    return if !(← logged (.element value i) (cb value i)) then .done false else .yield true) fuel 0 true

def foldFrom (cb : V → V → Nat → EStateM ε κ V) (fuel i : Nat) (res : V) : EStateM ε (ω × Called κ V) (Option V) :=
  list.eachFrom (fun res value i => do return .yield (← logged (.fold res value i) (cb res value i))) fuel i res

def foldRightFrom (cb : V → V → Nat → EStateM ε κ V) : Nat → V → EStateM ε (ω × Called κ V) V
  | 0, res => return res
  | i + 1, res => do
      let value ← own (list.atIndex (some i))
      foldRightFrom cb i (← callback (logged (.fold res value i) (cb res value i)))

section

variable [DecidableEq V]

/-- `initialValue === undefined` -/
def initialOf (initialValue : Option V) : Option V :=
  initialValue.filter (· ≠ engine.undefined)

def reduce (cb : V → V → Nat → EStateM ε κ V) (initialValue : Option V) (fuel : Nat) :
    EStateM ε (ω × Called κ V) (Option V) := do
  match initialOf engine initialValue with
  | none => list.foldFrom cb fuel 1 (← own (list.atIndex (some 0)))
  | some initial => list.foldFrom cb fuel 0 initial

def reduceRight (cb : V → V → Nat → EStateM ε κ V) (initialValue : Option V) : EStateM ε (ω × Called κ V) V := do
  let i := (← own list.length) - 1
  match initialOf engine initialValue with
  | none => list.foldRightFrom cb i.toNat (← own (list.atIndex (some i)))
  | some initial => list.foldRightFrom cb (i + 1).toNat initial

end

def sliceEnd (length : Int) : Option Int → Int
  | none => length
  | some final => if final = 0 then length else min length final

def slice (start final : Option Int) : EStateM ε ω (JsArray V) := do
  let start := start.getD 0
  let length := sliceEnd (← list.length) final
  sliceFrom engine.undefined (fun i => list.atIndex (some i)) start (length - start).toNat
    ⟨List.replicate (length - start).toNat engine.undefined, []⟩

def toReversed : EStateM ε ω (List V) := do
  return (← list.toArray).reverse

def toSorted (compareFn : Option (V → V → EStateM ε κ Int)) : EStateM ε (ω × Called κ V) (List V) := do
  let values ← own list.toArray
  callback (engine.sort (compareFn.map fun cb first second => logged (.compare first second) (cb first second)) values)

def toSpliced (arguments : SpliceArguments V) : EStateM ε ω (List V) := do
  let values ← list.toArray
  return ArrayMethods.splice values arguments.counted

/-- `with` -/
def withValue (index : Option Int) (value : V) : EStateM ε ω (List V) := do
  ofExcept (ArrayMethods.withValue engine.rangeError (← list.toArray) index value)

variable [DecidableEq V]

def run (fuel : Nat) : ReadMethod ε κ V → EStateM ε (ω × Called κ V) (Option (Returned V))
  | .atIndex index => (fun value => some (.value value)) <$> own (list.atIndex index)
  | .concat others => (fun res => some (.ofList res)) <$> own (list.concat engine others)
  | .slice start final => (fun res => some (.array res)) <$> own (list.slice engine start final)
  | .toSpliced arguments => (fun res => some (.ofList res)) <$> own (list.toSpliced arguments)
  | .toReversed => (fun res => some (.ofList res)) <$> own list.toReversed
  | .toSorted compareFn => (fun res => some (.ofList res)) <$> list.toSorted engine compareFn
  | .withValue index value => (fun res => some (.ofList res)) <$> own (list.withValue engine index value)
  | .reduce cb initialValue => Option.map .value <$> list.reduce engine cb initialValue fuel
  | .reduceRight cb initialValue => (fun value => some (.value value)) <$> list.reduceRight engine cb initialValue
  | .map cb => (fun res => some (.ofList res)) <$> list.map cb
  | .filter cb => Option.map .ofList <$> list.filter cb fuel
  | .find cb => Option.map .value <$> list.find engine cb fuel
  | .findIndex cb => Option.map .index <$> list.findIndex cb fuel
  | .someOf cb => Option.map .flag <$> list.someOf cb fuel
  | .every cb => Option.map .flag <$> list.every cb fuel
  | .flatMap cb => Option.map .ofList <$> list.flatMap cb fuel
  | .forEach cb => Option.map (fun _ => .nothing) <$> list.forEach cb fuel

/-- A method of a list returns, throws and calls back as that of its array does. -/
def ReturnsAsArray (method : ReadMethod ε κ V) (w : ω) (k : Called κ V) : Prop :=
  ∃ values after, list.toArray w = .ok values after ∧ ∀ fuel, values.length < fuel →
    shown (list.run engine fuel method (w, k)) = (some <$> method.onArray engine values) k

end ElementReader

end CapnpEs
