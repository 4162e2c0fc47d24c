import Concordance.Text.Surrogate
import Concordance.Value.Equality

/-!
The order of values, and sorting by it.

* `Value.less?` : numbers by exact value, texts by code point, bytes by number, sequences by their
  first difference, sets by strict inclusion, dates and moments in time; other pairs have no order.
* `Value.sortBy?` : a list sorted by a relation, also by one that is no ranking.
* `Value.sort?` : the sorted list, or a fault if members without an order are met.
* `Value.sortPairs?` : the same for a label followed by a value, which is looked at only where the
  labels are equal.
-/

namespace Concordance.Value

/-- The order of two numbers; what is not a number is below nothing. -/
def lessNumber : Value → Value → Bool
  | float x, float y => x.compare? y == some .lt
  | float x, w => match w.integer?, x with
    | some _, .inf neg => neg
    | some n, x => match x.ratio? with
      | some (a, b) => a < n * b
      | none => false
    | none, _ => false
  | v, float y => match v.integer?, y with
    | some _, .inf neg => !neg
    | some n, y => match y.ratio? with
      | some (a, b) => n * b < a
      | none => false
    | none, _ => false
  | v, w => match v.integer?, w.integer? with
    | some a, some b => a < b
    | _, _ => false

mutual

/-- Whether the first value is below the second; none if the two have no order. -/
def less? : Value → Value → Option Bool
  | text s, text t => some (Text.precedes s t)
  | bytes a, bytes b => some (decide (a < b))
  | date a _, date b _ => some (decide (a.ordinal < b.ordinal))
  | moment a _, moment b _ => (a.compare? b).map (· == .lt)
  | list xs _, list ys _ => lessList? xs ys
  | tuple xs _, tuple ys _ => lessList? xs ys
  | set _ xs _, set _ ys _ => some (xs.length < ys.length && within xs ys)
  | v, w => if v.isNumber && w.isNumber then some (lessNumber v w) else none

/-- The order of two sequences by their first difference. -/
def lessList? : List Value → List Value → Option Bool
  | [], [] => some false
  | [], _ => some true
  | _, [] => some false
  | x :: xs, y :: ys => if same x y then lessList? xs ys else less? x y

end

/-! ### Sorting -/

/-- Whether a relation ranks a sorted list: no member is below an earlier one, and of two neighbours
either the first is below all that follow it, or both stand alike to all that follow them. Then
every stable sort leads to this list. -/
def ranked (less : α → α → Option Bool) : List α → Bool
  | x :: y :: zs =>
    (y :: zs).all (less · x == some false) &&
      (if less x y == some true then zs.all (less x · == some true)
        else less x y == some false && zs.all fun z => less x z == less y z) &&
      ranked less (y :: zs)
  | _ => true

/-- How many more members continue a run after a member: each below the one before it if `falling`,
else each not below it. -/
def runAfter? (less : α → α → Option Bool) (falling : Bool) : α → List α → Option Nat
  | _, [] => some 0
  | x, y :: ys => do
    if (← less y x) == falling then pure ((← runAfter? less falling y ys) + 1) else pure 0

/-- The run that a list begins with, turned round if it falls, and the members after it. -/
def firstRun? (less : α → α → Option Bool) : List α → Option (List α × List α)
  | x :: y :: ys => do
    let falling ← less y x
    let size := (← runAfter? less falling y ys) + 2
    let run := (x :: y :: ys).take size
    pure (if falling then run.reverse else run, (x :: y :: ys).drop size)
  | xs => some (xs, [])

/-- The place of a member in a list between two places, by bisection; the fuel bounds the steps. -/
def placeIn? (less : α → α → Option Bool) (xs : List α) (x : α) : Nat → Nat → Nat → Option Nat
  | 0, low, _ => some low
  | fuel + 1, low, high =>
    if low < high then
      let middle := low + (high - low) / 2
      match xs[middle]? with
      | none => some low
      | some y => do
        if ← less x y then placeIn? less xs x fuel low middle
        else placeIn? less xs x fuel (middle + 1) high
    else some low

/-- A list with one more member, at its place by bisection. -/
def insertSorted? (less : α → α → Option Bool) (xs : List α) (x : α) : Option (List α) := do
  let place ← placeIn? less xs x (xs.length + 1) 0 xs.length
  pure (xs.take place ++ x :: xs.drop place)

/-- Binary insertion sort behind the first run; none if it meets two members without an order. -/
def insertionSort? (less : α → α → Option Bool) (xs : List α) : Option (List α) := do
  let (run, rest) ← firstRun? less xs
  rest.foldlM (insertSorted? less) run

/-- Sorting by a relation. If the relation ranks the members, the result is that of every stable
sort. If not, as with sets, of which neither may be part of the other, or with what is not a number,
it is that of binary insertion; a fault if that meets two members without an order. -/
def sortBy? (less : α → α → Option Bool) (xs : List α) : Answer (List α) :=
  let ys := xs.mergeSort fun x y => less y x != some true
  if ranked less ys then .ok ys
  else match insertionSort? less xs with
    | some zs => .ok zs
    | none => .error .illTyped

/-- The sorted list. -/
def sort? (xs : List Value) : Answer (List Value) := sortBy? less? xs

/-- The order of labelled values: by label, then by value, where equal values are not compared. -/
def lessPair? (a b : String × Value) : Option Bool :=
  if a.1 == b.1 then (if same a.2 b.2 then some false else less? a.2 b.2)
  else some (Text.precedes a.1 b.1)

/-- A list sorted by labelled values. -/
def sortPairs? (key : α → String × Value) (xs : List α) : Answer (List α) :=
  sortBy? (fun x y => lessPair? (key x) (key y)) xs

end Concordance.Value
