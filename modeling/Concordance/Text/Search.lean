/-!
Finding one list inside another.

* `afterLast? sep xs` : what follows the last occurrence of `sep` in `xs`.
* `occursIn sep xs` : whether `sep` occurs in `xs` at all.
* `splitFirst? p xs`, `pieces p xs` : the parts around the first, and around all members with `p`.
-/

namespace Concordance.Text

variable {α : Type} [BEq α]

/-- What follows the last occurrence of `sep`; the empty list occurs at the end. -/
def afterLast? (sep : List α) : List α → Option (List α)
  | [] => if sep.isEmpty then some [] else none
  | x :: xs =>
    match afterLast? sep xs with
    | some rest => some rest
    | none => if sep.isPrefixOf (x :: xs) then some ((x :: xs).drop sep.length) else none

/-- Whether `sep` occurs in a list. -/
def occursIn (sep : List α) : List α → Bool
  | [] => sep.isEmpty
  | x :: xs => sep.isPrefixOf (x :: xs) || occursIn sep xs

/-- The parts before and after the first member that satisfies a test. -/
def splitFirst? (p : α → Bool) : List α → Option (List α × List α)
  | [] => none
  | x :: xs => if p x then some ([], xs) else (splitFirst? p xs).map fun r => (x :: r.1, r.2)

/-- The pieces between the members that satisfy a test. -/
def pieces (p : α → Bool) : List α → List (List α)
  | [] => [[]]
  | x :: xs =>
    if p x then [] :: pieces p xs
    else match pieces p xs with
      | [] => [[x]]
      | q :: qs => (x :: q) :: qs

end Concordance.Text
