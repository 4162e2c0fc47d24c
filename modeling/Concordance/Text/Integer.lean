import Concordance.Text.Blank

/-!
Reading an integer as people write it: blanks around it, other than the information separators, a
sign, decimal digits of any script, and single underscores between digits.

* `integer? s` : the integer a text writes.
* `isSpellable n` : an integer that is not too long to be written.
-/

namespace Concordance.Text

/-- The most digits an integer may have to be read or written. -/
def integerDigitLimit : Nat := 4300

/-- The values of digits, where a single underscore may stand between two of them; `afterDigit`
tells whether a digit came just before. -/
def digitValues? (afterDigit : Bool) : List Char → Option (List Nat)
  | [] => if afterDigit then some [] else none
  | '_' :: cs => if afterDigit then digitValues? false cs else none
  | c :: cs => do
    let d ← digit? c
    let ds ← digitValues? true cs
    some (d :: ds)

/-- The number with these digits. -/
def ofDigits (ds : List Nat) : Nat := ds.foldl (fun n d => n * 10 + d) 0

/-- The integer that characters without blanks around them write. -/
def integerOfChars? (cs : List Char) : Option Int := do
  let (neg, ds) := match cs with
    | '-' :: ds => (true, ds)
    | '+' :: ds => (false, ds)
    | ds => (false, ds)
  let values ← digitValues? false ds
  if integerDigitLimit < values.length then none
  else
    let n : Int := ofDigits values
    some (if neg then -n else n)

/-- A blank that may stand around an integer. -/
def isPadding (c : Char) : Bool := isBlank c && !(0x1c ≤ c.toNat && c.toNat ≤ 0x1f)

/-- Whether an integer has few enough digits to be written. -/
def isSpellable (n : Int) : Bool := n.natAbs < Nat.pow 10 integerDigitLimit

/-- The integer a text writes. -/
def integer? (s : String) : Option Int := integerOfChars? (trimmed isPadding s.toList)

end Concordance.Text
