/-!
Double-precision numbers as exact dyadic rationals, with correctly rounded arithmetic.

* `Binary64` : not a number, an infinity, or a signed mantissa times a power of two. What is not a
  number has a label and equals itself alone.
* `Binary64.ofRatio` : the nearest double to a quotient of natural numbers, a tie to the even
  mantissa, beyond the largest double the infinity.
* `Binary64.ofDecimal` : the nearest double to a decimal.
* `Binary64.add`, `Binary64.mul` : the nearest double to the exact sum and product.
* `Binary64.compare?` : the order of the exact values, none for what is not a number.
-/

namespace Concordance

/-- A double: `finite neg m e` stands for `m · 2 ^ e`, negated if `neg`, with `m < 2 ^ 53`,
`-1074 ≤ e ≤ 971`, and `2 ^ 52 ≤ m` unless `e = -1074`. -/
inductive Binary64 where
  | nan (label : Nat)
  | inf (neg : Bool)
  | finite (neg : Bool) (mantissa : Nat) (exponent : Int)
  deriving DecidableEq, Repr, Inhabited

namespace Binary64

/-- Two to a power. -/
def twoPow (k : Nat) : Nat := Nat.pow 2 k

/-- Ten to a power. -/
def tenPow (k : Nat) : Nat := Nat.pow 10 k

/-- The least exponent. -/
def minExponent : Int := -1074

/-- Zero with a sign. -/
def zero (neg : Bool) : Binary64 := .finite neg 0 minExponent

/-- The nearest natural number to a quotient, a tie to the even one. -/
def roundQuotient (num den : Nat) : Nat :=
  let q := num / den
  let r := num % den
  if 2 * r < den then q
  else if den < 2 * r then q + 1
  else if q % 2 = 0 then q else q + 1

/-- The nearest natural number to `num / den / 2 ^ e`. -/
def mantissaAt (num den : Nat) (e : Int) : Nat :=
  if 0 ≤ e then roundQuotient num (den * twoPow e.toNat)
  else roundQuotient (num * twoPow (-e).toNat) den

/-- Whether `2 ^ k ≤ num / den`. -/
def reaches (num den : Nat) (k : Int) : Bool :=
  if 0 ≤ k then decide (den * twoPow k.toNat ≤ num)
  else decide (den ≤ num * twoPow (-k).toNat)

/-- The nearest double to `num / den`, negated if `neg`; a tie goes to the even mantissa. -/
def ofRatio (neg : Bool) (num den : Nat) : Binary64 :=
  if num = 0 then zero neg
  else
    let k : Int := (num.log2 : Int) - den.log2
    let top := if reaches num den k then k else k - 1
    let e := max (top - 52) minExponent
    let m := mantissaAt num den e
    let (m, e) := if m = twoPow 53 then (twoPow 52, e + 1) else (m, e)
    if 971 < e then .inf neg else .finite neg m e

/-- The number of decimal digits of a natural number, `1` for zero. -/
def digitCount (n : Nat) : Nat := (Nat.toDigits 10 n).length

/-- The nearest double to `digits · 10 ^ e`, negated if `neg`. Exponents that lead beyond the range
of doubles are decided without computing the power. -/
def ofDecimal (neg : Bool) (digits : Nat) (e : Int) : Binary64 :=
  if digits = 0 then zero neg
  else
    let size := (digitCount digits : Int) + e
    if 400 < size then .inf neg
    else if size < -400 then zero neg
    else if 0 ≤ e then ofRatio neg (digits * tenPow e.toNat) 1
    else ofRatio neg digits (tenPow (-e).toNat)

/-- The nearest double to an integer. -/
def ofInt (n : Int) : Binary64 := ofRatio (decide (n < 0)) n.natAbs 1

/-- The exact value of a finite double as numerator and denominator. -/
def ratio? : Binary64 → Option (Int × Nat)
  | .finite neg m e =>
    let n : Int := if neg then -(m : Int) else m
    some (if 0 ≤ e then (n * twoPow e.toNat, 1) else (n, twoPow (-e).toNat))
  | _ => none

/-- The sign bit; what is not a number has none. -/
def isNeg : Binary64 → Bool
  | .nan _ => false
  | .inf neg => neg
  | .finite neg _ _ => neg

/-- Whether it is not a number. -/
def isNaN : Binary64 → Bool
  | .nan _ => true
  | _ => false

/-- What is not a number, with another label. -/
def relabel (label : Nat) : Binary64 → Binary64
  | .nan _ => .nan label
  | x => x

/-- Whether the value is zero, of either sign. -/
def isZero : Binary64 → Bool
  | .finite _ 0 _ => true
  | _ => false

/-- The nearest double to a signed quotient, with the sign of `negZero` for zero. -/
def ofSigned (num : Int) (den : Nat) (negZero : Bool) : Binary64 :=
  if num = 0 then zero negZero else ofRatio (decide (num < 0)) num.natAbs den

/-- The nearest double to the product. -/
def mul (x y : Binary64) : Binary64 :=
  let neg := x.isNeg != y.isNeg
  match x.ratio?, y.ratio? with
  | some (a, b), some (c, d) => ofRatio neg (a * c).natAbs (b * d)
  | _, _ => if x.isNaN || y.isNaN || x.isZero || y.isZero then .nan 0 else .inf neg

/-- The nearest double to the sum. -/
def add (x y : Binary64) : Binary64 :=
  match x.ratio?, y.ratio? with
  | some (a, b), some (c, d) => ofSigned (a * d + c * b) (b * d) (x.isNeg && y.isNeg)
  | _, _ =>
    match x, y with
    | .nan _, _ => .nan 0
    | _, .nan _ => .nan 0
    | .inf s, .inf t => if s = t then .inf s else .nan 0
    | .inf s, _ => .inf s
    | _, y => y

/-- The integer part, towards zero, of a finite double. -/
def truncate? (x : Binary64) : Option Int :=
  x.ratio?.map fun (n, d) => Int.tdiv n d

/-- The order of the exact values; none if one is not a number. -/
def compare? : Binary64 → Binary64 → Option Ordering
  | .nan _, _ => none
  | _, .nan _ => none
  | .inf s, .inf t => some (compare t.toNat s.toNat)
  | .inf s, _ => some (if s then .lt else .gt)
  | _, .inf t => some (if t then .gt else .lt)
  | x, y =>
    match x.ratio?, y.ratio? with
    | some (a, b), some (c, d) => some (compare (a * d) (c * b))
    | _, _ => none

end Binary64
end Concordance
