import Concordance.Binary64

/-!
The shortest decimal of a double: the fewest digits that read back, and of those the nearest.

* `Binary64.shortest` : the digits and the place of the point, `0.d₁d₂… · 10 ^ p`.
* `Binary64.decimal` : the written form, positional for `-4 < p ≤ 16` and with an exponent of at
  least two digits otherwise.
-/

namespace Concordance.Binary64

/-- The place `p` of the point of `num / den`, with `10 ^ (p - 1) ≤ num / den < 10 ^ p`. -/
def pointPlace (num den : Nat) : Int :=
  if den ≤ num then digitCount (num / den)
  else
    let len := digitCount (den / num)
    if den ≤ num * tenPow (len - 1) then 2 - (len : Int) else 1 - (len : Int)

/-- The multiple of `10 ^ g` that has the fewest digits is sought among the two neighbours of
`value` on that grid; all three of `low ≤ value ≤ high` are over `den`. The ends count iff
`closed`. -/
def onGrid? (low value high den : Nat) (closed : Bool) (g : Int) : Option Nat :=
  let up := if g < 0 then tenPow (-g).toNat else 1
  let unit := den * (if 0 ≤ g then tenPow g.toNat else 1)
  let floor := value * up / unit
  let inside (d : Nat) : Bool :=
    if closed then low * up ≤ d * unit && d * unit ≤ high * up
    else low * up < d * unit && d * unit < high * up
  let below := inside floor
  let above := inside (floor + 1)
  if below && above then
    let left := value * up - floor * unit
    let right := (floor + 1) * unit - value * up
    some (if left < right then floor
      else if right < left then floor + 1
      else if floor % 2 = 0 then floor else floor + 1)
  else if below then some floor
  else if above then some (floor + 1)
  else none

/-- The first grid with a hit, from `n` digits on. -/
def firstGrid (low value high den : Nat) (closed : Bool) (p : Int) : Nat → Nat → Nat × Int
  | 0, _ => (0, 0)
  | fuel + 1, n =>
    match onGrid? low value high den closed (p - n) with
    | some d => (d, p - n)
    | none => firstGrid low value high den closed p fuel (n + 1)

/-- The digits of a number without the zeros at its end. -/
def significant (n : Nat) : List Char :=
  ((Nat.toDigits 10 n).reverse.dropWhile (· == '0')).reverse

/-- The shortest digits of `m · 2 ^ e` for `0 < m`, and the place of the point before them. -/
def shortest (m : Nat) (e : Int) : List Char × Int :=
  let low := if m = twoPow 52 ∧ minExponent < e then 4 * m - 1 else 4 * m - 2
  let f := e - 2
  let up := if 0 ≤ f then twoPow f.toNat else 1
  let den := if f < 0 then twoPow (-f).toNat else 1
  let value := 4 * m * up
  let p := pointPlace value den
  let (d, g) := firstGrid (low * up) value ((4 * m + 2) * up) den (m % 2 == 0) p 17 1
  (significant d, g + digitCount d)

/-- An exponent: its sign and at least two digits. -/
def exponentText (n : Int) : List Char :=
  let ds := Nat.toDigits 10 n.natAbs
  (if n < 0 then '-' else '+') :: (if ds.length < 2 then '0' :: ds else ds)

/-- Digits with the point at place `p`; a whole number ends in `.0`. -/
def positional (ds : List Char) (p : Int) : List Char :=
  if p ≤ 0 then '0' :: '.' :: (List.replicate (-p).toNat '0' ++ ds)
  else if ds.length ≤ p.toNat then ds ++ List.replicate (p.toNat - ds.length) '0' ++ ['.', '0']
  else ds.take p.toNat ++ '.' :: ds.drop p.toNat

/-- Digits with the point after the first, and the exponent of ten that makes up for it. -/
def scientific (ds : List Char) (p : Int) : List Char :=
  let tail := match ds.drop 1 with
    | [] => []
    | rest => '.' :: rest
  ds.take 1 ++ tail ++ 'e' :: exponentText (p - 1)

/-- The decimal of `m · 2 ^ e`: positional for `-4 < p ≤ 16`, with an exponent otherwise. -/
def unsignedDecimal (m : Nat) (e : Int) : List Char :=
  if m = 0 then ['0', '.', '0']
  else
    let (ds, p) := shortest m e
    if -4 < p ∧ p ≤ 16 then positional ds p else scientific ds p

/-- The written form of a double, given the names of infinity and of what is not a number. -/
def decimal (infinity notANumber : String) : Binary64 → String
  | .nan _ => notANumber
  | .inf neg => if neg then "-" ++ infinity else infinity
  | .finite neg m e =>
    let body := String.ofList (unsignedDecimal m e)
    if neg then "-" ++ body else body

end Concordance.Binary64
