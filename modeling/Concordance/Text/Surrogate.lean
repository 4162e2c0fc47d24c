/-!
Halves of surrogate pairs that stand alone.

Notations that write characters by number can write one half of a surrogate pair, which is no
character. A text holds a private character in its place, the one `0x100000` above the number.

* `ofHalf n` : the character that stands for the half with a number.
* `codeOf c` : the number that a character stands for.
* `precedes s t` : the order of texts by these numbers.
* `isEncodable s` : a text without such halves, which alone can be encoded.
-/

namespace Concordance.Text

/-- Whether a number is that of half of a surrogate pair. -/
def isHalfCode (n : Nat) : Bool := 0xd800 ≤ n && n < 0xe000

/-- How far the character that stands for half of a pair is above it. -/
def halfShift : Nat := 0x100000

/-- The character that stands for half of a pair. -/
def ofHalf (n : Nat) : Char := Char.ofNat (n + halfShift)

/-- Whether a character stands for half of a pair. -/
def isHalf (c : Char) : Bool := isHalfCode (c.toNat - halfShift)

/-- The number that a character stands for. -/
def codeOf (c : Char) : Nat := if isHalf c then c.toNat - halfShift else c.toNat

/-- The character with a number below `0x110000`. -/
def ofCode (n : Nat) : Char := if isHalfCode n then ofHalf n else Char.ofNat n

/-- The numbers that the characters of a text stand for. -/
def codes (s : String) : List Nat := s.toList.map codeOf

/-- Whether a text comes before another, by the numbers at their first difference. -/
def precedes (s t : String) : Bool := decide (codes s < codes t)

/-- A text without halves of pairs. -/
def isEncodable (s : String) : Bool := !s.toList.any isHalf

end Concordance.Text
