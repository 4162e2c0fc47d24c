/-!
Blank characters and the decimal digits of all scripts.

* `isBlank c` : `c` is white space, in the wide sense of Unicode and of the four information
  separators.
* `strip` : a text without the blanks at its two ends.
* `digit? c` : the value of a decimal digit of any script.
-/

namespace Concordance.Text

/-- White space: the controls 9 to 13 and 28 to 31, and the characters of bidirectional class WS,
B or S or of category Zs. -/
def isBlank (c : Char) : Bool :=
  let n := c.toNat
  (0x9 ≤ n && n ≤ 0xd) ||
  (0x1c ≤ n && n ≤ 0x20) ||
  n == 0x85 ||
  n == 0xa0 ||
  n == 0x1680 ||
  (0x2000 ≤ n && n ≤ 0x200a) ||
  (0x2028 ≤ n && n ≤ 0x2029) ||
  n == 0x202f ||
  n == 0x205f ||
  n == 0x3000

/-- A list without the members at its two ends that satisfy a test. -/
def trimmed {α : Type} (p : α → Bool) (xs : List α) : List α :=
  ((xs.dropWhile p).reverse.dropWhile p).reverse

/-- A list of characters without the blanks at its two ends. -/
def stripChars (cs : List Char) : List Char := trimmed isBlank cs

/-- A text without the blanks at its two ends. -/
def strip (s : String) : String :=
  String.ofList (stripChars s.toList)

/-- The zeros of the scripts that have decimal digits; the nine digits above follow each. -/
def zeros : List Nat := [
  0x30, 0x660, 0x6f0, 0x7c0, 0x966, 0x9e6, 0xa66, 0xae6, 0xb66, 0xbe6,
  0xc66, 0xce6, 0xd66, 0xde6, 0xe50, 0xed0, 0xf20, 0x1040, 0x1090, 0x17e0,
  0x1810, 0x1946, 0x19d0, 0x1a80, 0x1a90, 0x1b50, 0x1bb0, 0x1c40, 0x1c50,
  0xa620, 0xa8d0, 0xa900, 0xa9d0, 0xa9f0, 0xaa50, 0xabf0, 0xff10, 0x104a0,
  0x10d30, 0x11066, 0x110f0, 0x11136, 0x111d0, 0x112f0, 0x11450, 0x114d0,
  0x11650, 0x116c0, 0x11730, 0x118e0, 0x11950, 0x11c50, 0x11d50, 0x11da0,
  0x16a60, 0x16ac0, 0x16b50, 0x1d7ce, 0x1d7d8, 0x1d7e2, 0x1d7ec, 0x1d7f6,
  0x1e140, 0x1e2f0, 0x1e950, 0x1fbf0]

/-- The value of a decimal digit of any script. -/
def digit? (c : Char) : Option Nat :=
  (zeros.find? fun z => z ≤ c.toNat && c.toNat ≤ z + 9).map (c.toNat - ·)

end Concordance.Text
