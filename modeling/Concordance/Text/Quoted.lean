import Concordance.Text.Printable
import Concordance.Text.Surrogate

/-!
Quoted forms: how a text or a run of bytes is written inside a larger value.

* `Quoted.text s` : between single quotes, or between double quotes when `s` holds a single quote
  and no double one; the quote in use, the backslash and hidden characters are escaped.
* `Quoted.bytes bs` : the same for bytes, behind a `b`, where every byte outside the visible ASCII
  range is escaped.
-/

namespace Concordance.Text

/-- One hexadecimal digit, in lower case. -/
def hexDigit (n : Nat) : Char :=
  if n < 10 then Char.ofNat (n + 48) else Char.ofNat (n + 87)

/-- The last `width` hexadecimal digits of a number, in lower case. -/
def hexOf (n : Nat) : Nat → List Char
  | 0 => []
  | width + 1 => hexOf (n / 16) width ++ [hexDigit (n % 16)]

namespace Quoted

/-- The quote that encloses a text: double only if it spares an escape. -/
def quoteFor (cs : List Char) : Char :=
  if cs.contains '\'' && !cs.contains '"' then '"' else '\''

/-- The escape of a code point that is not shown, by its size. -/
def escape (n : Nat) : List Char :=
  if n ≤ 0xff then '\\' :: 'x' :: hexOf n 2
  else if n ≤ 0xffff then '\\' :: 'u' :: hexOf n 4
  else '\\' :: 'U' :: hexOf n 8

/-- One character between the quotes. -/
def char (quote c : Char) : List Char :=
  if c == quote || c == '\\' then ['\\', c]
  else if c == '\n' then ['\\', 'n']
  else if c == '\r' then ['\\', 'r']
  else if c == '\t' then ['\\', 't']
  else if isShown c then [c]
  else escape (codeOf c)

/-- A text in quotes. -/
def text (s : String) : String :=
  let cs := s.toList
  let q := quoteFor cs
  String.ofList (q :: (cs.flatMap (char q) ++ [q]))

/-- One byte between the quotes. -/
def byte (quote : Char) (b : UInt8) : List Char :=
  let c := Char.ofNat b.toNat
  if b.toNat < 0x7f then char quote c else escape b.toNat

/-- A run of bytes in quotes. -/
def bytes (bs : List UInt8) : String :=
  let q := quoteFor (bs.map fun b => Char.ofNat b.toNat)
  String.ofList ('b' :: q :: (bs.flatMap (byte q) ++ [q]))

end Quoted
end Concordance.Text
