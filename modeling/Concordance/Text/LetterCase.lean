import Concordance.Text.CaseTable
import Concordance.Text.Printable

/-!
Lower, upper and title case of texts, by the full mappings of Unicode.

* `lower`, `upper` : every character is mapped on its own, the capital sigma apart, whose lower case
  is the final form at the end of a word.
* `title` : a letter after a character without case goes to title case, any other to lower case; so
  a letter after an apostrophe or an underscore opens a word.
-/

namespace Concordance.Text

/-- The displacement a table of runs gives to a code point, `0` outside its runs. -/
def displacement (runs : List (Nat × Nat × Nat × Int)) (c : Nat) : Int :=
  match runs.find? fun (a, b, step, _) => a ≤ c && c ≤ b && (c - a) % step == 0 with
  | some (_, _, _, d) => d
  | none => 0

/-- The image of one character under a full case mapping. -/
def mapCase (wide : List (Nat × List Nat)) (runs : List (Nat × Nat × Nat × Int)) (c : Char) :
    List Char :=
  match wide.find? fun (a, _) => a == c.toNat with
  | some (_, image) => image.map Char.ofNat
  | none => [Char.ofNat (c.toNat + displacement runs c.toNat).toNat]

/-- A character that has a case. -/
def isCased (c : Char) : Bool :=
  if c.toNat < 128 then c.isAlpha else inRanges casedRanges c.toNat 0 casedRanges.size

/-- A character that the rule of the final sigma looks through. -/
def isTransparent (c : Char) : Bool :=
  inRanges transparentRanges c.toNat 0 transparentRanges.size

/-- Whether the first character that is not looked through has a case. -/
def meetsCased (cs : List Char) : Bool :=
  match cs.dropWhile isTransparent with
  | [] => false
  | c :: _ => isCased c

/-- The lower case of one character between the characters before it, nearest first, and those
after it. -/
def lowerAt (before : List Char) (c : Char) (after : List Char) : List Char :=
  if c.toNat < 128 then [c.toLower]
  else if c == 'Σ' then
    if meetsCased before && !meetsCased after then ['ς'] else ['σ']
  else mapCase lowerWide lowerRuns c

/-- The upper case of one character. -/
def upperOf (c : Char) : List Char :=
  if c.toNat < 128 then [c.toUpper] else mapCase upperWide upperRuns c

/-- The title case of one character. -/
def titleOf (c : Char) : List Char :=
  if c.toNat < 128 then [c.toUpper] else mapCase titleWide titleRuns c

/-- The lower case of what follows the characters of `before`, nearest first. -/
def lowerFrom (before : List Char) : List Char → List Char
  | [] => []
  | c :: cs => lowerAt before c cs ++ lowerFrom (c :: before) cs

/-- The title case of what follows the characters of `before`, nearest first. -/
def titleFrom (before : List Char) : List Char → List Char
  | [] => []
  | c :: cs =>
    (if before.head?.any isCased then lowerAt before c cs else titleOf c) ++
      titleFrom (c :: before) cs

/-- A text in lower case. -/
def lower (s : String) : String := String.ofList (lowerFrom [] s.toList)

/-- A text in upper case. -/
def upper (s : String) : String := String.ofList (s.toList.flatMap upperOf)

/-- A text with every word opened by a capital. -/
def title (s : String) : String := String.ofList (titleFrom [] s.toList)

end Concordance.Text
