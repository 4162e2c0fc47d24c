import Concordance.Environment
import Concordance.Text.LetterCase
import Concordance.Text.Search

/-!
The symbols that reports are drawn with.

* `SymbolSet` : two marks, the pieces of the borders of tables, and an ellipsis; `SymbolSet.unicode`
  and `SymbolSet.ascii` are the two that exist.
* `Environment.supportsUnicode` : whether the terminal can be trusted with more than ASCII.
* `SymbolSet.choose` : the set by preference, or else by the terminal.
-/

namespace Concordance

/-- The symbols that reports are drawn with. -/
structure SymbolSet where
  checkPass : String
  checkFail : String
  boxH : String
  boxV : String
  boxTopLeft : String
  boxTopRight : String
  boxBottomLeft : String
  boxBottomRight : String
  boxCross : String
  boxDown : String
  boxUp : String
  boxRight : String
  boxLeft : String
  ellipsis : String
  deriving DecidableEq, Repr, Inhabited

/-- Lines and marks beyond ASCII. -/
def SymbolSet.unicode : SymbolSet where
  checkPass := "✓"
  checkFail := "✗"
  boxH := "─"
  boxV := "│"
  boxTopLeft := "┌"
  boxTopRight := "┐"
  boxBottomLeft := "└"
  boxBottomRight := "┘"
  boxCross := "┼"
  boxDown := "┬"
  boxUp := "┴"
  boxRight := "├"
  boxLeft := "┤"
  ellipsis := "…"

/-- Lines and marks in ASCII. -/
def SymbolSet.ascii : SymbolSet where
  checkPass := "[OK]"
  checkFail := "[X]"
  boxH := "-"
  boxV := "|"
  boxTopLeft := "+"
  boxTopRight := "+"
  boxBottomLeft := "+"
  boxBottomRight := "+"
  boxCross := "+"
  boxDown := "+"
  boxUp := "+"
  boxRight := "+"
  boxLeft := "+"
  ellipsis := "..."

/-- Whether a text holds one of some words, in any case. -/
def mentionsAny (words : List String) (s : String) : Bool :=
  words.any fun w => Text.occursIn w.toList (Text.lower s).toList

/-- Whether the terminal can be trusted with more than ASCII: the environment does not forbid it,
and the encoding of the output, if it is known, or the locale names a Unicode encoding. -/
def Environment.supportsUnicode (e : Environment) (encoding : Option String) : Bool :=
  if ["1", "true", "yes"].contains (Text.lower (e.getText "PROCINDEX_ASCII_ONLY")) then false
  else if encoding.any (mentionsAny ["utf"]) then true
  else ["LANG", "LC_ALL"].any fun name => mentionsAny ["utf-8", "utf8"] (e.getText name)

/-- The set by preference; any preference but the two that are named leaves it to the terminal. -/
def SymbolSet.choose (e : Environment) (encoding : Option String) (preference : String) :
    SymbolSet :=
  if preference == "unicode" then unicode
  else if preference == "ascii" then ascii
  else if e.supportsUnicode encoding then unicode
  else ascii

end Concordance
