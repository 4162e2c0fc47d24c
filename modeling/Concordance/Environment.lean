import Concordance.Text.Integer

/-!
The environment of a run: named texts, and what is read off them.

* `Environment.get?` : the text of a variable.
* `Environment.terminalWidth` : the columns of the terminal, 80 if they are not known.
-/

namespace Concordance

/-- The variables of a run. -/
structure Environment where
  entries : List (String × String) := []
  deriving DecidableEq, Repr, Inhabited

namespace Environment

/-- The text of a variable. -/
def get? (e : Environment) (name : String) : Option String :=
  (e.entries.find? (·.1 == name)).map (·.2)

/-- The text of a variable, empty if it is not set. -/
def getText (e : Environment) (name : String) : String := (e.get? name).getD ""

/-- The width that is assumed where none is known. -/
def defaultWidth : Nat := 80

/-- The columns of the terminal. -/
def terminalWidth (e : Environment) : Nat :=
  match (e.get? "COLUMNS").bind Text.integer? with
  | some n => if 0 < n then n.toNat else defaultWidth
  | none => defaultWidth

end Environment
end Concordance
