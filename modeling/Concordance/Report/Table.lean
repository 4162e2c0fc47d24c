import Concordance.Binary64
import Concordance.Report.Symbols

/-!
Tables with borders, fitted into a terminal.

* `Canvas` : the symbols to draw with, the width of the terminal, and whether nothing is cut.
* `Canvas.cut` : a text cut to a length, its end replaced by the ellipsis.
* `Table` : a header and rows of cells.
* `Table.naturalWidths`, `Canvas.fit` : the width that each column asks for, and the widths scaled
  down to the terminal where they ask for too much; a scaled column keeps at least four characters.
* `Canvas.border`, `Canvas.row`, `Canvas.draw` : the lines of a table.
-/

namespace Concordance

/-- What tables are drawn on. -/
structure Canvas where
  symbols : SymbolSet
  width : Int
  /-- Nothing is cut or scaled. -/
  full : Bool := false
  deriving DecidableEq, Repr, Inhabited

/-- A header and rows of cells; a row may have fewer cells or more. -/
structure Table where
  header : List String
  rows : List (List String)
  deriving DecidableEq, Repr, Inhabited

/-! ### Widths -/

/-- The widths of columns, widened for the cells of a row. -/
def widen : List Nat → List String → List Nat
  | w :: ws, c :: cs => max w c.length :: widen ws cs
  | ws, _ => ws

/-- The width of the widest cell of each column that has a header. -/
def Table.naturalWidths (t : Table) : List Nat := t.rows.foldl widen (t.header.map String.length)

/-- The width of several columns together. -/
def totalWidth (ws : List Nat) : Nat := ws.foldr (· + ·) 0

/-- The least width of a column that is scaled down. -/
def leastWidth : Nat := 4

/-- A width times the quotient of two others, in doubles, rounded down. -/
def scaledWidth (available total w : Nat) : Nat :=
  (((Binary64.ofInt w).mul (.ofRatio false available total)).truncate?.getD 0).toNat

namespace Canvas

/-- The width that is left for the cells of so many columns, once the borders are drawn. -/
def available (c : Canvas) (columns : Nat) : Int := c.width - (columns + 1)

/-- The widths of columns, scaled down together if they ask for more than there is. -/
def fit (c : Canvas) (ws : List Nat) : List Nat :=
  let room := c.available ws.length
  if c.full then ws
  else if 0 < room ∧ room < totalWidth ws then
    ws.map fun w => max leastWidth (scaledWidth room.toNat (totalWidth ws) w)
  else ws

/-! ### Text in columns -/

/-- The first characters of a text: so many, or all but so many if the number is negative. -/
def firstChars (n : Int) (s : String) : String :=
  if 0 ≤ n then String.ofList (s.toList.take n.toNat)
  else String.ofList (s.toList.take (s.length - n.natAbs))

/-- A text cut to a length, its end replaced by the ellipsis if the length leaves room for it. -/
def cut (c : Canvas) (s : String) (length : Int) : String :=
  if c.full || s.length ≤ length || s == "" then s
  else if length ≤ c.symbols.ellipsis.length then firstChars length s
  else firstChars (length - c.symbols.ellipsis.length) s ++ c.symbols.ellipsis

/-- The length that texts outside tables are cut to. -/
def defaultLength (c : Canvas) : Int := max 20 (c.width - 10)

/-- A text followed by blanks up to a length. -/
def padded (s : String) (length : Nat) : String :=
  s ++ String.ofList (List.replicate (length - s.length) ' ')

/-- A cell of a width. -/
def cell (c : Canvas) (s : String) (w : Nat) : String := padded (c.cut s w) w

/-! ### Lines -/

/-- A border line between its ends, with the piece `cross` where columns meet. -/
def border (c : Canvas) (left cross right : String) (ws : List Nat) : String :=
  let pieces := ws.map fun w => String.join (List.replicate w c.symbols.boxH)
  left ++ cross.intercalate pieces ++ (if ws.isEmpty then "" else right)

/-- The line above the header. -/
def top (c : Canvas) : List Nat → String :=
  c.border c.symbols.boxTopLeft c.symbols.boxDown c.symbols.boxTopRight

/-- The line below the header. -/
def middle (c : Canvas) : List Nat → String :=
  c.border c.symbols.boxRight c.symbols.boxCross c.symbols.boxLeft

/-- The line below the last row. -/
def bottom (c : Canvas) : List Nat → String :=
  c.border c.symbols.boxBottomLeft c.symbols.boxUp c.symbols.boxBottomRight

/-- A line of cells; a cell without a column is left out. -/
def row (c : Canvas) (ws : List Nat) (cells : List String) : String :=
  c.symbols.boxV ++
    String.join ((cells.zip ws).map fun (s, w) => c.cell s w ++ c.symbols.boxV)

/-- The lines of a table. -/
def draw (c : Canvas) (t : Table) : List String :=
  let ws := c.fit t.naturalWidths
  [c.top ws, c.row ws t.header, c.middle ws] ++ t.rows.map (c.row ws) ++ [c.bottom ws]

end Canvas
end Concordance
