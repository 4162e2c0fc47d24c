import Concordance.Text.Quoted
import Concordance.Yaml.Scalar

/-!
A page that YAML is written on, and the styles of its scalars.

* `Page` : what is written so far, with the column and two marks that decide about blanks and line
  breaks.
* `Style.choose` : a scalar is plain if its form gives it its tag and no character of it could be
  taken for an indicator, else in single quotes if it can be, else in double quotes; binary data is
  literal.
* `Page.scalar` : writes a scalar in its style. Quoted and plain text is folded at blanks behind
  column 80; double quotes show nothing but visible ASCII, the rest is escaped.
-/

namespace Concordance.Yaml

/-! ### The page -/

/-- What is written so far. -/
structure Page where
  /-- The characters, the last one first. -/
  written : List Char := []
  column : Nat := 0
  /-- Blanks or nothing precede on the line, so that the next mark needs no blank before it. -/
  blank : Bool := true
  /-- Only indentation and marks of collections are on the line. -/
  fresh : Bool := true
  deriving Inhabited

namespace Page

/-- The column behind which text is folded. -/
def bestWidth : Nat := 80

/-- The page with some characters more. -/
def put (p : Page) (cs : List Char) : Page :=
  { p with written := cs.reverse ++ p.written, column := p.column + cs.length }

/-- The page with a line break. -/
def break_ (p : Page) : Page :=
  { written := '\n' :: p.written, column := 0, blank := true, fresh := true }

/-- The page with an indicator, after a blank if it needs one and none precedes; `keep` tells
whether the line stays fresh. -/
def mark (p : Page) (s : String) (needsBlank keep : Bool) : Page :=
  let p := if needsBlank && !p.blank then p.put [' '] else p
  { p.put s.toList with blank := false, fresh := p.fresh && keep }

/-- The page at a column of a line on which nothing else stands. -/
def indent (p : Page) (n : Nat) : Page :=
  let p := if !p.fresh || n < p.column || (p.column == n && !p.blank) then p.break_ else p
  if p.column < n then { p.put (List.replicate (n - p.column) ' ') with blank := true } else p

/-- The text on a page. -/
def text (p : Page) : String := String.ofList p.written.reverse

end Page

/-! ### Styles -/

/-- How a scalar is written. -/
inductive Style where
  | plain
  | single
  | double
  | literal
  deriving DecidableEq, Repr, Inhabited

namespace Style

/-- A line break inside a scalar; a return is not one. -/
def isInnerBreak (c : Char) : Bool := isBreak c && c != '\r'

/-- Whether a character can be shown unescaped. -/
def isVisible (c : Char) : Bool := ' ' ≤ c && c ≤ '~'

/-- Whether two neighbours satisfy two tests. -/
def adjacent (p q : Char → Bool) : List Char → Bool
  | c :: d :: cs => (p c && q d) || adjacent p q (d :: cs)
  | _ => false

/-- Whether a colon before a blank, or a hash after one, is among the characters. -/
def marksInside (afterBlank : Bool) : List Char → Bool
  | [] => false
  | c :: cs =>
    (c == ':' && cs.head?.all isWhite) || (c == '#' && afterBlank) || marksInside (isWhite c) cs

/-- Whether the first characters could be taken for an indicator. -/
def marksAhead : List Char → Bool
  | '-' :: '-' :: '-' :: _ => true
  | '.' :: '.' :: '.' :: _ => true
  | c :: cs =>
    "#,[]\x7b\x7d&*!|>'\"%@\x60".toList.contains c ||
      ((c == '?' || c == '-') && cs.head?.all isWhite)
  | [] => false

/-- Whether a character at either end is a blank or a line break. -/
def hasLooseEnd (cs : List Char) : Bool :=
  let loose (c : Char) : Bool := c == ' ' || isInnerBreak c
  cs.head?.any loose || cs.getLast?.any loose

/-- Whether single quotes can hold the characters: all are visible or line feeds, and no blank is
next to a line feed. -/
def allowsSingle (cs : List Char) : Bool :=
  let isBlank (c : Char) : Bool := c == ' '
  cs.all (fun c => isVisible c || c == '\n') && !adjacent isBlank isInnerBreak cs &&
    !adjacent isInnerBreak isBlank cs

/-- Whether the characters can stand without quotes. -/
def allowsPlain (cs : List Char) : Bool :=
  cs.all isVisible && !hasLooseEnd cs && !marksAhead cs && !marksInside true cs

/-- The style of a scalar. -/
def choose (tag : Tag) (text : String) : Style :=
  let cs := text.toList
  if tag == .binary then (if cs.isEmpty then .double else .literal)
  else if Tag.ofPlain text == tag && allowsPlain cs then .plain
  else if allowsSingle cs then .single
  else .double

end Style

/-! ### Scalars -/

namespace Page

/-- The escape of a character in double quotes. -/
def escape (c : Char) : List Char :=
  let short : List (Char × Char) := [('\x00', '0'), ('\x07', 'a'), ('\x08', 'b'), ('\t', 't'),
    ('\n', 'n'), ('\x0b', 'v'), ('\x0c', 'f'), ('\r', 'r'), ('\x1b', 'e'), ('"', '"'),
    ('\\', '\\'), ('\x85', 'N'), ('\xa0', '_'), ('\u2028', 'L'), ('\u2029', 'P')]
  let code := Text.codeOf c
  let hex (width : Nat) : List Char := (Text.hexOf code width).map Char.toUpper
  match short.find? (·.1 == c) with
  | some (_, e) => ['\\', e]
  | none =>
    if code ≤ 0xff then '\\' :: 'x' :: hex 2
    else if code ≤ 0xffff then '\\' :: 'u' :: hex 4
    else '\\' :: 'U' :: hex 8

/-- Whether a character is escaped in double quotes. -/
def isEscaped (c : Char) : Bool := c == '"' || c == '\\' || !Style.isVisible c

/-- Folds a line inside double quotes; a blank that would open the next line is escaped. -/
def foldDouble (p : Page) (n : Nat) (next : Option Char) : Page :=
  let p := { (p.put ['\\']).indent n with blank := false, fresh := false }
  if next == some ' ' then p.put ['\\'] else p

/-- The inside of double quotes. `opening` tells that no character came before, `escaped` that the
one before was escaped. -/
def doubleFrom (n : Nat) (fold opening escaped : Bool) : List Char → Page → Page
  | [], p => p
  | c :: cs, p =>
    let mayFold := fold && !opening && !cs.isEmpty
    if isEscaped c then
      let p := p.put (escape c)
      let p := if mayFold && bestWidth < p.column - 1 then p.foldDouble n cs.head? else p
      doubleFrom n fold false true cs p
    else
      let p := if mayFold && (c == ' ' || escaped) && bestWidth < p.column then
        p.foldDouble n (some c) else p
      doubleFrom n fold false false cs (p.put [c])

/-- The classes of characters that runs are made of: blanks, line feeds, and others. -/
def runClass (c : Char) : Nat := if c == ' ' then 0 else if c == '\n' then 1 else 2

/-- The runs of characters of one class. -/
def runs (cs : List Char) : List (List Char) := cs.splitBy fun c d => runClass c == runClass d

/-- The runs of plain or single-quoted text. A single blank between words is where a line may be
folded; line feeds are doubled into an empty line. -/
def runsFrom (n : Nat) (fold quoted opening : Bool) : List (List Char) → Page → Page
  | [], p => p
  | run :: rest, p =>
    let p :=
      match run with
      | [' '] =>
        if fold && !opening && !rest.isEmpty && bestWidth < p.column then
          let p := p.indent n
          if quoted then p else { p with blank := false, fresh := false }
        else p.put run
      | '\n' :: _ => ((run.foldl (fun p _ => p.break_) p.break_).indent n)
      | _ => p.put (if quoted then run.flatMap fun c => if c == '\'' then ['\'', '\''] else [c]
          else run)
    runsFrom n fold quoted false rest p

/-- The lines of a literal scalar, each ended by a line feed. -/
def literalLines (n : Nat) (cs : List Char) (p : Page) : Page :=
  ((Text.pieces (· == '\n') cs).dropLast).foldl (fun p l => ((p.indent n).put l).break_) p

/-- The page with a scalar; `fold` allows that its lines are folded, to the column `n`. -/
def scalar (p : Page) (style : Style) (text : String) (n : Nat) (fold : Bool) : Page :=
  let cs := text.toList
  match style with
  | .plain =>
    if cs.isEmpty then p
    else
      let p := if p.blank then p else p.put [' ']
      runsFrom n fold false true (runs cs) { p with blank := false, fresh := false }
  | .single => (runsFrom n fold true true (runs cs) (p.mark "'" true false)).mark "'" false false
  | .double => (doubleFrom n fold true false cs (p.mark "\"" true false)).mark "\"" false false
  | .literal => literalLines n cs (p.mark "|" true false).break_

end Page
end Concordance.Yaml
