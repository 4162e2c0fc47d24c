/-!
A place in a text that is read as YAML.

* `Cursor` : the characters ahead, with the number of characters and of line breaks passed, and the
  column; the end of the text reads as the character zero, which no YAML text holds.
* `Cursor.advance`, `Cursor.skip`, `Cursor.take` : moving on.
* `Cursor.lineBreak` : passes one line break and gives it in normal form.
* `Failure` : what can be wrong with a YAML text.
-/

namespace Concordance.Yaml

/-- What can be wrong with a YAML text: it is malformed, or a scalar of it has the form of a type
without a value of that type. -/
inductive Failure where
  | malformed
  | badValue
  | overflow
  /-- A word that was to be a truth value. -/
  | noTruthValue (word : String)
  | noAttribute
  /-- A number without a character. -/
  | noMember
  /-- A moment that is given as the value of a mapping. -/
  | illTyped
  /-- Collections inside collections beyond the depth that is read. -/
  | tooDeep
  deriving DecidableEq, Repr, Inhabited

/-- The four characters that end a line, and the return that may come before one. -/
def isBreak (c : Char) : Bool :=
  c == '\r' || c == '\n' || c == '\x85' || c == '\u2028' || c == '\u2029'

/-- A line break, or the end of the text. -/
def isBreakOrEnd (c : Char) : Bool := c == '\x00' || isBreak c

/-- A blank, a line break, or the end of the text. -/
def isSpaceOrEnd (c : Char) : Bool := c == ' ' || isBreakOrEnd c

/-- A blank, a tab, a line break, or the end of the text. -/
def isWhite (c : Char) : Bool := c == '\t' || isSpaceOrEnd c

/-- A letter, a digit, a hyphen or an underscore. -/
def isWordChar (c : Char) : Bool := c.isAlphanum || c == '-' || c == '_'

/-- A place in a text. -/
structure Cursor where
  rest : List Char
  /-- The length of the whole text, which bounds every loop over what is ahead. -/
  size : Nat := rest.length
  index : Nat := 0
  line : Nat := 0
  column : Nat := 0
  deriving Inhabited

namespace Cursor

/-- The character ahead. -/
def peek (c : Cursor) : Char := c.rest.headD '\x00'

/-- The character at a distance. -/
def peekAt (c : Cursor) (k : Nat) : Char := c.rest.getD k '\x00'

/-- The place after one character. A byte-order mark has no width. -/
def advance (c : Cursor) : Cursor :=
  match c.rest with
  | [] => c
  | ch :: rest =>
    if isBreak ch && !(ch == '\r' && rest.head? == some '\n') then
      { c with rest, index := c.index + 1, line := c.line + 1, column := 0 }
    else if ch == '\ufeff' then { c with rest, index := c.index + 1 }
    else { c with rest, index := c.index + 1, column := c.column + 1 }

/-- The place after some characters. -/
def skip (c : Cursor) : Nat → Cursor
  | 0 => c
  | k + 1 => c.advance.skip k

/-- The longest run of characters that satisfy a test, and the place after it. -/
def take (c : Cursor) (p : Char → Bool) : List Char × Cursor :=
  let run := c.rest.takeWhile p
  (run, c.skip run.length)

/-- The place after the longest run of characters that satisfy a test. -/
def pass (c : Cursor) (p : Char → Bool) : Cursor := (c.take p).2

/-- The place after the blanks ahead. -/
def passBlanks (c : Cursor) : Cursor := c.pass (· == ' ')

/-- Passes one line break, if one is ahead, and gives it in normal form. -/
def lineBreak (c : Cursor) : List Char × Cursor :=
  let ch := c.peek
  if ch == '\r' && c.peekAt 1 == '\n' then (['\n'], c.skip 2)
  else if ch == '\r' || ch == '\n' || ch == '\x85' then (['\n'], c.advance)
  else if ch == '\u2028' || ch == '\u2029' then ([ch], c.advance)
  else ([], c)

/-- Whether three equal characters and a white one are ahead. -/
def threeThen (c : Cursor) (ch : Char) : Bool :=
  c.peek == ch && c.peekAt 1 == ch && c.peekAt 2 == ch && isWhite (c.peekAt 3)

/-- Whether a document marker is ahead. -/
def atMarker (c : Cursor) : Bool := c.threeThen '-' || c.threeThen '.'

/-- The place after a comment, if one is ahead. -/
def passComment (c : Cursor) : Cursor :=
  if c.peek == '#' then c.pass fun ch => !isBreakOrEnd ch else c

/-- The place after what may end a line without meaning: blanks, a comment, the line break. -/
def endOfLine (c : Cursor) : Except Failure Cursor :=
  let c := c.passBlanks.passComment
  if isBreakOrEnd c.peek then .ok c.lineBreak.2 else .error .malformed

end Cursor
end Concordance.Yaml
