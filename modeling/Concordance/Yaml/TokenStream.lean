import Concordance.Yaml.Token

/-!
The token stream of a YAML text.

* `Lexer` : the place in the text, the tokens ahead, the open indentations and brackets, and the
  places where a key of a mapping may have begun; the key token is put there once its colon is met.
* `Lexer.fetch` : one more token.
* `Lexer.fill` : makes sure of the token ahead. No more of the text is looked at than that takes, so
  that a fault further on does not count before it is reached.
* `Lexer.ofText?` : the beginning of a text.
-/

namespace Concordance.Yaml

/-- A place where the key of a mapping may have begun. -/
structure KeyPlace where
  level : Nat
  token : Nat
  required : Bool
  index : Nat
  line : Nat
  column : Nat
  deriving Inhabited

/-- The state of the scanner. -/
structure Lexer where
  cursor : Cursor
  /-- The tokens ahead. -/
  tokens : List Token := []
  /-- The number of tokens that were taken. -/
  taken : Nat := 0
  level : Nat := 0
  indent : Int := -1
  indents : List Int := []
  keyAllowed : Bool := true
  places : List KeyPlace := []
  done : Bool := false
  deriving Inhabited

namespace Lexer

/-- Adds a token. -/
def push (l : Lexer) (t : Token) : Lexer := { l with tokens := l.tokens ++ [t] }

/-- Puts a token before the one with a number. -/
def insertAt (l : Lexer) (number : Nat) (t : Token) : Lexer :=
  let i := number - l.taken
  { l with tokens := l.tokens.take i ++ t :: l.tokens.drop i }

/-- Forgets the places too far back: a key lies on one line and within 1024 characters. A place
where a key had to begin is a fault. -/
def dropStale (l : Lexer) : Except Failure Lexer :=
  let stale (k : KeyPlace) : Bool := k.line != l.cursor.line || 1024 < l.cursor.index - k.index
  if l.places.any fun k => stale k && k.required then .error .malformed
  else .ok { l with places := l.places.filter fun k => !stale k }

/-- Forgets the place at the present level. -/
def dropPlace (l : Lexer) : Except Failure Lexer :=
  if l.places.any fun k => k.level == l.level && k.required then .error .malformed
  else .ok { l with places := l.places.filter fun k => k.level != l.level }

/-- Notes that a key may begin here. -/
def notePlace (l : Lexer) : Except Failure Lexer :=
  if l.keyAllowed then do
    let l ← l.dropPlace
    let c := l.cursor
    let place : KeyPlace :=
      { level := l.level, token := l.taken + l.tokens.length,
        required := l.level == 0 && l.indent == (c.column : Int),
        index := c.index, line := c.line, column := c.column }
    pure { l with places := l.places ++ [place] }
  else .ok l

/-- Closes the blocks that are indented beyond a column. -/
def unwind (column : Int) : List Int → Lexer → Lexer
  | [], l => l
  | outer :: indents, l =>
    if column < l.indent then
      unwind column indents ({ l with indent := outer, indents }.push .blockEnd)
    else l

/-- Closes blocks, outside brackets. -/
def unwindTo (l : Lexer) (column : Int) : Lexer :=
  if l.level = 0 then unwind column l.indents l else l

/-- Opens a block at a column that is indented beyond the present one; tells whether it did. -/
def openBlock (l : Lexer) (column : Nat) : Lexer × Bool :=
  if l.indent < (column : Int) then
    ({ l with indents := l.indent :: l.indents, indent := column }, true)
  else (l, false)

/-- Passes some characters. -/
def pass (l : Lexer) (n : Nat) : Lexer := { l with cursor := l.cursor.skip n }

/-- The place of the next token: after blanks, comments and line breaks. Outside brackets a key may
begin after a line break. -/
def toNext : Nat → Lexer → Lexer
  | 0, l => l
  | fuel + 1, l =>
    let c := l.cursor.passBlanks.passComment
    if isBreak c.peek then
      toNext fuel { l with cursor := c.lineBreak.2, keyAllowed := l.keyAllowed || l.level == 0 }
    else { l with cursor := c }

/-- Passes a byte-order mark at the start of the text. -/
def passMark (l : Lexer) : Lexer :=
  if l.cursor.index = 0 ∧ l.cursor.peek = '\ufeff' then l.pass 1 else l

/-! ### Kinds of tokens -/

/-- The end of the text. -/
def fetchEnd (l : Lexer) : Except Failure Lexer := do
  let l ← (l.unwindTo (-1)).dropPlace
  pure { l.push .streamEnd with keyAllowed := false, places := [], done := true }

/-- A directive. -/
def fetchDirective (l : Lexer) : Except Failure Lexer := do
  let l ← (l.unwindTo (-1)).dropPlace
  let (t, cursor) ← Token.directive l.cursor
  pure { l.push t with keyAllowed := false, cursor }

/-- A document marker. -/
def fetchMarker (l : Lexer) (t : Token) : Except Failure Lexer := do
  let l ← (l.unwindTo (-1)).dropPlace
  pure ({ l with keyAllowed := false }.push t |>.pass 3)

/-- An opening bracket. -/
def fetchOpen (l : Lexer) (t : Token) : Except Failure Lexer := do
  let l ← l.notePlace
  pure ({ l with level := l.level + 1, keyAllowed := true }.push t |>.pass 1)

/-- A closing bracket. -/
def fetchClose (l : Lexer) (t : Token) : Except Failure Lexer := do
  let l ← l.dropPlace
  pure ({ l with level := l.level - 1, keyAllowed := false }.push t |>.pass 1)

/-- A comma between brackets. -/
def fetchComma (l : Lexer) : Except Failure Lexer := do
  let l ← { l with keyAllowed := true }.dropPlace
  pure (l.push .flowEntry |>.pass 1)

/-- A hyphen that begins an entry of a sequence. -/
def fetchEntry (l : Lexer) : Except Failure Lexer := do
  let l ←
    if l.level = 0 then
      if !l.keyAllowed then throw .malformed
      else
        let (l, opened) := l.openBlock l.cursor.column
        pure (if opened then l.push .blockSequenceStart else l)
    else pure l
  let l ← { l with keyAllowed := true }.dropPlace
  pure (l.push .blockEntry |>.pass 1)

/-- Opens a block mapping at the present column, where keys are allowed. -/
def openMapping (l : Lexer) : Except Failure Lexer :=
  if l.level = 0 then
    if !l.keyAllowed then .error .malformed
    else
      let (l, opened) := l.openBlock l.cursor.column
      .ok (if opened then l.push .blockMappingStart else l)
  else .ok l

/-- A question mark that begins a key. -/
def fetchKey (l : Lexer) : Except Failure Lexer := do
  let l ← l.openMapping
  let l ← { l with keyAllowed := l.level == 0 }.dropPlace
  pure (l.push .key |>.pass 1)

/-- A colon: what stood at the place of a possible key was one. -/
def fetchValue (l : Lexer) : Except Failure Lexer := do
  match l.places.find? fun k => k.level == l.level with
  | some k =>
    let l := { l with places := l.places.filter fun k => k.level != l.level }
    let l := l.insertAt k.token .key
    let l :=
      if l.level = 0 then
        let (l, opened) := l.openBlock k.column
        if opened then l.insertAt k.token .blockMappingStart else l
      else l
    pure ({ l with keyAllowed := false }.push .value |>.pass 1)
  | none =>
    let l ← l.openMapping
    let l ← { l with keyAllowed := l.level == 0 }.dropPlace
    pure (l.push .value |>.pass 1)

/-- A token that may be a key itself. -/
def fetchWith (l : Lexer) (scan : Cursor → Except Failure (Scanned Token)) :
    Except Failure Lexer := do
  let l ← l.notePlace
  let (t, cursor) ← scan l.cursor
  pure { l.push t with keyAllowed := false, cursor }

/-- A block scalar. -/
def fetchBlockScalar (l : Lexer) (folded : Bool) : Except Failure Lexer := do
  let l ← { l with keyAllowed := true }.dropPlace
  let (t, cursor) ← Token.blockScalar folded l.indent l.cursor
  pure { l.push t with cursor }

/-- A plain scalar; a key may begin after it if a line has ended. -/
def fetchPlain (l : Lexer) : Except Failure Lexer := do
  let l ← l.notePlace
  let (t, ended, cursor) := Token.plainScalar (l.level != 0) l.indent l.cursor
  pure { l.push t with keyAllowed := ended, cursor }

/-- Whether a plain scalar begins here. -/
def beginsPlain (l : Lexer) : Bool :=
  let ch := l.cursor.peek
  let next := l.cursor.peekAt 1
  !(isWhite ch || "-?:,[]\x7b\x7d#&*!|>'\"%@`".toList.contains ch) ||
    (!isWhite next && (ch == '-' || (l.level == 0 && (ch == '?' || ch == ':'))))

/-- The next token, by its first characters. -/
def fetchToken (l : Lexer) : Except Failure Lexer :=
  let c := l.cursor
  let ch := c.peek
  let block := l.level == 0
  let alone := isWhite (c.peekAt 1)
  if ch == '\x00' then l.fetchEnd
  else if ch == '%' && c.column == 0 then l.fetchDirective
  else if c.column == 0 && c.threeThen '-' then l.fetchMarker .documentStart
  else if c.column == 0 && c.threeThen '.' then l.fetchMarker .documentEnd
  else if ch == '[' then l.fetchOpen .flowSequenceStart
  else if ch == '\x7b' then l.fetchOpen .flowMappingStart
  else if ch == ']' then l.fetchClose .flowSequenceEnd
  else if ch == '\x7d' then l.fetchClose .flowMappingEnd
  else if ch == ',' then l.fetchComma
  else if ch == '-' && alone then l.fetchEntry
  else if ch == '?' && (!block || alone) then l.fetchKey
  else if ch == ':' && (!block || alone) then l.fetchValue
  else if ch == '*' then l.fetchWith (Token.anchored .alias)
  else if ch == '&' then l.fetchWith (Token.anchored .anchor)
  else if ch == '!' then l.fetchWith Token.tagged
  else if ch == '|' && block then l.fetchBlockScalar false
  else if ch == '>' && block then l.fetchBlockScalar true
  else if ch == '\'' then l.fetchWith (Token.quoted false)
  else if ch == '"' then l.fetchWith (Token.quoted true)
  else if l.beginsPlain then l.fetchPlain
  else .error .malformed

/-- One more token: blanks are passed, and blocks that end here are closed. -/
def fetch (l : Lexer) : Except Failure Lexer := do
  let l := l.passMark
  let l := toNext (l.cursor.size + 1) l
  let l ← l.dropStale
  (l.unwindTo l.cursor.column).fetchToken

/-- The number of the first token that may still turn out to be a key. -/
def firstPlace? (l : Lexer) : Option Nat := (l.places.map (·.token)).min?

/-- Makes sure of the token ahead: tokens are fetched while there is none, or while the one ahead
may still turn out to be a key. The fuel bounds their number. -/
def fill : Nat → Lexer → Except Failure Lexer
  | 0, _ => .error .malformed
  | fuel + 1, l => do
    if l.done then pure l
    else if l.tokens.isEmpty then fill fuel (← l.fetch)
    else
      let l ← l.dropStale
      if l.firstPlace? == some l.taken then fill fuel (← l.fetch) else pure l

/-- Takes the token ahead. -/
def take (l : Lexer) : Lexer := { l with tokens := l.tokens.tail, taken := l.taken + 1 }

end Lexer

/-- The characters a YAML text may hold. -/
def isAdmitted (c : Char) : Bool :=
  let n := c.toNat
  n == 9 || n == 10 || n == 13 || (0x20 ≤ n && n ≤ 0x7e) || n == 0x85 ||
    (0xa0 ≤ n && n ≤ 0xfffd) || 0x10000 ≤ n

/-- The beginning of a text. -/
def Lexer.ofText? (s : String) : Except Failure Lexer :=
  let cs := s.toList
  if cs.all isAdmitted then .ok { cursor := { rest := cs } } else .error .malformed

end Concordance.Yaml
