import Concordance.Text.Integer
import Concordance.Text.Surrogate
import Concordance.Yaml.Cursor

/-!
The tokens of YAML and the spellings of those that have one.

* `Token` : structure markers, which indentation or brackets open and close, and scalars, anchors,
  aliases, tags and directives.
* `Token.directive`, `Token.anchored`, `Token.tagged` : tokens read from their first character.
* `Token.quoted`, `Token.blockScalar`, `Token.plainScalar` : the three spellings of scalars, with
  the folding of their lines.
-/

namespace Concordance.Yaml

/-- The tokens of YAML. -/
inductive Token where
  | streamEnd
  | versionDirective (major : Nat)
  | tagDirective (handle lead : String)
  | otherDirective
  | documentStart
  | documentEnd
  | blockSequenceStart
  | blockMappingStart
  | blockEnd
  | flowSequenceStart
  | flowMappingStart
  | flowSequenceEnd
  | flowMappingEnd
  | key
  | value
  | blockEntry
  | flowEntry
  | alias (name : String)
  | anchor (name : String)
  | tag (handle : Option String) (suffix : String)
  | scalar (text : String) (plain : Bool)
  deriving DecidableEq, Repr, Inhabited

/-- What a scanner of one token gives: the token and the place after it. -/
abbrev Scanned (α : Type) := α × Cursor

namespace Token

/-! ### Tags and directives -/

/-- The characters of a tag. -/
def isUriChar (c : Char) : Bool :=
  c.isAlphanum || "-;/?:@&=+$,_.!~*'()[]".toList.contains c

/-- The value of a hexadecimal digit. -/
def hexValue? (c : Char) : Option Nat :=
  if '0' ≤ c ∧ c ≤ '9' then some (c.toNat - 48)
  else if 'a' ≤ c ∧ c ≤ 'f' then some (c.toNat - 87)
  else if 'A' ≤ c ∧ c ≤ 'F' then some (c.toNat - 55)
  else none

/-- The number that some hexadecimal digits ahead write. -/
def hexNumber (c : Cursor) (count : Nat) : Except Failure (Scanned Nat) := do
  let ds := c.rest.take count
  let values := ds.filterMap hexValue?
  if values.length = count then pure (values.foldl (fun n d => n * 16 + d) 0, c.skip count)
  else throw .malformed

/-- The bytes of the escapes ahead. -/
def uriBytes : Nat → Cursor → Except Failure (Scanned (List UInt8))
  | 0, c => .ok ([], c)
  | fuel + 1, c =>
    if c.peek == '%' then do
      let (n, c) ← hexNumber c.advance 2
      let (bs, c) ← uriBytes fuel c
      pure (UInt8.ofNat n :: bs, c)
    else .ok ([], c)

/-- The characters of a tag ahead. -/
def uriChars : Nat → Cursor → Except Failure (Scanned (List Char))
  | 0, c => .ok ([], c)
  | fuel + 1, c =>
    if c.peek == '%' then do
      let (bs, c) ← uriBytes (fuel + 1) c
      match String.fromUTF8? ⟨bs.toArray⟩ with
      | none => throw .malformed
      | some s =>
        let (more, c) ← uriChars fuel c
        pure (s.toList ++ more, c)
    else if isUriChar c.peek then do
      let (run, c) := c.take isUriChar
      let (more, c) ← uriChars fuel c
      pure (run ++ more, c)
    else .ok ([], c)

/-- A tag or the beginning of one: at least one character. -/
def uri (c : Cursor) : Except Failure (Scanned String) := do
  let (cs, d) ← uriChars (c.size + 1) c
  if d.index = c.index then throw .malformed else pure (String.ofList cs, d)

/-- The handle of a tag: one exclamation mark, or a word between two. -/
def tagHandle (c : Cursor) : Except Failure (Scanned String) := do
  if c.peek != '!' then throw .malformed
  if c.peekAt 1 == ' ' then pure ("!", c.advance)
  else
    let (word, d) := c.advance.take isWordChar
    if d.peek == '!' then pure (String.ofList ('!' :: (word ++ ['!'])), d.advance)
    else throw .malformed

/-- Whether a tag has a handle: an exclamation mark comes before the next blank. -/
def hasHandle (c : Cursor) : Bool :=
  ((c.rest.drop 1).takeWhile fun ch => !isSpaceOrEnd ch).contains '!'

/-- A tag. -/
def tagged (c : Cursor) : Except Failure (Scanned Token) := do
  let ch := c.peekAt 1
  let (token, d) ←
    if ch == '<' then do
      let (suffix, d) ← uri (c.skip 2)
      if d.peek == '>' then pure (Token.tag none suffix, d.advance) else throw .malformed
    else if isWhite ch then pure (Token.tag none "!", c.advance)
    else do
      let (handle, d) ← if hasHandle c then tagHandle c else pure ("!", c.advance)
      let (suffix, d) ← uri d
      pure (Token.tag (some handle) suffix, d)
  if isSpaceOrEnd d.peek then pure (token, d) else throw .malformed

/-- The number ahead, of which the number of digits is bounded. -/
def number (c : Cursor) : Except Failure (Scanned Nat) := do
  let (ds, d) := c.take Char.isDigit
  if ds.isEmpty then throw .malformed
  else if Text.integerDigitLimit < ds.length then throw .badValue
  else pure (ds.foldl (fun n ch => n * 10 + (ch.toNat - 48)) 0, d)

/-- A directive. -/
def directive (c : Cursor) : Except Failure (Scanned Token) := do
  let (name, d) := c.advance.take isWordChar
  if name.isEmpty || !isSpaceOrEnd d.peek then throw .malformed
  let (token, d) ←
    match String.ofList name with
    | "YAML" => do
      let (major, d) ← number d.passBlanks
      if d.peek != '.' then throw .malformed
      let (_, d) ← number d.advance
      if isSpaceOrEnd d.peek then pure (Token.versionDirective major, d) else throw .malformed
    | "TAG" => do
      let (handle, d) ← tagHandle d.passBlanks
      if d.peek != ' ' then throw .malformed
      let (lead, d) ← uri d.passBlanks
      if isSpaceOrEnd d.peek then pure (Token.tagDirective handle lead, d) else throw .malformed
    | _ => pure (Token.otherDirective, d.pass fun ch => !isBreakOrEnd ch)
  let d ← d.endOfLine
  pure (token, d)

/-! ### Anchors and aliases -/

/-- The name of an anchor or alias after its mark. -/
def anchored (make : String → Token) (c : Cursor) : Except Failure (Scanned Token) := do
  let (name, d) := c.advance.take isWordChar
  if name.isEmpty then throw .malformed
  if isWhite d.peek || "?:,]\x7d%@\x60".toList.contains d.peek then
    pure (make (String.ofList name), d)
  else throw .malformed

/-! ### Quoted scalars -/

/-- The character of an escape of one letter. -/
def shortEscape? (c : Char) : Option Char :=
  let table : List (Char × Char) := [('0', '\x00'), ('a', '\x07'), ('b', '\x08'), ('t', '\t'),
    ('\t', '\t'), ('n', '\n'), ('v', '\x0b'), ('f', '\x0c'), ('r', '\r'), ('e', '\x1b'),
    (' ', ' '), ('"', '"'), ('\\', '\\'), ('/', '/'), ('N', '\x85'), ('_', '\xa0'),
    ('L', '\u2028'), ('P', '\u2029')]
  (table.find? (·.1 == c)).map (·.2)

/-- The number of hexadecimal digits after the letter of an escape. -/
def escapeWidth? : Char → Option Nat
  | 'x' => some 2
  | 'u' => some 4
  | 'U' => some 8
  | _ => none

/-- The character of a number. -/
def charOf (n : Nat) : Except Failure Char :=
  if 0x80000000 ≤ n then .error .overflow
  else if 0x110000 ≤ n then .error .badValue
  else .ok (Text.ofCode n)

/-- The line breaks ahead inside a quoted scalar, with the blanks that begin the lines. -/
def quotedBreaks : Nat → Cursor → Except Failure (Scanned (List Char))
  | 0, c => .ok ([], c)
  | fuel + 1, c =>
    if c.atMarker then .error .malformed
    else
      let c := c.pass fun ch => ch == ' ' || ch == '\t'
      if isBreak c.peek then do
        let (b, c) := c.lineBreak
        let (more, c) ← quotedBreaks fuel c
        pure (b ++ more, c)
      else .ok ([], c)

/-- The blanks ahead inside a quoted scalar: a single line break is a blank, of several the first
is dropped. -/
def quotedSpaces (c : Cursor) : Except Failure (Scanned (List Char)) := do
  let (run, c) := c.take fun ch => ch == ' ' || ch == '\t'
  if c.peek == '\x00' then throw .malformed
  else if isBreak c.peek then
    let (b, c) := c.lineBreak
    let (breaks, c) ← quotedBreaks (c.size + 1) c
    let first := if b != ['\n'] then b else if breaks.isEmpty then [' '] else []
    pure (first ++ breaks, c)
  else pure (run, c)

/-- An escape after its backslash. -/
def escape (c : Cursor) : Except Failure (Scanned (List Char)) := do
  let ch := c.peek
  match shortEscape? ch, escapeWidth? ch with
  | some d, _ => pure ([d], c.advance)
  | none, some width =>
    let (n, c) ← hexNumber c.advance width
    let d ← charOf n
    pure ([d], c)
  | none, none =>
    if isBreak ch then
      let (_, c) := c.lineBreak
      quotedBreaks (c.size + 1) c
    else throw .malformed

/-- The characters of a quoted scalar up to its closing quote. -/
def quotedChars (double : Bool) : Nat → Cursor → Except Failure (Scanned (List Char))
  | 0, _ => .error .malformed
  | fuel + 1, c =>
    let quote := if double then '"' else '\''
    let ch := c.peek
    if !double && ch == '\'' && c.peekAt 1 == '\'' then do
      let (more, c) ← quotedChars double fuel (c.skip 2)
      pure ('\'' :: more, c)
    else if ch == quote then .ok ([], c.advance)
    else if double && ch == '\\' then do
      let (first, c) ← escape c.advance
      let (more, c) ← quotedChars double fuel c
      pure (first ++ more, c)
    else if isWhite ch then do
      let (first, c) ← quotedSpaces c
      let (more, c) ← quotedChars double fuel c
      pure (first ++ more, c)
    else do
      let (more, c) ← quotedChars double fuel c.advance
      pure (ch :: more, c)

/-- A quoted scalar. -/
def quoted (double : Bool) (c : Cursor) : Except Failure (Scanned Token) := do
  let (cs, c) ← quotedChars double (c.size + 1) c.advance
  pure (.scalar (String.ofList cs) false, c)

/-! ### Block scalars -/

/-- What becomes of the line breaks at the end of a block scalar. -/
inductive Chomping where
  | strip
  | clip
  | keep
  deriving DecidableEq, Repr, Inhabited

/-- The chomping that a sign asks for. -/
def chomping? : Char → Option Chomping
  | '+' => some .keep
  | '-' => some .strip
  | _ => none

/-- The indentation that a digit asks for. -/
def increment? (c : Char) : Option Nat := if c.isDigit then some (c.toNat - 48) else none

/-- The header of a block scalar: chomping and indentation in either order. -/
def blockHeader (c : Cursor) : Except Failure (Scanned (Chomping × Option Nat)) := do
  let (chomping, increment, c) ←
    match chomping? c.peek with
    | some k =>
      let c := c.advance
      match increment? c.peek with
      | some n => pure (k, some n, c.advance)
      | none => pure (k, none, c)
    | none =>
      match increment? c.peek with
      | some n =>
        let c := c.advance
        match chomping? c.peek with
        | some k => pure (k, some n, c.advance)
        | none => pure (Chomping.clip, some n, c)
      | none => pure (Chomping.clip, none, c)
  if increment = some 0 || !isSpaceOrEnd c.peek then throw .malformed
  pure ((chomping, increment), c)

/-- The empty lines ahead, and the widest indentation among them. -/
def blockIndentation : Nat → Nat → Cursor → List Char × Nat × Cursor
  | 0, widest, c => ([], widest, c)
  | fuel + 1, widest, c =>
    if c.peek == ' ' then
      let c := c.advance
      blockIndentation fuel (max widest c.column) c
    else if isBreak c.peek then
      let (b, c) := c.lineBreak
      let (more, widest, c) := blockIndentation fuel widest c
      (b ++ more, widest, c)
    else ([], widest, c)

/-- The place after the blanks ahead, up to a column. -/
def toColumn (column : Nat) : Nat → Cursor → Cursor
  | 0, c => c
  | fuel + 1, c => if c.column < column && c.peek == ' ' then toColumn column fuel c.advance else c

/-- The empty lines ahead, where lines are indented by a column. -/
def blockBreaks (column : Nat) : Nat → Cursor → List Char × Cursor
  | 0, c => ([], c)
  | fuel + 1, c =>
    let c := toColumn column column c
    if isBreak c.peek then
      let (b, c) := c.lineBreak
      let (more, c) := blockBreaks column fuel c
      (b ++ more, c)
    else ([], c)

/-- The lines of a block scalar, indented by a column: the text, the last line break, and the empty
lines after it. -/
def blockLines (folded : Bool) (column : Nat) :
    Nat → List Char → Cursor → List Char × List Char × List Char × Cursor
  | 0, breaks, c => ([], [], breaks, c)
  | fuel + 1, breaks, c =>
    let solid := c.peek != ' ' && c.peek != '\t'
    let (text, c) := c.take fun ch => !isBreakOrEnd ch
    let (b, c) := c.lineBreak
    let (after, c) := blockBreaks column (c.size + 1) c
    if c.column == column && c.peek != '\x00' then
      let joint :=
        if folded && b == ['\n'] && solid && c.peek != ' ' && c.peek != '\t' then
          if after.isEmpty then [' '] else []
        else b
      let (more, last, tail, c) := blockLines folded column fuel after c
      (breaks ++ text ++ joint ++ more, last, tail, c)
    else (breaks ++ text, b, after, c)

/-- A block scalar, where the lines around it are indented by `indent`. -/
def blockScalar (folded : Bool) (indent : Int) (c : Cursor) : Except Failure (Scanned Token) := do
  let ((chomping, increment), c) ← blockHeader c.advance
  let c ← c.endOfLine
  let least := (max (indent + 1) 1).toNat
  let (breaks, column, c) :=
    match increment with
    | none =>
      let (breaks, widest, c) := blockIndentation (c.size + 1) 0 c
      (breaks, max least widest, c)
    | some n =>
      let column := least + n - 1
      let (breaks, c) := blockBreaks column (c.size + 1) c
      (breaks, column, c)
  let (text, last, tail, c) :=
    if c.column == column && c.peek != '\x00' then
      blockLines folded column (c.size + 1) breaks c
    else ([], [], breaks, c)
  let ending := match chomping with
    | .strip => []
    | .clip => last
    | .keep => last ++ tail
  pure (.scalar (String.ofList (text ++ ending)) false, c)

/-! ### Plain scalars -/

/-- A character that has a meaning of its own between brackets. -/
def isFlowChar (c : Char) : Bool := ",[]\x7b\x7d".toList.contains c

/-- The length of the run of a plain scalar ahead. -/
def plainLength (flow : Bool) : List Char → Nat
  | [] => 0
  | ch :: cs =>
    let next := cs.headD '\x00'
    if isWhite ch || (ch == ':' && (isWhite next || (flow && isFlowChar next))) ||
        (flow && (ch == '?' || isFlowChar ch)) then 0
    else plainLength flow cs + 1

/-- The line breaks and blanks ahead inside a plain scalar; none before a document marker. -/
def plainBreaks : Nat → Cursor → Option (List Char) × Cursor
  | 0, c => (some [], c)
  | fuel + 1, c =>
    if c.peek == ' ' then plainBreaks fuel c.advance
    else if isBreak c.peek then
      let (b, c) := c.lineBreak
      if c.atMarker then (none, c)
      else
        let (more, c) := plainBreaks fuel c
        (more.map (b ++ ·), c)
    else (some [], c)

/-- What joins two runs of a plain scalar: blanks as they are, a single line break as a blank, of
several all but the first. The flag tells whether a line has ended. -/
def plainSpaces (c : Cursor) : List Char × Bool × Cursor :=
  let (run, c) := c.take (· == ' ')
  if isBreak c.peek then
    let (b, c) := c.lineBreak
    if c.atMarker then ([], true, c)
    else
      match plainBreaks (c.size + 1) c with
      | (none, c) => ([], true, c)
      | (some breaks, c) =>
        let first := if b != ['\n'] then b else if breaks.isEmpty then [' '] else []
        (first ++ breaks, true, c)
  else (run, false, c)

/-- The runs of a plain scalar; `joint` comes before the next one. The flag tells whether a line
has ended since the last run. -/
def plainRuns (flow : Bool) (indent : Int) :
    Nat → List Char → Bool → Cursor → List Char × Bool × Cursor
  | 0, _, ended, c => ([], ended, c)
  | fuel + 1, joint, ended, c =>
    let length := if c.peek == '#' then 0 else plainLength flow c.rest
    if length = 0 then ([], ended, c)
    else
      let run := c.rest.take length
      let (spaces, ended, c) := plainSpaces (c.skip length)
      if spaces.isEmpty || c.peek == '#' || (!flow && (c.column : Int) < indent + 1) then
        (joint ++ run, ended, c)
      else
        let (more, ended, c) := plainRuns flow indent fuel spaces ended c
        (joint ++ run ++ more, ended, c)

/-- A plain scalar, and whether a line has ended after it. -/
def plainScalar (flow : Bool) (indent : Int) (c : Cursor) : Token × Bool × Cursor :=
  let (cs, ended, c) := plainRuns flow indent (c.size + 1) [] false c
  (.scalar (String.ofList cs) true, ended, c)

end Token
end Concordance.Yaml
