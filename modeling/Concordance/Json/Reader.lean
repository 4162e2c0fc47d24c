import Concordance.Text.Surrogate
import Concordance.Value.Equality

/-!
Reading JSON.

* `Json.read` : the value a text writes, or the fault of the text. Beyond the standard the reader
  takes `NaN`, `Infinity` and `-Infinity`; of repeated keys the last value counts, at the place of
  the first; a byte-order mark is a fault.
* `Json.Failure` : a text that is no JSON, an integer with more digits than are read, and
  collections inside each other beyond the depth that is read.
-/

namespace Concordance.Json

/-- Why a text cannot be read. -/
inductive Failure where
  | malformed
  | tooManyDigits
  | tooDeep
  deriving DecidableEq, Repr, Inhabited

/-- What a reader answers: a value and the characters after it. -/
abbrev Reading (α : Type) := α × List Char

/-- The most digits an integer may have. -/
def digitLimit : Nat := 4300

/-- The four blanks of JSON. -/
def isSpace (c : Char) : Bool := c == ' ' || c == '\t' || c == '\n' || c == '\r'

/-- The characters from the first that is no blank. -/
def skip (cs : List Char) : List Char := cs.dropWhile isSpace

/-- The number that decimal digits write. -/
def natOf (ds : List Char) : Nat := ds.foldl (fun n c => n * 10 + (c.toNat - 48)) 0

/-- The value of a hexadecimal digit. -/
def hexValue? (c : Char) : Option Nat :=
  if '0' ≤ c ∧ c ≤ '9' then some (c.toNat - 48)
  else if 'a' ≤ c ∧ c ≤ 'f' then some (c.toNat - 87)
  else if 'A' ≤ c ∧ c ≤ 'F' then some (c.toNat - 55)
  else none

/-- Four hexadecimal digits. -/
def hex4? : List Char → Option (Nat × List Char)
  | a :: b :: c :: d :: cs => do
    let a ← hexValue? a
    let b ← hexValue? b
    let c ← hexValue? c
    let d ← hexValue? d
    some (((a * 16 + b) * 16 + c) * 16 + d, cs)
  | _ => none

/-- The character of an escape of one letter. -/
def shortEscape? : Char → Option Char
  | '"' => some '"'
  | '\\' => some '\\'
  | '/' => some '/'
  | 'b' => some '\x08'
  | 'f' => some '\x0c'
  | 'n' => some '\n'
  | 'r' => some '\r'
  | 't' => some '\t'
  | _ => none

/-- The second half of a surrogate pair. -/
def lowHalf? : List Char → Option (Nat × List Char)
  | '\\' :: 'u' :: cs => do
    let (n, rest) ← hex4? cs
    if 0xdc00 ≤ n ∧ n < 0xe000 then some (n, rest) else none
  | _ => none

/-- The character after `\u`; half of a surrogate pair may stand alone. -/
def readHexEscape (cs : List Char) : Except Failure (Reading Char) :=
  match hex4? cs with
  | none => .error .malformed
  | some (n, rest) =>
    if 0xd800 ≤ n ∧ n < 0xdc00 then
      match lowHalf? rest with
      | some (m, rest) => .ok (Char.ofNat (0x10000 + (n - 0xd800) * 0x400 + (m - 0xdc00)), rest)
      | none => .ok (Text.ofCode n, rest)
    else .ok (Text.ofCode n, rest)

/-- The characters of a text up to its closing quote; `acc` holds those read, last first. -/
def readChars : Nat → List Char → List Char → Except Failure (Reading (List Char))
  | 0, _, _ => .error .malformed
  | _, _, [] => .error .malformed
  | fuel + 1, acc, c :: cs =>
    if c == '"' then .ok (acc.reverse, cs)
    else if c == '\\' then
      match cs with
      | 'u' :: rest => do
        let (d, rest) ← readHexEscape rest
        readChars fuel (d :: acc) rest
      | e :: rest =>
        match shortEscape? e with
        | some d => readChars fuel (d :: acc) rest
        | none => .error .malformed
      | [] => .error .malformed
    else if c.toNat < 0x20 then .error .malformed
    else readChars fuel (c :: acc) cs

/-- A text after its opening quote. -/
def readText (fuel : Nat) (cs : List Char) : Except Failure (Reading String) := do
  let (ds, rest) ← readChars fuel [] cs
  pure (String.ofList ds, rest)

/-- The fraction after a whole part: the digits after a point that has one. -/
def fraction (cs : List Char) : List Char × List Char :=
  match cs with
  | '.' :: rest =>
    let ds := rest.takeWhile Char.isDigit
    if ds.isEmpty then ([], cs) else (ds, rest.dropWhile Char.isDigit)
  | _ => ([], cs)

/-- The exponent after a number, if it has digits. -/
def exponent (cs : List Char) : Option Int × List Char :=
  match cs with
  | e :: rest =>
    if e == 'e' || e == 'E' then
      let (neg, ds) := match rest with
        | '-' :: ds => (true, ds)
        | '+' :: ds => (false, ds)
        | ds => (false, ds)
      let digits := ds.takeWhile Char.isDigit
      if digits.isEmpty then (none, cs)
      else
        let n : Int := natOf digits
        (some (if neg then -n else n), ds.dropWhile Char.isDigit)
    else (none, cs)
  | [] => (none, cs)

/-- A number after its sign. -/
def readNumber (neg : Bool) (cs : List Char) : Except Failure (Reading Value) :=
  let whole := match cs with
    | '0' :: _ => ['0']
    | _ => cs.takeWhile Char.isDigit
  if whole.isEmpty then .error .malformed
  else
    let (frac, rest) := fraction (cs.drop whole.length)
    let (exp, rest) := exponent rest
    if frac.isEmpty && exp.isNone then
      if digitLimit < whole.length then .error .tooManyDigits
      else
        let n : Int := natOf whole
        .ok (.int (if neg then -n else n), rest)
    else
      .ok (.float (.ofDecimal neg (natOf (whole ++ frac)) (exp.getD 0 - frac.length)), rest)

/-- The characters after a word, if they begin with it. -/
def after? (word : String) (cs : List Char) : Option (List Char) :=
  if word.toList.isPrefixOf cs then some (cs.drop word.length) else none

/-- A value that is one word. -/
def readWord (cs : List Char) : Except Failure (Reading Value) :=
  let words : List (String × Value) := [("null", .null), ("true", .bool true),
    ("false", .bool false), ("NaN", .float (.nan 0)), ("Infinity", .float (.inf false)),
    ("-Infinity", .float (.inf true))]
  match words.findSome? fun (w, v) => (after? w cs).map (v, ·) with
  | some r => .ok r
  | none => .error .malformed

/-- The greatest depth of collections inside each other. -/
def maxDepth : Nat := 988

mutual

/-- A value. `room` is how many collections may still be opened around each other; the fuel bounds
the characters. -/
def readValue : Nat → Nat → List Char → Except Failure (Reading Value)
  | 0, _, _ => .error .malformed
  | fuel + 1, room, cs =>
    match cs with
    | '"' :: rest => do
      let (s, rest) ← readText fuel rest
      pure (.text s, rest)
    | '[' :: rest =>
      match room, skip rest with
      | 0, _ => .error .tooDeep
      | _, ']' :: rest => .ok (.list [], rest)
      | room + 1, rest => do
        let (xs, rest) ← readItems fuel room [] rest
        pure (.list xs, rest)
    | '\x7b' :: rest =>
      match room, skip rest with
      | 0, _ => .error .tooDeep
      | _, '\x7d' :: rest => .ok (.dict [], rest)
      | room + 1, rest => do
        let (es, rest) ← readEntries fuel room [] rest
        pure (.dict (Value.dictOf es), rest)
    | '-' :: 'I' :: _ => readWord cs
    | '-' :: rest => readNumber true rest
    | c :: _ => if c.isDigit then readNumber false cs else readWord cs
    | [] => .error .malformed

/-- The members of a list up to its bracket; `acc` holds those read, last first. -/
def readItems : Nat → Nat → List Value → List Char → Except Failure (Reading (List Value))
  | 0, _, _, _ => .error .malformed
  | fuel + 1, room, acc, cs => do
    let (v, rest) ← readValue fuel room cs
    match skip rest with
    | ']' :: rest => pure ((v :: acc).reverse, rest)
    | ',' :: rest => readItems fuel room (v :: acc) (skip rest)
    | _ => throw .malformed

/-- The entries of a mapping up to its brace; `acc` holds those read, last first. -/
def readEntries : Nat → Nat → List (Value × Value) → List Char →
    Except Failure (Reading (List (Value × Value)))
  | 0, _, _, _ => .error .malformed
  | fuel + 1, room, acc, cs =>
    match cs with
    | '"' :: rest => do
      let (k, rest) ← readText fuel rest
      match skip rest with
      | ':' :: rest => do
        let (v, rest) ← readValue fuel room (skip rest)
        let acc := (.text k, v) :: acc
        match skip rest with
        | '\x7d' :: rest => pure (acc.reverse, rest)
        | ',' :: rest => readEntries fuel room acc (skip rest)
        | _ => throw .malformed
      | _ => throw .malformed
    | _ => .error .malformed

end

/-- The value a text writes. -/
def read (s : String) : Except Failure Value := do
  let cs := s.toList
  let (v, rest) ← readValue (2 * cs.length + 2) maxDepth (skip cs)
  if (skip rest).isEmpty then pure v else throw .malformed

end Concordance.Json
