import Concordance.Binary64
import Concordance.Calendar
import Concordance.Text.Integer
import Concordance.Text.Search
import Concordance.Yaml.Cursor

/-!
Tags, and the forms of plain scalars that have a tag without being given one.

* `Tag` : the tags a document may use, and those without a meaning here.
* `Tag.ofPlain` : the tag of a plain scalar by its form: null, truth values, integers in four bases
  and in sexagesimal places, floats with a point, dates and moments, the merge key.
* `Scalar.int?`, `Scalar.float?`, `Scalar.timestamp?`, `Scalar.binary?` : the values behind the
  forms.
-/

namespace Concordance.Yaml

/-- The tags a document may use. -/
inductive Tag where
  | null
  | bool
  | int
  | float
  | binary
  | timestamp
  | omap
  | pairs
  | set
  | str
  | seq
  | map
  | merge
  | value
  /-- A tag without a meaning here. -/
  | unknown
  deriving DecidableEq, Repr, Inhabited

/-- Year, month, day, and behind them hour, minute, second, fraction and zone of a moment. -/
structure TimestampForm where
  date : Date
  clock : Option (Nat × Nat × Nat)
  fraction : List Char
  zone : Option (Option (Bool × Nat × Nat))
  deriving Inhabited

namespace Scalar

/-- The characters without a line feed at their end. -/
def withoutFeed (cs : List Char) : List Char :=
  if cs.getLast? == some '\n' then cs.dropLast else cs

/-! ### Forms of numbers -/

/-- The characters without the sign before them. -/
def unsigned : List Char → List Char
  | '-' :: cs => cs
  | '+' :: cs => cs
  | cs => cs

/-- A decimal digit or an underscore. -/
def isDigitOrLine (c : Char) : Bool := c.isDigit || c == '_'

/-- Whether characters are digits and underscores and begin with a digit. -/
def isDigits (cs : List Char) : Bool := cs.head?.any Char.isDigit && cs.all isDigitOrLine

/-- Whether characters are not empty and all satisfy a test. -/
def some1 (p : Char → Bool) (cs : List Char) : Bool := !cs.isEmpty && cs.all p

/-- A sexagesimal place after the first: one or two digits below sixty. -/
def isSixty : List Char → Bool
  | [a] => a.isDigit
  | [a, b] => '0' ≤ a && a ≤ '5' && b.isDigit
  | _ => false

/-- Whether characters have the form of an integer. -/
def isInt (cs : List Char) : Bool :=
  let cs := unsigned cs
  match cs with
  | ['0'] => true
  | '0' :: 'b' :: ds => some1 (fun c => c == '0' || c == '1' || c == '_') ds
  | '0' :: 'x' :: ds =>
    some1 (fun c => c.isDigit || c == '_' || ('a' ≤ c && c ≤ 'f') || ('A' ≤ c && c ≤ 'F')) ds
  | '0' :: ds => some1 (fun c => ('0' ≤ c && c ≤ '7') || c == '_') ds
  | _ =>
    match Text.pieces (· == ':') cs with
    | [ds] => isDigits ds
    | ds :: places => isDigits ds && places.all isSixty
    | [] => false

/-- Whether characters are an exponent, sign and all, or nothing. -/
def isExponent : List Char → Bool
  | [] => true
  | e :: s :: ds => (e == 'e' || e == 'E') && (s == '-' || s == '+') && some1 Char.isDigit ds
  | _ => false

/-- Whether characters are digits and underscores, and then an exponent or nothing. -/
def isFraction (cs : List Char) : Bool := isExponent (cs.dropWhile isDigitOrLine)

/-- Whether characters have the form of a float. -/
def isFloat (cs : List Char) : Bool :=
  let body := unsigned cs
  let words (ws : List String) (ds : List Char) : Bool := ws.any fun w => w.toList == ds
  match body with
  | '.' :: ds =>
    (cs == body && ds.head?.any Char.isDigit && isFraction ds) ||
      words ["inf", "Inf", "INF"] ds || (cs == body && words ["nan", "NaN", "NAN"] ds)
  | _ =>
    match Text.splitFirst? (· == '.') body with
    | none => false
    | some (whole, frac) =>
      match Text.pieces (· == ':') whole with
      | [ds] => isDigits ds && isFraction frac
      | ds :: places => isDigits ds && places.all isSixty && frac.all isDigitOrLine
      | [] => false

/-! ### Forms of dates -/

/-- The number that decimal digits write. -/
def natOf (ds : List Char) : Nat := ds.foldl (fun n c => n * 10 + (c.toNat - 48)) 0

/-- At least `least` and at most `most` digits ahead, and what follows the longest such run. -/
def digitsAhead? (least most : Nat) (cs : List Char) : Option (List Char × List Char) :=
  let ds := (cs.take most).takeWhile Char.isDigit
  if least ≤ ds.length then some (ds, cs.drop ds.length) else none

/-- What follows one given character. -/
def after? (c : Char) : List Char → Option (List Char)
  | d :: cs => if d == c then some cs else none
  | [] => none

/-- A zone: `Z`, or a signed hour with or without minutes. -/
def zone? (cs : List Char) : Option (Option (Bool × Nat × Nat)) :=
  match cs with
  | ['Z'] => some none
  | s :: cs => do
    if s != '+' && s != '-' then none
    let (h, cs) ← digitsAhead? 1 2 cs
    match cs with
    | [] => some (some (s == '-', natOf h, 0))
    | cs => do
      let cs ← after? ':' cs
      let (m, cs) ← digitsAhead? 2 2 cs
      if cs.isEmpty then some (some (s == '-', natOf h, natOf m)) else none
  | [] => none

/-- A blank or a tab. -/
def isGap (c : Char) : Bool := c == ' ' || c == '\t'

/-- The parts of a time of day after the date. -/
def clock? (date : Date) (cs : List Char) : Option TimestampForm := do
  let cs ← match cs with
    | 'T' :: cs => some cs
    | 't' :: cs => some cs
    | c :: cs => if isGap c then some (cs.dropWhile isGap) else none
    | [] => none
  let (h, cs) ← digitsAhead? 1 2 cs
  let cs ← after? ':' cs
  let (m, cs) ← digitsAhead? 2 2 cs
  let cs ← after? ':' cs
  let (s, cs) ← digitsAhead? 2 2 cs
  let (fraction, cs) := match cs with
    | '.' :: cs => (cs.takeWhile Char.isDigit, cs.dropWhile Char.isDigit)
    | cs => ([], cs)
  let clock := some (natOf h, natOf m, natOf s)
  if cs.isEmpty then some { date, clock, fraction, zone := none }
  else
    let zone ← zone? (cs.dropWhile isGap)
    some { date, clock, fraction, zone := some zone }

/-- The parts of a date or moment. -/
def timestampForm? (cs : List Char) : Option TimestampForm := do
  let (y, cs) ← digitsAhead? 4 4 cs
  let cs ← after? '-' cs
  let (m, cs) ← digitsAhead? 1 2 cs
  let cs ← after? '-' cs
  let (d, cs) ← digitsAhead? 1 2 cs
  let date : Date := ⟨natOf y, natOf m, natOf d⟩
  if cs.isEmpty then some { date, clock := none, fraction := [], zone := none }
  else clock? date cs

/-- Whether characters have the form of a date or moment: a date alone has two digits for month and
day. -/
def isTimestamp (cs : List Char) : Bool :=
  match timestampForm? cs with
  | none => false
  | some f => f.clock.isSome || cs.length == 10

/-! ### Values -/

/-- The characters without underscores. -/
def withoutLines (cs : List Char) : List Char := cs.filter (· != '_')

/-- The value of a digit in a base: a decimal digit of any script, or a letter. -/
def digitIn? (base : Nat) (c : Char) : Option Nat :=
  let v := match Text.digit? c with
    | some d => d
    | none =>
      if 'a' ≤ c && c ≤ 'f' then c.toNat - 87
      else if 'A' ≤ c && c ≤ 'F' then c.toNat - 55
      else base
  if v < base then some v else none

/-- The letters that mark a base after a zero. -/
def marksOf : Nat → List Char
  | 2 => ['b', 'B']
  | 8 => ['o', 'O']
  | 16 => ['x', 'X']
  | _ => []

/-- Digits without the mark of their base before them. -/
def withoutMark (base : Nat) : List Char → List Char
  | '0' :: m :: ds => if (marksOf base).contains m then ds else '0' :: m :: ds
  | ds => ds

/-- The number that digits of a base write; there has to be one. -/
def natIn? (base : Nat) (ds : List Char) : Except Failure Nat :=
  if ds.isEmpty then .error .badValue
  else match ds.mapM (digitIn? base) with
    | some vs => .ok (vs.foldl (fun n d => n * base + d) 0)
    | none => .error .badValue

/-- The integer that a sign and digits of a base write, with blanks around them; the number of
decimal digits is bounded. -/
def intIn? (base : Nat) (cs : List Char) : Except Failure Int := do
  let cs := Text.trimmed Text.isPadding cs
  let ds := withoutMark base (unsigned cs)
  if base = 10 ∧ Text.integerDigitLimit < ds.length then throw .badValue
  let n ← natIn? base ds
  pure (if cs.head? == some '-' then -(n : Int) else n)

/-- The value of an integer scalar: its sign, and an integer in the base that its beginning
shows. -/
def int? (text : String) : Except Failure Int := do
  let cs := withoutLines text.toList
  let body := unsigned cs
  let n ←
    match body with
    | [] => throw .noMember
    | ['0'] => pure 0
    | '0' :: 'b' :: ds => intIn? 2 ds
    | '0' :: 'x' :: ds => intIn? 16 ds
    | '0' :: _ => intIn? 8 body
    | _ =>
      if body.contains ':' then do
        let places ← (Text.pieces (· == ':') body).mapM (intIn? 10)
        pure (places.foldl (fun n d => n * 60 + d) 0)
      else intIn? 10 body
  pure (if cs.head? == some '-' then -n else n)

/-- The value of an unsigned decimal with or without point and exponent. -/
def decimal? (cs : List Char) : Except Failure Binary64 := do
  let (mantissa, exponent) ← match Text.splitFirst? (· == 'e') cs with
    | none => pure (cs, (0 : Int))
    | some (m, e) => do
      let n ← natIn? 10 (unsigned e)
      pure (m, if e.head? == some '-' then -(n : Int) else n)
  let (whole, frac) := (Text.splitFirst? (· == '.') mantissa).getD (mantissa, [])
  let n ← natIn? 10 (whole ++ frac)
  pure (.ofDecimal false n (exponent - frac.length))

/-- A double with its sign turned if `neg`. -/
def signed (neg : Bool) : Binary64 → Binary64
  | .nan label => .nan label
  | .inf s => .inf (s != neg)
  | .finite s m e => .finite (s != neg) m e

/-- The sum of sexagesimal places, the last of which comes first, each a double. The weight of a
place is an integer, which has to be that of a double. -/
def sixties? : Binary64 → Nat → List Binary64 → Except Failure Binary64
  | sum, _, [] => .ok sum
  | sum, weight, x :: xs =>
    match Binary64.ofInt weight with
    | .inf _ => .error .overflow
    | w => sixties? (sum.add (x.mul w)) (weight * 60) xs

/-- The double that a sign and a decimal or a word write, with blanks around them. -/
def real? (cs : List Char) : Except Failure Binary64 := do
  let cs := Text.trimmed Text.isPadding cs
  let body := unsigned cs
  let x ←
    if body == "inf".toList || body == "infinity".toList then pure (.inf false)
    else if body == "nan".toList then pure (.nan 0)
    else decimal? body
  pure (signed (cs.head? == some '-') x)

/-- The value of a float scalar. The word for what is not a number means the same everywhere; any
other such result gets the given label. -/
def float? (label : Nat) (text : String) : Except Failure Binary64 := do
  let cs := (withoutLines text.toList).map Char.toLower
  let body := unsigned cs
  let neg := cs.head? == some '-'
  if cs.isEmpty then throw .noMember
  else if body == ".inf".toList then pure (.inf neg)
  else if body == ".nan".toList then pure (.nan 0)
  else
    let x ←
      if body.contains ':' then do
        let places ← (Text.pieces (· == ':') body).mapM real?
        sixties? (.zero false) 1 places.reverse
      else real? body
    pure ((signed neg x).relabel label)

/-- A date or a moment. -/
abbrev Timestamp := Date ⊕ Moment

/-- The microseconds that the digits of a fraction write: six places count. -/
def microsOf (ds : List Char) : Nat :=
  let ds := ds.take 6
  natOf ds * Binary64.tenPow (6 - ds.length)

/-- The value of a date or moment scalar, which the calendar has to have. -/
def timestamp? (text : String) : Except Failure Timestamp := do
  match timestampForm? (withoutFeed text.toList) with
  | none => throw .noAttribute
  | some f =>
    match f.clock with
    | none => if f.date.valid then pure (.inl f.date) else throw .badValue
    | some (hour, minute, second) =>
      let offset := f.zone.map fun z => match z with
        | none => (0 : Int)
        | some (neg, h, m) =>
          let minutes : Int := (h * 60 + m : Nat)
          if neg then -minutes else minutes
      let moment : Moment :=
        { date := f.date, hour, minute, second, micro := microsOf f.fraction, offset }
      if moment.valid then pure (.inr moment) else throw .badValue

/-- The value of a character of the base-64 alphabet. -/
def base64Value? (c : Char) : Option Nat :=
  if c.isUpper then some (c.toNat - 65)
  else if c.isLower then some (c.toNat - 71)
  else if c.isDigit then some (c.toNat + 4)
  else if c == '+' then some 62
  else if c == '/' then some 63
  else none

/-- The bytes that base-64 characters write; other characters are passed over. `place` counts the
characters of the group so far, `carry` holds the bits left of it, `pads` the padding met. -/
def base64 (place carry pads : Nat) : List Char → Option (List UInt8)
  | [] => if place = 0 then some [] else none
  | c :: cs =>
    if c == '=' then
      if 2 ≤ place ∧ 4 ≤ place + pads + 1 then some []
      else base64 place carry (if 2 ≤ place then pads + 1 else pads) cs
    else
      match base64Value? c with
      | none => base64 place carry pads cs
      | some v =>
        match place with
        | 0 => base64 1 v 0 cs
        | 1 => (base64 2 (v % 16) 0 cs).map (UInt8.ofNat (carry * 4 + v / 16) :: ·)
        | 2 => (base64 3 (v % 4) 0 cs).map (UInt8.ofNat (carry * 16 + v / 4) :: ·)
        | _ => (base64 0 0 0 cs).map (UInt8.ofNat (carry * 64 + v) :: ·)

/-- The bytes of a binary scalar. -/
def binary? (text : String) : Except Failure (List UInt8) :=
  if text.toList.all (·.toNat < 128) then
    match base64 0 0 0 text.toList with
    | some bs => .ok bs
    | none => .error .malformed
  else .error .malformed

/-- The words that are truth values. -/
def boolWords : List (String × Bool) :=
  [("yes", true), ("no", false), ("true", true), ("false", false), ("on", true), ("off", false)]

/-- The truth value of a scalar. -/
def bool? (text : String) : Except Failure Bool :=
  match boolWords.find? fun w => w.1.toList == text.toList.map Char.toLower with
  | some (_, b) => .ok b
  | none => .error (.noTruthValue text)

end Scalar

namespace Tag

/-- The three spellings of a word that count: small, capitalised, and in capitals. -/
def spellings (word : String) : List String := [word, word.capitalize, word.toUpper]

/-- The tag of a plain scalar by its form. A line feed at the end makes no difference to a form of
which something stands before it. -/
def ofPlain (text : String) : Tag :=
  let cs := Scalar.withoutFeed text.toList
  let word := String.ofList cs
  if Scalar.boolWords.any fun w => (spellings w.1).contains word then .bool
  else if Scalar.isFloat cs then .float
  else if Scalar.isInt cs then .int
  else if word == "<<" then .merge
  else if text == "" || word == "~" || (spellings "null").contains word then .null
  else if Scalar.isTimestamp cs then .timestamp
  else if word == "=" then .value
  else if ["!", "&", "*"].contains word then .unknown
  else .str

/-- The tag with a full name. -/
def ofName (name : String) : Tag :=
  let table : List (String × Tag) := [("null", .null), ("bool", .bool), ("int", .int),
    ("float", .float), ("binary", .binary), ("timestamp", .timestamp), ("omap", .omap),
    ("pairs", .pairs), ("set", .set), ("str", .str), ("seq", .seq), ("map", .map),
    ("merge", .merge), ("value", .value)]
  match table.find? fun e => "tag:yaml.org,2002:" ++ e.1 == name with
  | some (_, t) => t
  | none => .unknown

/-- The tag of a scalar: the one it is given, or by its form if it is plain, or that of texts. The
tag `!` asks for the form. -/
def ofScalar (given : Option String) (text : String) (plain : Bool) : Tag :=
  match given with
  | none => if plain then ofPlain text else .str
  | some "!" => ofPlain text
  | some name => ofName name

/-- The tag of a collection: the one it is given, or that of its kind. -/
def ofCollection (given : Option String) (isMapping : Bool) : Tag :=
  let own := if isMapping then Tag.map else Tag.seq
  match given with
  | none => own
  | some "!" => own
  | some name => ofName name

end Tag
end Concordance.Yaml
