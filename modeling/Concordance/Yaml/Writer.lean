import Concordance.Text.Surrogate
import Concordance.Value.Order
import Concordance.Value.Text
import Concordance.Yaml.Page

/-!
Writing YAML.

* `Block` : what is written for a value; the entries of a mapping are sorted by their keys, if these
  have an order.
* `Block.ofValue?` : the block of a value, unless an integer in it is too long to be written.
* `Block.share` : an object that stands at several places is written at the first of them; at the
  others stands its name. The names are numbers, in the order in which they are first called for.
* `Page.block` : writes a block. The members of a sequence that is the value of a mapping stand at
  the column of the keys; empty collections are written in brackets.
* `Yaml.write?` : the text of a document.
-/

namespace Concordance.Yaml

/-! ### Blocks of values -/

/-- The characters of the base-64 alphabet. -/
def base64Digits : List Char :=
  "ABCDEFGHIJKLMNOPQRSTUVWXYZabcdefghijklmnopqrstuvwxyz0123456789+/".toList

/-- The character of a value below 64. -/
def base64Digit (n : Nat) : Char := base64Digits.getD (n % 64) 'A'

/-- Bytes in groups of four characters. -/
def base64Groups : List UInt8 → List Char
  | [] => []
  | [a] => [base64Digit (a.toNat / 4), base64Digit (a.toNat * 16), '=', '=']
  | [a, b] =>
    [base64Digit (a.toNat / 4), base64Digit (a.toNat * 16 + b.toNat / 16),
      base64Digit (b.toNat * 4), '=']
  | a :: b :: c :: bs =>
    base64Digit (a.toNat / 4) :: base64Digit (a.toNat * 16 + b.toNat / 16) ::
      base64Digit (b.toNat * 4 + c.toNat / 64) :: base64Digit c.toNat :: base64Groups bs

/-- Characters in lines of 76. -/
def linesOf76 : List Char → List Char
  | [] => []
  | c :: cs => c :: cs.take 75 ++ '\n' :: linesOf76 (cs.drop 75)
termination_by cs => cs.length
decreasing_by
  simp only [List.length_drop, List.length_cons]
  omega

/-- The text of a double: it always has a point. -/
def floatText (x : Binary64) : String :=
  let s := x.decimal ".inf" ".nan"
  if s.toList.contains '.' then s
  else match Text.splitFirst? (· == 'e') s.toList with
    | some (m, e) => String.ofList (m ++ ".0e".toList ++ e)
    | none => s

/-- What is written for a value, with the mark of the object it is. -/
inductive Block where
  | scalar (tag : Tag) (text : String) (mark : Option Mark)
  | sequence (tag : Tag) (items : List Block) (mark : Option Mark)
  | mapping (tag : Tag) (entries : List (Block × Block)) (mark : Option Mark)
  /-- An object that is written elsewhere. -/
  | again (mark : Mark)
  deriving Inhabited

namespace Block

/-- Entries sorted by the values of their keys, or as they are if the keys have no order. -/
def sortEntries (es : List (Value × Block × Block)) : List (Block × Block) :=
  match Value.sortBy? (fun a b => Value.less? a.1 b.1) es with
  | .ok es => es.map (·.2)
  | .error _ => es.map (·.2)

/-- The block of an object that is written elsewhere. -/
def elsewhere (mark : Option Mark) : Block := again (mark.getD default)

mutual

/-- The block of a value inside the collections `around` it. -/
def ofValueIn? (around : List Mark) : Value → Answer Block
  | .null => .ok (scalar .null "null" none)
  | .bool b => .ok (scalar .bool (if b then "true" else "false") none)
  | .int n => if Text.isSpellable n then .ok (scalar .int (toString n) none) else .error .badValue
  | .float x => .ok (scalar .float (floatText x) none)
  | .text s => .ok (scalar .str s none)
  | .bytes bs => .ok (scalar .binary (String.ofList (linesOf76 (base64Groups bs))) none)
  | .date d mark => .ok (scalar .timestamp d.text mark)
  | .moment m mark => .ok (scalar .timestamp m.text mark)
  | .list xs mark =>
    if Value.isAround around mark then .ok (elsewhere mark)
    else return sequence .seq (← ofValuesIn? (Value.entering around mark) xs) mark
  | .tuple xs mark =>
    if Value.isAround around mark then .ok (elsewhere mark)
    else do
      let items ← ofValuesIn? (Value.entering around mark) xs
      pure (sequence .unknown items (if xs.isEmpty then none else mark))
  | .set _ xs mark =>
    return mapping .set (sortEntries (← ofMembersIn? (Value.entering around mark) xs)) mark
  | .dict es mark =>
    if Value.isAround around mark then .ok (elsewhere mark)
    else return mapping .map (sortEntries (← ofEntriesIn? (Value.entering around mark) es)) mark
  | v => .ok (scalar .str v.quoted none)

/-- The blocks of several values. -/
def ofValuesIn? (around : List Mark) : List Value → Answer (List Block)
  | [] => .ok []
  | x :: xs => return (← ofValueIn? around x) :: (← ofValuesIn? around xs)

/-- The members of a set, as keys without a value. -/
def ofMembersIn? (around : List Mark) : List Value → Answer (List (Value × Block × Block))
  | [] => .ok []
  | x :: xs =>
    return (x, ← ofValueIn? around x, scalar .null "null" none) :: (← ofMembersIn? around xs)

/-- The blocks of the entries of a mapping, each under its key. -/
def ofEntriesIn? (around : List Mark) :
    List (Value × Value) → Answer (List (Value × Block × Block))
  | [] => .ok []
  | (k, v) :: es =>
    return (k, ← ofValueIn? around k, ← ofValueIn? around v) :: (← ofEntriesIn? around es)

end

/-- The block of a value. -/
def ofValue? (v : Value) : Answer Block := ofValueIn? [] v

/-! ### Objects at several places -/

/-- Remembers an object; tells whether it was met before. -/
def meet (mark : Option Mark) : StateM (List Mark) Bool := do
  match mark with
  | none => pure false
  | some m =>
    if (← get).contains m then pure true
    else
      modify (m :: ·)
      pure false

mutual

/-- The block in which every object is written once. The state holds the objects met before. -/
def share : Block → StateM (List Mark) Block
  | scalar tag text mark => do
    if ← meet mark then pure (elsewhere mark) else pure (scalar tag text mark)
  | sequence tag items mark => do
    if ← meet mark then pure (elsewhere mark)
    else return sequence tag (← shareAll items) mark
  | mapping tag entries mark => do
    if ← meet mark then pure (elsewhere mark)
    else return mapping tag (← shareEntries entries) mark
  | again mark => pure (again mark)

/-- The same for several blocks. -/
def shareAll : List Block → StateM (List Mark) (List Block)
  | [] => pure []
  | b :: bs => return (← share b) :: (← shareAll bs)

/-- The same for the entries of a mapping. -/
def shareEntries : List (Block × Block) → StateM (List Mark) (List (Block × Block))
  | [] => pure []
  | (k, v) :: es => return (← share k, ← share v) :: (← shareEntries es)

end

mutual

/-- The objects that stand at several places, in the order in which they are met again. -/
def namedIn : Block → List Mark → List Mark
  | scalar .., ms => ms
  | sequence _ items _, ms => namedInAll items ms
  | mapping _ entries _, ms => namedInEntries entries ms
  | again m, ms => if ms.contains m then ms else ms ++ [m]

/-- The same for several blocks. -/
def namedInAll : List Block → List Mark → List Mark
  | [], ms => ms
  | b :: bs, ms => namedInAll bs (namedIn b ms)

/-- The same for the entries of a mapping. -/
def namedInEntries : List (Block × Block) → List Mark → List Mark
  | [], ms => ms
  | (k, v) :: es, ms => namedInEntries es (namedIn v (namedIn k ms))

end

/-- The name of the object with a number. -/
def nameOf (n : Nat) : String :=
  let digits := toString n
  "id" ++ String.ofList (List.replicate (3 - digits.length) '0') ++ digits

/-- The name of an object among those that have one. -/
def name? (named : List Mark) (mark : Option Mark) : Option String :=
  mark.bind fun m => (named.idxOf? m).map fun i => nameOf (i + 1)

end Block

/-! ### Block style -/

/-- The name of a tag; a tag that documents cannot give is that of tuples. -/
def Tag.word : Tag → String
  | .null => "null"
  | .bool => "bool"
  | .int => "int"
  | .float => "float"
  | .binary => "binary"
  | .timestamp => "timestamp"
  | .omap => "omap"
  | .pairs => "pairs"
  | .set => "set"
  | .str => "str"
  | .seq => "seq"
  | .map => "map"
  | .merge => "merge"
  | .value => "value"
  | .unknown => "python/tuple"

/-- Where a block stands. -/
inductive Place where
  | root
  | member
  | key
  /-- A key on one line with its value. -/
  | shortKey
  | value
  deriving DecidableEq, Repr, Inhabited

namespace Place

/-- The place is one of a mapping. -/
def inMapping (p : Place) : Bool := p != .root && p != .member

/-- The column of a collection inside another at column `n`. -/
def inner (p : Place) (n : Nat) : Nat := if p == .root then n else n + 2

end Place

/-- Whether a key fits on one line with its value: it is not empty, on one line, and with its name
and tag shorter than 128 characters; an empty collection fits, and so does a name alone. -/
def Block.isShortKey (named : List Mark) : Block → Bool
  | .scalar tag text mark =>
    let size := ((name? named mark).getD "").length + tag.word.length + 2 + text.length
    size < 128 && text != "" && !text.toList.any Style.isInnerBreak
  | .sequence _ xs _ => xs.isEmpty
  | .mapping _ es _ => es.isEmpty
  | .again _ => true

namespace Page

/-- The page with the name of an object that stands at several places. -/
def name (p : Page) (named : List Mark) (mark : Option Mark) : Page :=
  match Block.name? named mark with
  | some name => p.mark ("&" ++ name) true false
  | none => p

/-- The page with the tag of a block, unless it goes without saying. -/
def tag (p : Page) (silent : Bool) (t : Tag) : Page :=
  if silent then p else p.mark ("!!" ++ t.word) true false

mutual

/-- The page with a block at a place of a collection whose column is `n`. -/
def block (named : List Mark) (place : Place) (n : Nat) : Block → Page → Page
  | .scalar t s mark, p =>
    let style := Style.choose t s
    let p := (p.name named mark).tag (style == .plain || t == .str) t
    p.scalar style s (n + 2) (place != .shortKey)
  | .sequence t xs mark, p =>
    let p := (p.name named mark).tag (t == .seq) t
    if xs.isEmpty then p.mark "[]" true false
    else members named (if place.inMapping && !p.fresh then n else place.inner n) xs p
  | .mapping t es mark, p =>
    let p := (p.name named mark).tag (t == .map) t
    if es.isEmpty then p.mark "\x7b\x7d" true false
    else entries named (place.inner n) es p
  | .again m, p => p.mark ("*" ++ (Block.name? named (some m)).getD "") true false

/-- The page with the members of a sequence at column `n`. -/
def members (named : List Mark) (n : Nat) : List Block → Page → Page
  | [], p => p
  | x :: xs, p =>
    members named n xs (block named .member n x ((p.indent n).mark "-" true true))

/-- The page with the entries of a mapping at column `n`. -/
def entries (named : List Mark) (n : Nat) : List (Block × Block) → Page → Page
  | [], p => p
  | (k, v) :: es, p =>
    let p := p.indent n
    let p :=
      if k.isShortKey named then (block named .shortKey n k p).mark ":" false false
      else ((block named .key n k (p.mark "?" true true)).indent n).mark ":" true true
    entries named n es (block named .value n v p)

end

end Page

/-- The text of the document that a value is. -/
def write? (v : Value) : Answer String := do
  let (block, _) := ((← Block.ofValue? v).share).run []
  let named := block.namedIn []
  pure ((Page.block named .root 0 block {}).indent 0).text

end Concordance.Yaml
