import Concordance.Index
import Concordance.Value.Text

/-!
Writing JSON.

* `Json.Tree` : a document.
* `Tree.ofValue?` : the document that stands for a value. Sets are sorted, references, resources and
  indexes are written as in an index, kinds by their labels, any other value by its text form.
* `Tree.text` : the text of a document, indented by two blanks a level; characters beyond ASCII
  stand for themselves.
-/

namespace Concordance.Json

/-- A document. -/
inductive Tree where
  | null
  | bool (b : Bool)
  | int (n : Int)
  | float (x : Binary64)
  | text (s : String)
  | list (items : List Tree)
  | object (entries : List (String × Tree))
  deriving Inhabited

namespace Tree

/-! ### Documents of values -/

/-- The decimal of a double, or one of three words beyond the standard. -/
def floatText (x : Binary64) : String := x.decimal "Infinity" "NaN"

/-- A key as a text. -/
def keyText? : Value → Answer String
  | .text s => .ok s
  | .null => .ok "null"
  | .bool b => .ok (if b then "true" else "false")
  | .int n => .ok (toString n)
  | .float x => .ok (floatText x)
  | _ => .error .illTyped

/-- A name and the label of its kind. -/
def named (name : Tree) (label : String) : Tree := object [("name", name), ("type", text label)]

/-- A list sorted by the values that its members stand for. -/
def sortMembers? (xs : List (Value × Tree)) : Answer Tree := do
  let xs ← Value.sortBy? (fun a b => Value.less? a.1 b.1) xs
  pure (list (xs.map (·.2)))

/-- A list sorted by labelled values that its members stand for. -/
def sortLabelled? (xs : List ((String × Value) × Tree)) : Answer Tree := do
  let xs ← Value.sortPairs? (·.1) xs
  pure (list (xs.map (·.2)))

/-- The fingerprint of the index that a value is. -/
def fingerprintOf? (v : Value) : Answer String :=
  match Index.ofValue? v with
  | some i => i.fingerprint?
  | none => .error .illTyped

mutual

/-- The document that stands for a value. -/
def ofValue? (v : Value) : Answer Tree :=
  match v with
  | .null => .ok null
  | .bool b => .ok (bool b)
  | .int n => .ok (int n)
  | .float x => .ok (float x)
  | .text s => .ok (text s)
  | .list xs _ => return list (← ofValues? xs)
  | .tuple xs _ => return list (← ofValues? xs)
  | .set _ xs _ => do sortMembers? (← ofMembers? xs)
  | .dict es _ => return object (← ofEntries? es)
  | .partType t => .ok (text t.label)
  | .resourceType t => .ok (text t.label)
  | .part n t => return named (← ofValue? n) t.label
  | .shared n t => return named (← ofValue? n) t.label
  | .resourceRef n t => return named (← ofValue? n) t.label
  | .resource id t ps _ => do
    let id ← ofValue? id
    let parts ← sortLabelled? (← ofReferences? ps)
    pure (object [("id", id), ("type", text t.label), ("parts", parts)])
  | .index a b rs ss qs cs => do
    let fingerprint ← fingerprintOf? (.index a b rs ss qs cs)
    let id ← ofValue? a
    let name ← ofValue? b
    let resources ← ofValues? rs
    let shared ← sortLabelled? (← ofReferences? ss)
    let refs ← sortLabelled? (← ofReferences? qs)
    let classes ← sortMembers? (← ofMembers? cs)
    pure (object [("process_id", id), ("process_name", name), ("fingerprint", text fingerprint),
      ("resources", list resources), ("shared_references", shared), ("resource_references", refs),
      ("referenced_classes", classes)])
  | v => .ok (text v.display)

/-- The documents of several values. -/
def ofValues? : List Value → Answer (List Tree)
  | [] => .ok []
  | x :: xs => do
    let t ← ofValue? x
    let ts ← ofValues? xs
    pure (t :: ts)

/-- The documents of several values, each beside its value. -/
def ofMembers? : List Value → Answer (List (Value × Tree))
  | [] => .ok []
  | x :: xs => do
    let t ← ofValue? x
    let ts ← ofMembers? xs
    pure ((x, t) :: ts)

/-- The documents of references, each beside its sort key. -/
def ofReferences? : List Value → Answer (List ((String × Value) × Tree))
  | [] => .ok []
  | .part n t :: xs | .shared n t :: xs => do
    let tree := named (← ofValue? n) t.label
    let ts ← ofReferences? xs
    pure (((t.label, n), tree) :: ts)
  | .resourceRef n t :: xs => do
    let tree := named (← ofValue? n) t.label
    let ts ← ofReferences? xs
    pure (((t.label, n), tree) :: ts)
  | _ :: xs => ofReferences? xs

/-- The documents of the entries of a mapping. -/
def ofEntries? : List (Value × Value) → Answer (List (String × Tree))
  | [] => .ok []
  | (k, v) :: es => do
    let k ← keyText? k
    let t ← ofValue? v
    let ts ← ofEntries? es
    pure ((k, t) :: ts)

end

/-! ### Text -/

/-- A character between quotes. -/
def charText (c : Char) : List Char :=
  if c == '"' || c == '\\' then ['\\', c]
  else if c == '\n' then ['\\', 'n']
  else if c == '\r' then ['\\', 'r']
  else if c == '\t' then ['\\', 't']
  else if c == '\x0c' then ['\\', 'f']
  else if c == '\x08' then ['\\', 'b']
  else if c < ' ' then '\\' :: 'u' :: Text.hexOf c.toNat 4
  else [c]

/-- A text in quotes. -/
def quoted (s : String) : String :=
  String.ofList ('"' :: (s.toList.flatMap charText ++ ['"']))

/-- A line break and the blanks of a level. -/
def newLine (level : Nat) : String := String.ofList ('\n' :: List.replicate (2 * level) ' ')

/-- Items between brackets, each on a line of its own inside a level. -/
def bracketed (opening closing : String) (level : Nat) : List String → String
  | [] => opening ++ closing
  | items =>
    opening ++ newLine (level + 1) ++ ("," ++ newLine (level + 1)).intercalate items ++
      newLine level ++ closing

mutual

/-- The text of a document on a level. -/
def textAt (level : Nat) : Tree → String
  | null => "null"
  | bool b => if b then "true" else "false"
  | int n => toString n
  | float x => floatText x
  | text s => quoted s
  | list xs => bracketed "[" "]" level (itemsAt (level + 1) xs)
  | object es => bracketed "\x7b" "\x7d" level (entriesAt (level + 1) es)

/-- The texts of the members of a list on a level. -/
def itemsAt (level : Nat) : List Tree → List String
  | [] => []
  | t :: ts => textAt level t :: itemsAt level ts

/-- The texts of the entries of an object on a level. -/
def entriesAt (level : Nat) : List (String × Tree) → List String
  | [] => []
  | (k, t) :: es => (quoted k ++ ": " ++ textAt level t) :: entriesAt level es

end

end Tree
end Concordance.Json
