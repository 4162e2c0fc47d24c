import Concordance.Binary64.Shortest
import Concordance.Fault
import Concordance.Text.Integer
import Concordance.Text.Quoted
import Concordance.Value

/-!
The text forms of values.

* `Value.quoted` : the form of a value inside another, texts in quotes; a collection met inside
  itself is shown as three points between its brackets.
* `Value.display` : the form of a value on its own: a text is itself, a date or moment its plain
  form, a kind its name.
* `Value.display?` : the same, or the fault of holding an integer that is too long to be written.
-/

namespace Concordance.Value

/-- The name of a truth value. -/
def boolText (b : Bool) : String := if b then "True" else "False"

/-- The decimal of a double. -/
def floatText (x : Binary64) : String := x.decimal "inf" "nan"

/-- Items joined by commas. -/
def commas (xs : List String) : String := ", ".intercalate xs

/-- A record: its name and its fields. -/
def recordText (name : String) (fields : List (String × String)) : String :=
  name ++ "(" ++ commas (fields.map fun f => f.1 ++ "=" ++ f.2) ++ ")"

/-- The quoted form of a part type. -/
def partTypeQuoted (t : PartType) : String :=
  "<PartType." ++ t.constant ++ ": '" ++ t.label ++ "'>"

/-- The quoted form of a resource type. -/
def resourceTypeQuoted (t : ResourceType) : String :=
  "<ResourceType." ++ t.constant ++ ": '" ++ t.label ++ "'>"

/-- A tuple of quoted members; a single one is followed by a comma. -/
def tupleText : List String → String
  | [x] => "(" ++ x ++ ",)"
  | xs => "(" ++ commas xs ++ ")"

/-- A set of quoted members. -/
def setText (frozen : Bool) (xs : List String) : String :=
  match frozen, xs with
  | false, [] => "set()"
  | true, [] => "frozenset()"
  | false, xs => "\x7b" ++ commas xs ++ "\x7d"
  | true, xs => "frozenset(\x7b" ++ commas xs ++ "\x7d)"

/-! ### Collections inside themselves -/

/-- Whether a collection is among those around it. -/
def isAround (around : List Mark) (mark : Option Mark) : Bool := mark.any around.contains

/-- The collections around the members of a collection. -/
def entering (around : List Mark) (mark : Option Mark) : List Mark := mark.toList ++ around

mutual

/-- The form of a value inside the collections `around` it. -/
def quotedIn (around : List Mark) : Value → String
  | null => "None"
  | bool b => boolText b
  | int n => toString n
  | float x => floatText x
  | text s => Text.Quoted.text s
  | bytes bs => Text.Quoted.bytes bs
  | date d _ => d.quoted
  | moment m _ => m.quoted
  | list xs mark =>
    if isAround around mark then "[...]"
    else "[" ++ commas (quotedAll (entering around mark) xs) ++ "]"
  | tuple xs mark =>
    if isAround around mark then "(...)" else tupleText (quotedAll (entering around mark) xs)
  | set frozen xs mark => setText frozen (quotedAll (entering around mark) xs)
  | dict es mark =>
    if isAround around mark then "\x7b...\x7d"
    else "\x7b" ++ commas (quotedEntries (entering around mark) es) ++ "\x7d"
  | partType t => partTypeQuoted t
  | resourceType t => resourceTypeQuoted t
  | node a b => recordText "Node" [("id", quotedIn around a), ("name", quotedIn around b)]
  | ruleSet a b c =>
    recordText "RuleSetNode" [("id", quotedIn around a), ("name", quotedIn around b),
      ("rule_flow_group", quotedIn around c)]
  | workItem a b c =>
    recordText "WorkItemNode" [("id", quotedIn around a), ("name", quotedIn around b),
      ("work_name", quotedIn around c)]
  | subProcess a b c d =>
    recordText "SubProcessNode" [("id", quotedIn around a), ("name", quotedIn around b),
      ("process_id", quotedIn around c), ("process_name", quotedIn around d)]
  | var a b c =>
    recordText "Variable" [("name", quotedIn around a), ("type", quotedIn around b),
      ("metadata", quotedIn around c)]
  | item a b =>
    recordText "ItemDefinition" [("id", quotedIn around a), ("structure_ref", quotedIn around b)]
  | message a b c =>
    recordText "Message" [("id", quotedIn around a), ("name", quotedIn around b),
      ("type", quotedIn around c)]
  | process a b c d e f g h i j k =>
    recordText "ProcessDefinition" [("id", quotedIn around a), ("name", quotedIn around b),
      ("metadata", quotedIn around c), ("globals", quotedIn around d),
      ("imports", quotedIn around e), ("function_imports", quotedIn around f),
      ("nodes", quotedIn around g), ("variables", quotedIn around h),
      ("item_definitions", quotedIn around i), ("signals", quotedIn around j),
      ("messages", quotedIn around k)]
  | part a t => recordText "Part" [("name", quotedIn around a), ("part_type", partTypeQuoted t)]
  | shared a t =>
    recordText "SharedReference" [("name", quotedIn around a), ("part_type", partTypeQuoted t)]
  | resourceRef a t =>
    recordText "ResourceReference" [("name", quotedIn around a),
      ("resource_type", resourceTypeQuoted t)]
  | resource a t ps frozen =>
    recordText "Resource" [("resource_id", quotedIn around a),
      ("resource_type", resourceTypeQuoted t), ("parts", setText frozen (quotedAll around ps))]
  | index a b rs ss qs cs =>
    recordText "ProcessIndex" [("process_id", quotedIn around a),
      ("process_name", quotedIn around b), ("resources", tupleText (quotedAll around rs)),
      ("shared_references", setText true (quotedAll around ss)),
      ("resource_references", setText true (quotedAll around qs)),
      ("referenced_classes", setText true (quotedAll around cs))]

/-- The quoted forms of several values. -/
def quotedAll (around : List Mark) : List Value → List String
  | [] => []
  | x :: xs => quotedIn around x :: quotedAll around xs

/-- The quoted forms of the entries of a mapping. -/
def quotedEntries (around : List Mark) : List (Value × Value) → List String
  | [] => []
  | (k, v) :: es =>
    (quotedIn around k ++ ": " ++ quotedIn around v) :: quotedEntries around es

end

/-- The form of a value inside another. -/
def quoted (v : Value) : String := v.quotedIn []

/-- The form of a value on its own. -/
def display : Value → String
  | text s => s
  | date d _ => d.text
  | moment m _ => m.text
  | partType t => "PartType." ++ t.constant
  | resourceType t => "ResourceType." ++ t.constant
  | v => v.quoted

/-! ### Values that are too long to be written -/

mutual

/-- Whether every integer in a value can be written. -/
def spellableIn (around : List Mark) : Value → Bool
  | int n => Text.isSpellable n
  | list xs mark | tuple xs mark | set _ xs mark =>
    isAround around mark || allSpellable (entering around mark) xs
  | dict es mark => isAround around mark || entriesSpellable (entering around mark) es
  | node a b | item a b => spellableIn around a && spellableIn around b
  | ruleSet a b c | workItem a b c | var a b c | message a b c =>
    spellableIn around a && spellableIn around b && spellableIn around c
  | subProcess a b c d =>
    spellableIn around a && spellableIn around b && spellableIn around c && spellableIn around d
  | process a b c d e f g h i j k =>
    spellableIn around a && spellableIn around b && spellableIn around c &&
      spellableIn around d && spellableIn around e && spellableIn around f &&
      spellableIn around g && spellableIn around h && spellableIn around i &&
      spellableIn around j && spellableIn around k
  | part a _ | shared a _ | resourceRef a _ => spellableIn around a
  | resource a _ ps _ => spellableIn around a && allSpellable around ps
  | index a b rs ss qs cs =>
    spellableIn around a && spellableIn around b && allSpellable around rs &&
      allSpellable around ss && allSpellable around qs && allSpellable around cs
  | _ => true

/-- Whether every integer in several values can be written. -/
def allSpellable (around : List Mark) : List Value → Bool
  | [] => true
  | x :: xs => spellableIn around x && allSpellable around xs

/-- Whether every integer in the entries of a mapping can be written. -/
def entriesSpellable (around : List Mark) : List (Value × Value) → Bool
  | [] => true
  | (k, v) :: es =>
    spellableIn around k && spellableIn around v && entriesSpellable around es

end

/-- The form of a value on its own, unless it holds an integer that is too long to be written. -/
def display? (v : Value) : Answer String :=
  if v.spellableIn [] then .ok v.display else .error .badValue

end Concordance.Value
