import Concordance.Binary64
import Concordance.Calendar
import Concordance.Kind

/-!
Values of metadata bags, descriptors and settings, which may hold anything at any place.

* `Value` : scalars, collections, the records a process is declared by, and the results of indexing.
* `Mark` : what tells an object of a document from the equal objects beside it.
* `Value.typeName` : the name of a value's type in messages.
* `Value.truthy` : whether a value counts as present: everything but null, false, zero and the
  empty collections.
* `Value.isMapping`, `Value.isNode`, … : the classes of values that readers ask for.

Sets keep the order of insertion and hold no two equal members; mappings keep the order of their
keys.
-/

namespace Concordance

/-- What tells an object of a document from equal ones: the document, and a number in it. A document
can hold one object at several places, and even inside itself. -/
structure Mark where
  document : Nat
  number : Nat
  deriving DecidableEq, Repr, Inhabited

/-- A value of unknown shape. Collections, dates and moments that come from a document may carry the
mark of the object they are; a mark makes no difference for equality. -/
inductive Value where
  | null
  | bool (b : Bool)
  | int (n : Int)
  | float (x : Binary64)
  | text (s : String)
  | bytes (bs : List UInt8)
  | date (d : Date) (mark : Option Mark := none)
  | moment (m : Moment) (mark : Option Mark := none)
  | list (xs : List Value) (mark : Option Mark := none)
  | tuple (xs : List Value) (mark : Option Mark := none)
  | set (frozen : Bool) (xs : List Value) (mark : Option Mark := none)
  | dict (entries : List (Value × Value)) (mark : Option Mark := none)
  | partType (t : PartType)
  | resourceType (t : ResourceType)
  /-- A node that carries no reference. -/
  | node (id name : Value)
  /-- A task bound to a rule-flow group. -/
  | ruleSet (id name group : Value)
  /-- A task that a named handler works on. -/
  | workItem (id name work : Value)
  /-- A call of another process, by id, by name, or by both. -/
  | subProcess (id name processId processName : Value)
  /-- A declared variable. -/
  | var (name type metadata : Value)
  /-- An item id with the class that structures it. -/
  | item (id structureRef : Value)
  | message (id name type : Value)
  | process (id name metadata globals imports functionImports nodes vars itemDefinitions
      signals messages : Value)
  | part (name : Value) (type : PartType)
  | shared (name : Value) (type : PartType)
  | resourceRef (name : Value) (type : ResourceType)
  | resource (id : Value) (type : ResourceType) (parts : List Value) (frozen : Bool)
  | index (processId processName : Value)
      (resources shared resourceRefs classes : List Value)
  deriving Inhabited

namespace Value

/-- The name of a value's type in messages. -/
def typeName : Value → String
  | null => "NoneType"
  | bool _ => "bool"
  | int _ => "int"
  | float _ => "float"
  | text _ => "str"
  | bytes _ => "bytes"
  | date .. => "date"
  | moment .. => "datetime"
  | list .. => "list"
  | tuple .. => "tuple"
  | set frozen .. => if frozen then "frozenset" else "set"
  | dict .. => "dict"
  | partType _ => "PartType"
  | resourceType _ => "ResourceType"
  | node .. => "Node"
  | ruleSet .. => "RuleSetNode"
  | workItem .. => "WorkItemNode"
  | subProcess .. => "SubProcessNode"
  | var .. => "Variable"
  | item .. => "ItemDefinition"
  | message .. => "Message"
  | process .. => "ProcessDefinition"
  | part .. => "Part"
  | shared .. => "SharedReference"
  | resourceRef .. => "ResourceReference"
  | resource .. => "Resource"
  | index .. => "ProcessIndex"

/-- Whether a value counts as present. -/
def truthy : Value → Bool
  | null => false
  | bool b => b
  | int n => n != 0
  | float x => !x.isZero
  | text s => s != ""
  | bytes bs => !bs.isEmpty
  | list xs _ => !xs.isEmpty
  | tuple xs _ => !xs.isEmpty
  | set _ xs _ => !xs.isEmpty
  | dict es _ => !es.isEmpty
  | _ => true

/-- The value itself if it counts as present, else the other. -/
def orElse (v w : Value) : Value := if v.truthy then v else w

/-- The text a value is. -/
def text? : Value → Option String
  | text s => some s
  | _ => none

/-- The entries of a mapping. -/
def entries? : Value → Option (List (Value × Value))
  | dict es _ => some es
  | _ => none

/-- A text. -/
def isText (v : Value) : Bool := v.text?.isSome

/-- A mapping. -/
def isMapping (v : Value) : Bool := v.entries?.isSome

/-- A node of any kind. -/
def isNode : Value → Bool
  | node .. | ruleSet .. | workItem .. | subProcess .. => true
  | _ => false

/-- The truth value, integer or double that a number is. -/
def isNumber : Value → Bool
  | bool _ | int _ | float _ => true
  | _ => false

/-- The integer a truth value or integer is. -/
def integer? : Value → Option Int
  | bool b => some b.toInt
  | int n => some n
  | _ => none

end Value
end Concordance
