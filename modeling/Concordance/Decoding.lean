import Concordance.Value.Access

/-!
Typed reads of a metadata bag: a value behind a well-known key has the type the key promises, or is
null and contributes nothing, or is refused with the key, the expectation and the type met.

* `Shape` : the types a reader can ask for.
* `decodeInstance` : a value of one shape.
* `decodeStrings` : a collection of texts, as a set; a bare text is refused.
* `decodeMapping` : a mapping with textual keys, whose values may be asked to have one shape.
-/

namespace Concordance

/-- The types a reader can ask for. -/
inductive Shape where
  | text
  | int
  | list
  | dict
  | node
  | ruleSet
  | workItem
  | subProcess
  | var
  | item
  | message
  | process
  | index
  deriving DecidableEq, Repr, Inhabited

namespace Shape

/-- The name of a shape in messages. -/
def name : Shape → String
  | text => "str"
  | int => "int"
  | list => "list"
  | dict => "dict"
  | node => "Node"
  | ruleSet => "RuleSetNode"
  | workItem => "WorkItemNode"
  | subProcess => "SubProcessNode"
  | var => "Variable"
  | item => "ItemDefinition"
  | message => "Message"
  | process => "ProcessDefinition"
  | index => "ProcessIndex"

/-- Whether a value has a shape: a truth value is an integer, and every kind of node is a node. -/
def fits : Shape → Value → Bool
  | text, .text _ => true
  | int, v => v.integer?.isSome
  | list, .list .. => true
  | dict, .dict .. => true
  | node, v => v.isNode
  | ruleSet, .ruleSet .. => true
  | workItem, .workItem .. => true
  | subProcess, .subProcess .. => true
  | var, .var .. => true
  | item, .item .. => true
  | message, .message .. => true
  | process, .process .. => true
  | index, .index .. => true
  | _, _ => false

end Shape

/-- The refusal of a value under a key. -/
def refuse (key expected : String) (v : Value) : Fault := .metadata key expected v.typeName

/-- A value of the expected shape. -/
def decodeInstance (key : String) (v : Value) (expected : Shape) : Answer Value :=
  if expected.fits v then .ok v else .error (refuse key expected.name v)

/-- One member of a collection of texts. -/
def decodeString (key : String) (v : Value) : Answer String :=
  match v with
  | .text s => .ok s
  | v => .error (refuse key "a collection of strings" v)

/-- A collection of texts as a set; null contributes nothing. -/
def decodeStrings (key : String) (v : Value) : Answer (Option (List String)) :=
  match v with
  | .null => .ok none
  | .text _ | .bytes _ => .error (refuse key "a collection of strings" v)
  | v =>
    match v.members? with
    | none => .error (refuse key "a collection of strings" v)
    | some xs => do
      let names ← xs.mapM (decodeString key)
      pure (some names.eraseDups)

/-- One entry of a mapping. -/
def checkEntry (key : String) (expected : Option Shape) (e : Value × Value) : Answer Unit :=
  if !e.1.isText then .error (refuse key "a mapping with string keys" e.1)
  else match expected with
    | some shape =>
      if shape.fits e.2 then .ok () else .error (refuse key ("a mapping of " ++ shape.name) e.2)
    | none => .ok ()

/-- A mapping with textual keys and, if a shape is given, values of that shape; null contributes
nothing. -/
def decodeMapping (key : String) (v : Value) (expected : Option Shape) :
    Answer (Option (List (Value × Value))) :=
  match v with
  | .null => .ok none
  | .dict es _ => do
    es.forM (checkEntry key expected)
    pure (some es)
  | v => .error (refuse key "a mapping" v)

end Concordance
