import Concordance.ProcessDefinition
import Concordance.Value.Text

/-!
Process descriptors: a tree of values that says what a compiler would report for one process.

* `Descriptor.parse` : the process a tree describes, or what is wrong with the tree. Sections that
  are missing or null are empty; ids and names of any type are taken by their text; type names and
  references have to be texts.

The sections are read in a fixed order, so of several faults the first in that order is reported.
-/

namespace Concordance.Descriptor

/-- A mapping with textual keys, as a descriptor is written. -/
abbrev Entries := List (Value × Value)

/-- Refuses a descriptor. -/
def refuse {α : Type} (why : DescriptorFault) : Answer α := .error (.descriptor why)

/-! ### Reading one entry -/

/-- The list under a key; a missing or null one is empty. -/
def listAt (es : Entries) (key source : String) : Answer (List Value) :=
  match Value.field es key with
  | .null => .ok []
  | .list xs _ => .ok xs
  | _ => refuse (.notList source key)

/-- The mapping under a key; a missing or null one is empty. -/
def mappingAt (es : Entries) (key source : String) : Answer Entries :=
  match Value.field es key with
  | .null => .ok []
  | .dict fs _ => .ok fs
  | _ => refuse (.sectionNotMapping source key)

/-- The texts under a key, as values; a missing or null list is empty. -/
def textsAt (es : Entries) (key source : String) : Answer (List Value) := do
  let xs ← listAt es key source
  if xs.all Value.isText then pure xs else refuse (.notStrings source key)

/-- The text under a key, as a value; null if it is missing. -/
def textAt (es : Entries) (key source : String) : Answer Value :=
  match Value.field es key with
  | .null => .ok .null
  | .text s => .ok (.text s)
  | v => refuse (.notString source key v.typeName)

/-- The text of whatever stands under a key, empty if the key is missing. -/
def displayAt (es : Entries) (key : String) : Answer Value :=
  return .text (← ((Value.field? es key).getD (.text "")).display?)

/-- The text of what stands under a key, empty if that is absent. -/
def presentAt (es : Entries) (key : String) : Answer Value :=
  return .text (← ((Value.field es key).orElse (.text "")).display?)

/-- The entries of a mapping that has something present under a key. -/
def entriesWith? (v : Value) (key : String) : Option Entries :=
  v.entries?.filter fun es => (Value.field es key).truthy

/-! ### Sections -/

/-- A node, by its kind. -/
def parseNode (source : String) (v : Value) : Answer Value := do
  match v with
  | .dict es _ =>
    let kind := (Value.field? es "kind").getD (.text "node")
    let id := displayAt es "id"
    let name := displayAt es "name"
    if !kind.hashable then throw .illTyped
    match kind with
    | .text "node" => pure (.node (← id) (← name))
    | .text "rule_set" => pure (.ruleSet (← id) (← name) (← textAt es "rule_flow_group" source))
    | .text "work_item" => pure (.workItem (← id) (← name) (← textAt es "work_name" source))
    | .text "sub_process" =>
      let id ← id
      let name ← name
      let processId ← textAt es "process_id" source
      let processName ← textAt es "process_name" source
      pure (.subProcess id name (processId.orElse (.text "")) (processName.orElse (.text "")))
    | kind => refuse (.unknownNodeKind source (← kind.display?))
  | _ => refuse (.nodeNotMapping source)

/-- A variable. -/
def parseVariable (source : String) (v : Value) : Answer Value := do
  match entriesWith? v "name" with
  | none => refuse (.variableWithoutName source)
  | some es =>
    let subject ← textAt es "item_subject_ref" source
    let name ← presentAt es "name"
    let type ← textAt es "type" source
    let metadata : Entries :=
      if subject.truthy then [(.text Variable.itemSubjectKey, subject)] else []
    pure (.var name (type.orElse (.text "Object")) (.dict metadata))

/-- An item definition, under its id. -/
def parseItem (source : String) (v : Value) : Answer (Value × Value) := do
  match entriesWith? v "id" with
  | none => refuse (.itemWithoutId source)
  | some es =>
    let id ← presentAt es "id"
    let structureRef ← textAt es "structure_ref" source
    pure (id, .item id structureRef)

/-- A global, under its name. -/
def parseGlobal (source : String) (e : Value × Value) : Answer (Value × Value) := do
  let name ← e.1.display?
  if e.2.isText && e.2.truthy then pure (.text name, e.2)
  else refuse (.globalWithoutType source name)

/-- A message, under its id; a bare text is the id. -/
def parseMessage (source : String) (v : Value) : Answer (Value × Value) := do
  let v := if v.isText then .dict [(.text "id", v)] else v
  match entriesWith? v "id" with
  | none => refuse (.messageWithoutId source)
  | some es =>
    let id ← presentAt es "id"
    pure (id, .message id (← presentAt es "name") (← presentAt es "type"))

/-- An entry of the metadata bag: a list is a set of type names. -/
def parseMetadataEntry (e : Value × Value) : Answer (Value × Value) := do
  let key ← e.1.display?
  match e.2 with
  | .list xs _ => pure (.text key, .set false (← Value.setOf? xs))
  | v => pure (.text key, v)

/-- The metadata bag. -/
def parseMetadata (source : String) (v : Value) : Answer Value := do
  match v.orElse (.dict []) with
  | .dict es _ => pure (.dict (Value.dictOf (← es.mapM parseMetadataEntry)))
  | _ => refuse (.metadataNotMapping source)

/-- The process a tree describes; `source` names the tree in messages. -/
def parse (source : String) (data : Value) : Answer ProcessDefinition := do
  match data with
  | .dict es _ =>
    if !(Value.field es "id").truthy then refuse (.noId source)
    let id ← presentAt es "id"
    let name ← presentAt es "name"
    let metadata ← parseMetadata source (Value.field es "metadata")
    let globals ← (← mappingAt es "globals" source).mapM (parseGlobal source)
    let imports ← textsAt es "imports" source
    let functionImports ← textsAt es "function_imports" source
    let nodes ← (← listAt es "nodes" source).mapM (parseNode source)
    let vars ← (← listAt es "variables" source).mapM (parseVariable source)
    let items ← (← listAt es "item_definitions" source).mapM (parseItem source)
    let signals ← textsAt es "signals" source
    let messages ← (← listAt es "messages" source).mapM (parseMessage source)
    pure {
      id, name, metadata
      globals := .dict (Value.dictOf globals)
      imports := .set false (Value.dedup imports)
      functionImports := .list functionImports
      nodes := .list nodes
      vars := .list vars
      itemDefinitions := .dict (Value.dictOf items)
      signals := .set false (Value.dedup signals)
      messages := .dict (Value.dictOf messages) }
  | _ => refuse (.notMapping source)

end Concordance.Descriptor
