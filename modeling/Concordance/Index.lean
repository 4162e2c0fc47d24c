import Concordance.Decoding
import Concordance.Reference
import Concordance.Text.Surrogate
import Concordance.XXH64

/-!
The finished index of one process.

* `Index` : the references that building a process produced.
* `Index.resource?`, `Index.parts`, `Index.shared`, `Index.references`, `Index.mentions` : queries.
* `Index.contentBytes?` : the byte stream that stands for the content: id and name, then every part,
  shared reference and reference to a resource in order, each closed by a zero byte.
* `Index.fingerprint?` : the hash of that stream, by which a registry tells an unchanged index.
* `Index.publishTo?`, `Index.fromMetadata?` : the index in a metadata bag.
-/

namespace Concordance

/-- The references that building a process produced. -/
structure Index where
  processId : Value
  processName : Value
  resources : List Resource
  shared : List SharedReference
  resourceRefs : List ResourceReference
  classes : List Value
  deriving Inhabited

namespace Index

/-! ### Queries -/

/-- The resource under the id of the process. -/
def resource? (i : Index) : Option Resource := i.resources.find? (·.type == .processId)

/-- The parts of the process. -/
def parts (i : Index) : List Part := (i.resource?.map (·.parts)).getD []

/-- The names of the shared references of one kind. -/
def sharedNames (i : Index) (type : PartType) : List Value :=
  Value.dedup ((i.shared.filter (·.type == type)).map (·.name))

/-- The names of the referenced resources of one kind. -/
def references (i : Index) (type : ResourceType) : List Value :=
  Value.dedup ((i.resourceRefs.filter (·.type == type)).map (·.name))

/-- A part is called `name`. -/
def hasPart (i : Index) (name : String) : Bool := i.parts.any (·.name.same (.text name))

/-- A shared reference, of the given kind if one is given, is called `name`. -/
def hasShared (i : Index) (name : String) (type : Option PartType) : Bool :=
  i.shared.any fun r => r.name.same (.text name) && type.all (r.type == ·)

/-- A referenced resource, of the given kind if one is given, is called `name`. -/
def hasReference (i : Index) (name : String) (type : Option ResourceType) : Bool :=
  i.resourceRefs.any fun r => r.name.same (.text name) && type.all (r.type == ·)

/-- A part or reference of any kind is called `name`. -/
def mentions (i : Index) (name : String) : Bool :=
  i.hasPart name || i.hasShared name none || i.hasReference name none

/-! ### Fingerprint -/

/-- A text that can be encoded. -/
def encodable? (s : String) : Answer String :=
  if Text.isEncodable s then .ok s else .error .unencodable

/-- One reference in the byte stream. -/
def referenceText? (letter : String) (key : String × Value) : Answer String := do
  encodable? (letter ++ ":" ++ key.1 ++ ":" ++ (← key.2.display?) ++ "\x00")

/-- The content of an index as one text. -/
def contentText? (i : Index) : Answer String := do
  let id ← i.processId.display?
  let name ← i.processName.display?
  let head ← encodable? (id ++ "\x00" ++ name ++ "\x00")
  let parts ← (← sortParts? i.parts).mapM fun p => referenceText? "p" p.key
  let shared ← (← sortShared? i.shared).mapM fun r => referenceText? "s" r.key
  let refs ← (← sortResourceRefs? i.resourceRefs).mapM fun r => referenceText? "r" r.key
  pure (head ++ String.join parts ++ String.join shared ++ String.join refs)

/-- The byte stream that stands for the content of an index. -/
def contentBytes? (i : Index) : Answer (List UInt8) := do
  let s ← i.contentText?
  pure s.toUTF8.toList

/-- The hash of the content. -/
def fingerprint? (i : Index) : Answer String := do
  let bytes ← i.contentBytes?
  pure (XXH64.hexDigest bytes)

/-! ### Written form -/

/-- The index as it is written. -/
def toDict? (i : Index) : Answer Value := do
  let fingerprint ← i.fingerprint?
  let resources ← i.resources.mapM Resource.toDict?
  let shared ← sortShared? i.shared
  let refs ← sortResourceRefs? i.resourceRefs
  let classes ← Value.sort? i.classes
  pure (.dict [(.text "process_id", i.processId), (.text "process_name", i.processName),
    (.text "fingerprint", .text fingerprint), (.text "resources", .list resources),
    (.text "shared_references", .list (shared.map SharedReference.toDict)),
    (.text "resource_references", .list (refs.map ResourceReference.toDict)),
    (.text "referenced_classes", .list classes)])

/-! ### Publication -/

/-- The key of a published index in a metadata bag. -/
def metadataKey : String := "BPMNProcessInfoCollector"

/-- The index as a value of a metadata bag. -/
def toValue (i : Index) : Value :=
  .index i.processId i.processName (i.resources.map Resource.toValue)
    (i.shared.map SharedReference.toValue) (i.resourceRefs.map ResourceReference.toValue) i.classes

/-- The index that a value is. -/
def ofValue? : Value → Option Index
  | .index processId processName resources shared resourceRefs classes =>
    some { processId, processName, resources := resources.filterMap Resource.ofValue?,
           shared := shared.filterMap SharedReference.ofValue?,
           resourceRefs := resourceRefs.filterMap ResourceReference.ofValue?, classes }
  | _ => none

/-- A metadata bag with the index in it. -/
def publishTo? (i : Index) (metadata : Value) : Answer Value :=
  match metadata with
  | .dict es _ => .ok (.dict (Value.put es (.text metadataKey) i.toValue))
  | _ => .error .illTyped

/-- The index that was published into a metadata bag, if any. -/
def fromMetadata? (metadata : Value) : Answer (Option Index) := do
  match ← metadata.get? (.text metadataKey) with
  | .null => pure none
  | v =>
    let v ← decodeInstance metadataKey v .index
    pure (ofValue? v)

end Index
end Concordance
