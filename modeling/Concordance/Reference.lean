import Concordance.Value.Order
import Concordance.Value.Text

/-!
What an index is made of: named parts of a process, references that all processes share, references
to other resources, and the resources themselves.

* `Part`, `SharedReference`, `ResourceReference` : a name with a kind; equal name and kind make the
  same reference.
* `Resource` : a process under its id or its name, with its parts; a frozen resource refuses new
  ones (`Resource.addPart?`).
* `sortParts?`, `sortShared?`, `sortResourceRefs?` : the order by kind, then name.
* `toValue` : each as a value of a metadata bag.
-/

namespace Concordance

/-- A name that one process exposes. -/
structure Part where
  name : Value
  type : PartType
  deriving Inhabited

/-- A name that is visible across processes. -/
structure SharedReference where
  name : Value
  type : PartType
  deriving Inhabited

/-- The name of another resource. -/
structure ResourceReference where
  name : Value
  type : ResourceType
  deriving Inhabited

/-- A process under its id or its name, with its parts. -/
structure Resource where
  id : Value
  type : ResourceType
  parts : List Part := []
  frozen : Bool := false
  deriving Inhabited

/-! ### Equal references -/

/-- The same name and kind. -/
def Part.same (p q : Part) : Bool := p.type == q.type && p.name.same q.name

/-- The same name and kind. -/
def SharedReference.same (p q : SharedReference) : Bool := p.type == q.type && p.name.same q.name

/-- The same name and kind. -/
def ResourceReference.same (p q : ResourceReference) : Bool :=
  p.type == q.type && p.name.same q.name

/-- A set with one more member, unless it holds the same one. -/
def addNew {α : Type} (same : α → α → Bool) (xs : List α) (x : α) : List α :=
  if xs.any (same · x) then xs else xs ++ [x]

/-! ### Order -/

/-- The sort key of a part. -/
def Part.key (p : Part) : String × Value := (p.type.label, p.name)

/-- The sort key of a shared reference. -/
def SharedReference.key (r : SharedReference) : String × Value := (r.type.label, r.name)

/-- The sort key of a reference to a resource. -/
def ResourceReference.key (r : ResourceReference) : String × Value := (r.type.label, r.name)

/-- Parts by kind, then name. -/
def sortParts? (ps : List Part) : Answer (List Part) := Value.sortPairs? Part.key ps

/-- Shared references by kind, then name. -/
def sortShared? (rs : List SharedReference) : Answer (List SharedReference) :=
  Value.sortPairs? SharedReference.key rs

/-- References to resources by kind, then name. -/
def sortResourceRefs? (rs : List ResourceReference) : Answer (List ResourceReference) :=
  Value.sortPairs? ResourceReference.key rs

/-- A reference of any of the three sorts. -/
inductive Reference where
  | part (p : Part)
  | shared (r : SharedReference)
  | resource (r : ResourceReference)
  deriving Inhabited

/-- The sort key of a reference, whatever its sort. -/
def Reference.key : Reference → String × Value
  | .part p => p.key
  | .shared r => r.key
  | .resource r => r.key

/-- References of any sort by kind, then name. -/
def sortReferences? (rs : List Reference) : Answer (List Reference) :=
  Value.sortPairs? Reference.key rs

/-! ### Resources -/

/-- A resource with one more part. -/
def Resource.addPart? (r : Resource) (name : Value) (type : PartType) : Answer Resource :=
  if r.frozen then .error (.frozen r.id.display)
  else if name.hashable then
    .ok { r with parts := addNew Part.same r.parts { name, type } }
  else .error .illTyped

/-- The resource, closed to changes. -/
def Resource.freeze (r : Resource) : Resource := { r with frozen := true }

/-- The names of the parts of one kind. -/
def Resource.partsOf (r : Resource) (type : PartType) : List Value :=
  Value.dedup ((r.parts.filter (·.type == type)).map (·.name))

/-! ### As values -/

/-- A part as a value. -/
def Part.toValue (p : Part) : Value := .part p.name p.type

/-- A shared reference as a value. -/
def SharedReference.toValue (r : SharedReference) : Value := .shared r.name r.type

/-- A reference to a resource as a value. -/
def ResourceReference.toValue (r : ResourceReference) : Value := .resourceRef r.name r.type

/-- A resource as a value. -/
def Resource.toValue (r : Resource) : Value :=
  .resource r.id r.type (r.parts.map Part.toValue) r.frozen

/-- The part that a value is. -/
def Part.ofValue? : Value → Option Part
  | .part name type => some { name, type }
  | _ => none

/-- The shared reference that a value is. -/
def SharedReference.ofValue? : Value → Option SharedReference
  | .shared name type => some { name, type }
  | _ => none

/-- The reference to a resource that a value is. -/
def ResourceReference.ofValue? : Value → Option ResourceReference
  | .resourceRef name type => some { name, type }
  | _ => none

/-- The resource that a value is. -/
def Resource.ofValue? : Value → Option Resource
  | .resource id type parts frozen =>
    some { id, type, parts := parts.filterMap Part.ofValue?, frozen }
  | _ => none

/-! ### Entries of the written index -/

/-- A name and the written form of its kind. -/
def namedEntry (name : Value) (label : String) : Value :=
  .dict [(.text "name", name), (.text "type", .text label)]

/-- A part as it is written in an index. -/
def Part.toDict (p : Part) : Value := namedEntry p.name p.type.label

/-- A shared reference as it is written in an index. -/
def SharedReference.toDict (r : SharedReference) : Value := namedEntry r.name r.type.label

/-- A reference to a resource as it is written in an index. -/
def ResourceReference.toDict (r : ResourceReference) : Value := namedEntry r.name r.type.label

/-- A resource as it is written in an index, its parts in order. -/
def Resource.toDict? (r : Resource) : Answer Value := do
  let parts ← sortParts? r.parts
  pure (.dict [(.text "id", r.id), (.text "type", .text r.type.label),
    (.text "parts", .list (parts.map Part.toDict))])

end Concordance
