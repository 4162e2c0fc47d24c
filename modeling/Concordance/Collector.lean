import Concordance.Reference

/-!
The references gathered during one build.

* `Collector` : the resources by id and type, in order of their first mention, the shared references
  and the references to other resources; adding the same name and kind twice changes nothing.
* `Collector.addResource`, `addShared`, `addResourceRef`, `addPart` : additions.
* `Collector.freeze` : closes every resource that is there to new parts.
-/

namespace Concordance

/-- The references gathered during one build. -/
structure Collector where
  resources : List Resource := []
  shared : List SharedReference := []
  resourceRefs : List ResourceReference := []
  deriving Inhabited

namespace Collector

/-- The resource with an id and a type. -/
def find? (c : Collector) (id : Value) (type : ResourceType) : Option Resource :=
  c.resources.find? fun r => r.type == type && r.id.same id

/-- The resource with an id and a type, if the id can be looked up at all. -/
def getResource (c : Collector) (id : Value) (type : ResourceType) : Answer (Option Resource) :=
  if id.hashable then .ok (c.find? id type) else .error .illTyped

/-- Registers a resource, unless it is there. -/
def addResource (c : Collector) (id : Value) (type : ResourceType) : Answer Collector :=
  if !id.hashable then .error .illTyped
  else if (c.find? id type).isSome then .ok c
  else .ok { c with resources := c.resources ++ [{ id, type }] }

/-- Adds a name that is visible across processes. -/
def addShared (c : Collector) (name : Value) (type : PartType) : Answer Collector :=
  if name.hashable then
    .ok { c with shared := addNew SharedReference.same c.shared { name, type } }
  else .error .illTyped

/-- Adds the name of another resource. -/
def addResourceRef (c : Collector) (name : Value) (type : ResourceType) : Answer Collector :=
  if name.hashable then
    .ok { c with resourceRefs := addNew ResourceReference.same c.resourceRefs { name, type } }
  else .error .illTyped

/-- Replaces the resource with an id and a type. -/
def update (c : Collector) (id : Value) (type : ResourceType) (r : Resource) : Collector :=
  { c with resources := c.resources.map fun s =>
      if s.type == type && s.id.same id then r else s }

/-- The resource with an id and a type, or the fault of asking a missing one for something. -/
def demand (c : Collector) (id : Value) (type : ResourceType) : Answer Resource := do
  match ← c.getResource id type with
  | some r => pure r
  | none => throw .noAttribute

/-- Adds a part to the resource with an id and a type. -/
def addPart (c : Collector) (id : Value) (type : ResourceType) (name : Value) (part : PartType) :
    Answer Collector := do
  let r ← c.demand id type
  let r ← r.addPart? name part
  pure (c.update id type r)

/-- Closes one resource to new parts. -/
def freezeOne (c : Collector) (id : Value) (type : ResourceType) : Answer Collector := do
  let r ← c.demand id type
  pure (c.update id type r.freeze)

/-- Closes every resource to new parts. -/
def freeze (c : Collector) : Collector :=
  { c with resources := c.resources.map Resource.freeze }

end Collector
end Concordance
