import Concordance.Index

/-!
The registry of finished indexes, by process id.

* `Registry.publish` : stores an index, unless the stored one of the same id has the same
  fingerprint; tells whether anything changed.
* `Registry.remove`, `Registry.get?`, `Registry.contains` : one entry.
* `Registry.all` : every index in the order of the ids.
* `Registry.findShared`, `Registry.findReference`, `Registry.impact` : the indexes that mention a
  name, in the same order.
-/

namespace Concordance

/-- Finished indexes by process id. -/
structure Registry where
  entries : List (Value × Index) := []
  deriving Inhabited

/-- The sizes of a registry. -/
structure RegistryStats where
  processes : Nat
  parts : Nat
  shared : Nat
  resourceRefs : Nat
  deriving DecidableEq, Repr, Inhabited

namespace Registry

/-- The index of a process. -/
def get? (r : Registry) (id : Value) : Option Index :=
  (r.entries.find? fun e => e.1.same id).map (·.2)

/-- A process has an index here. -/
def contains (r : Registry) (id : Value) : Bool := (r.get? id).isSome

/-- The number of indexes. -/
def size (r : Registry) : Nat := r.entries.length

/-- Puts an index under an id: at the place of the one that is there, or at the end. -/
def place (id : Value) (i : Index) : List (Value × Index) → List (Value × Index)
  | [] => [(id, i)]
  | (k, j) :: es => if k.same id then (k, i) :: es else (k, j) :: place id i es

/-- The registry with an index in place of the one under its id. -/
def insert (r : Registry) (i : Index) : Registry :=
  { entries := place i.processId i r.entries }

/-- Stores an index, unless the stored one has the same fingerprint; tells whether it did. -/
def publish (r : Registry) (i : Index) : Answer (Registry × Bool) :=
  if !i.processId.hashable then .error .illTyped
  else
    match r.get? i.processId with
    | none => .ok (r.insert i, true)
    | some old => do
      let before ← old.fingerprint?
      let after ← i.fingerprint?
      pure (if before = after then (r, false) else (r.insert i, true))

/-- Removes the index of a process; tells whether it was there. -/
def remove (r : Registry) (id : Value) : Registry × Bool :=
  ({ entries := r.entries.filter fun e => !e.1.same id }, r.contains id)

/-- Every index, in the order of the ids. -/
def all (r : Registry) : Answer (List Index) := do
  let es ← Value.sortBy? (fun a b => Value.less? a.1 b.1) r.entries
  pure (es.map (·.2))

/-- The indexes of the processes with a name. -/
def getByName (r : Registry) (name : String) : Answer (List Index) := do
  pure ((← r.all).filter fun i => i.processName.same (.text name))

/-- The indexes with a shared reference of this name, of the kind if one is given. -/
def findShared (r : Registry) (name : String) (type : Option PartType) : Answer (List Index) := do
  pure ((← r.all).filter fun i => i.hasShared name type)

/-- The indexes that refer to a resource of this name, of the kind if one is given. -/
def findReference (r : Registry) (name : String) (type : Option ResourceType) :
    Answer (List Index) := do
  pure ((← r.all).filter fun i => i.hasReference name type)

/-- The indexes in which a name occurs. -/
def impact (r : Registry) (name : String) : Answer (List Index) := do
  pure ((← r.all).filter fun i => i.mentions name)

/-- The sizes of the registry. -/
def stats (r : Registry) : Answer RegistryStats := do
  let is ← r.all
  let total (size : Index → Nat) : Nat := is.foldl (fun n i => n + size i) 0
  pure { processes := is.length
         parts := total fun i => i.parts.length
         shared := total fun i => i.shared.length
         resourceRefs := total fun i => i.resourceRefs.length }

end Registry
end Concordance
