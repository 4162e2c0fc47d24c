import Concordance.Decoding

/-!
Expression dialects and the type names they leave in a metadata bag.

* `Contributor` : a dialect and the keys under which it reports qualified and bare type names;
  `Contributor.contribute` reads both sets from a bag.
* `DialectRegistry` : the contributors in the order of registration, and for every key the dialect
  that owns it. `register` refuses a key that another dialect owns and replaces a contributor of
  the same name at its place; `unregister` frees the keys of a contributor.
* `DialectRegistry.withDefaults` : the built-in dialects, or those of them that are enabled.
-/

namespace Concordance

/-- A dialect with the metadata keys it reports type names under. -/
structure Contributor where
  name : String
  referencedKey : Option String := none
  unqualifiedKey : Option String := none
  deriving DecidableEq, Repr, Inhabited

/-- The type names one dialect contributes. -/
structure Contribution where
  referenced : List String := []
  unqualified : List String := []
  deriving DecidableEq, Repr, Inhabited

namespace Contributor

/-- A key that is present: an empty one counts as absent. -/
def present (key : Option String) : Option String := key.filter (· != "")

/-- The keys of a contributor. -/
def keys (c : Contributor) : List String :=
  [present c.referencedKey, present c.unqualifiedKey].filterMap id

/-- The texts under one key of a bag. -/
def read (metadata : Value) : Option String → Answer (List String)
  | none => .ok []
  | some key => do
    let v ← metadata.get? (.text key)
    let names ← decodeStrings key v
    pure (names.getD [])

/-- The type names that this dialect left in a bag. -/
def contribute (c : Contributor) (metadata : Value) : Answer Contribution := do
  let referenced ← read metadata (present c.referencedKey)
  let unqualified ← read metadata (present c.unqualifiedKey)
  pure { referenced, unqualified }

end Contributor

/-- The dialects that are built in. -/
def builtinDialects : List Contributor := [
  { name := "java"
    referencedKey := some "JavaDialectReferencedTypes"
    unqualifiedKey := some "JavaDialectUnqualifiedTypes" },
  { name := "java-return-value"
    referencedKey := some "JavaReturnValueReferencedTypes"
    unqualifiedKey := some "JavaReturnValueUnqualifiedTypes" },
  { name := "mvel"
    referencedKey := some "MVELDialectReferencedTypes" },
  { name := "mvel-return-value"
    referencedKey := some "MVELReturnValueReferencedTypes" }]

/-- The names of the built-in dialects. -/
def builtinDialectNames : List String := builtinDialects.map (·.name)

/-- Contributors in order of registration, and the owner of every key. -/
structure DialectRegistry where
  contributors : List Contributor := []
  owners : List (String × String) := []
  deriving DecidableEq, Repr, Inhabited

namespace DialectRegistry

/-- The contributor with a name. -/
def find? (r : DialectRegistry) (name : String) : Option Contributor :=
  r.contributors.find? (·.name == name)

/-- The dialect that reads a key. -/
def ownerOf (r : DialectRegistry) (key : String) : Option String :=
  (r.owners.find? (·.1 == key)).map (·.2)

/-- The names of the dialects, in order. -/
def names (r : DialectRegistry) : List String := r.contributors.map (·.name)

/-- The number of dialects. -/
def size (r : DialectRegistry) : Nat := r.contributors.length

/-- A dialect with this name is registered. -/
def contains (r : DialectRegistry) (name : String) : Bool := (r.find? name).isSome

/-- Puts a contributor at the place of the one with its name, or at the end. -/
def place (c : Contributor) : List Contributor → List Contributor
  | [] => [c]
  | d :: ds => if d.name == c.name then c :: ds else d :: place c ds

/-- The first key of a contributor that another dialect owns, with its owner. -/
def taken? (r : DialectRegistry) (c : Contributor) : Option (String × String) :=
  c.keys.findSome? fun key =>
    (r.ownerOf key).bind fun owner => if owner == c.name then none else some (key, owner)

/-- Adds a contributor, unless another dialect owns one of its keys. -/
def register (r : DialectRegistry) (c : Contributor) : Answer DialectRegistry :=
  match r.taken? c with
  | some (key, owner) => .error (.keyTaken key owner c.name)
  | none =>
    let old := ((r.find? c.name).map Contributor.keys).getD []
    let kept := r.owners.filter fun o => !old.contains o.1 && !c.keys.contains o.1
    .ok { contributors := place c r.contributors
          owners := kept ++ c.keys.eraseDups.map fun key => (key, c.name) }

/-- Removes a contributor and frees its keys; tells whether it was there. -/
def unregister (r : DialectRegistry) (name : String) : DialectRegistry × Bool :=
  match r.find? name with
  | none => (r, false)
  | some c =>
    ({ contributors := r.contributors.filter (·.name != name)
       owners := r.owners.filter fun o => !(c.keys.contains o.1 && o.2 == name) }, true)

/-- What each dialect left in a bag, in order of registration. -/
def contributions (r : DialectRegistry) (metadata : Value) :
    Answer (List (String × Contribution)) :=
  r.contributors.mapM fun c => do
    let pair ← c.contribute metadata
    pure (c.name, pair)

/-- The registry of a list of contributors. -/
def ofList (cs : List Contributor) : Answer DialectRegistry := cs.foldlM register {}

/-- The registry of the built-in dialects. -/
def builtin : DialectRegistry :=
  { contributors := builtinDialects
    owners := builtinDialects.flatMap fun c => c.keys.map fun key => (key, c.name) }

/-- Whether a value is the name of a built-in dialect. -/
def isBuiltin? (name : Value) : Answer Bool :=
  if name.hashable then .ok (Value.memberOf (builtinDialectNames.map .text) name)
  else .error .illTyped

/-- The registry of the built-in dialects that are enabled. -/
def withDefaults (enabled : List Value) : Answer DialectRegistry := do
  let flags ← enabled.mapM isBuiltin?
  let unknown := ((enabled.zip flags).filter fun e => !e.2).map (·.1)
  if unknown.isEmpty then
    let named (v : Value) (c : Contributor) : Bool := v.same (.text c.name)
    ofList (enabled.filterMap fun v => builtinDialects.find? (named v))
  else
    let unknown ← Value.texts? unknown
    throw (.unknownDialects unknown builtinDialectNames)

end DialectRegistry
end Concordance
