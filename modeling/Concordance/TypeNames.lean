import Concordance.Log
import Concordance.Value.Access
import Concordance.Value.Order
import Concordance.Value.Text

/-!
The type names a build collects, and how bare names are reconciled with qualified ones.

* `TypeNames` : qualified names and bare names; `TypeNames.add` files a name by whether it holds the
  package separator.
* `Resolver` : a base package, the names that are built in, and the separator.
* `Resolver.resolve` : empties the bare names into the qualified ones. A bare name that is the
  simple name of a qualified one is dropped, a built-in one moves into the base package, any other
  is kept as it is and warned about; the names warned about are the answer, in order.
-/

namespace Concordance

/-- Qualified and bare type names. -/
structure TypeNames where
  separator : Value := .text "."
  referenced : List Value := []
  unqualified : List Value := []
  deriving Inhabited

namespace TypeNames

/-- No bare name is left. -/
def isResolved (t : TypeNames) : Bool := t.unqualified.isEmpty

/-- Files one type name; an absent name changes nothing. -/
def add (t : TypeNames) (name : Value) : Answer TypeNames :=
  if !name.truthy then .ok t
  else do
    if ← name.contains? t.separator then
      let referenced ← Value.insert? t.referenced name
      pure { t with referenced }
    else
      let unqualified ← Value.insert? t.unqualified name
      pure { t with unqualified }

/-- The set of type names as a text. -/
def text? (t : TypeNames) : Answer String := do
  let referenced ← Value.sort? t.referenced
  let unqualified ← Value.sort? t.unqualified
  pure ("TypeReferenceSet(referenced=" ++ (Value.list referenced).quoted ++ ", unqualified=" ++
    (Value.list unqualified).quoted ++ ")")

/-- Files one type name. -/
def addOne (name : Value) : Step TypeNames Unit := do
  let t ← get
  set (← Step.ofAnswer (t.add name))

/-- Files every member of a collection; those before a refused one stay filed. -/
def addAll (names : Value) : Step TypeNames Unit := do
  let xs ← Step.ofAnswer names.items?
  xs.forM addOne

/-- Takes a member into the qualified names. -/
def takeReferenced (name : Value) : Step TypeNames Unit := do
  let t ← get
  let referenced ← Step.ofAnswer (Value.insert? t.referenced name)
  set { t with referenced }

/-- Takes a member into the bare names. -/
def takeUnqualified (name : Value) : Step TypeNames Unit := do
  let t ← get
  let unqualified ← Step.ofAnswer (Value.insert? t.unqualified name)
  set { t with unqualified }

/-- Takes names that are filed already. -/
def merge (referenced unqualified : Value) : Step TypeNames Unit := do
  (← Step.ofAnswer referenced.items?).forM takeReferenced
  (← Step.ofAnswer unqualified.items?).forM takeUnqualified

end TypeNames

/-- How bare names are resolved. -/
structure Resolver where
  basePackage : Value := .text "java.lang"
  builtins : List Value :=
    [.text "Object", .text "String", .text "Float", .text "Integer", .text "Boolean"]
  separator : Value := .text "."
  deriving Inhabited

namespace Resolver

/-- A resolver whose built-in names are the members of a collection. -/
def make? (basePackage : Value) (builtins : Value) (separator : Value) : Answer Resolver := do
  let builtins ← builtins.toSet?
  pure { basePackage, builtins, separator }

/-- The part of a name after the last separator. -/
def simpleName (r : Resolver) (name : Value) : Answer Value :=
  match name, r.separator with
  | .text s, .text sep =>
    if sep.isEmpty then .error .badValue
    else .ok (.text (String.ofList ((Text.afterLast? sep.toList s.toList).getD s.toList)))
  | .bytes s, .bytes sep =>
    if sep.isEmpty then .error .badValue else .ok (.bytes ((Text.afterLast? sep s).getD s))
  | .text _, _ => .error .illTyped
  | .bytes _, _ => .error .illTyped
  | _, _ => .error .noAttribute

/-- A name in the base package. -/
def qualifyBuiltin (r : Resolver) (name : Value) : Answer Value :=
  return .text ((← r.basePackage.display?) ++ (← r.separator.display?) ++ (← name.display?))

/-- A name that is built in. -/
def isBuiltin (r : Resolver) (name : Value) : Bool := Value.memberOf r.builtins name

/-- The warning about a name that nothing resolves. -/
def unresolvedWarning (name : Value) : LogLine :=
  { level := .warning
    speaker := "procindex.core.types"
    message := "Unable to resolve unqualified class name, adding to list of classes: '" ++
      name.display ++ "'" }

/-- Moves one bare name into the qualified ones; answers it if nothing resolves it. -/
def promote (r : Resolver) (name : Value) : Step TypeNames (Option Value) := do
  if r.isBuiltin name then
    TypeNames.takeReferenced (← Step.ofAnswer (r.qualifyBuiltin name))
    pure none
  else
    Step.log (unresolvedWarning name)
    TypeNames.takeReferenced name
    pure (some name)

/-- Empties the bare names into the qualified ones. -/
def resolve (r : Resolver) : Step TypeNames (List Value) := do
  let t ← get
  let simple ← Step.ofAnswer (t.referenced.mapM r.simpleName)
  let pending := t.unqualified.filter fun name => !Value.memberOf simple name
  let remaining ← Step.ofAnswer (Value.sort? pending)
  let forced ← remaining.mapM r.promote
  modify fun t => { t with unqualified := [] }
  pure (forced.filterMap id)

end Resolver
end Concordance
