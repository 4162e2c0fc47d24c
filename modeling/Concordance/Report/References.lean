import Concordance.Registry
import Concordance.Report

/-!
Reports about indexes.

* `Index.referenceReport?` : every part and reference of an index, one a row, with their numbers.
* `Registry.impactReport?` : the processes in which a name occurs, and in which kinds of references.
-/

namespace Concordance

/-! ### The references of one process -/

/-- A row about one reference. -/
def referenceRow (sort : String) (key : String × Value) : Value :=
  .dict [(.text "kind", .text sort), (.text "type", .text key.1), (.text "name", key.2)]

/-- A number of things, in the plural unless it is one. -/
def counted (n : Nat) (noun : String) : String :=
  toString n ++ " " ++ noun ++ (if n = 1 then "" else "s")

namespace Index

/-- The rows about the parts, the shared references and the referenced resources, in this order and
each in order of kind and name. -/
def referenceRows? (i : Index) : Answer (List Value) := do
  let parts ← sortParts? i.parts
  let shared ← sortShared? i.shared
  let refs ← sortResourceRefs? i.resourceRefs
  pure (parts.map (fun p => referenceRow "part" p.key) ++
    shared.map (fun r => referenceRow "shared" r.key) ++
    refs.map (fun r => referenceRow "resource" r.key))

/-- The numbers of the parts and references. -/
def counts (i : Index) : String :=
  ", ".intercalate [counted i.parts.length "part", counted i.shared.length "shared reference",
    counted i.resourceRefs.length "resource reference"]

/-- The id of the process, and its name if it has one. -/
def title (i : Index) : String :=
  i.processId.display ++
    (if i.processName.truthy then " (" ++ i.processName.display ++ ")" else "")

/-- A report on the parts and references of a process. -/
def referenceReport? (i : Index) : Answer Report := do
  let rows ← i.referenceRows?
  pure {
    data := .dict [(.text "rows", .list rows), (.text "summary", .text i.counts)]
    shape := .text "table"
    title := .text i.title
    columns := .list [.text "Kind", .text "Type", .text "Name"]
    columnKeys := .list [.text "kind", .text "type", .text "name"] }

/-! ### The impact of a name -/

/-- The kinds of references by which a process mentions a name, in order. -/
def kindsOf (i : Index) (name : String) : List String :=
  let is (v : Value) : Bool := v.same (.text name)
  let kinds :=
    (i.parts.filter fun p => is p.name).map (fun p => "part:" ++ p.type.label) ++
    (i.shared.filter fun r => is r.name).map (fun r => "shared:" ++ r.type.label) ++
    (i.resourceRefs.filter fun r => is r.name).map (fun r => "resource:" ++ r.type.label)
  kinds.eraseDups.mergeSort fun a b => decide (a ≤ b)

/-- A row about the mentions of a name. -/
def impactRow (name : String) (i : Index) : Value :=
  .dict [(.text "process_id", i.processId), (.text "process_name", i.processName),
    (.text "via", .text (", ".intercalate (i.kindsOf name)))]

end Index

/-- A report on the processes that mention a name. -/
def Registry.impactReport? (r : Registry) (name : String) : Answer Report := do
  let rows := (← r.impact name).map (Index.impactRow name)
  let quoted := "'" ++ name ++ "'"
  let share := toString rows.length ++ " of " ++ toString r.size
  let summary := share ++ " processes reference " ++ quoted
  pure {
    data := .dict [(.text "rows", .list rows), (.text "summary", .text summary)]
    shape := .text "table"
    title := .text ("Impact of " ++ quoted)
    columns := .list [.text "Process", .text "Name", .text "Via"]
    columnKeys := .list [.text "process_id", .text "process_name", .text "via"]
    emptyMessage := .text ("No process references " ++ quoted ++ ".") }

end Concordance
