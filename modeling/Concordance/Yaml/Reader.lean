import Concordance.Text.LetterCase
import Concordance.Text.Quoted
import Concordance.Yaml.Construction

/-!
The value of a YAML document.

* `Yaml.read` : the value a text writes, null if it is empty, or what is wrong with it.
* `Failure.fault?` : the fault of a text that is YAML, but of values that do not exist.
* `Construction.value` : the value of a node whose meaning is known, and those of all nodes in it.
  An object that stands inside itself is given to a bounded depth; the marks tell where it begins
  anew.
-/

namespace Concordance.Yaml
namespace Construction

/-! ### The order of the nodes -/

/-- How far a walk is with a node. -/
inductive Stage where
  | ahead
  | entered
  | left
  deriving DecidableEq, Repr, Inhabited

/-- A walk through the nodes. -/
structure Walk where
  stages : Array Stage
  /-- The nodes that are left, the last one first. -/
  order : List NodeId := []
  /-- A node was met inside itself. -/
  cyclic : Bool := false
  deriving Inhabited

/-- Walks through a node: its parts are left before it. The fuel bounds the depth. -/
def visit (c : Construction) : Nat → NodeId → Walk → Walk
  | 0, _, w => w
  | fuel + 1, id, w =>
    match w.stages.getD id .left with
    | .left => w
    | .entered => { w with cyclic := true }
    | .ahead =>
      let w := { w with stages := w.stages.setIfInBounds id .entered }
      let w := (c.meaning id).parts.foldl (fun w part => visit c fuel part w) w
      { w with stages := w.stages.setIfInBounds id .left, order := id :: w.order }

/-! ### Values -/

/-- The value of a node from the values of its parts. -/
def assemble (c : Construction) (values : Array Value) (id : NodeId) : Value :=
  let valueOf (part : NodeId) : Value := values.getD part .null
  match c.meaning id with
  | .plain v => v
  | .list items => .list (items.map valueOf) (c.markOf id)
  | .pairs items =>
    .list (items.map fun (n, k, v) => .tuple [valueOf k, valueOf v] (c.markOf n)) (c.markOf id)
  | .dict entries => .dict (entries.map fun e => (e.1, valueOf e.2)) (c.markOf id)

/-- The value of a node before its parts are known. -/
def hollow (c : Construction) (id : NodeId) : Value :=
  match c.meaning id with
  | .plain v => v
  | .list _ | .pairs _ => .list [] (c.markOf id)
  | .dict _ => .dict [] (c.markOf id)

/-- How often an object that stands inside itself is unfolded. -/
def unfoldings : Nat := 16

/-- The value of a node whose meaning is known. -/
def value (c : Construction) (root : NodeId) : Value :=
  let size := c.graph.size
  let walk := visit c (size + 1) root { stages := Array.replicate size .ahead }
  let order := walk.order.reverse
  let start := (Array.range size).map (hollow c)
  let step (values : Array Value) (id : NodeId) : Array Value :=
    values.setIfInBounds id (assemble c values id)
  let rounds := if walk.cyclic then unfoldings else 1
  ((List.replicate rounds order).foldl (fun values order => order.foldl step values) start).getD
    root .null

end Construction

/-- The fault of a text whose values cannot be made; none for a text that is no YAML. -/
def Failure.fault? : Failure → Option Fault
  | .malformed => none
  | .badValue => some .badValue
  | .overflow => some .overflow
  | .noTruthValue word => some (.missingKey (Text.Quoted.text (Text.lower word)))
  | .noAttribute => some .noAttribute
  | .noMember => some .noMember
  | .illTyped => some .illTyped
  | .tooDeep => some .tooDeep

/-- The value a text writes. The number of the document tells its objects from those of others. -/
def read (document : Nat) (s : String) : Except Failure Value := do
  let (graph, root) ← Graph.read? s
  match root with
  | none => pure .null
  | some root =>
    let (_, c) ← (Construction.settle root).run { document, graph }
    pure (c.value root)

end Concordance.Yaml
