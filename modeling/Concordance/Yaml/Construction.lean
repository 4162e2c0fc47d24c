import Concordance.Value.Equality
import Concordance.Yaml.Node

/-!
What the nodes of a graph mean.

* `Meaning` : a value without parts, or a collection by the nodes it holds.
* `Construction` : the nodes, and what is known of their meanings.
* `Construction.settle` : finds the meanings of all nodes that the root holds. A collection is
  opened when it is met, and filled after those that were met before it; of several faults the one
  counts that is met first.
* `Construction.flatten` : puts the entries that the merge keys of a mapping bring in before its
  own, which so prevail.
-/

namespace Concordance.Yaml

/-- What a node means. Keys of mappings are values without parts, for a collection can be no key. -/
inductive Meaning where
  | plain (v : Value)
  | list (items : List NodeId)
  /-- Pairs, each an object of its own with a number. -/
  | pairs (items : List (Nat × NodeId × NodeId))
  | dict (entries : List (Value × NodeId))
  deriving Inhabited

/-- The nodes that a meaning holds. -/
def Meaning.parts : Meaning → List NodeId
  | plain _ => []
  | list items => items
  | pairs items => items.flatMap fun p => [p.2.1, p.2.2]
  | dict entries => entries.map (·.2)

/-- The nodes of a document, and what is known of their meanings. -/
structure Construction where
  /-- The number of the document, for the marks of its objects. -/
  document : Nat
  graph : Graph
  meanings : Array (Option Meaning) := Array.replicate graph.size none
  /-- The collections that are open, the last one first. -/
  waiting : List NodeId := []
  /-- The number of the next object that is no node. -/
  spare : Nat := graph.size
  deriving Inhabited

namespace Construction

/-- A step of the construction. -/
abbrev Construct := StateT Construction (Except Failure)

/-- The mark of the object that a node is. -/
def markOf (c : Construction) (id : NodeId) : Option Mark := some ⟨c.document, id⟩

/-- The meaning of a node, as far as it is known. -/
def meaning (c : Construction) (id : NodeId) : Meaning :=
  ((c.meanings.getD id none).getD (.plain .null))

/-- A node. -/
def nodeAt (id : NodeId) : Construct Node := return (← get).graph.getD id default

/-- The entries of a node that is a mapping. -/
def entriesOf (id : NodeId) : Construct (List (NodeId × NodeId)) := do
  match (← nodeAt id).content with
  | .mapping entries => pure entries
  | _ => throw .malformed

/-- Changes a node. -/
def change (id : NodeId) (f : Node → Node) : Construct Unit :=
  modify fun c => { c with graph := c.graph.modify id f }

/-- Gives a node its meaning. -/
def settleAs (id : NodeId) (m : Meaning) : Construct Unit :=
  modify fun c => { c with meanings := c.meanings.setIfInBounds id (some m) }

/-! ### Scalars -/

/-- The text of a scalar, or of the scalar that stands for the value of a mapping. The fuel bounds
the mappings on the way; there is no end if they lead back to each other. -/
def scalarText : Nat → NodeId → Construct String
  | 0, _ => throw .tooDeep
  | fuel + 1, id => do
    match (← nodeAt id).content with
    | .scalar text => pure text
    | .sequence _ => throw .malformed
    | .mapping entries =>
      let graph := (← get).graph
      match entries.find? fun e => (graph.getD e.1 default).tag == .value with
      | some (_, v) => scalarText fuel v
      | none => throw .malformed

/-- The value of a node under the tag of a scalar. A moment has to be written as one. -/
def scalarValue (id : NodeId) : Construct Value := do
  let c ← get
  let node ← nodeAt id
  let text ← scalarText (c.graph.size + 1) id
  let mark := c.markOf id
  match node.tag with
  | .null => pure .null
  | .bool => return .bool (← Scalar.bool? text)
  | .int => return .int (← Scalar.int? text)
  | .float => return .float (← Scalar.float? (1 + 2 * id + c.document) text)
  | .binary => return .bytes (← Scalar.binary? text)
  | .timestamp =>
    match node.content with
    | .scalar _ =>
      match ← Scalar.timestamp? text with
      | .inl d => pure (.date d mark)
      | .inr m => pure (.moment m mark)
    | _ => throw .illTyped
  | _ => pure (.text text)

/-! ### Opening -/

/-- The meaning that a node has before it is filled: a collection is empty, a scalar is what it
means. -/
def opening (id : NodeId) : Construct Meaning := do
  match (← nodeAt id).tag with
  | .seq | .omap | .pairs => pure (.list [])
  | .map => pure (.dict [])
  | .set => return .plain (.set false [] ((← get).markOf id))
  | .merge | .value | .unknown => throw .malformed
  | _ => return .plain (← scalarValue id)

/-- Whether a tag is that of a collection. -/
def isCollectionTag : Tag → Bool
  | .seq | .omap | .pairs | .map | .set => true
  | _ => false

/-- The meaning of a node. One that is met for the first time is opened, and waits to be filled if
it is a collection. -/
def construct (id : NodeId) : Construct Meaning := do
  match (← get).meanings.getD id none with
  | some m => pure m
  | none =>
    let m ← opening id
    settleAs id m
    if isCollectionTag (← nodeAt id).tag then
      modify fun c => { c with waiting := id :: c.waiting }
    pure m

/-- The value of a key, which cannot be a collection. -/
def constructKey (id : NodeId) : Construct Value := do
  match ← construct id with
  | .plain v => if v.hashable then pure v else throw .malformed
  | _ => throw .malformed

/-! ### Merge keys -/

mutual

/-- Puts the entries that the merge keys of a mapping bring in before its own. A key that stands for
the value of the mapping becomes an ordinary text. The fuel bounds the steps. -/
def flatten : Nat → NodeId → Construct Unit
  | 0, _ => throw .tooDeep
  | fuel + 1, id => do
    let merged ← flattenFrom fuel id 0 []
    if !merged.isEmpty then
      let own ← entriesOf id
      change id fun n => { n with content := .mapping (merged ++ own) }

/-- The entries that the merge keys from a place on bring into a mapping; the merge keys are taken
out of it. -/
def flattenFrom : Nat → NodeId → Nat → List (NodeId × NodeId) →
    Construct (List (NodeId × NodeId))
  | 0, _, _, _ => throw .tooDeep
  | fuel + 1, id, place, merged => do
    let entries ← entriesOf id
    match entries[place]? with
    | none => pure merged
    | some (k, v) =>
      match (← nodeAt k).tag with
      | .merge =>
        change id fun n => { n with content := .mapping (entries.eraseIdx place) }
        let more ← brought fuel v
        flattenFrom fuel id place (merged ++ more)
      | .value =>
        change k fun n => { n with tag := .str }
        flattenFrom fuel id (place + 1) merged
      | _ => flattenFrom fuel id (place + 1) merged

/-- The entries that a node under a merge key brings in: those of a mapping, or of the mappings in a
sequence, the last one first. -/
def brought : Nat → NodeId → Construct (List (NodeId × NodeId))
  | 0, _ => throw .tooDeep
  | fuel + 1, id => do
    match (← nodeAt id).content with
    | .mapping _ =>
      flatten fuel id
      entriesOf id
    | .sequence items => broughtAll fuel items []
    | .scalar _ => throw .malformed

/-- The entries of several mappings, the last one first, before those that are known. -/
def broughtAll : Nat → List NodeId → List (NodeId × NodeId) →
    Construct (List (NodeId × NodeId))
  | 0, _, _ => throw .tooDeep
  | _ + 1, [], merged => pure merged
  | fuel + 1, id :: ids, merged => do
    let _ ← entriesOf id
    flatten fuel id
    broughtAll fuel ids ((← entriesOf id) ++ merged)

end

/-- Whether a mapping has a key that is no ordinary one. -/
def needsFlattening (graph : Graph) (entries : List (NodeId × NodeId)) : Bool :=
  entries.any fun e => match (graph.getD e.1 default).tag with
    | .merge | .value => true
    | _ => false

/-- The entries of a mapping with those that its merge keys bring in. -/
def flattened (id : NodeId) : Construct (List (NodeId × NodeId)) := do
  let entries ← entriesOf id
  let graph := (← get).graph
  if needsFlattening graph entries then
    let size := graph.size + 2
    flatten (size * size * size) id
    entriesOf id
  else pure entries

/-! ### Filling -/

/-- Entries with one more, in an order turned round: a key that is there stays, with the new
node. -/
def putEntry (done : List (Value × NodeId)) (k : Value) (v : NodeId) : List (Value × NodeId) :=
  if done.any (Value.same ·.1 k) then
    done.map fun e => if Value.same e.1 k then (e.1, v) else e
  else (k, v) :: done

/-- The entries of a mapping, by the values of their keys; `done` holds those found, the last one
first. -/
def fields : List (NodeId × NodeId) → List (Value × NodeId) → Construct (List (Value × NodeId))
  | [], done => pure done.reverse
  | (k, v) :: es, done => do
    let key ← constructKey k
    let _ ← construct v
    fields es (putEntry done key v)

/-- The pairs of a list of mappings with one entry each; `done` holds those found, the last one
first. -/
def pairsOf : List NodeId → List (Nat × NodeId × NodeId) →
    Construct (List (Nat × NodeId × NodeId))
  | [], done => pure done.reverse
  | id :: ids, done => do
    match ← entriesOf id with
    | [(k, v)] =>
      let _ ← construct k
      let _ ← construct v
      let n := (← get).spare
      modify fun c => { c with spare := n + 1 }
      pairsOf ids ((n, k, v) :: done)
    | _ => throw .malformed

/-- The items of a node that is a sequence. -/
def itemsOf (id : NodeId) : Construct (List NodeId) := do
  match (← nodeAt id).content with
  | .sequence items => pure items
  | _ => throw .malformed

/-- Fills a collection that is open. -/
def fill (id : NodeId) : Construct Unit := do
  match (← nodeAt id).tag with
  | .seq => do
    let items ← itemsOf id
    items.forM fun i => discard (construct i)
    settleAs id (.list items)
  | .omap | .pairs => do
    let items ← itemsOf id
    settleAs id (.pairs (← pairsOf items []))
  | .set => do
    let entries ← fields (← flattened id) []
    settleAs id (.plain (.set false (entries.map (·.1)) ((← get).markOf id)))
  | _ => do
    let entries ← fields (← flattened id) []
    settleAs id (.dict entries)

/-- Fills the collections that are open, and those that are opened meanwhile. The fuel bounds the
rounds. -/
def fillAll : Nat → Construct Unit
  | 0 => pure ()
  | fuel + 1 => do
    match (← get).waiting with
    | [] => pure ()
    | ids => do
      modify fun c => { c with waiting := [] }
      ids.reverse.forM fill
      fillAll fuel

/-- Finds the meanings of a node and of all that it holds. -/
def settle (root : NodeId) : Construct Unit := do
  let _ ← construct root
  fillAll ((← get).graph.size + 1)

end Construction
end Concordance.Yaml
