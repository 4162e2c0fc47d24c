import Concordance.Yaml.Scalar
import Concordance.Yaml.TokenStream

/-!
The node graph of a YAML document.

* `Node`, `Graph` : scalars, sequences and mappings with their tags, by their numbers. An alias is
  the number of the node it names, so that a node can stand at several places, and inside itself.
* `Graph.read?` : the graph of the one document of a text, with the number of its root, if there is
  a document. A second document, an anchor that is given twice and an alias without an anchor are
  faults; of several faults the one counts that is met first.
-/

namespace Concordance.Yaml

/-- A node by its number. -/
abbrev NodeId := Nat

/-- What a node holds. -/
inductive Content where
  | scalar (text : String)
  | sequence (items : List NodeId)
  | mapping (entries : List (NodeId × NodeId))
  deriving DecidableEq, Repr, Inhabited

/-- A node with its tag. -/
structure Node where
  tag : Tag
  content : Content
  deriving DecidableEq, Repr, Inhabited

/-- Nodes by their numbers. -/
abbrev Graph := Array Node

namespace Graph

/-- The reader of a document: the text ahead, the nodes so far, those with an anchor, and the tag
handles. -/
structure State where
  lexer : Lexer
  graph : Graph := #[]
  anchors : List (String × NodeId) := []
  handles : List (String × String) := []
  deriving Inhabited

/-- A step of the reader. -/
abbrev Read := StateT State (Except Failure)

/-- The token ahead. -/
def peek : Read Token := do
  let s ← get
  let lexer ← s.lexer.fill (s.lexer.cursor.size + 2)
  set { s with lexer }
  pure (lexer.tokens.headD .streamEnd)

/-- Passes a token. -/
def next : Read Unit := modify fun s => { s with lexer := s.lexer.take }

/-- Fails. -/
def malformed {α : Type} : Read α := throw .malformed

/-! ### Nodes -/

/-- A new node. -/
def add (tag : Tag) (content : Content) : Read NodeId :=
  modifyGet fun s => (s.graph.size, { s with graph := s.graph.push { tag, content } })

/-- Gives a node its content. -/
def fillIn (id : NodeId) (content : Content) : Read NodeId :=
  modifyGet fun s => (id, { s with graph := s.graph.modify id fun n => { n with content } })

/-- The scalar that stands where nothing is written. -/
def addEmpty : Read NodeId := add .null (.scalar "")

/-- Names a node. -/
def bind (anchor : Option String) (id : NodeId) : Read Unit :=
  match anchor with
  | none => pure ()
  | some name => modify fun s => { s with anchors := (name, id) :: s.anchors }

/-- The node with a name. -/
def named (name : String) : Read NodeId := do
  match (← get).anchors.find? (·.1 == name) with
  | some (_, id) => pure id
  | none => malformed

/-- The properties before a node: at most one anchor and one tag, in either order. -/
def properties : Read (Option String × Option (Option String × String)) := do
  match ← peek with
  | .anchor name =>
    next
    match ← peek with
    | .tag handle suffix => do
      next
      pure (some name, some (handle, suffix))
    | _ => pure (some name, none)
  | .tag handle suffix =>
    next
    match ← peek with
    | .anchor name => do
      next
      pure (some name, some (handle, suffix))
    | _ => pure (none, some (handle, suffix))
  | _ => pure (none, none)

/-- The full tag behind a handle. -/
def fullTag (tag : Option String × String) : Read String := do
  match tag.1 with
  | none => pure tag.2
  | some handle =>
    match (← get).handles.find? (·.1 == handle) with
    | some (_, lead) => pure (lead ++ tag.2)
    | none => malformed

/-- Refuses an anchor that is given twice. -/
def checkAnchor (anchor : Option String) : Read Unit := do
  match anchor with
  | none => pure ()
  | some name => if (← get).anchors.any (·.1 == name) then malformed else pure ()

/-! ### Collections -/

/-- The places where a node can stand. -/
inductive Place where
  | block
  | field
  | flow
  deriving DecidableEq, Repr, Inhabited

/-- The written forms of collections. -/
inductive Form where
  | entries (indentless : Bool)
  | fields
  | flowItems
  | flowEntries
  deriving DecidableEq, Repr, Inhabited

/-- Whether a collection of a form is a mapping. -/
def Form.isMapping : Form → Bool
  | .fields | .flowEntries => true
  | _ => false

/-- The form of the collection that a token opens. In a field of a block mapping a sequence may
stand without indentation. -/
def Form.opened? (place : Place) : Token → Option Form
  | .blockEntry => if place = .field then some (.entries true) else none
  | .blockSequenceStart => if place = .flow then none else some (.entries false)
  | .blockMappingStart => if place = .flow then none else some .fields
  | .flowSequenceStart => some .flowItems
  | .flowMappingStart => some .flowEntries
  | _ => none

/-- Whether a token ends the entry of a block sequence before anything is written. -/
def endsEntry (indentless : Bool) : Token → Bool
  | .blockEntry | .blockEnd => true
  | .key | .value => indentless
  | _ => false

/-- Whether a token ends a key or value of a block mapping before anything is written. -/
def endsField : Token → Bool
  | .key | .value | .blockEnd => true
  | _ => false

/-- Whether a token ends a part of a flow collection before anything is written. -/
def endsFlow (close : Token) (atKey : Bool) (t : Token) : Bool :=
  t == .flowEntry || t == close || (atKey && t == .value)

/-- The greatest depth of collections inside each other. -/
def maxDepth : Nat := 488

mutual

/-- A node. `room` is how many collections may still be opened around each other; the fuel bounds
the tokens. -/
def readNode : Nat → Nat → Place → Read NodeId
  | 0, _, _ => malformed
  | fuel + 1, room, place => do
    match ← peek with
    | .alias name =>
      next
      named name
    | _ =>
      let (anchor, given) ← properties
      let given ← given.mapM fullTag
      match ← peek with
      | .scalar text plain =>
        next
        checkAnchor anchor
        let id ← add (Tag.ofScalar given text plain) (.scalar text)
        bind anchor id
        pure id
      | t => match Form.opened? place t with
        | some form =>
          checkAnchor anchor
          let tag := Tag.ofCollection given form.isMapping
          let id ← add tag (if form.isMapping then .mapping [] else .sequence [])
          bind anchor id
          readCollection fuel room form id
        | none =>
          if anchor.isNone && given.isNone then malformed
          checkAnchor anchor
          let id ← add (Tag.ofScalar given "" true) (.scalar "")
          bind anchor id
          pure id

/-- The content of a collection that is opened here. -/
def readCollection : Nat → Nat → Form → NodeId → Read NodeId
  | 0, _, _, _ => malformed
  | _, 0, _, _ => throw .tooDeep
  | fuel + 1, room + 1, form, id =>
    match form with
    | .entries indentless => do
      if !indentless then next
      fillIn id (.sequence (← readEntries fuel room indentless []))
    | .fields => do
      next
      fillIn id (.mapping (← readFields fuel room []))
    | .flowItems => do
      next
      fillIn id (.sequence (← readFlowItems fuel room []))
    | .flowEntries => do
      next
      fillIn id (.mapping (← readFlowEntries fuel room []))

/-- The entries of a block sequence; `done` holds those read, the last one first. -/
def readEntries : Nat → Nat → Bool → List NodeId → Read (List NodeId)
  | 0, _, _, _ => malformed
  | fuel + 1, room, indentless, done => do
    match ← peek with
    | .blockEntry =>
      next
      let id ← if endsEntry indentless (← peek) then addEmpty else readNode fuel room .block
      readEntries fuel room indentless (id :: done)
    | .blockEnd =>
      if !indentless then next
      pure done.reverse
    | _ => if indentless then pure done.reverse else malformed

/-- The entries of a block mapping; `done` holds those read, the last one first. -/
def readFields : Nat → Nat → List (NodeId × NodeId) → Read (List (NodeId × NodeId))
  | 0, _, _ => malformed
  | fuel + 1, room, done => do
    match ← peek with
    | .key =>
      next
      let k ← if endsField (← peek) then addEmpty else readNode fuel room .field
      match ← peek with
      | .value =>
        next
        let v ← if endsField (← peek) then addEmpty else readNode fuel room .field
        readFields fuel room ((k, v) :: done)
      | _ =>
        let v ← addEmpty
        readFields fuel room ((k, v) :: done)
    | .blockEnd =>
      next
      pure done.reverse
    | _ => malformed

/-- The items of a flow sequence; a pair among them is a mapping of its own. -/
def readFlowItems : Nat → Nat → List NodeId → Read (List NodeId)
  | 0, _, _ => malformed
  | fuel + 1, room, done => do
    if (← peek) == .flowSequenceEnd then
      next
      pure done.reverse
    else
      if !done.isEmpty then
        if (← peek) == .flowEntry then next else malformed
      match ← peek with
      | .key =>
        next
        let id ← add .map (.mapping [])
        let k ←
          if endsFlow .flowSequenceEnd true (← peek) then addEmpty else readNode fuel room .flow
        let v ← readFlowValue fuel room .flowSequenceEnd
        let id ← fillIn id (.mapping [(k, v)])
        readFlowItems fuel room (id :: done)
      | .flowSequenceEnd =>
        next
        pure done.reverse
      | _ =>
        let id ← readNode fuel room .flow
        readFlowItems fuel room (id :: done)

/-- The value after a key in a flow collection, if one is written. -/
def readFlowValue : Nat → Nat → Token → Read NodeId
  | 0, _, _ => malformed
  | fuel + 1, room, close => do
    if (← peek) == .value then
      next
      if endsFlow close false (← peek) then addEmpty else readNode fuel room .flow
    else addEmpty

/-- The entries of a flow mapping; a key may stand without a value. -/
def readFlowEntries : Nat → Nat → List (NodeId × NodeId) → Read (List (NodeId × NodeId))
  | 0, _, _ => malformed
  | fuel + 1, room, done => do
    if (← peek) == .flowMappingEnd then
      next
      pure done.reverse
    else
      if !done.isEmpty then
        if (← peek) == .flowEntry then next else malformed
      match ← peek with
      | .key =>
        next
        let k ←
          if endsFlow .flowMappingEnd true (← peek) then addEmpty else readNode fuel room .flow
        let v ← readFlowValue fuel room .flowMappingEnd
        readFlowEntries fuel room ((k, v) :: done)
      | .flowMappingEnd =>
        next
        pure done.reverse
      | _ =>
        let k ← readNode fuel room .flow
        let v ← addEmpty
        readFlowEntries fuel room ((k, v) :: done)

end

/-! ### Documents -/

/-- The handles that need no directive. -/
def standardHandles : List (String × String) := [("!", "!"), ("!!", "tag:yaml.org,2002:")]

/-- The directives ahead; a version has to be 1, and nothing may be said twice. -/
def readDirectives : Nat → Bool → List (String × String) → Read (List (String × String))
  | 0, _, handles => pure handles
  | fuel + 1, versioned, handles => do
    match ← peek with
    | .versionDirective major =>
      next
      if versioned || major != 1 then malformed else readDirectives fuel true handles
    | .tagDirective handle lead =>
      next
      if handles.any (·.1 == handle) then malformed
      else readDirectives fuel versioned (handles ++ [(handle, lead)])
    | .otherDirective =>
      next
      readDirectives fuel versioned handles
    | _ => pure handles

/-- Passes the document-end markers ahead. -/
def passEnds : Nat → Read Unit
  | 0 => pure ()
  | fuel + 1 => do
    if (← peek) == .documentEnd then
      next
      passEnds fuel

/-- A token that stands where a document has no content. -/
def isDocumentEdge : Token → Bool
  | .versionDirective _ | .tagDirective .. | .otherDirective => true
  | .documentStart | .documentEnd | .streamEnd => true
  | _ => false

/-- A token with which a document begins explicitly. -/
def isDocumentHead : Token → Bool
  | .documentEnd => false
  | t => isDocumentEdge t

/-- The root of a document that begins explicitly. -/
def readExplicit (size : Nat) : Read NodeId := do
  let handles ← readDirectives size false []
  let defaults := standardHandles.filter fun h => !handles.any (·.1 == h.1)
  modify fun s => { s with handles := handles ++ defaults }
  if (← peek) != .documentStart then malformed
  next
  if isDocumentEdge (← peek) then addEmpty else readNode size maxDepth .block

/-- The root of the one document of a text, none if there is no document. -/
def readDocument (size : Nat) : Read (Option NodeId) := do
  let root ←
    if isDocumentHead (← peek) then
      passEnds size
      if (← peek) == .streamEnd then pure none else some <$> readExplicit size
    else
      modify fun s => { s with handles := standardHandles }
      some <$> readNode size maxDepth .block
  passEnds size
  if (← peek) == .streamEnd then pure root
  else
    let _ ← readDirectives size false []
    malformed

/-- The graph of the one document of a text, with the number of its root. -/
def read? (s : String) : Except Failure (Graph × Option NodeId) := do
  let lexer ← Lexer.ofText? s
  let (root, state) ← (readDocument (4 * lexer.cursor.size + 8)).run { lexer }
  pure (state.graph, root)

end Graph
end Concordance.Yaml
