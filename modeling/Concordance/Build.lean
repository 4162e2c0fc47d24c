import Concordance.Collector
import Concordance.Dialect
import Concordance.Index
import Concordance.ProcessDefinition
import Concordance.TypeNames

/-!
The build of one process: an automaton that listens to what a compiler reads and ends in an index.

* `Build` : the phase, the references gathered so far, the type names, and what was observed and is
  yet to be evaluated.
* `processAdded`, `nodeAdded`, `metadataAdded`, `complete`, `buildComplete` : the five calls. Each
  is refused outside its phase.
* `Build.variableType` : the type of a variable, which its item decides if it has one with a class.

Variables, items, signals and messages are only kept while the process is read. `complete` reads
item definitions, globals and imports; `buildComplete` reads the dialects, the variables, resolves
the bare type names, and closes the index.
-/

namespace Concordance

/-- The state of a build. -/
structure Build where
  resolver : Resolver := {}
  dialects : DialectRegistry := .builtin
  wildcard : Value := .text "*"
  phase : Phase := .created
  refs : Collector := {}
  types : TypeNames := {}
  unresolved : List Value := []
  own : Option Value := none
  vars : List Variable := []
  items : List (Value × Value) := []
  signals : List String := []
  messages : List String := []
  index : Option Index := none
  deriving Inhabited

namespace Build

/-- A fresh build. -/
def start (resolver : Resolver) (dialects : DialectRegistry) (wildcard : Value) : Build :=
  { resolver, dialects, wildcard, types := { separator := resolver.separator } }

/-- The part of the program that logs a build. -/
def speaker : String := "procindex.core.listener"

/-! ### Steps on the parts of a build -/

/-- A step on the type names. -/
def onTypes {α : Type} (step : Step TypeNames α) : Step Build α :=
  Step.focus (·.types) (fun t b => { b with types := t }) step

/-- A change of the references, which may be refused. -/
def onRefs (change : Collector → Answer Collector) : Step Build Unit := do
  let b ← get
  let refs ← Step.ofAnswer (change b.refs)
  set { b with refs }

/-- Refuses a call outside its phase. -/
def require (call : Callback) : Step Build Unit := do
  let b ← get
  if b.phase = call.admits then pure () else throw (.lifecycle call b.phase)

/-- Enters a phase. -/
def enter (phase : Phase) : Step Build Unit := modify fun b => { b with phase }

/-! ### While the process is read -/

/-- Starts the build of a process and registers it under its id and its name. -/
def processAdded (p : ProcessDefinition) : Step Build Unit := do
  require .processAdded
  enter .building
  Step.log { level := .debug, speaker,
             message := "Added process with id " ++ p.id.display ++ " and name " ++
               p.name.display }
  onRefs (·.addResource p.id .processId)
  modify fun b => { b with own := some p.id }
  if p.name.truthy then onRefs (·.addResource p.name .processName)

/-- The references a node carries: a rule-flow group even if it is empty, any other name only if
it is present. -/
def nodeAdded (node : Value) : Step Build Unit := do
  require .nodeAdded
  match node with
  | .ruleSet _ _ .null => pure ()
  | .ruleSet _ _ group => onRefs (·.addShared group .ruleflowGroup)
  | .workItem _ _ work => if work.truthy then onRefs (·.addShared work .taskName)
  | .subProcess _ _ processId processName => do
    if processName.truthy then onRefs (·.addResourceRef processName .processName)
    if processId.truthy then onRefs (·.addResourceRef processId .processId)
  | _ => pure ()

/-- The key of a variable. -/
def variableKey : String := "Variable"
/-- The key of the item definitions. -/
def itemsKey : String := "ItemDefinitions"
/-- The key of the signal names. -/
def signalsKey : String := "signalNames"
/-- The key of the messages. -/
def messagesKey : String := "Messages"

/-- The textual keys of a mapping. -/
def keyTexts (es : List (Value × Value)) : List String := es.filterMap (·.1.text?)

/-- Takes one observation: a variable is added, items, signals and messages replace those before;
other keys are passed over. -/
def metadataAdded (key : String) (data : Value) : Step Build Unit := do
  require .metadataAdded
  if key = variableKey then
    let v ← Step.ofAnswer (decodeInstance key data .var)
    modify fun b => { b with vars := b.vars ++ (Variable.ofValue? v).toList }
  else if key = itemsKey then
    let items ← Step.ofAnswer (decodeMapping key data (some .item))
    modify fun b => { b with items := items.getD [] }
  else if key = signalsKey then
    let signals ← Step.ofAnswer (decodeStrings key data)
    modify fun b => { b with signals := signals.getD [] }
  else if key = messagesKey then
    let messages ← Step.ofAnswer (decodeMapping key data none)
    modify fun b => { b with messages := keyTexts (messages.getD []) }
  else pure ()

/-! ### When the process has been read -/

/-- The class that structures an item. -/
def structureRef? : Value → Answer Value
  | .item _ s => .ok s
  | _ => .error .noAttribute

/-- Files the class of every item. -/
def visitItems : Step Build Unit := do
  let b ← get
  b.items.forM fun e => do
    let name ← Step.ofAnswer (structureRef? e.2)
    onTypes (TypeNames.addOne name)

/-- Files the type of every global and adds its name. -/
def visitGlobals (globals : Value) : Step Build Unit := do
  if globals.truthy then
    let es ← Step.ofAnswer globals.mapping?
    es.forM fun e => do
      onTypes (TypeNames.addOne e.2)
      onRefs (·.addShared e.1 .global)

/-- Files every import. -/
def visitImports (imports : Value) : Step Build Unit := do
  if imports.truthy then onTypes (TypeNames.addAll imports)

/-- Ends the reading of a process: item definitions, globals and imports are visited. -/
def complete (p : ProcessDefinition) : Step Build Unit := do
  require .complete
  enter .compiled
  visitItems
  visitGlobals p.globals
  visitImports p.imports

/-! ### When the build is over -/

/-- Takes the type names that one dialect left in a bag. -/
def visitDialect (metadata : Value) (c : Contributor) : Step Build Unit := do
  let pair ← Step.ofAnswer (c.contribute metadata)
  onTypes (pair.referenced.forM fun s => TypeNames.takeReferenced (.text s))
  onTypes (pair.unqualified.forM fun s => TypeNames.takeUnqualified (.text s))

/-- The type of a variable: the class of the item it was declared by, if that item is known and has
one, else the declared type. -/
def variableType (b : Build) (v : Variable) : Answer Value := do
  match ← v.itemSubject? with
  | .null => pure v.type
  | subject =>
    if !subject.hashable then throw .illTyped
    match Value.lookup? b.items subject with
    | none => pure v.type
    | some .null => pure v.type
    | some item =>
      let name ← structureRef? item
      pure (name.orElse v.type)

/-- Adds a part to the process itself. -/
def addOwnPart (name : Value) : Step Build Unit := do
  let b ← get
  match b.own with
  | none => throw .noAttribute
  | some id => onRefs (·.addPart id .processId name .var)

/-- Adds a variable as a part and files its type. -/
def visitVariable (v : Variable) : Step Build Unit := do
  addOwnPart v.name
  let b ← get
  let name ← Step.ofAnswer (b.variableType v)
  onTypes (TypeNames.addOne name)

/-- Resolves the bare type names and adds every class. -/
def resolveTypes : Step Build Unit := do
  let b ← get
  let unresolved ← onTypes b.resolver.resolve
  modify fun b => { b with unresolved }
  let b ← get
  b.types.referenced.forM fun name => onRefs (·.addResourceRef name .className)

/-- Adds names as signals. -/
def visitSignals (names : List String) : Step Build Unit :=
  names.forM fun s => onRefs (·.addShared (.text s) .signal)

/-- Whether a text ends with one of several markers, met in order. -/
def endsWithAny (s : String) : List Value → Answer Bool
  | [] => .ok false
  | .text m :: ms => if m.toList.isSuffixOf s.toList then .ok true else endsWithAny s ms
  | _ :: _ => .error .illTyped

/-- Whether bytes end with one of several markers, met in order. -/
def bytesEndWithAny (bs : List UInt8) : List Value → Answer Bool
  | [] => .ok false
  | .bytes m :: ms => if m.isSuffixOf bs then .ok true else bytesEndWithAny bs ms
  | _ :: _ => .error .illTyped

/-- Whether a function import ends with the wildcard marker. -/
def isWildcard (marker : Value) : Value → Answer Bool
  | .text s => match marker with
    | .tuple ms _ => endsWithAny s ms
    | m => endsWithAny s [m]
  | .bytes bs => match marker with
    | .tuple ms _ => bytesEndWithAny bs ms
    | m => bytesEndWithAny bs [m]
  | _ => .error .noAttribute

/-- Adds every function that is imported by name. -/
def visitFunctionImports (imports : Value) : Step Build Unit := do
  if imports.truthy then
    let xs ← Step.ofAnswer imports.items?
    xs.forM fun name => do
      let b ← get
      if !(← Step.ofAnswer (isWildcard b.wildcard name)) then
        onRefs (·.addResourceRef name .function)

/-- The index of a process with the references gathered so far. -/
def indexOf (b : Build) (p : ProcessDefinition) : Index :=
  { processId := p.id, processName := p.name, resources := b.refs.resources,
    shared := b.refs.shared, resourceRefs := b.refs.resourceRefs,
    classes := b.types.referenced }

/-- The line that ends a build. -/
def indexedLine (p : ProcessDefinition) (own : Resource) (i : Index) : LogLine :=
  { level := .debug, speaker,
    message := "Indexed process " ++ p.id.display ++ ": " ++ toString own.parts.length ++
      " parts, " ++ toString i.shared.length ++ " shared, " ++
      toString i.resourceRefs.length ++ " resource references" }

/-- The resource of the process itself. -/
def ownResource? (b : Build) : Answer Resource :=
  match b.own with
  | none => .error .noAttribute
  | some id => b.refs.demand id .processId

/-- Ends the build: the dialects and the variables are visited, the type names resolved, the
references completed and closed. -/
def buildComplete (p : ProcessDefinition) : Step Build Index := do
  require .buildComplete
  let b ← get
  b.dialects.contributors.forM (visitDialect p.metadata)
  b.vars.forM visitVariable
  resolveTypes
  visitSignals b.signals
  visitSignals b.messages
  visitFunctionImports p.functionImports
  modify fun b => { b with refs := b.refs.freeze }
  let b ← get
  let i := b.indexOf p
  set { b with index := some i, phase := .completed }
  let own ← Step.ofAnswer b.ownResource?
  Step.log (indexedLine p own i)
  pure i

end Build
end Concordance
