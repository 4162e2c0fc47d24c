import Concordance.Build
import Concordance.Registry
import Concordance.Settings

/-!
The pipeline: it runs the builds of processes and publishes their indexes.

* `Pipeline` : the settings in force and the registry.
* `replay` : the calls a compiler makes while it reads a process.
* `build` : one build from the first call to publication. The index goes into the metadata bag of
  the process, if the settings say so, and then into the registry.
* `buildMany` : several builds. With one worker they run one after the other and the first failure
  ends them; with more all of them run, and then the first failure in order is raised.
-/

namespace Concordance

/-- The settings in force and the registry of indexes. -/
structure Pipeline where
  settings : Settings := {}
  registry : Registry := {}
  deriving Inhabited

namespace Pipeline

/-- The part of the program that logs publications. -/
def speaker : String := "procindex.pipeline"

/-- A fresh build under the given settings. -/
def createBuild (s : Settings) : Answer Build := do
  let resolver ← s.resolver.createResolver
  let dialects ← s.dialects.createRegistry
  pure (Build.start resolver dialects s.resolver.wildcardMarker)

/-- The calls a compiler makes while it reads a process. -/
def replay (p : ProcessDefinition) : Step Build Unit := do
  Build.processAdded p
  (← Step.ofAnswer p.nodes.items?).forM Build.nodeAdded
  (← Step.ofAnswer p.vars.items?).forM (Build.metadataAdded Build.variableKey)
  if p.itemDefinitions.truthy then
    let es ← Step.ofAnswer p.itemDefinitions.entriesOf?
    Build.metadataAdded Build.itemsKey (.dict es)
  if p.signals.truthy then
    let xs ← Step.ofAnswer p.signals.toSet?
    Build.metadataAdded Build.signalsKey (.set false xs)
  if p.messages.truthy then
    let es ← Step.ofAnswer p.messages.entriesOf?
    Build.metadataAdded Build.messagesKey (.dict es)

/-- A whole build: the calls while reading, and the two that end it. -/
def collect (p : ProcessDefinition) : Step Build Index := do
  replay p
  Build.complete p
  Build.buildComplete p

/-- What a build and its publication act on: the process, whose bag takes the index, and the
registry. -/
structure Site where
  process : ProcessDefinition
  registry : Registry
  deriving Inhabited

/-- Hands a finished index to the bag and the registry; tells whether the registry changed. -/
def publish (s : Settings) (i : Index) : Step Site Bool := do
  let site ← get
  if s.pipeline.publishToMetadata then
    let metadata ← Step.ofAnswer (i.publishTo? site.process.metadata)
    set { site with process := { site.process with metadata } }
  let site ← get
  let (registry, changed) ← Step.ofAnswer (site.registry.publish i)
  set { site with registry }
  if !changed then
    Step.log { level := .debug, speaker,
               message := "Index of process " ++ site.process.id.display ++ " unchanged" }
  pure changed

/-- Builds one process and publishes its index. -/
def build (s : Settings) : Step Site Index := do
  let site ← get
  let start ← Step.ofAnswer (createBuild s)
  let (answer, _, lines) := (collect site.process).run start
  lines.forM Step.log
  let i ← Step.ofAnswer answer
  let _ ← publish s i
  pure i

/-- How one of several builds ended. -/
structure Ended where
  answer : Answer Index
  process : ProcessDefinition
  deriving Inhabited

/-- Runs builds one after the other on one registry; `halt` ends them at the first failure. The
processes that were not built stay as they were. -/
def runAll (s : Settings) (halt : Bool) (registry : Registry) :
    List ProcessDefinition → List Ended × Registry × List LogLine
  | [] => ([], registry, [])
  | p :: ps =>
    let (answer, site, lines) := (build s).run { process := p, registry }
    let first : Ended := { answer, process := site.process }
    match answer, halt with
    | .error e, true =>
      (first :: ps.map (fun q => { answer := .error e, process := q }), site.registry, lines)
    | _, _ =>
      let (rest, registry, more) := runAll s halt site.registry ps
      (first :: rest, registry, lines ++ more)

/-- The least of two integers. -/
def leastWorkers (workers : Int) (count : Nat) : Int := if workers < count then workers else count

/-- Builds several processes: the indexes in order, or the first failure in order, with the
processes and the registry as the builds left them. -/
def buildMany (s : Settings) (registry : Registry) (ps : List ProcessDefinition) :
    Answer (List Index) × List ProcessDefinition × Registry × List LogLine :=
  if ps.isEmpty then (.ok [], [], registry, [])
  else
    let workers := leastWorkers s.pipeline.workers ps.length
    if workers < 1 then (.error .badValue, ps, registry, [])
    else
      let (ended, registry, lines) := runAll s (workers == 1) registry ps
      (ended.mapM (·.answer), ended.map (·.process), registry, lines)

end Pipeline
end Concordance
