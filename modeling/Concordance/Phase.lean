/-!
The phases of a build and the calls that belong to them.

* `Phase` : a build is created, collects while the process is read, is compiled once all of it has
  been read, and is completed by its index.
* `Callback` : the five calls a build answers; `Callback.admits` names the one phase in which a
  call is allowed.
-/

namespace Concordance

/-- The phases of a build, in their order. -/
inductive Phase where
  | created
  | building
  | compiled
  | completed
  deriving DecidableEq, Repr, Inhabited

/-- The written form of a phase. -/
def Phase.label : Phase → String
  | .created => "created"
  | .building => "building"
  | .compiled => "compiled"
  | .completed => "completed"

/-- The place of a phase in their order. -/
def Phase.rank : Phase → Nat
  | .created => 0
  | .building => 1
  | .compiled => 2
  | .completed => 3

/-- The calls a build answers. -/
inductive Callback where
  | processAdded
  | nodeAdded
  | metadataAdded
  | complete
  | buildComplete
  deriving DecidableEq, Repr, Inhabited

/-- The name of a call in messages. -/
def Callback.label : Callback → String
  | .processAdded => "on_process_added"
  | .nodeAdded => "on_node_added"
  | .metadataAdded => "on_meta_data_added"
  | .complete => "on_complete"
  | .buildComplete => "on_build_complete"

/-- The phase in which a call is allowed. -/
def Callback.admits : Callback → Phase
  | .processAdded => .created
  | .nodeAdded => .building
  | .metadataAdded => .building
  | .complete => .building
  | .buildComplete => .compiled

end Concordance
