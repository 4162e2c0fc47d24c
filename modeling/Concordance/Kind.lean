/-!
The kinds of names an index holds.

* `PartType` : the kinds of names a process exposes.
* `ResourceType` : the kinds of things that can be indexed, a process under its id or its name, a
  function, a class.
* `label` : the written form, which also orders the kinds; `constant` : the name of the kind itself.
-/

namespace Concordance

/-- The kinds of names a process exposes. -/
inductive PartType where
  | var
  | ruleflowGroup
  | taskName
  | global
  | signal
  | functionRef
  deriving DecidableEq, Repr, Inhabited

/-- The kinds of things that can be indexed. -/
inductive ResourceType where
  | processId
  | processName
  | function
  | className
  deriving DecidableEq, Repr, Inhabited

namespace PartType

/-- All kinds, in order of declaration. -/
def all : List PartType := [var, ruleflowGroup, taskName, global, signal, functionRef]

/-- The written form of a kind. -/
def label : PartType → String
  | var => "variable"
  | ruleflowGroup => "ruleflow_group"
  | taskName => "task_name"
  | global => "global"
  | signal => "signal"
  | functionRef => "function_ref"

/-- The name of the kind itself. -/
def constant : PartType → String
  | var => "VARIABLE"
  | ruleflowGroup => "RULEFLOW_GROUP"
  | taskName => "TASK_NAME"
  | global => "GLOBAL"
  | signal => "SIGNAL"
  | functionRef => "FUNCTION_REF"

/-- The kind with a written form. -/
def ofLabel? (s : String) : Option PartType := all.find? (·.label == s)

end PartType

namespace ResourceType

/-- All kinds, in order of declaration. -/
def all : List ResourceType := [processId, processName, function, className]

/-- The written form of a kind. -/
def label : ResourceType → String
  | processId => "bpmn2"
  | processName => "bpmn2_name"
  | function => "function"
  | className => "class"

/-- The name of the kind itself. -/
def constant : ResourceType → String
  | processId => "PROCESS_ID"
  | processName => "PROCESS_NAME"
  | function => "FUNCTION"
  | className => "CLASS"

/-- The kind with a written form. -/
def ofLabel? (s : String) : Option ResourceType := all.find? (·.label == s)

end ResourceType
end Concordance
