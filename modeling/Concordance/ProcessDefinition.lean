import Concordance.Value.Access

/-!
What a compiler declares of a process: its nodes, variables, items and messages, and the bag of
metadata it leaves.

* `ProcessDefinition` : the handle of a process; every field may hold any value, and a build fails
  where it meets one it cannot read.
* `Variable` : the record of a variable, whose metadata may name the item it was declared by.
* `ProcessDefinition.setField?` : a process with one of its fields changed.
-/

namespace Concordance

/-- A declared variable. -/
structure Variable where
  name : Value
  type : Value := .text "Object"
  metadata : Value := .dict []
  deriving Inhabited

/-- The handle of a process. -/
structure ProcessDefinition where
  id : Value
  name : Value := .text ""
  metadata : Value := .dict []
  globals : Value := .dict []
  imports : Value := .set false []
  functionImports : Value := .list []
  nodes : Value := .list []
  vars : Value := .list []
  itemDefinitions : Value := .dict []
  signals : Value := .set false []
  messages : Value := .dict []
  deriving Inhabited

namespace Variable

/-- The key under which a variable's metadata name the item it was declared by. -/
def itemSubjectKey : String := "ItemSubjectRef"

/-- The variable as a value. -/
def toValue (v : Variable) : Value := .var v.name v.type v.metadata

/-- The variable that a value is. -/
def ofValue? : Value → Option Variable
  | .var name type metadata => some { name, type, metadata }
  | _ => none

/-- The id of the item a variable was declared by, null if none. -/
def itemSubject? (v : Variable) : Answer Value := v.metadata.get? (.text itemSubjectKey)

end Variable

namespace ProcessDefinition

/-- The process as a value. -/
def toValue (p : ProcessDefinition) : Value :=
  .process p.id p.name p.metadata p.globals p.imports p.functionImports p.nodes p.vars
    p.itemDefinitions p.signals p.messages

/-- The process that a value is. -/
def ofValue? : Value → Option ProcessDefinition
  | .process id name metadata globals imports functionImports nodes vars itemDefinitions
      signals messages =>
    some { id, name, metadata, globals, imports, functionImports, nodes, vars,
           itemDefinitions, signals, messages }
  | _ => none

/-- A process with one of its fields changed. -/
def setField? (p : ProcessDefinition) (field : String) (v : Value) : Option ProcessDefinition :=
  match field with
  | "id" => some { p with id := v }
  | "name" => some { p with name := v }
  | "metadata" => some { p with metadata := v }
  | "globals" => some { p with globals := v }
  | "imports" => some { p with imports := v }
  | "function_imports" => some { p with functionImports := v }
  | "nodes" => some { p with nodes := v }
  | "variables" => some { p with vars := v }
  | "item_definitions" => some { p with itemDefinitions := v }
  | "signals" => some { p with signals := v }
  | "messages" => some { p with messages := v }
  | _ => none

end ProcessDefinition
end Concordance
