import Concordance.CommandLine.Request
import Concordance.Descriptor.File
import Concordance.Pipeline
import Concordance.Report.References
import Concordance.Settings.Store

/-!
The commands.

* `Shell` : what every command works with, and what it has printed.
* `Shell.index`, `Shell.impact`, `Shell.config` : the commands. Each answers the exit code: a fault
  of the input is reported and gives 1, any other fault ends the run.
* `Shell.dispatch` : runs a command; `Shell.demandCommand` refuses a name that no command has.
-/

namespace Concordance

/-- Something printed: lines, or the usage of the program. -/
inductive Printed where
  | lines (s : String)
  | usage
  deriving DecidableEq, Repr, Inhabited

/-- What every command works with, and what it has printed. -/
structure Shell where
  env : Environment
  store : SettingsStore
  settings : Settings
  symbols : SymbolSet
  registry : Registry := {}
  out : List Printed := []
  err : List Printed := []
  deriving Inhabited

namespace Shell

/-! ### What commands share -/

/-- Prints lines to the output. -/
def print (s : String) : Step Shell Unit := modify fun h => { h with out := h.out ++ [.lines s] }

/-- Prints an error. -/
def complain (message : String) : Step Shell Unit :=
  modify fun h =>
    { h with err := h.err ++ [.lines (h.symbols.checkFail ++ " Error: " ++ message)] }

/-- The answer of a part of a command; a fault of the input is printed and answers nothing. -/
def reporting {α : Type} (a : Answer α) : Step Shell (Option α) := do
  match a with
  | .ok x => pure (some x)
  | .error f =>
    if f.isReported then
      complain (f.message?.getD "")
      pure none
    else throw f

/-- A step on the kept settings. -/
def onStore {α : Type} (step : Step SettingsStore α) : Step Shell α :=
  Step.focus (·.store) (fun s h => { h with store := s }) step

/-- The processes that files describe, up to the first fault of the input. -/
def loadAll : List String → Step Shell (Option (List ProcessDefinition))
  | [] => pure (some [])
  | file :: files => do
    match ← reporting (Descriptor.load (← get).store.files (Path.ofText file)) with
    | none => pure none
    | some p => return (← loadAll files).map (p :: ·)

/-- Builds processes into the registry. -/
def buildAll (ps : List ProcessDefinition) : Step Shell (Option (List Index)) := do
  let h ← get
  let (answer, _, registry, lines) := Pipeline.buildMany h.settings h.registry ps
  lines.forM Step.log
  set { h with registry }
  reporting answer

/-- The indexes of the processes that files describe. -/
def indexAll (files : List String) : Step Shell (Option (List Index)) := do
  match ← loadAll files with
  | none => pure none
  | some ps => buildAll ps

/-- The format to show reports in: the one asked for, or the one that is set. -/
def formatOf (h : Shell) (format : Option String) : String :=
  format.getD ((h.settings.display.format.text?).getD "")

/-- What reports are drawn on. -/
def canvas (h : Shell) : Canvas := { symbols := h.symbols, width := h.env.terminalWidth }

/-- Prints a report. -/
def emit (r : Report) (format : String) : Step Shell Unit := do
  print (← Step.ofAnswer (r.render? format (← get).canvas))

/-! ### The commands -/

/-- Shows the references in descriptors. -/
def index (files : List String) (format : Option String) : Step Shell Nat := do
  match ← indexAll files with
  | none => pure 1
  | some is =>
    let format := (← get).formatOf format
    if format == "json" then
      let data ← Step.ofAnswer (is.mapM Index.toDict?)
      emit { data := .list data, shape := .text "json" } format
    else is.forM fun i => do emit (← Step.ofAnswer i.referenceReport?) format
    pure 0

/-- Shows which processes mention a name. -/
def impact (name : String) (files : List String) (format : Option String) : Step Shell Nat := do
  match ← indexAll files with
  | none => pure 1
  | some _ =>
    let h ← get
    emit (← Step.ofAnswer (h.registry.impactReport? name)) (h.formatOf format)
    pure 0

/-- Changes one setting. -/
def assign (key text : String) (scope : Scope) : Step Shell Nat := do
  let env := (← get).env
  match ← onStore (SettingsStore.change env key text scope) with
  | some problem =>
    complain problem
    pure 1
  | none =>
    let shown ← onStore (SettingsStore.get? env key)
    let h ← get
    print (h.symbols.checkPass ++ " Set " ++ key ++ " = " ++ shown.getD "")
    print ("  Saved to " ++ (h.store.path scope).text)
    pure 0

/-- Shows the settings, or changes one. -/
def config (assignment : Option String) (user : Bool) : Step Shell Nat := do
  match assignment.filter (· != "") with
  | none =>
    print (← onStore (SettingsStore.display (← get).env))
    pure 0
  | some s => match Text.splitFirst? (· == '=') s.toList with
    | none =>
      complain "Use --set KEY=VALUE"
      pure 1
    | some (key, text) =>
      let strip (cs : List Char) : String := Text.strip (String.ofList cs)
      assign (strip key) (strip text) (if user then .user else .project)

/-- The part of the program that logs commands. -/
def speaker : String := "procindex.commands"

/-- Refuses a name that no command has. -/
def demandCommand (name : String) : Answer Unit :=
  if Command.names.contains name then .ok ()
  else .error (.unknownCommand name (Value.list (textValues Command.names)).quoted)

/-- Runs a command. -/
def dispatch (c : Command) : Step Shell Nat := do
  Step.log ⟨.debug, speaker, "Dispatching command " ++ c.name⟩
  match c with
  | .index files format => index files format
  | .impact name files format => impact name files format
  | .config assignment user => config assignment user

end Shell
end Concordance
