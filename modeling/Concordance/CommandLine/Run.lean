import Concordance.CommandLine.Shell

/-!
A whole run of the program, from its arguments to what it leaves.

* `Outcome` : how a run ended, what it printed, and the files it left.
* `Program.settingsFiles`, `Program.descriptorFiles` : the files that a run can touch.
* `Program.run` : a run. Arguments that make no sense end it with code 2, settings with a problem
  too; before the level of the log is known, warnings are printed without their level.
-/

namespace Concordance

/-- How a run ended. -/
inductive Ending where
  /-- By answering an exit code. -/
  | answered (code : Nat)
  /-- At its arguments. -/
  | stopped (code : Nat)
  /-- By a fault that nothing reports. -/
  | failed (why : Fault)
  deriving DecidableEq, Repr, Inhabited

/-- What a run leaves. -/
structure Outcome where
  ending : Ending
  out : List Printed := []
  err : List Printed := []
  files : FileTree
  deriving Inhabited

/-- The surroundings of a run. -/
structure Surroundings where
  env : Environment
  files : FileTree
  /-- The directory of the settings of the user. -/
  userDir : Path
  /-- The encoding of the output, if it is known. -/
  encoding : Option String := none
  deriving Inhabited

namespace Program

/-- The name and version of the program. -/
def version : String := "procindex 0.1.0"

/-- The lines of a log from a level on. -/
def atLeast (level : LogLevel) (lines : List LogLine) : List LogLine :=
  lines.filter fun l => level.rank ≤ l.level.rank

/-- What is printed of a log before its level is known. -/
def plainLog (lines : List LogLine) : List Printed :=
  (atLeast .warning lines).map fun l => .lines l.message

/-- What is printed of a log. -/
def fullLog (level : LogLevel) (lines : List LogLine) : List Printed :=
  (atLeast level lines).map fun l => .lines l.text

/-- The level of the log of a run. -/
def logLevel (settings : Settings) (verbose : Bool) : LogLevel :=
  if verbose then .debug
  else ((settings.logging.level.text?).bind fun s => LogLevel.ofLabel? (Text.upper s)).getD .warning

/-- Runs a command under settings without a problem. -/
def runCommand (w : Surroundings) (r : Request) (c : Command) (store : SettingsStore)
    (settings : Settings) : Outcome :=
  let preference := (settings.display.symbols.text?).getD ""
  let symbols := SymbolSet.choose w.env w.encoding preference
  let (answer, h, lines) := (Shell.dispatch c).run { env := w.env, store, settings, symbols }
  let err := fullLog (logLevel settings r.verbose) lines ++ h.err
  let files := h.store.files
  match answer with
  | .ok code => { ending := .answered code, out := h.out, err, files }
  | .error (.missingKey key) =>
    { ending := .answered 2, out := h.out ++ [.usage],
      err := err ++ [.lines ("Error: " ++ key)], files }
  | .error why => { ending := .failed why, out := h.out, err, files }

/-- Reads the settings, and runs a command if they have no problem. -/
def runRequest (w : Surroundings) (r : Request) (c : Command) : Outcome :=
  let store : SettingsStore :=
    { projectDir := Path.ofText r.project, userDir := w.userDir, files := w.files }
  let (answer, store, lines) := (SettingsStore.load w.env).run store
  let early := plainLog lines
  let ended (ending : Ending) (err : List Printed) : Outcome :=
    { ending, err := early ++ err, files := w.files }
  match answer with
  | .error why => ended (.failed why) []
  | .ok settings => match settings.problem? with
    | .error why => ended (.failed why) []
    | .ok (some problem) =>
      ended (.answered 2) [.lines ("Error: invalid configuration: " ++ problem)]
    | .ok none =>
      let o := runCommand w r c store settings
      { o with err := early ++ o.err }

/-- What arguments ask for, in an environment that may name the project. -/
def request (env : Environment) (args : List String) : Except Stop Request :=
  Request.parse ((env.get? "PROCINDEX_PROJECT_PATH").getD ".") args

/-- A whole run. -/
def run (w : Surroundings) (args : List String) : Outcome :=
  let files := w.files
  match request w.env args with
  | .error .help => { ending := .stopped 0, out := [.usage], files }
  | .error .version => { ending := .stopped 0, out := [.lines version], files }
  | .error .misuse => { ending := .stopped 2, err := [.usage], files }
  | .ok r => match r.command with
    | none => { ending := .answered 0, out := [.usage], files }
    | some c => runRequest w r c

/-- The files of settings that a run may read and write. -/
def settingsFiles (env : Environment) (userDir : Path) (args : List String) : List Path :=
  match request env args with
  | .ok r =>
    let store : SettingsStore := { projectDir := Path.ofText r.project, userDir }
    [store.path .user, store.path .project]
  | .error _ => []

/-- The descriptors that a run may read. -/
def descriptorFiles (env : Environment) (args : List String) : List Path :=
  match request env args with
  | .ok { command := some c, .. } => c.files.map Path.ofText
  | _ => []

end Program
end Concordance
