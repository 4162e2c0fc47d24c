import Concordance.CommandLine.Run

/-!
The program: it reads what a run can touch, runs, prints, and writes the files of settings that the
run has changed.
-/

namespace Concordance.Program

/-- The usage of the program. -/
def usage : String :=
  "usage: procindex [-h] [--project PROJECT] [--verbose] [--version] COMMAND ...\n\n" ++
  "process reference indexer\n\n" ++
  "commands:\n" ++
  "  index FILE...          Index process descriptors and show their references\n" ++
  "  impact NAME FILE...    List processes referencing a name\n" ++
  "  config                 View or set configuration\n\n" ++
  "options:\n" ++
  "  -h, --help             Show this help\n" ++
  "  -p, --project PROJECT  Project directory\n" ++
  "  -v, --verbose          Log debug output\n" ++
  "  -V, --version          Show the version\n" ++
  "  -f, --format FORMAT    index, impact: auto, table or json\n" ++
  "  --set KEY=VALUE        config: change a setting\n" ++
  "  --user                 config: change it for the user\n"

/-- The text of something printed. -/
def printedText : Printed → String
  | .lines s => s ++ "\n"
  | .usage => usage

/-- The variables that a run looks at. -/
def variableNames : List String := ["PROCINDEX_PROJECT_PATH", "PROCINDEX_BASE_PACKAGE",
  "PROCINDEX_DIALECTS", "PROCINDEX_WORKERS", "PROCINDEX_FORMAT", "PROCINDEX_LOG_LEVEL",
  "PROCINDEX_ASCII_ONLY", "LANG", "LC_ALL", "COLUMNS"]

/-- The environment, as far as a run looks at it. -/
def readEnvironment : IO Environment := do
  let found ← variableNames.filterMapM fun name => do
    return (← IO.getEnv name).map (name, ·)
  return { entries := found }

/-- Adds what stands at a path to a tree of files; what cannot be read is left out. -/
def readInto (tree : FileTree) (path : Path) : IO FileTree := do
  let (here, ahead) := tree.start path
  let walk (here : List String) (s : String) :=
    if s == ".." then FileTree.above here else here ++ [s]
  let steps := ahead.foldl walk here
  try
    let bytes ← IO.FS.readBinFile path.text
    return tree.put steps (.file bytes.toList)
  catch
    | .noFileOrDirectory .. => return tree
    | _ => return tree.put steps .directory

/-- Writes the file at a path if a run has changed it. -/
def writeChanged (before after : FileTree) (path : Path) : IO Unit := do
  match after.read path with
  | .ok bytes =>
    unless (before.read path).toOption == some bytes do
      IO.FS.createDirAll path.parent.text
      IO.FS.writeBinFile path.text ⟨bytes.toArray⟩
  | .error _ => return ()

/-- The exit code of a run. -/
def exitCode : Ending → UInt32
  | .answered code => UInt32.ofNat code
  | .stopped code => UInt32.ofNat code
  | .failed _ => 1

end Concordance.Program

open Concordance Program in
/-- Runs the program on its arguments. -/
def main (args : List String) : IO UInt32 := do
  let env ← readEnvironment
  let userDir := (Path.ofText ((← IO.getEnv "HOME").getD ".")).join SettingsStore.directoryName
  let start : FileTree := { workingDir := Path.ofText (← IO.currentDir).toString }
  let settings := settingsFiles env userDir args
  let files ← (settings ++ descriptorFiles env args).foldlM readInto start
  let outcome := run { env, files, userDir } args
  for p in outcome.err do IO.eprint (printedText p)
  for p in outcome.out do IO.print (printedText p)
  if let .failed why := outcome.ending then
    IO.eprintln ("Error: " ++ why.message?.getD "unusable input")
  settings.forM (writeChanged files outcome.files)
  return exitCode outcome.ending
