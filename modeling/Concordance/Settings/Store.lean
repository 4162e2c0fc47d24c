import Concordance.Settings.Layers
import Concordance.Yaml.Writer

/-!
Settings that are kept in files.

* `SettingsStore` : the directories of the project and of the user, the files, and the settings in
  force once they are known.
* `SettingsStore.load` : the settings in force; they are read once.
* `SettingsStore.get?`, `SettingsStore.change`, `SettingsStore.display` : one setting by its name, a
  change of it, and all of them for people.

A change is checked in its section before anything is written, so that a refused one leaves the
files and the settings in force as they are. An accepted one writes all settings into one file.
-/

namespace Concordance

/-- The file a change is written to. -/
inductive Scope where
  | project
  | user
  deriving DecidableEq, Repr, Inhabited

/-- The scope with a name: any but that of the project means the user. -/
def Scope.ofLabel (s : String) : Scope := if s == "project" then .project else .user

/-- Settings that are kept in files. -/
structure SettingsStore where
  projectDir : Path
  userDir : Path
  files : FileTree := {}
  /-- The settings in force. -/
  held : Option Settings := none
  deriving Inhabited

namespace SettingsStore

/-- The name of a file of settings. -/
def fileName : Path := ⟨["config.yaml"]⟩

/-- The name of the directory of settings in a project. -/
def directoryName : Path := ⟨[".procindex"]⟩

/-- The file of a scope. -/
def path (s : SettingsStore) : Scope → Path
  | .project => (s.projectDir.join directoryName).join fileName
  | .user => s.userDir.join fileName

/-- The settings in force; they are read from the layers unless they are known. -/
def load (env : Environment) : Step SettingsStore Settings := do
  let s ← get
  match s.held with
  | some settings => pure settings
  | none =>
    let settings ← Layer.load s.files env (s.path .user) (s.path .project)
    set { s with held := some settings }
    pure settings

/-- Writes settings into the file of a scope, and makes them those in force. The file is emptied
before the text is made, so it is empty if there is no text. -/
def save (scope : Scope) (settings : Settings) : Step SettingsStore Unit := do
  let s ← get
  let file := s.path scope
  match s.files.makeDirectories file.parent with
  | .error why => throw (.ofFile why)
  | .ok files =>
    set { s with files }
    match files.write file [] with
    | .error why => throw (.ofFile why)
    | .ok files =>
      set { s with files }
      let text ← Step.ofAnswer (Yaml.write? settings.toValue)
      match files.write file text.toUTF8.toList with
      | .error why => throw (.ofFile why)
      | .ok files => set { s with files, held := some settings }

/-- The refusal of a name that no setting has. -/
def unknownSetting (key : String) : String :=
  "Unknown setting: " ++ key ++ ". Valid: " ++ ", ".intercalate (SettingKey.all.map (·.name))

/-- Changes one setting, given by name and text; answers why not if it is refused. -/
def change (env : Environment) (key text : String) (scope : Scope) :
    Step SettingsStore (Option String) := do
  match SettingKey.ofName? key with
  | none => pure (some (unknownSetting key))
  | some k => match k.parse? text with
    | none => pure (some ("Invalid value for " ++ key ++ ": " ++ text))
    | some v =>
      let settings := k.put (← load env) v
      match ← Step.ofAnswer (settings.problemIn k.home) with
      | some problem => pure (some problem)
      | none =>
        save scope settings
        pure none

/-- One setting, given by name, as a text; none if no setting has the name. -/
def get? (env : Environment) (key : String) : Step SettingsStore (Option String) := do
  match SettingKey.ofName? key with
  | none => pure none
  | some k => return some (← Step.ofAnswer (k.shown? (← load env)))

/-- The lines about the settings that follow one of the section `before`. -/
def linesFrom (settings : Settings) (before : Option SettingsSection) :
    List SettingKey → Answer (List String)
  | [] => .ok []
  | k :: ks => do
    let head :=
      if before == some k.home then []
      else (if before.isSome then [""] else []) ++ [Text.title k.home.label ++ ":"]
    let shown ← k.shown? settings
    let rest ← linesFrom settings (some k.home) ks
    pure (head ++ ["  " ++ k.label ++ ": " ++ shown] ++ rest)

/-- All settings, and where they are kept, for people. -/
def display (env : Environment) : Step SettingsStore String := do
  let settings ← load env
  let lines ← Step.ofAnswer (linesFrom settings none SettingKey.all)
  let s ← get
  pure ("\n".intercalate (["Configuration:", ""] ++ lines ++ ["", "Config files:",
    "  User: " ++ (s.path .user).text, "  Project: " ++ (s.path .project).text]))

end SettingsStore
end Concordance
