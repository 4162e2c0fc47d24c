import Concordance.Environment
import Concordance.FileTree
import Concordance.Settings.Key
import Concordance.Yaml.Reader

/-!
The layers that settings come from: the file of the user, the file of the project, and the
environment, each of which overrides those before it.

* `Layer.read` : what a file of settings holds. A file that is missing, empty, unreadable, malformed
  or no mapping defines nothing; all but the first two are warned about.
* `Layer.merge` : one mapping laid over another; mappings under one key are merged in turn.
* `Layer.meetAgain` : two mappings that stand inside themselves, so that merging them has no end.
* `Override` : the variables of the environment that stand for settings.
* `Layer.load` : the settings that the layers define together.
-/

namespace Concordance

/-- What a file of settings holds. -/
inductive Layer where
  /-- Nothing, without a fault. -/
  | absent
  /-- No readable YAML. -/
  | malformed
  /-- A value that is no mapping. -/
  | notMapping
  | mapping (entries : List (Value × Value))
  deriving Inhabited

namespace Layer

/-- The part of the program that logs about settings. -/
def speaker : String := "procindex.config"

/-- The layer that a value is. -/
def ofValue (v : Value) : Layer :=
  if !v.truthy then absent
  else match v with
    | .dict es _ => mapping es
    | _ => notMapping

/-- What a file of settings holds; its objects are marked with a number of the file. -/
def read (tree : FileTree) (document : Nat) (path : Path) : Answer Layer :=
  match tree.contains? path with
  | .error why => .error (.ofFile why)
  | .ok false => .ok absent
  | .ok true =>
    match tree.read path with
    | .error _ => .ok malformed
    | .ok bytes =>
      match (decodeText bytes).map (Yaml.read document) with
      | none => .error .undecodable
      | some (.ok v) => .ok (ofValue v)
      | some (.error e) => match e.fault? with
        | none => .ok malformed
        | some f => .error f

/-- The entries that a layer defines. -/
def entries : Layer → List (Value × Value)
  | mapping es => es
  | _ => []

/-- What a layer is warned about for, in the file at a path. -/
def warning? (path : Path) : Layer → Option LogLine
  | malformed => some ⟨.warning, speaker, "Ignoring malformed config " ++ path.text⟩
  | notMapping =>
    some ⟨.warning, speaker, "Ignoring config " ++ path.text ++ ": top level is not a mapping"⟩
  | _ => none

mutual

/-- A value laid over another: two mappings are merged into a new one. -/
def overlay (base : Value) : Value → Value
  | .dict fs mark => match base with
    | .dict es _ => .dict (merge es fs)
    | _ => .dict fs mark
  | v => v

/-- One mapping laid over another. -/
def merge (base : List (Value × Value)) : List (Value × Value) → List (Value × Value)
  | [] => base
  | (k, v) :: fs =>
    let w := match Value.lookup? base k with
      | some old => overlay old v
      | none => v
    merge (Value.put base k w) fs

end

mutual

/-- Whether laying a value over another comes to no end, for two mappings meet again inside
themselves; `around` holds those that have met. -/
def meetAgain (around : List (Mark × Mark)) (base : Value) : Value → Bool
  | .dict fs mark => match base, mark with
    | .dict es (some old), some new =>
      around.contains (old, new) || fieldsMeetAgain ((old, new) :: around) es fs
    | _, _ => false
  | _ => false

/-- The same for the entries of two mappings. -/
def fieldsMeetAgain (around : List (Mark × Mark)) (base : List (Value × Value)) :
    List (Value × Value) → Bool
  | [] => false
  | (k, v) :: fs =>
    ((Value.lookup? base k).any fun old => meetAgain around old v) || fieldsMeetAgain around base fs

end

end Layer

/-! ### The environment -/

/-- A variable of the environment that stands for a setting. -/
structure Override where
  variable_ : String
  key : SettingKey
  deriving DecidableEq, Repr, Inhabited

namespace Override

/-- All of them, in the order in which they are looked at. -/
def all : List Override := [
  ⟨"PROCINDEX_BASE_PACKAGE", .basePackage⟩,
  ⟨"PROCINDEX_DIALECTS", .enabledDialects⟩,
  ⟨"PROCINDEX_WORKERS", .workers⟩,
  ⟨"PROCINDEX_FORMAT", .format⟩,
  ⟨"PROCINDEX_LOG_LEVEL", .level⟩]

/-- The text of the variable, if there is one. -/
def raw? (o : Override) (env : Environment) : Option String :=
  (env.get? o.variable_).filter (· != "")

/-- The warning about a text that stands for no value. -/
def warning (o : Override) (raw : String) : LogLine :=
  ⟨.warning, Layer.speaker,
    "Ignoring " ++ o.variable_ ++ "=" ++ Text.Quoted.text raw ++ ": not a valid value"⟩

/-- The mapping of mappings with another value of one setting. A section that is an object of a file
changes wherever that object stands. -/
def define (o : Override) (v : Value) (data : List (Value × Value)) :
    Answer (List (Value × Value)) :=
  let home := Value.text o.key.home.label
  let label := Value.text o.key.label
  match (Value.lookup? data home).getD (.dict []) with
  | .dict es none => .ok (Value.put data home (.dict (Value.put es label v)))
  | .dict _ (some object) => .ok (Value.redefineEntries object label v [] data)
  | _ => .error .illTyped

/-- The mapping of mappings with what the variable says. -/
def apply (env : Environment) (data : List (Value × Value)) (o : Override) :
    Step σ (List (Value × Value)) :=
  match o.raw? env with
  | none => pure data
  | some raw => match o.key.parse? raw with
    | some v => Step.ofAnswer (o.define v data)
    | none => do
      Step.log (o.warning raw)
      pure data

end Override

/-! ### All layers -/

namespace Layer

/-- The entries in a file of settings; what is wrong with it is logged. -/
def entriesAt (tree : FileTree) (document : Nat) (path : Path) :
    Step σ (List (Value × Value)) := do
  let layer ← Step.ofAnswer (read tree document path)
  (warning? path layer).forM Step.log
  pure layer.entries

/-- The settings that the file of the user, the file of the project and the environment define
together. -/
def load (tree : FileTree) (env : Environment) (userFile projectFile : Path) :
    Step σ Settings := do
  let user ← entriesAt tree 0 userFile
  let project ← entriesAt tree 1 projectFile
  if fieldsMeetAgain [] user project then throw .tooDeep
  let data ← Override.all.foldlM (Override.apply env) (merge (merge [] user) project)
  Step.ofAnswer (Settings.ofValue? (.dict data))

end Layer
end Concordance
