import Concordance.Descriptor
import Concordance.FileTree
import Concordance.Json.Reader
import Concordance.Text.LetterCase
import Concordance.Yaml.Reader

/-!
Descriptors in files.

* `Descriptor.Format` : the notation a file is written in, told by the ending of its name.
* `Descriptor.load` : the process that a file describes. Reading, decoding, choosing the notation,
  parsing and interpreting come in this order, so an earlier fault hides a later one.
-/

namespace Concordance.Descriptor

/-- The notations of descriptors. -/
inductive Format where
  | json
  | yaml
  deriving DecidableEq, Repr, Inhabited

/-- The notation of the files with an ending. -/
def Format.ofEnding? : String → Option Format
  | ".json" => some .json
  | ".yaml" | ".yml" => some .yaml
  | _ => none

/-- The fault of a text that is no JSON, in a file with the given name. -/
def jsonFault (name : String) : Json.Failure → Fault
  | .malformed => .descriptor (.unparsable name)
  | .tooManyDigits => .badValue
  | .tooDeep => .tooDeep

/-- The fault of a text that is no YAML, in a file with the given name. -/
def yamlFault (name : String) (e : Yaml.Failure) : Fault :=
  e.fault?.getD (.descriptor (.unparsable name))

/-- The tree of values that a text writes in a notation. -/
def Format.read (f : Format) (name text : String) : Answer Value :=
  match f with
  | .json => (Json.read text).mapError (jsonFault name)
  | .yaml => (Yaml.read 0 text).mapError (yamlFault name)

/-- The text in a file. -/
def readText (tree : FileTree) (path : Path) : Answer String :=
  match tree.read path with
  | .error .noPath => .error .badValue
  | .error why => refuse (.unreadable path.text why (Text.Quoted.text path.text))
  | .ok bytes =>
    match decodeText bytes with
    | some s => .ok s
    | none => .error .undecodable

/-- The process that a file describes. -/
def load (tree : FileTree) (path : Path) : Answer ProcessDefinition := do
  let text ← readText tree path
  let ending := Text.lower path.ending
  match Format.ofEnding? ending with
  | none => refuse (.unsupported ending path.text)
  | some format =>
    let data ← format.read path.text text
    parse path.text data

end Concordance.Descriptor
