import Concordance.Phase

/-!
What can go wrong, by cause.

* `DescriptorFault` : a process descriptor that cannot be read or is malformed.
* `Fault` : any failure. The library's own causes carry what their message tells; the others say
  only which law of values was broken, and have no message.
* `Fault.message?` : the one place where messages are worded.
* `Fault.isReported` : the causes that a command reports instead of passing them on.
-/

namespace Concordance

/-- The ways in which a file system refuses a path. -/
inductive FileFailure where
  | missing
  | exists
  | notDirectory
  | isDirectory
  | nameTooLong
  /-- The text is no path. -/
  | noPath
  deriving DecidableEq, Repr, Inhabited

/-- Number and text of a refusal. -/
def FileFailure.text : FileFailure → String
  | .missing => "[Errno 2] No such file or directory"
  | .exists => "[Errno 17] File exists"
  | .notDirectory => "[Errno 20] Not a directory"
  | .isDirectory => "[Errno 21] Is a directory"
  | .nameTooLong => "[Errno 36] File name too long"
  | .noPath => "embedded null byte"

/-- What is wrong with a descriptor; all but the first three arise from its content. -/
inductive DescriptorFault where
  | unreadable (path : String) (why : FileFailure) (quotedPath : String)
  | unparsable (path : String)
  | unsupported (suffix path : String)
  | notMapping (source : String)
  | noId (source : String)
  | nodeNotMapping (source : String)
  | unknownNodeKind (source kind : String)
  | variableWithoutName (source : String)
  | itemWithoutId (source : String)
  | globalWithoutType (source name : String)
  | messageWithoutId (source : String)
  | metadataNotMapping (source : String)
  | notList (source key : String)
  | sectionNotMapping (source key : String)
  | notStrings (source key : String)
  | notString (source key actual : String)
  deriving DecidableEq, Repr, Inhabited

/-- The endings of the file names of descriptors, in the order in which they are listed. -/
def descriptorEndings : List String := [".json", ".yaml", ".yml"]

/-- The names of the kinds of nodes a descriptor can declare. -/
def nodeKindNames : List String := ["node", "rule_set", "work_item", "sub_process"]

/-- The message of a descriptor fault. -/
def DescriptorFault.message : DescriptorFault → String
  | .unreadable path why quotedPath => s!"Cannot read {path}: {why.text}: {quotedPath}"
  | .unparsable path => s!"Cannot parse {path}"
  | .unsupported suffix path =>
    s!"Unsupported descriptor type '{suffix}' for {path}. Valid: " ++
      ", ".intercalate descriptorEndings
  | .notMapping source => s!"{source}: descriptor must be a mapping"
  | .noId source => s!"{source}: descriptor has no process 'id'"
  | .nodeNotMapping source => s!"{source}: node entries must be mappings"
  | .unknownNodeKind source kind =>
    s!"{source}: unknown node kind '{kind}'. Valid: " ++ ", ".intercalate nodeKindNames
  | .variableWithoutName source => s!"{source}: variables need a 'name'"
  | .itemWithoutId source => s!"{source}: item definitions need an 'id'"
  | .globalWithoutType source name => s!"{source}: global '{name}' needs a type name"
  | .messageWithoutId source => s!"{source}: messages need an 'id'"
  | .metadataNotMapping source => s!"{source}: 'metadata' must be a mapping"
  | .notList source key => s!"{source}: '{key}' must be a list"
  | .sectionNotMapping source key => s!"{source}: '{key}' must be a mapping"
  | .notStrings source key => s!"{source}: '{key}' entries must be strings"
  | .notString source key actual => s!"{source}: '{key}' must be a string, got {actual}"

/-- Any failure, by cause. -/
inductive Fault where
  /-- A well-known metadata key carries a value of another type. -/
  | metadata (key expected actual : String)
  /-- A call came outside the phase it belongs to. -/
  | lifecycle (call : Callback) (phase : Phase)
  /-- A published resource was to be changed. -/
  | frozen (resource : String)
  /-- A descriptor is unreadable or malformed. -/
  | descriptor (why : DescriptorFault)
  /-- Dialects were enabled that do not exist. -/
  | unknownDialects (unknown valid : List String)
  /-- A metadata key was claimed that another dialect owns. -/
  | keyTaken (key owner claimant : String)
  /-- An output format does not exist. -/
  | unknownFormat (format : String) (valid : List String)
  /-- A command does not exist. -/
  | unknownCommand (command listing : String)
  /-- A value lacks the operation asked of it. -/
  | noAttribute
  /-- An operation met operands of the wrong types. -/
  | illTyped
  /-- An operation met an operand of the right type without a meaning. -/
  | badValue
  /-- A sequence has no member at a place. -/
  | noMember
  /-- A look-up met no entry; the key in its quoted form. -/
  | missingKey (key : String)
  /-- A number is too large. -/
  | overflow
  /-- Bytes are no text. -/
  | undecodable
  /-- A text with halves of characters has no bytes. -/
  | unencodable
  /-- A value is nested too deeply, or holds itself. -/
  | tooDeep
  /-- A file could not be written. -/
  | storage (why : FileFailure)
  deriving DecidableEq, Repr, Inhabited

namespace Fault

/-- The fault of a path at which a file cannot be read or written. -/
def ofFile : FileFailure → Fault
  | .noPath => badValue
  | why => storage why

/-- The message of a failure, for the library's own causes. -/
def message? : Fault → Option String
  | metadata key expected actual => some s!"Metadata '{key}' must be {expected}, got {actual}"
  | lifecycle call phase =>
    some (call.label ++ "() is not allowed in state '" ++ phase.label ++ "'")
  | frozen resource => some s!"Resource '{resource}' is published and cannot change"
  | descriptor why => some why.message
  | unknownDialects unknown valid =>
    some ("Unknown dialect(s): " ++ ", ".intercalate unknown ++ ". Valid: " ++
      ", ".intercalate valid)
  | keyTaken key owner claimant =>
    some s!"Metadata key {key} already registered to {owner}, cannot register to {claimant}"
  | unknownFormat format valid =>
    some (s!"Unknown format '{format}'. Valid: " ++ ", ".intercalate valid)
  | unknownCommand command listing => some s!"Unknown command: {command}. Available: {listing}"
  | _ => none

/-- The causes that a command reports as an error of its input: those of the indexing itself. -/
def isReported : Fault → Bool
  | metadata .. | lifecycle .. | frozen _ | descriptor _ => true
  | _ => false

end Fault

/-- What a total operation of the library answers: a value, or the cause of its failure. -/
abbrev Answer (α : Type) := Except Fault α

end Concordance
