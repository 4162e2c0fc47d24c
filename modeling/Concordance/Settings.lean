import Concordance.Dialect
import Concordance.Text.Integer
import Concordance.Text.LetterCase
import Concordance.TypeNames

/-!
Settings in five sections.

* `ResolverSettings`, `DialectSettings`, `PipelineSettings`, `DisplaySettings`, `LoggingSettings` :
  each with a `problem?`, the text of what is wrong with it, if anything.
* `Settings` : the five sections; `Settings.problem?` is the first problem in their order.
* `Settings.toValue`, `Settings.ofValue?` : settings as a mapping of mappings; a setting that is
  missing takes its default, one that is there is taken as it is.
-/

namespace Concordance

/-- The texts as values. -/
def textValues (ss : List String) : List Value := ss.map .text

/-- How bare type names are resolved. -/
structure ResolverSettings where
  basePackage : Value := .text "java.lang"
  builtinTypes : List Value := textValues ["Object", "String", "Float", "Integer", "Boolean"]
  packageSeparator : Value := .text "."
  wildcardMarker : Value := .text "*"
  deriving Inhabited

/-- Which dialects contribute type names. -/
structure DialectSettings where
  enabled : List Value := textValues builtinDialectNames
  deriving Inhabited

/-- How builds are run. -/
structure PipelineSettings where
  workers : Int := 4
  publishToMetadata : Bool := true
  deriving Inhabited

/-- How results are shown. -/
structure DisplaySettings where
  symbols : Value := .text "auto"
  format : Value := .text "auto"
  deriving Inhabited

/-- What is logged. -/
structure LoggingSettings where
  level : Value := .text "WARNING"
  deriving Inhabited

/-- The five sections. -/
structure Settings where
  resolver : ResolverSettings := {}
  dialects : DialectSettings := {}
  pipeline : PipelineSettings := {}
  display : DisplaySettings := {}
  logging : LoggingSettings := {}
  deriving Inhabited

/-! ### Problems -/

namespace ResolverSettings

/-- The first built-in name that holds the separator. -/
def qualifiedBuiltin? (sep : Value) : List Value → Answer (Option Value)
  | [] => .ok none
  | name :: names => do
    if ← name.contains? sep then pure (some name) else qualifiedBuiltin? sep names

/-- What is wrong with the settings, if anything. -/
def problem? (s : ResolverSettings) : Answer (Option String) := do
  if !s.packageSeparator.truthy then pure (some "Package separator must not be empty")
  else if !s.wildcardMarker.truthy then pure (some "Wildcard marker must not be empty")
  else
    let name ← qualifiedBuiltin? s.packageSeparator s.builtinTypes
    match name with
    | none => pure none
    | some n => pure (some ("Built-in type '" ++ (← n.display?) ++ "' must be a simple name"))

/-- The resolver that the settings describe. -/
def createResolver (s : ResolverSettings) : Answer Resolver :=
  Resolver.make? s.basePackage (.list s.builtinTypes) s.packageSeparator

end ResolverSettings

namespace DialectSettings

/-- What is wrong with the settings, if anything. -/
def problem? (s : DialectSettings) : Answer (Option String) := do
  let unknown := s.enabled.filter fun n => !Value.memberOf (textValues builtinDialectNames) n
  if unknown.isEmpty then pure none
  else
    let names ← Value.texts? unknown
    pure (some ("Unknown dialect(s) " ++ ", ".intercalate names ++ ". Valid: " ++
      ", ".intercalate builtinDialectNames))

/-- The registry of the dialects that are enabled. -/
def createRegistry (s : DialectSettings) : Answer DialectRegistry :=
  DialectRegistry.withDefaults s.enabled

end DialectSettings

/-- What is wrong with the settings, if anything. -/
def PipelineSettings.problem? (s : PipelineSettings) : Option String :=
  if s.workers < 1 then some "Workers must be >= 1" else none

namespace DisplaySettings

/-- The choices of symbols. -/
def symbolChoices : List String := ["unicode", "ascii", "auto"]

/-- The choices of formats. -/
def formatChoices : List String := ["auto", "table", "json"]

/-- What is wrong with the settings, if anything. -/
def problem? (s : DisplaySettings) : Answer (Option String) := do
  if !Value.memberOf (textValues symbolChoices) s.symbols then
    pure (some ("Unknown symbols setting '" ++ (← s.symbols.display?) ++ "'. Valid: " ++
      ", ".intercalate symbolChoices))
  else if !Value.memberOf (textValues formatChoices) s.format then
    pure (some ("Unknown format '" ++ (← s.format.display?) ++ "'. Valid: " ++
      ", ".intercalate formatChoices))
  else pure none

end DisplaySettings

namespace LoggingSettings

/-- The names of the levels. -/
def levelNames : List String := LogLevel.all.map LogLevel.label

/-- What is wrong with the settings, if anything. -/
def problem? (s : LoggingSettings) : Answer (Option String) :=
  let unknown := some ("Unknown log level '" ++ s.level.display ++ "'. Valid: " ++
    ", ".intercalate levelNames)
  match s.level with
  | .text level => .ok (if levelNames.contains (Text.upper level) then none else unknown)
  | .bytes _ => .ok unknown
  | _ => .error .noAttribute

end LoggingSettings

namespace Settings

/-- The problem of each section, in order. -/
def problems (s : Settings) : List (Answer (Option String)) :=
  [s.resolver.problem?, s.dialects.problem?, .ok s.pipeline.problem?, s.display.problem?,
    s.logging.problem?]

/-- The first problem that is there. -/
def firstProblem : List (Answer (Option String)) → Answer (Option String)
  | [] => .ok none
  | p :: ps => do
    match ← p with
    | some text => pure (some text)
    | none => firstProblem ps

/-- What is wrong with the settings, if anything. -/
def problem? (s : Settings) : Answer (Option String) := firstProblem s.problems

/-! ### As a mapping -/

/-- A section as a mapping. -/
def sectionValue (es : List (String × Value)) : Value := .dict (es.map fun e => (.text e.1, e.2))

/-- The settings as a mapping of mappings. -/
def toValue (s : Settings) : Value :=
  sectionValue [
    ("resolver", sectionValue [
      ("base_package", s.resolver.basePackage),
      ("builtin_types", .list s.resolver.builtinTypes),
      ("package_separator", s.resolver.packageSeparator),
      ("wildcard_marker", s.resolver.wildcardMarker)]),
    ("dialects", sectionValue [("enabled", .list s.dialects.enabled)]),
    ("pipeline", sectionValue [
      ("workers", .int s.pipeline.workers),
      ("publish_to_metadata", .bool s.pipeline.publishToMetadata)]),
    ("display", sectionValue [
      ("symbols", s.display.symbols),
      ("format", s.display.format)]),
    ("logging", sectionValue [("level", s.logging.level)])]

/-- A value under a key of a mapping, or a default. -/
def getOr (v : Value) (key : String) (default : Value) : Answer Value := do
  let es ← v.mapping?
  pure ((Value.field? es key).getD default)

/-- The integer that a value can be turned into. -/
def toInt? : Value → Answer Int
  | .bool b => .ok b.toInt
  | .int n => .ok n
  | .float (.nan _) => .error .badValue
  | .float (.inf _) => .error .overflow
  | .float x => .ok (x.truncate?.getD 0)
  | .text s => match Text.integer? s with
    | some n => .ok n
    | none => .error .badValue
  | .bytes bs =>
    match Text.integer? (String.ofList (bs.map fun b => Char.ofNat b.toNat)) with
    | some n => if bs.all (· < 128) then .ok n else .error .badValue
    | none => .error .badValue
  | _ => .error .illTyped

/-- The settings that a mapping of mappings describes. -/
def ofValue? (data : Value) : Answer Settings := do
  let empty := Value.dict []
  let resolver ← getOr data "resolver" empty
  let dialects ← getOr data "dialects" empty
  let pipeline ← getOr data "pipeline" empty
  let display ← getOr data "display" empty
  let logging ← getOr data "logging" empty
  let d : Settings := {}
  let basePackage ← getOr resolver "base_package" d.resolver.basePackage
  let builtinTypes ← (← getOr resolver "builtin_types" (.list d.resolver.builtinTypes)).items?
  let packageSeparator ← getOr resolver "package_separator" d.resolver.packageSeparator
  let wildcardMarker ← getOr resolver "wildcard_marker" d.resolver.wildcardMarker
  let enabled ← (← getOr dialects "enabled" (.list d.dialects.enabled)).items?
  let workers ← toInt? (← getOr pipeline "workers" (.int d.pipeline.workers))
  let publish ← getOr pipeline "publish_to_metadata" (.bool d.pipeline.publishToMetadata)
  let symbols ← getOr display "symbols" d.display.symbols
  let format ← getOr display "format" d.display.format
  let level ← getOr logging "level" d.logging.level
  pure {
    resolver := { basePackage, builtinTypes, packageSeparator, wildcardMarker }
    dialects := { enabled }
    pipeline := { workers, publishToMetadata := publish.truthy }
    display := { symbols, format }
    logging := { level } }

/-- Whether settings survive being turned into a mapping and back. -/
def roundTrips (s : Settings) : Answer Bool := do
  let t ← ofValue? s.toValue
  pure (t.toValue.same s.toValue)

end Settings
end Concordance
