import Concordance.Settings
import Concordance.Text.Search

/-!
The settings that have a name.

* `SettingsSection`, `SettingKey` : the five sections and the ten settings in them, with their
  names.
* `SettingKey.parse?` : the value that a text stands for, by the kind of the setting.
* `SettingKey.get`, `SettingKey.put` : the value of one setting among all.
* `SettingKey.shown?` : the value as a text for people; parsing it again gives the value back.
-/

namespace Concordance

/-- The sections of the settings. -/
inductive SettingsSection where
  | resolver
  | dialects
  | pipeline
  | display
  | logging
  deriving DecidableEq, Repr, Inhabited

/-- The name of a section. -/
def SettingsSection.label : SettingsSection → String
  | resolver => "resolver"
  | dialects => "dialects"
  | pipeline => "pipeline"
  | display => "display"
  | logging => "logging"

/-- What is wrong with one section, if anything. -/
def Settings.problemIn (s : Settings) : SettingsSection → Answer (Option String)
  | .resolver => s.resolver.problem?
  | .dialects => s.dialects.problem?
  | .pipeline => .ok s.pipeline.problem?
  | .display => s.display.problem?
  | .logging => s.logging.problem?

/-- The settings that have a name. -/
inductive SettingKey where
  | basePackage
  | packageSeparator
  | wildcardMarker
  | builtinTypes
  | enabledDialects
  | workers
  | publishToMetadata
  | symbols
  | format
  | level
  deriving DecidableEq, Repr, Inhabited

namespace SettingKey

/-- All settings, section by section. -/
def all : List SettingKey := [basePackage, packageSeparator, wildcardMarker, builtinTypes,
  enabledDialects, workers, publishToMetadata, symbols, format, level]

/-- The section a setting is in. -/
def home : SettingKey → SettingsSection
  | basePackage | packageSeparator | wildcardMarker | builtinTypes => .resolver
  | enabledDialects => .dialects
  | workers | publishToMetadata => .pipeline
  | symbols | format => .display
  | level => .logging

/-- The name of a setting inside its section. -/
def label : SettingKey → String
  | basePackage => "base_package"
  | packageSeparator => "package_separator"
  | wildcardMarker => "wildcard_marker"
  | builtinTypes => "builtin_types"
  | enabledDialects => "enabled"
  | workers => "workers"
  | publishToMetadata => "publish_to_metadata"
  | symbols => "symbols"
  | format => "format"
  | level => "level"

/-- The full name of a setting. -/
def name (k : SettingKey) : String := k.home.label ++ "." ++ k.label

/-- The setting with a full name. -/
def ofName? (s : String) : Option SettingKey := all.find? (·.name == s)

/-! ### Values as texts -/

/-- The pieces between commas, without the blanks around them and without the empty ones. -/
def listOf (s : String) : List String :=
  ((Text.pieces (· == ',') s.toList).map fun cs => String.ofList (Text.stripChars cs)).filter
    (· != "")

/-- The words that switch something on, in any case. -/
def onWords : List String := ["true", "1", "yes", "on"]

/-- The value that a text stands for; none if it stands for no value of the setting. -/
def parse? : SettingKey → String → Option Value
  | basePackage, s | packageSeparator, s | wildcardMarker, s | symbols, s | format, s =>
    some (.text s)
  | builtinTypes, s | enabledDialects, s => some (.list (textValues (listOf s)))
  | workers, s => (Text.integer? s).map .int
  | publishToMetadata, s => some (.bool (onWords.contains (Text.lower s)))
  | level, s => some (.text (Text.upper s))

/-! ### One among all -/

/-- The value of a setting. -/
def get (s : Settings) : SettingKey → Value
  | basePackage => s.resolver.basePackage
  | packageSeparator => s.resolver.packageSeparator
  | wildcardMarker => s.resolver.wildcardMarker
  | builtinTypes => .list s.resolver.builtinTypes
  | enabledDialects => .list s.dialects.enabled
  | workers => .int s.pipeline.workers
  | publishToMetadata => .bool s.pipeline.publishToMetadata
  | symbols => s.display.symbols
  | format => s.display.format
  | level => s.logging.level

/-- The settings with another value of one; a list, an integer or a truth value is asked for where
the setting has one, and any other value leaves it. -/
def put (s : Settings) (v : Value) : SettingKey → Settings
  | basePackage => { s with resolver := { s.resolver with basePackage := v } }
  | packageSeparator => { s with resolver := { s.resolver with packageSeparator := v } }
  | wildcardMarker => { s with resolver := { s.resolver with wildcardMarker := v } }
  | builtinTypes => match v with
    | .list xs _ => { s with resolver := { s.resolver with builtinTypes := xs } }
    | _ => s
  | enabledDialects => match v with
    | .list xs _ => { s with dialects := { enabled := xs } }
    | _ => s
  | workers => match v with
    | .int n => { s with pipeline := { s.pipeline with workers := n } }
    | _ => s
  | publishToMetadata => match v with
    | .bool b => { s with pipeline := { s.pipeline with publishToMetadata := b } }
    | _ => s
  | symbols => { s with display := { s.display with symbols := v } }
  | format => { s with display := { s.display with format := v } }
  | level => { s with logging := { level := v } }

/-- A value as a text for people: the members of a list, which have to be texts, joined by commas;
a truth value in small letters. -/
def textOf? : Value → Answer String
  | .list xs _ => return ", ".intercalate (← Value.texts? xs)
  | .bool b => .ok (if b then "true" else "false")
  | v => v.display?

/-- The value of a setting as a text for people. -/
def shown? (k : SettingKey) (s : Settings) : Answer String := textOf? (k.get s)

end SettingKey
end Concordance
