import Concordance.CommandLine.Grammar

/-!
What a command line asks for.

* `Command` : the commands, with their arguments.
* `Request.parse` : the command that arguments ask for, with the settings of the whole run; or that
  they ask for help, for the version, or make no sense.
-/

namespace Concordance

/-- The commands. -/
inductive Command where
  /-- Shows the references in descriptors. -/
  | index (files : List String) (format : Option String)
  /-- Shows which processes a change of a name would affect. -/
  | impact (name : String) (files : List String) (format : Option String)
  /-- Shows the settings, or changes one. -/
  | config (assignment : Option String) (user : Bool)
  deriving DecidableEq, Repr, Inhabited

/-- A sensible command line. -/
structure Request where
  project : String
  verbose : Bool
  /-- No command asks for the usage. -/
  command : Option Command
  deriving DecidableEq, Repr, Inhabited

namespace Command

/-- The names of the commands. -/
def names : List String := ["index", "impact", "config"]

/-- The name of a command. -/
def name : Command → String
  | index .. => "index"
  | impact .. => "impact"
  | config .. => "config"

/-- The files that a command is given. -/
def files : Command → List String
  | index files _ => files
  | impact _ files _ => files
  | config .. => []

/-- The option that asks for help. -/
def helpOption : OptionSpec := ⟨"help", ["-h", "--help"], .help⟩

/-- The formats that can be asked for. -/
def formats : List String := ["auto", "table", "json"]

/-- The option that chooses the format. -/
def formatOption : OptionSpec := ⟨"format", ["--format", "-f"], .choice formats⟩

/-- The arguments of a command. -/
def grammar? : String → Option Grammar
  | "index" => some { options := [helpOption, formatOption], slots := [.many "files"] }
  | "impact" =>
    some { options := [helpOption, formatOption], slots := [.one "name", .many "files"] }
  | "config" =>
    some { options := [helpOption, ⟨"set", ["--set"], .value⟩, ⟨"user", ["--user"], .flag⟩],
           slots := [] }
  | _ => none

/-- The format that was asked for; `auto` asks for none. -/
def formatOf (p : Parsed) : Option String := (p.text? "format").filter (· != "auto")

/-- The command with a name and arguments. -/
def ofParsed? (name : String) (p : Parsed) : Option Command :=
  match name with
  | "index" => some (.index (p.texts "files") (formatOf p))
  | "impact" => some (.impact ((p.text? "name").getD "") (p.texts "files") (formatOf p))
  | "config" => some (.config (p.text? "set") (p.has "user"))
  | _ => none

/-- The command that a name and the arguments after it ask for, with the arguments that found no
place. -/
def parse : List String → Except Stop (Command × List String)
  | [] => .error .misuse
  | name :: args =>
    match grammar? name with
    | none => .error .misuse
    | some g => do
      let p ← g.parse args
      match ofParsed? name p with
      | none => throw .misuse
      | some c => pure (c, p.extras)

end Command

namespace Request

/-- The arguments before the command. -/
def grammar : Grammar where
  options := [Command.helpOption, ⟨"project", ["--project", "-p"], .value⟩,
    ⟨"verbose", ["--verbose", "-v"], .flag⟩, ⟨"version", ["--version", "-V"], .version⟩]
  slots := [.rest "command"]
  complete := false

/-- What arguments ask for; `home` is the project if they name none. -/
def parse (home : String) (args : List String) : Except Stop Request := do
  let p ← grammar.parse args
  let (command, extras) ←
    match p.find? "command" with
    | none => pure (none, [])
    | some args => do
      let (c, extras) ← Command.parse args
      pure (some c, extras)
  if (p.extras ++ extras).isEmpty then
    pure { project := (p.text? "project").getD home, verbose := p.has "verbose", command }
  else throw .misuse

end Request
end Concordance
