import Concordance.Fault

/-!
The log of a run, and the steps that write it.

* `LogLine` : a level, the part of the program that speaks, and a message.
* `Step σ` : a step on a state `σ`. It answers or fails, and in both cases leaves a state and the
  lines it logged: a failing step keeps what it had done.
-/

namespace Concordance

/-- The levels of importance, least first. -/
inductive LogLevel where
  | debug
  | info
  | warning
  | error
  | critical
  deriving DecidableEq, Repr, Inhabited

namespace LogLevel

/-- All levels, least first. -/
def all : List LogLevel := [debug, info, warning, error, critical]

/-- The name of a level. -/
def label : LogLevel → String
  | debug => "DEBUG"
  | info => "INFO"
  | warning => "WARNING"
  | error => "ERROR"
  | critical => "CRITICAL"

/-- The level with a name. -/
def ofLabel? (s : String) : Option LogLevel := all.find? (·.label == s)

/-- The place of a level in their order. -/
def rank : LogLevel → Nat
  | debug => 0
  | info => 1
  | warning => 2
  | error => 3
  | critical => 4

end LogLevel

/-- One line of a log. -/
structure LogLine where
  level : LogLevel
  speaker : String
  message : String
  deriving DecidableEq, Repr, Inhabited

/-- The written form of a line. -/
def LogLine.text (l : LogLine) : String := l.level.label ++ " " ++ l.speaker ++ ": " ++ l.message

/-- A step on a state: it answers or fails, and leaves a state and the lines it logged. -/
abbrev Step (σ : Type) := ExceptT Fault (StateT σ (StateM (List LogLine)))

namespace Step

variable {σ : Type}

/-- Logs one line. -/
def log (line : LogLine) : Step σ Unit :=
  ExceptT.lift (StateT.lift (fun lines => ((), lines ++ [line])))

/-- Fails or goes on with an answer. -/
def ofAnswer {α : Type} (a : Answer α) : Step σ α := ExceptT.mk (pure a)

/-- What a step leaves: its answer, the state, and the lines it logged. -/
def run {α : Type} (step : Step σ α) (s : σ) : Answer α × σ × List LogLine :=
  let ((a, s), lines) := (ExceptT.run step s).run []
  (a, s, lines)

/-- A step on a part of a state. -/
def focus {τ α : Type} (get : σ → τ) (put : τ → σ → σ) (step : Step τ α) : Step σ α :=
  ExceptT.mk fun s lines =>
    let ((a, t), lines) := (ExceptT.run step (get s)).run lines
    ((a, put t s), lines)

end Step
end Concordance
