import Concordance.Text.Blank
import Concordance.Text.Search

/-!
Options and arguments of a command line.

* `Grammar` : the options a command takes and the slots its other arguments fill.
* `Grammar.classify` : each argument as an option, an ordinary argument, or the mark `--` behind
  which no argument is an option. A long option may be cut short as long as only one fits, and may
  hold its value behind `=`; a short one may hold its value or further short ones, directly or
  behind `=`.
* `Grammar.cluster` : the options in a short option and the letters attached to it.
* `Grammar.parse` : the values that arguments give to the options and slots, with the arguments that
  found no place; or the reason to stop.
-/

namespace Concordance

/-- Why the reading of a command line stops. -/
inductive Stop where
  | help
  | version
  | misuse
  deriving DecidableEq, Repr, Inhabited

/-- What an option does. -/
inductive OptionKind where
  | help
  | version
  | flag
  /-- Takes one argument. -/
  | value
  /-- Takes one argument, one of a list. -/
  | choice (choices : List String)
  deriving DecidableEq, Repr, Inhabited

/-- An option: the name of its value, its spellings, and what it does. -/
structure OptionSpec where
  key : String
  names : List String
  kind : OptionKind
  deriving DecidableEq, Repr, Inhabited

/-- A place for ordinary arguments. -/
inductive Slot where
  | one (key : String)
  /-- One or more arguments. -/
  | many (key : String)
  /-- One argument and everything after it, options too. -/
  | rest (key : String)
  deriving DecidableEq, Repr, Inhabited

/-- The name of the value of a slot. -/
def Slot.key : Slot → String
  | one key => key
  | many key => key
  | rest key => key

/-- The options a command takes and the slots its other arguments fill. -/
structure Grammar where
  options : List OptionSpec
  slots : List Slot
  /-- Every slot has to be filled. -/
  complete : Bool := true
  deriving DecidableEq, Repr, Inhabited

/-- What an argument holds behind the name of an option. -/
inductive Attachment where
  | nothing
  /-- The text behind the `=` of a long option. -/
  | value (text : String)
  /-- The letters attached to a short option. -/
  | tail (letters : List Char)
  deriving DecidableEq, Repr, Inhabited

/-- An argument by its role. -/
inductive Argument where
  | ordinary (text : String)
  /-- The mark behind which no argument is an option. -/
  | mark
  /-- An option as it was given, and what is attached to it. -/
  | option (text : String) (spec : OptionSpec) (attached : Attachment)
  /-- An option that the grammar does not know. -/
  | unknown (text : String)
  deriving DecidableEq, Repr, Inhabited

/-- The argument as it was given. -/
def Argument.text : Argument → String
  | ordinary s => s
  | mark => "--"
  | option s .. => s
  | unknown s => s

/-- Whether an argument takes part as an option. -/
def Argument.isOption : Argument → Bool
  | option .. | unknown _ => true
  | _ => false

/-! ### Roles of arguments -/

namespace Grammar

/-- The option with a spelling. -/
def find? (g : Grammar) (name : String) : Option OptionSpec :=
  g.options.find? fun o => o.names.contains name

/-- Whether an argument begins like a long option. -/
def isLong (s : String) : Bool := s.startsWith "--"

/-- The part of a text before the first `=`, and what is behind it. -/
def splitValue (s : String) : String × Attachment :=
  match Text.splitFirst? (· == '=') s.toList with
  | some (a, b) => (String.ofList a, if isLong s then .value (String.ofList b) else .tail b)
  | none => (s, .nothing)

/-- The option that an argument spells out, alone or before the first `=`. -/
def spelled? (g : Grammar) (s : String) : Option Argument :=
  match g.find? s with
  | some o => some (.option s o .nothing)
  | none =>
    let (name, attached) := splitValue s
    (g.find? name).map fun o => .option s o attached

/-- The options that an argument of two hyphens is short for. -/
def longMatches (g : Grammar) (s : String) : List Argument :=
  let (name, attached) := splitValue s
  g.options.flatMap fun o => (o.names.filter (·.startsWith name)).map fun _ => .option s o attached

/-- The option that an argument of one hyphen begins with. -/
def shortMatches (g : Grammar) (s : String) : List Argument :=
  ((g.find? (String.ofList (s.toList.take 2))).map fun o =>
    Argument.option s o (.tail (s.toList.drop 2))).toList

/-- Digits, and a point among them. -/
def isDecimal (cs : List Char) : Bool :=
  let isDigit (c : Char) : Bool := (Text.digit? c).isSome
  match Text.splitFirst? (· == '.') cs with
  | none => !cs.isEmpty && cs.all isDigit
  | some (whole, frac) => whole.all isDigit && !frac.isEmpty && frac.all isDigit

/-- The characters without a line feed at their end. -/
def withoutFeed (cs : List Char) : List Char :=
  if cs.getLast? == some '\n' then cs.dropLast else cs

/-- Whether an argument that begins with a hyphen is an ordinary one after all: a negative number,
which a line feed may follow, or a text with a blank. -/
def isOrdinary (s : String) : Bool :=
  isDecimal (withoutFeed (s.toList.drop 1)) || s.toList.contains ' '

/-- The role of an argument. -/
def roleOf (g : Grammar) (s : String) : Except Stop Argument :=
  if !s.startsWith "-" || s == "-" then .ok (.ordinary s)
  else
    match g.spelled? s with
    | some a => .ok a
    | none =>
      match if isLong s then g.longMatches s else g.shortMatches s with
      | [a] => .ok a
      | [] => .ok (if isOrdinary s then .ordinary s else .unknown s)
      | _ => .error .misuse

/-- The roles of arguments. -/
def classify (g : Grammar) : List String → Except Stop (List Argument)
  | [] => .ok []
  | s :: ss =>
    if s == "--" then .ok (.mark :: ss.map .ordinary)
    else do
      let a ← g.roleOf s
      let rest ← classify g ss
      pure (a :: rest)

end Grammar

/-! ### Values -/

/-- The values that arguments gave, and the arguments that found no place. -/
structure Parsed where
  values : List (String × List String) := []
  extras : List String := []
  deriving DecidableEq, Repr, Inhabited

namespace Parsed

/-- The last value under a key. -/
def find? (p : Parsed) (key : String) : Option (List String) :=
  (p.values.reverse.find? (·.1 == key)).map (·.2)

/-- The last text under a key. -/
def text? (p : Parsed) (key : String) : Option String := (p.find? key).bind (·.head?)

/-- The last texts under a key. -/
def texts (p : Parsed) (key : String) : List String := (p.find? key).getD []

/-- Whether there is a value under a key. -/
def has (p : Parsed) (key : String) : Bool := (p.find? key).isSome

/-- With one more value. -/
def add (p : Parsed) (key : String) (texts : List String) : Parsed :=
  { p with values := p.values ++ [(key, texts)] }

/-- With more arguments that found no place. -/
def leave (p : Parsed) (as : List Argument) : Parsed :=
  { p with extras := p.extras ++ as.map Argument.text }

end Parsed

/-- The values after an option that takes no argument. -/
def OptionSpec.raise (o : OptionSpec) (p : Parsed) : Except Stop Parsed :=
  match o.kind with
  | .help => .error .help
  | .version => .error .version
  | _ => .ok (p.add o.key [])

/-- The values after an option with its argument. -/
def OptionSpec.take (o : OptionSpec) (p : Parsed) (value : String) : Except Stop Parsed :=
  match o.kind with
  | .choice choices =>
    if choices.contains value then .ok (p.add o.key [value]) else .error .misuse
  | _ => .ok (p.add o.key [value])

/-- Whether an option takes an argument. -/
def OptionSpec.takesValue (o : OptionSpec) : Bool :=
  match o.kind with
  | .value | .choice _ => true
  | _ => false

namespace Grammar

/-- The options in an argument: some without an argument, and an end. -/
structure Cluster where
  flags : List OptionSpec := []
  /-- An option that takes an argument, with the argument if it is attached. -/
  last : Option (OptionSpec × Option String) := none
  deriving DecidableEq, Repr, Inhabited

/-- With one more option in front. -/
def Cluster.behind (o : OptionSpec) (c : Cluster) : Cluster := { c with flags := o :: c.flags }

/-- An option with nothing attached. -/
def Cluster.alone (o : OptionSpec) : Cluster :=
  if o.takesValue then { last := some (o, none) } else { flags := [o] }

/-- The options in a short option and the letters attached to it. They are its argument if it takes
one; if not, the first of them is a short option again, to which the others are attached. -/
def cluster (g : Grammar) (o : OptionSpec) (letters : List Char) : Except Stop Cluster :=
  if o.takesValue then .ok { last := some (o, some (String.ofList letters)) }
  else
    match letters with
    | [] => .error .misuse
    | c :: cs =>
      match g.find? (String.ofList ['-', c]) with
      | none => .error .misuse
      | some next =>
        if cs.isEmpty then .ok (Cluster.behind o (.alone next))
        else (g.cluster next cs).map (.behind o)

/-- The options in an option and what is attached to it. -/
def unfold (g : Grammar) (o : OptionSpec) : Attachment → Except Stop Cluster
  | .nothing => .ok (.alone o)
  | .value v => if o.takesValue then .ok { last := some (o, some v) } else .error .misuse
  | .tail letters => g.cluster o letters

/-- What the options in an argument and the arguments after it give, and the arguments that are
left. -/
def Cluster.use (c : Cluster) (p : Parsed) (rest : List Argument) :
    Except Stop (Parsed × List Argument) := do
  let raised := c.flags.foldlM (fun p o => o.raise p) p
  match c.last, rest with
  | none, _ => pure (← raised, rest)
  | some (o, some v), _ => pure (← o.take (← raised) v, rest)
  | some (o, none), .ordinary v :: rest => pure (← o.take (← raised) v, rest)
  | some (_, none), _ => throw .misuse

/-- The arguments from the first that is not the mark. -/
def passMarks (as : List Argument) : List Argument := as.dropWhile (· == .mark)

/-- The texts of arguments, without the first `--` among them. -/
def textsOf (as : List Argument) : List String := (as.map Argument.text).erase "--"

/-- The arguments that a slot takes, and those that are left; none if the slot finds no argument. -/
def fillSlot? (slot : Slot) (as : List Argument) : Option (List String × List Argument) :=
  match passMarks as with
  | .ordinary s :: rest =>
    match slot with
    | .one _ => some ([s], passMarks rest)
    | .many _ =>
      let isMore (a : Argument) : Bool := !a.isOption
      some (textsOf (as.takeWhile isMore), as.dropWhile isMore)
    | .rest _ => some (as.map Argument.text, [])
  | _ => none

/-- Fills slots as far as the arguments ahead go. -/
def fill (p : Parsed) : List Slot → List Argument → Parsed × List Slot × List Argument
  | [], as => (p, [], as)
  | slot :: slots, as =>
    match fillSlot? slot as with
    | some (texts, rest) => fill (p.add slot.key texts) slots rest
    | none => (p, slot :: slots, as)

/-- The end of a command line: every slot has to be filled if the grammar says so. -/
def finish (g : Grammar) (p : Parsed) (slots : List Slot) : Except Stop Parsed :=
  if g.complete && !slots.isEmpty then .error .misuse else .ok p

/-- Goes through the arguments. The fuel bounds their number. -/
def walk (g : Grammar) : Nat → Parsed → List Slot → List Argument → Except Stop Parsed
  | 0, p, slots, as => g.finish (p.leave as) slots
  | fuel + 1, p, slots, as =>
    if !as.any Argument.isOption then
      let (p, slots, rest) := fill p slots as
      g.finish (p.leave rest) slots
    else
      match as with
      | [] => g.finish p slots
      | .option _ o attached :: rest => do
        let (p, rest) ← (← g.unfold o attached).use p rest
        walk g fuel p slots rest
      | .unknown s :: rest => walk g fuel (p.leave [.unknown s]) slots rest
      | as =>
        let (q, others, rest) := fill p slots as
        if rest.length < as.length then walk g fuel q others rest
        else
          walk g fuel (q.leave (as.takeWhile (!·.isOption))) others
            (as.dropWhile (!·.isOption))

/-- The values that arguments give, or the reason to stop. -/
def parse (g : Grammar) (args : List String) : Except Stop Parsed := do
  let as ← g.classify args
  g.walk (as.length + 1) {} g.slots as

end Grammar
end Concordance
