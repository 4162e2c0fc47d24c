import Concordance.Fault
import Concordance.Text.Quoted

/-!
A tree of files, as far as a run can see it from its working directory.

* `Path` : the steps from the working directory, or from the root; `Path.ofText` drops empty steps
  and single dots. A path that begins with exactly two slashes keeps both.
* `FileTree` : files with their bytes, and directories; a directory is also there if something is
  in it.
* `FileTree.read`, `FileTree.write`, `FileTree.makeDirectories` : as a file system answers, with the
  failure where it refuses.
* `decodeText` : bytes as a text, with every line break in normal form.
-/

namespace Concordance

/-- The steps of a path; an absolute path begins with an empty step, or with a slash if it is
written with two. -/
structure Path where
  steps : List String
  deriving DecidableEq, Repr, Inhabited

namespace Path

/-- The step that an absolute path begins with. -/
def root? : List Char → Option String
  | ['/', '/'] => some "/"
  | '/' :: '/' :: c :: _ => some (if c == '/' then "" else "/")
  | '/' :: _ => some ""
  | _ => none

/-- The path that a text writes. -/
def ofText (s : String) : Path :=
  let steps := (s.splitOn "/").filter fun p => p != "" && p != "."
  ⟨(root? s.toList).toList ++ steps⟩

/-- The written form of a path. -/
def text (p : Path) : String :=
  match p.steps with
  | [] => "."
  | [""] => "/"
  | ["/"] => "//"
  | steps => "/".intercalate steps

/-- The path starts from the root. -/
def isAbsolute (p : Path) : Bool := p.steps.head?.any fun s => s == "" || s == "/"

/-- The path of something inside a directory; an absolute path stands for itself. -/
def join (p q : Path) : Path := if q.isAbsolute then q else ⟨p.steps ++ q.steps⟩

/-- The directory something is in. -/
def parent (p : Path) : Path := ⟨p.steps.dropLast⟩

/-- The last step. -/
def name (p : Path) : String := p.steps.getLastD ""

/-- The characters from the last point on, in reverse order. -/
def fromPoint : List Char → List Char → Option (List Char)
  | _, [] => none
  | seen, c :: cs => if c == '.' then (if cs.isEmpty then none else some ('.' :: seen))
    else fromPoint (c :: seen) cs

/-- The ending of a file name: from its last point on, which is neither its first nor its last
character. -/
def ending (p : Path) : String :=
  match fromPoint [] p.name.toList.reverse with
  | some (c :: d :: cs) => String.ofList (c :: d :: cs)
  | _ => ""

end Path

/-- What stands at a path. -/
inductive FileEntry where
  | file (bytes : List UInt8)
  | directory
  deriving DecidableEq, Repr, Inhabited

/-- Files and directories by their paths, and the directory that other paths start from. -/
structure FileTree where
  entries : List (Path × FileEntry) := []
  workingDir : Path := ⟨[]⟩
  deriving DecidableEq, Repr, Inhabited

namespace FileTree

/-- What was put at a path, the last one if there are several. -/
def entry? (t : FileTree) (steps : List String) : Option FileEntry :=
  match t.entries.find? fun e => e.1.steps == steps with
  | some (_, e) => some e
  | none =>
    if steps.isPrefixOf t.workingDir.steps || t.entries.any fun e => steps.isPrefixOf e.1.steps then
      some .directory
    else none

/-- The directory around another; the root is in itself. -/
def above (steps : List String) : List String := if steps == [""] then steps else steps.dropLast

/-- The most bytes that the name of a file may have. -/
def nameLimit : Nat := 255

/-- The most bytes that a path may have. -/
def pathLimit : Nat := 4095

/-- Why a path can be none, whatever the tree. -/
def refusal? (p : Path) : Option FileFailure :=
  if p.text.toList.contains '\x00' then some .noPath
  else if pathLimit < p.text.utf8ByteSize then some .nameTooLong
  else none

/-- The place that further steps from a directory lead to. -/
def walk (t : FileTree) (here : List String) : List String → Except FileFailure (List String)
  | [] => .ok here
  | ".." :: steps => walk t (above here) steps
  | s :: steps =>
    let there := here ++ [s]
    if nameLimit < s.utf8ByteSize then .error .nameTooLong
    else match t.entry? there, steps with
    | _, [] => .ok there
    | some .directory, steps => walk t there steps
    | some (.file _), _ => .error .notDirectory
    | none, _ => .error .missing

/-- The place where a path starts, and the steps from there. -/
def start (t : FileTree) (p : Path) : List String × List String :=
  if p.isAbsolute then ([""], p.steps.drop 1) else (t.workingDir.steps, p.steps)

/-- The place of a path. -/
def place (t : FileTree) (p : Path) : Except FileFailure (List String) :=
  match refusal? p with
  | some why => .error why
  | none => t.walk (t.start p).1 (t.start p).2

/-- What stands at a path. -/
def look (t : FileTree) (p : Path) : Except FileFailure FileEntry := do
  let steps ← t.place p
  match t.entry? steps with
  | some e => pure e
  | none => throw .missing

/-- Whether something stands at a path; a name that is too long is a failure of its own. -/
def contains? (t : FileTree) (p : Path) : Except FileFailure Bool :=
  match t.look p with
  | .ok _ => .ok true
  | .error .nameTooLong => .error .nameTooLong
  | .error _ => .ok false

/-- The bytes of a file. -/
def read (t : FileTree) (p : Path) : Except FileFailure (List UInt8) := do
  match ← t.look p with
  | .file bytes => pure bytes
  | .directory => throw .isDirectory

/-- The tree with something at a path. -/
def put (t : FileTree) (steps : List String) (e : FileEntry) : FileTree :=
  { t with entries := t.entries.filter (fun f => f.1.steps != steps) ++ [(⟨steps⟩, e)] }

/-- The tree with all directories down to a path. -/
def makeFrom (t : FileTree) (here : List String) : List String → Except FileFailure FileTree
  | [] => .ok t
  | ".." :: steps => makeFrom t (above here) steps
  | s :: steps =>
    let there := here ++ [s]
    if nameLimit < s.utf8ByteSize then .error .nameTooLong
    else match t.entry? there with
    | some .directory => makeFrom t there steps
    | some (.file _) => .error (if steps.isEmpty then .exists else .notDirectory)
    | none => makeFrom (t.put there .directory) there steps

/-- The tree with all directories down to a path. -/
def makeDirectories (t : FileTree) (p : Path) : Except FileFailure FileTree :=
  match refusal? p with
  | some why => .error why
  | none => makeFrom t (t.start p).1 (t.start p).2

/-- The tree with the bytes of a file. -/
def write (t : FileTree) (p : Path) (bytes : List UInt8) : Except FileFailure FileTree := do
  let steps ← t.place p
  match t.entry? steps with
  | some .directory => throw .isDirectory
  | _ => pure (t.put steps (.file bytes))

end FileTree

/-- The characters with every line break as a line feed. -/
def normalBreaks : List Char → List Char
  | '\r' :: '\n' :: cs => '\n' :: normalBreaks cs
  | '\r' :: cs => '\n' :: normalBreaks cs
  | c :: cs => c :: normalBreaks cs
  | [] => []

/-- Bytes as a text; none if they are not one. -/
def decodeText (bytes : List UInt8) : Option String :=
  (String.fromUTF8? ⟨bytes.toArray⟩).map fun s => String.ofList (normalBreaks s.toList)

end Concordance
