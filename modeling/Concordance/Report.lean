import Concordance.Json.Writer
import Concordance.Report.Table
import Concordance.Value.Access

/-!
Reports: what a command has to show, and its two forms.

* `Report` : the data, with a title, the headers and keys of the columns, and what to say when there
  is nothing.
* `Report.table?` : the rows of a report as a table with borders, under the title and above the
  summary. Rows are mappings; a report without headers takes them from the keys of the first row.
* `Report.json?` : the data of a report as JSON, without the entries whose key begins with an
  underscore.
* `Report.render?` : one of the two, by the name of a format.
-/

namespace Concordance

/-- What a command has to show. -/
structure Report where
  data : Value
  /-- The form that suits the data. -/
  shape : Value := .text "auto"
  title : Value := .null
  columns : Value := .null
  columnKeys : Value := .null
  emptyMessage : Value := .text "No references."
  deriving Inhabited

/-- The forms of a report. -/
inductive ReportFormat where
  | table
  | json
  deriving DecidableEq, Repr, Inhabited

namespace ReportFormat

/-- All forms. -/
def all : List ReportFormat := [table, json]

/-- The name of a form. -/
def label : ReportFormat → String
  | table => "table"
  | json => "json"

/-- The form with a name. -/
def ofLabel? (s : String) : Option ReportFormat := all.find? (·.label == s)

/-- The form with a name, which there has to be. -/
def named? (s : String) : Answer ReportFormat :=
  match ofLabel? s with
  | some f => .ok f
  | none => .error (.unknownFormat s (all.map label))

/-- The form with a name; `auto` means the shape of the report if that names a form, and else the
table. -/
def choose? (format : String) (shape : Value) : Answer ReportFormat :=
  if format == "auto" then
    if !shape.hashable then .error .illTyped
    else .ok ((shape.text?.bind ofLabel?).getD table)
  else named? format

end ReportFormat

/-- The text of a cell. -/
def Value.cellText : Value → String
  | null => ""
  | bool b => if b then "Yes" else "No"
  | partType t => t.label
  | resourceType t => t.label
  | v => v.display

/-- The text of a cell, unless it holds an integer that is too long to be written. -/
def Value.cellText? (v : Value) : Answer String :=
  if v.spellableIn [] then .ok v.cellText else .error .badValue

namespace Report

/-! ### Rows and columns -/

/-- The rows and the summary in the data of a report. -/
def content (r : Report) : Value × Value :=
  match r.data with
  | .list xs _ => (.list xs, .null)
  | .dict es _ => (Value.field es "rows", Value.field es "summary")
  | _ => (.null, .null)

/-- What stands first among rows. -/
def firstRow? : Value → Answer Value
  | .list (x :: _) _ => .ok x
  | .tuple (x :: _) _ => .ok x
  | .text s => .ok (.text (String.ofList (s.toList.take 1)))
  | .bytes (b :: _) => .ok (.int b.toNat)
  | .dict es _ => match Value.lookup? es (.int 0) with
    | some v => .ok v
    | none => .error (.missingKey "0")
  | _ => .error .illTyped

/-- The keys of the first row. -/
def firstKeys? (rows : Value) : Answer (List Value) := do
  let es ← (← firstRow? rows).mapping?
  pure (es.map (·.1))

/-- The header that a key stands for: underscores are blanks, and every word has a capital. -/
def headerOf? : Value → Answer Value
  | .text s =>
    .ok (.text (Text.title (String.ofList (s.toList.map fun c => if c == '_' then ' ' else c))))
  | .bytes _ | .date .. | .moment .. => .error .illTyped
  | _ => .error .noAttribute

/-- The headers: those given, or those of the first row. -/
def headers? (r : Report) (rows : Value) : Answer Value := do
  if r.columns.truthy then pure r.columns
  else pure (.list (← (← firstKeys? rows).mapM headerOf?))

/-- The keys of the columns: those given, or those of the first row. -/
def keys? (r : Report) (rows : Value) : Answer Value := do
  if r.columnKeys.truthy then pure r.columnKeys else pure (.list (← firstKeys? rows))

/-- The cells of a row under some keys; a key that is missing gives an empty cell. -/
def cells? (keys : List Value) (row : Value) : Answer (List String) :=
  keys.mapM fun k => do (← row.get? k).cellText?

/-- The length that a header has to have. -/
def lengthOf? : Value → Answer Nat
  | .text s => .ok s.length
  | .bytes bs => .ok bs.length
  | .list xs _ | .tuple xs _ | .set _ xs _ => .ok xs.length
  | .dict es _ => .ok es.length
  | _ => .error .illTyped

/-- The text of a header in a column of a width: a text, or any empty collection. Another collection
fails as it is cut or, if it fits, as it is filled up with blanks; bytes can be filled up. -/
def headerText? (c : Canvas) (v : Value) (w : Nat) : Answer String := do
  match v with
  | .text s => pure s
  | v =>
    let length ← lengthOf? v
    if length = 0 then pure ""
    else if !c.full && w < length then throw .illTyped
    else match v with
      | .bytes _ => pure ""
      | _ => throw .noAttribute

/-- Bytes that are not empty, which cannot be joined with texts. -/
def isBytes : Value → Bool
  | .bytes bs => !bs.isEmpty
  | _ => false

/-- The table of the rows of a report. Keys with a header are looked up first in all rows; then come
the headers, then all cells. -/
def tableOf? (r : Report) (c : Canvas) (rows : Value) : Answer Table := do
  let headers ← r.headers? rows
  let keys ← r.keys? rows
  let headers ← headers.items?
  let lengths ← headers.mapM lengthOf?
  let rows ← rows.items?
  let keys ← keys.items?
  let headed ← rows.mapM (cells? (keys.take headers.length))
  let widths := c.fit (headed.foldl widen lengths)
  let header ← (headers.zip widths).mapM fun (v, w) => headerText? c v w
  if headers.any isBytes then throw .illTyped
  let rows ← rows.mapM (cells? keys)
  pure { header, rows }

/-! ### The two forms -/

/-- The value as a list of one if it counts as present, else no value. -/
def ifPresent (v : Value) : List Value := if v.truthy then [v] else []

/-- The table form of a report: title, table or message, summary. -/
def table? (r : Report) (c : Canvas) : Answer String := do
  let (rows, summary) := r.content
  let body ←
    if rows.truthy then pure ((c.draw (← r.tableOf? c rows)).map Value.text)
    else pure [r.emptyMessage]
  let lines ← Value.texts? (ifPresent r.title ++ body ++ ifPresent summary)
  pure ("\n".intercalate lines)

/-- Whether an entry is shown: its key, which has to be a text, does not begin with an
underscore. -/
def isShownKey? : Value → Answer Bool
  | .text s => .ok (!s.startsWith "_")
  | .bytes _ => .error .illTyped
  | _ => .error .noAttribute

mutual

/-- A value without the entries that are not shown, inside lists and mappings. -/
def shown? : Value → Answer Value
  | .list xs _ => return .list (← shownItems? xs)
  | .dict es _ => return .dict (← shownEntries? es)
  | v => .ok v

/-- The members of a list without the entries that are not shown. -/
def shownItems? : List Value → Answer (List Value)
  | [] => .ok []
  | x :: xs => do
    let y ← shown? x
    let ys ← shownItems? xs
    pure (y :: ys)

/-- The entries that are shown. -/
def shownEntries? : List (Value × Value) → Answer (List (Value × Value))
  | [] => .ok []
  | (k, v) :: es => do
    if ← isShownKey? k then
      let w ← shown? v
      let rest ← shownEntries? es
      pure ((k, w) :: rest)
    else shownEntries? es

end

/-- The JSON form of a report: the data, under the title if there is one. -/
def json? (r : Report) : Answer String := do
  let data ← shown? r.data
  let output :=
    if r.title.truthy then .dict [(.text "title", r.title), (.text "data", data)] else data
  let tree ← Json.Tree.ofValue? output
  pure (tree.textAt 0)

/-- A report in the form with a name. -/
def render? (r : Report) (format : String) (c : Canvas) : Answer String := do
  match ← ReportFormat.choose? format r.shape with
  | .table => r.table? c
  | .json => r.json?

end Report
end Concordance
