import Mathlib
import Concordance.Proofs.Acceptance
import Concordance.Proofs.Names
import Concordance.Report

/-!
Tables are rectangles.

* `SymbolSet.Regular` : the pieces of borders are single characters, and the ellipsis has room in a
  column that is scaled down; so it is in both sets.
* `Covers ws cells` : each cell has room in its column. `Table.covers_naturalWidths` : so it is
  under the widths that the columns ask for.
* `Canvas.Fills c w s piece` : `piece` is what a column of width `w` shows of the text `s`.
  `Canvas.fills_cell` : a cell is, where the text has room or the column was scaled down.
* `Canvas.Lays`, `Canvas.Rectangle` : a line of cells; all lines of a table, of one length.
  `Canvas.rectangle_draw` : what is drawn of a table with rows of equal length.
* `Report.Tabular` : a report with headers, as many keys, and mappings for rows.
  `Report.table_rectangle` : what is shown of it is a rectangle between the title and the summary.
-/

namespace Concordance

/-! ### Symbols -/

namespace SymbolSet

/-- Every piece of a border is a single character, and the ellipsis leaves room in a column that is
scaled down. -/
structure Regular (s : SymbolSet) : Prop where
  boxH : s.boxH.length = 1
  boxV : s.boxV.length = 1
  top : s.boxTopLeft.length = 1 ∧ s.boxDown.length = 1 ∧ s.boxTopRight.length = 1
  middle : s.boxRight.length = 1 ∧ s.boxCross.length = 1 ∧ s.boxLeft.length = 1
  bottom : s.boxBottomLeft.length = 1 ∧ s.boxUp.length = 1 ∧ s.boxBottomRight.length = 1
  ellipsis : s.ellipsis.length < leastWidth

lemma regular_unicode : unicode.Regular := by constructor <;> decide

lemma regular_ascii : ascii.Regular := by constructor <;> decide

/-- Both sets of symbols are regular. -/
lemma regular_of_shipped {s : SymbolSet} (h : s = unicode ∨ s = ascii) : s.Regular := by
  rcases h with rfl | rfl
  · exact regular_unicode
  · exact regular_ascii

end SymbolSet

/-! ### Widths -/

/-- Each cell has room in its column. -/
def Covers (ws : List Nat) (cells : List String) : Prop :=
  List.Forall₂ (fun w s => s.length ≤ w) ws cells

section Widths

variable {ws : List Nat} {cells row : List String} {rows : List (List String)}

lemma totalWidth_cons (w : Nat) (ws : List Nat) : totalWidth (w :: ws) = w + totalWidth ws := rfl

lemma covers_lengths : ∀ cells : List String, Covers (cells.map String.length) cells
  | [] => .nil
  | _ :: cells => .cons le_rfl (covers_lengths cells)

lemma length_widen : ∀ (ws : List Nat) (row : List String), (widen ws row).length = ws.length
  | [], _ => by simp [widen]
  | _ :: _, [] => by simp [widen]
  | _ :: ws, _ :: row => by simp [widen, length_widen ws row]

/-- Widened columns have room for what they had room for. -/
lemma Covers.widen (h : Covers ws cells) (row : List String) :
    Covers (Concordance.widen ws row) cells := by
  induction h generalizing row with
  | nil => cases row <;> exact .nil
  | cons hw h ih =>
      cases row with
      | nil => exact .cons hw h
      | cons s row => exact .cons (hw.trans (le_max_left _ _)) (ih row)

/-- Columns that were widened for a row have room for it. -/
lemma covers_widen : ∀ {ws : List Nat} {row : List String}, row.length = ws.length →
    Covers (widen ws row) row
  | [], [], _ => .nil
  | _ :: _, _ :: _, h => .cons (le_max_right _ _) (covers_widen (by simpa using h))

lemma length_foldl_widen : ∀ (rows : List (List String)) (ws : List Nat),
    (rows.foldl widen ws).length = ws.length
  | [], _ => rfl
  | row :: rows, ws => (length_foldl_widen rows _).trans (length_widen ws row)

lemma Covers.foldl_widen (h : Covers ws cells) (rows : List (List String)) :
    Covers (rows.foldl Concordance.widen ws) cells := by
  induction rows generalizing ws with
  | nil => exact h
  | cons row rows ih => exact ih (h.widen row)

/-- Columns that were widened for several rows have room for each of them. -/
lemma covers_foldl_widen (hrow : row ∈ rows) (h : ∀ row ∈ rows, row.length = ws.length) :
    Covers (rows.foldl widen ws) row := by
  induction rows generalizing ws with
  | nil => cases hrow
  | cons first rows ih =>
      rw [List.forall_mem_cons] at h
      rcases List.mem_cons.mp hrow with rfl | hrow
      · exact (covers_widen h.1).foldl_widen rows
      · exact ih hrow fun row hr => (h.2 row hr).trans (length_widen ws first).symm

end Widths

/-- Every row has a cell for each header, and no other. -/
def Table.Even (t : Table) : Prop := ∀ row ∈ t.rows, row.length = t.header.length

lemma Table.length_naturalWidths (t : Table) : t.naturalWidths.length = t.header.length := by
  rw [naturalWidths, length_foldl_widen, List.length_map]

/-- **The columns have the width that they ask for**: room for the header and for every row. -/
lemma Table.covers_naturalWidths {t : Table} (h : t.Even) {cells : List String}
    (hcells : cells = t.header ∨ cells ∈ t.rows) : Covers t.naturalWidths cells := by
  rcases hcells with rfl | hcells
  · exact (covers_lengths t.header).foldl_widen t.rows
  · exact covers_foldl_widen hcells fun row hrow => by rw [h row hrow, List.length_map]

namespace Canvas

variable {c : Canvas} {ws : List Nat} {w : Nat} {s : String} {cells : List String} {t : Table}

lemma length_fit (c : Canvas) (ws : List Nat) : (c.fit ws).length = ws.length := by
  rw [fit]
  split
  · rfl
  · split
    · exact List.length_map _
    · rfl

/-! ### Cells -/

/-- What a column of a width shows of a text: all of it and blanks if it has room, and else its
beginning and the ellipsis. -/
structure Fills (c : Canvas) (w : Nat) (s piece : String) : Prop where
  length : piece.length = w
  whole : s.length ≤ w → ∃ n, piece = s ++ String.ofList (List.replicate n ' ')
  cut : w < s.length → ∃ before after, s = before ++ after ∧ piece = before ++ c.symbols.ellipsis

/-- A column in which a text has room, or that was scaled down. -/
def Suits (c : Canvas) (w : Nat) (s : String) : Prop :=
  s.length ≤ w ∨ c.full = false ∧ leastWidth ≤ w

/-- **The columns of a table suit its texts**, scaled down or not. -/
lemma suits_fit (h : Covers ws cells) : List.Forall₂ c.Suits (c.fit ws) cells := by
  have hroom : List.Forall₂ c.Suits ws cells := h.imp fun _ _ => .inl
  rw [fit]
  split
  · exact hroom
  · next hfull =>
      split
      · rw [List.forall₂_map_left_iff]
        exact h.imp fun _ _ _ => .inr ⟨by simpa using hfull, le_max_left _ _⟩
      · exact hroom

lemma padded_eq (h : s.length = w) : padded s w = s := by
  rw [padded, h, Nat.sub_self]
  simp

lemma length_padded (h : s.length ≤ w) : (padded s w).length = w := by
  rw [padded, String.length_append, String.length_ofList, List.length_replicate]
  omega

/-- A text that has no room is cut behind room for the ellipsis. -/
lemma cut_eq (hfull : c.full = false) (hw : c.symbols.ellipsis.length < w) (hs : w < s.length) :
    c.cut s w = String.ofList (s.toList.take (w - c.symbols.ellipsis.length)) ++
      c.symbols.ellipsis := by
  have hpresent : (s == "") = false := by
    rw [beq_eq_false_iff_ne]
    rintro rfl
    exact Nat.not_lt_zero _ hs
  have hlong : ¬(s.length : Int) ≤ w := by omega
  have hroom : ¬(w : Int) ≤ c.symbols.ellipsis.length := by omega
  have htake : (0 : Int) ≤ w - c.symbols.ellipsis.length := by omega
  have hcount : ((w : Int) - c.symbols.ellipsis.length).toNat = w - c.symbols.ellipsis.length := by
    omega
  rw [cut, hfull, hpresent]
  simp only [hlong, hroom, firstChars, htake, hcount, decide_false, Bool.or_false, if_true,
    if_false, Bool.false_eq_true]

lemma cut_of_length_le (h : s.length ≤ w) : c.cut s w = s := by
  have hroom : (s.length : Int) ≤ w := by omega
  rw [cut, if_pos (by simp [hroom])]

/-- **A cell** shows its text. -/
lemma fills_cell (hell : c.symbols.ellipsis.length < leastWidth) (h : c.Suits w s) :
    c.Fills w s (c.cell s w) := by
  by_cases hs : s.length ≤ w
  · have hcell : c.cell s w = padded s w := by rw [cell, cut_of_length_le hs]
    exact {
      length := hcell ▸ length_padded hs
      whole := fun _ => ⟨_, hcell⟩
      cut := fun hlong => absurd hs (Nat.not_le.mpr hlong) }
  · obtain ⟨hfull, hw⟩ := h.resolve_left hs
    have hlong := Nat.not_le.mp hs
    have hcut := cut_eq hfull (hell.trans_le hw) hlong
    have hlength : (c.cut s w).length = w := by
      rw [hcut, String.length_append, String.length_ofList, List.length_take, String.length_toList]
      omega
    have hcell : c.cell s w = c.cut s w := padded_eq hlength
    exact {
      length := hcell ▸ hlength
      whole := fun hroom => absurd hroom hs
      cut := fun _ => ⟨_, .ofList (s.toList.drop (w - c.symbols.ellipsis.length)),
        by rw [← String.ofList_append, List.take_append_drop, String.ofList_toList],
        hcell.trans hcut⟩ }

/-! ### Lines -/

/-- A line of cells: what the columns show of them, between borders. -/
def Lays (c : Canvas) (ws : List Nat) (cells : List String) (line : String) : Prop :=
  ∃ pieces, cells.length = ws.length ∧
    List.Forall₂ (fun e piece => c.Fills e.2 e.1 piece) (cells.zip ws) pieces ∧
    line = c.symbols.boxV ++ String.join (pieces.map (· ++ c.symbols.boxV))

/-- Cells that suit their columns make a line. -/
lemma lays_row (hell : c.symbols.ellipsis.length < leastWidth)
    (h : List.Forall₂ c.Suits ws cells) : c.Lays ws cells (c.row ws cells) := by
  refine ⟨(cells.zip ws).map fun e => c.cell e.1 e.2, h.length_eq.symm, ?_, ?_⟩
  · induction h with
    | nil => exact .nil
    | cons hw _ ih => exact .cons (fills_cell hell hw) ih
  · rw [row, List.map_map]
    rfl

/-- What is shown of cells, each closed by a border, by induction on the cells. -/
lemma length_join_pieces (hbox : c.symbols.boxV.length = 1) {pieces : List String}
    (hlength : cells.length = ws.length)
    (hpieces : List.Forall₂ (fun e piece => c.Fills e.2 e.1 piece) (cells.zip ws) pieces) :
    (String.join (pieces.map (· ++ c.symbols.boxV))).length = totalWidth ws + ws.length := by
  induction cells generalizing ws pieces with
  | nil =>
      obtain rfl := List.length_eq_zero_iff.mp hlength.symm
      cases hpieces
      rfl
  | cons s cells ih =>
      obtain ⟨w, ws, rfl⟩ := List.exists_cons_of_length_eq_add_one hlength.symm
      obtain ⟨piece, pieces, hpiece, hrest, rfl⟩ := List.forall₂_cons_left_iff.mp hpieces
      have hlater := ih (by simpa using hlength) hrest
      rw [List.map_cons, String.join_cons, String.length_append, String.length_append, hlater,
        hpiece.length, hbox, totalWidth_cons, List.length_cons]
      omega

/-- A line of cells has the width of its columns and their borders. -/
lemma Lays.length {line : String} (hbox : c.symbols.boxV.length = 1) (h : c.Lays ws cells line) :
    line.length = totalWidth ws + ws.length + 1 := by
  obtain ⟨pieces, hlength, hpieces, rfl⟩ := h
  rw [String.length_append, length_join_pieces hbox hlength hpieces, hbox]
  omega

lemma length_join_replicate (hbox : s.length = 1) (w : Nat) :
    (String.join (List.replicate w s)).length = w := by
  rw [String.length_join, List.map_replicate, hbox, List.sum_replicate, smul_eq_mul, mul_one]

/-- Texts with a character between two of them. -/
lemma length_intercalate (hsep : s.length = 1) {xs : List String} (hxs : xs ≠ []) :
    (s.intercalate xs).length + 1 = totalWidth (xs.map String.length) + xs.length := by
  induction xs with
  | nil => exact absurd rfl hxs
  | cons x xs ih =>
      rcases xs with _ | ⟨y, ys⟩
      · rw [String.intercalate_singleton]
        rfl
      · have hrest := ih (List.cons_ne_nil y ys)
        rw [String.intercalate_cons_cons, String.length_append, String.length_append, hsep,
          List.map_cons, totalWidth_cons, List.length_cons]
        omega

/-- A border line has the width of its columns and what separates them. -/
lemma length_border (hbox : c.symbols.boxH.length = 1) {left cross right : String}
    (hends : left.length = 1 ∧ cross.length = 1 ∧ right.length = 1) (hws : ws ≠ []) :
    (c.border left cross right ws).length = totalWidth ws + ws.length + 1 := by
  have hwidths : (ws.map fun w => String.join (List.replicate w c.symbols.boxH)).map String.length =
      ws := by
    rw [List.map_map]
    exact (List.map_congr_left fun w _ => length_join_replicate hbox w).trans (List.map_id ws)
  have hsome : (ws.map fun w => String.join (List.replicate w c.symbols.boxH)) ≠ [] :=
    List.map_eq_nil_iff.not.mpr hws
  have hpieces := length_intercalate hends.2.1 hsome
  have hempty : ws.isEmpty = false := List.isEmpty_eq_false_iff.mpr hws
  rw [hwidths, List.length_map] at hpieces
  rw [border, hempty]
  simp only [String.length_append, hends.1, Bool.false_eq_true, if_false, hends.2.2]
  omega

/-! ### Rectangles -/

/-- The lines of a table over columns of some widths: three borders, the header and the rows. All
have the same length, and each cell is shown in its column. -/
structure Rectangle (c : Canvas) (ws : List Nat) (t : Table) (top header middle : String)
    (rows : List String) (bottom : String) : Prop where
  length : ∀ line ∈ [top, header, middle] ++ rows ++ [bottom],
    line.length = totalWidth ws + t.header.length + 1
  header : c.Lays ws t.header header
  rows : List.Forall₂ (c.Lays ws) t.rows rows

/-- **What is drawn of a table** is a rectangle. -/
lemma rectangle_draw (hsymbols : c.symbols.Regular) (heven : t.Even) (hheader : t.header ≠ []) :
    ∃ top header middle rows bottom, c.draw t = [top, header, middle] ++ rows ++ [bottom] ∧
      c.Rectangle (c.fit t.naturalWidths) t top header middle rows bottom := by
  have hlays : ∀ {cells}, cells = t.header ∨ cells ∈ t.rows →
      c.Lays (c.fit t.naturalWidths) cells (c.row (c.fit t.naturalWidths) cells) := fun hcells =>
    lays_row hsymbols.ellipsis (suits_fit (t.covers_naturalWidths heven hcells))
  have hcount : (c.fit t.naturalWidths).length = t.header.length := by
    rw [length_fit, t.length_naturalWidths]
  have hlines : ∀ {cells}, cells = t.header ∨ cells ∈ t.rows →
      (c.row (c.fit t.naturalWidths) cells).length =
        totalWidth (c.fit t.naturalWidths) + (c.fit t.naturalWidths).length + 1 := fun hcells =>
    (hlays hcells).length hsymbols.boxV
  have hws : c.fit t.naturalWidths ≠ [] := by
    rw [← List.length_pos_iff, hcount]
    exact List.length_pos_iff.mpr hheader
  refine ⟨_, _, _, _, _, rfl, ?_, hlays (.inl rfl), ?_⟩
  · rw [← hcount]
    simp only [List.forall_mem_append, List.forall_mem_cons, List.forall_mem_map]
    exact ⟨⟨⟨length_border hsymbols.boxH hsymbols.top hws, hlines (.inl rfl),
      length_border hsymbols.boxH hsymbols.middle hws, List.forall_mem_nil _⟩,
      fun cells hcells => hlines (.inr hcells)⟩,
      length_border hsymbols.boxH hsymbols.bottom hws, List.forall_mem_nil _⟩
  · rw [List.forall₂_map_right_iff, List.forall₂_same]
    exact fun cells hcells => hlays (.inr hcells)

end Canvas

/-! ### Reports -/

/-- A list is answered member by member, or not at all: here every refusal is the same fault. -/
lemma Answer.mapM_eq_ite {α β : Type} {f : α → Answer β} {g : α → β} {ok : α → Prop} {e : Fault}
    [DecidablePred ok] : ∀ {xs : List α}, (∀ x ∈ xs, f x = if ok x then .ok (g x) else .error e) →
      xs.mapM f = if ∀ x ∈ xs, ok x then .ok (xs.map g) else .error e
  | [], _ => by simp [pure, Except.pure]
  | x :: xs, h => by
      obtain ⟨hx, hxs⟩ := List.forall_mem_cons.mp h
      rw [List.mapM_cons, hx, mapM_eq_ite hxs]
      by_cases hok : ok x
      · by_cases hall : ∀ y ∈ xs, ok y
        · rw [if_pos hok, if_pos hall, if_pos (List.forall_mem_cons.mpr ⟨hok, hall⟩)]
          rfl
        · rw [if_pos hok, if_neg hall, if_neg fun h => hall (List.forall_mem_cons.mp h).2]
          rfl
      · rw [if_neg hok, if_neg fun h => hok (List.forall_mem_cons.mp h).1]
        rfl

/-- What a mapping holds under a key. -/
lemma Value.get?_eq {v k : Value} (hv : v.isMapping) (hk : k.hashable) :
    v.get? k = .ok ((lookup? v.fields k).getD .null) := by
  obtain ⟨es, hes⟩ := Option.isSome_iff_exists.mp hv
  rw [get?, mapping?, fields, hes]
  exact if_pos hk

/-- Only a text that is not empty is shown where a text may be absent. -/
lemma Report.texts_around {title summary : Value} (htitle : title.Nameable)
    (hsummary : summary.Nameable) (body : List String) :
    Value.texts? (ifPresent title ++ body.map Value.text ++ ifPresent summary) =
      .ok (title.name?.toList ++ body ++ summary.name?.toList) := by
  have hpresent : ∀ {v : Value}, v.Nameable → ifPresent v = v.name?.toList.map Value.text := by
    intro v hv
    obtain ⟨htruthy, hname⟩ | ⟨n, rfl, hn, hname⟩ := hv.cases
    · rw [ifPresent, htruthy, hname]
      rfl
    · rw [ifPresent, if_pos (Value.truthy_text.mpr hn), hname]
      rfl
  rw [hpresent htitle, hpresent hsummary, ← List.map_append, ← List.map_append, Value.texts?,
    Answer.mapM_eq_ok_iff, List.forall₂_map_left_iff, List.forall₂_same]
  exact fun s _ => rfl

namespace Report

/-- What a row holds under some keys, null where it has no such key. -/
def held (keys : List Value) (row : Value) : List Value :=
  keys.map fun k => (Value.lookup? row.fields k).getD .null

/-- The table of some rows: under each header what they hold under its key. -/
def shownTable (headers : List String) (keys rows : List Value) : Table where
  header := headers
  rows := rows.map fun row => (held keys row).map Value.cellText

/-- What the rows hold under the keys can be written. -/
def Writable (keys rows : List Value) : Prop :=
  ∀ row ∈ rows, ∀ v ∈ held keys row, v.spellableIn [] = true

instance (keys rows : List Value) : Decidable (Writable keys rows) :=
  inferInstanceAs (Decidable (∀ row ∈ rows, ∀ v ∈ held keys row, v.spellableIn [] = true))

/-- A report with headers, a key for each of them, and mappings for rows. Its title and its summary
are texts or absent. -/
structure Tabular (p : Report) (rows : List Value) (headers : List String) (keys : List Value) :
    Prop where
  content : ∃ mark, p.content.1 = .list rows mark
  summary : p.content.2.Nameable
  title : p.title.Nameable
  columns : headers ≠ [] ∧ ∃ mark, p.columns = .list (headers.map .text) mark
  columnKeys : ∃ mark, p.columnKeys = .list keys mark
  length : keys.length = headers.length
  hashable : ∀ k ∈ keys, k.hashable
  isMapping : ∀ row ∈ rows, row.isMapping

variable {p : Report} {rows keys : List Value} {headers : List String} {c : Canvas}

lemma cells?_eq {row : Value} (hrow : row.isMapping) (hkeys : ∀ k ∈ keys, k.hashable) :
    cells? keys row = if ∀ v ∈ held keys row, v.spellableIn [] = true
      then .ok ((held keys row).map Value.cellText) else .error .badValue := by
  simp only [held, List.forall_mem_map, List.map_map]
  exact Answer.mapM_eq_ite fun k hk => Answer.bind_of_ok (Value.get?_eq hrow (hkeys k hk))

/-- A key for each header gives rows of equal length. -/
lemma Tabular.even (h : p.Tabular rows headers keys) : (shownTable headers keys rows).Even := by
  intro cells hcells
  obtain ⟨row, -, rfl⟩ := List.mem_map.mp hcells
  rw [List.length_map, held, List.length_map, h.length]
  rfl

/-- **The table of a report** is made if what it shows can be written. -/
lemma Tabular.tableOf?_eq (h : p.Tabular rows headers keys) (c : Canvas) (mark : Option Mark) :
    p.tableOf? c (.list rows mark) =
      if Writable keys rows then .ok (shownTable headers keys rows) else .error .badValue := by
  obtain ⟨hheaders, columnsMark, hcolumns⟩ := h.columns
  obtain ⟨keysMark, hcolumnKeys⟩ := h.columnKeys
  have hkeys : keys ≠ [] := by
    rw [← List.length_pos_iff, h.length]
    exact List.length_pos_iff.mpr hheaders
  have hgiven : p.headers? (.list rows mark) = .ok (.list (headers.map .text) columnsMark) := by
    rw [headers?, hcolumns, if_pos (by simpa [Value.truthy] using hheaders)]
    rfl
  have hgivenKeys : p.keys? (.list rows mark) = .ok (.list keys keysMark) := by
    rw [keys?, hcolumnKeys, if_pos (by simpa [Value.truthy] using hkeys)]
    rfl
  have hlengths : (headers.map Value.text).mapM lengthOf? = .ok (headers.map String.length) := by
    rw [Answer.mapM_eq_ok_iff, List.forall₂_map_left_iff, List.forall₂_map_right_iff,
      List.forall₂_same]
    exact fun s _ => rfl
  have hcells : rows.mapM (cells? keys) = if Writable keys rows
      then .ok (shownTable headers keys rows).rows else .error .badValue :=
    Answer.mapM_eq_ite fun row hrow => cells?_eq (h.isMapping row hrow) h.hashable
  have hbytes : (headers.map Value.text).any isBytes = false := by
    rw [List.any_map, List.any_eq_false]
    exact fun s _ => Bool.false_ne_true
  have htexts : ∀ {ws : List Nat}, ws.length = headers.length →
      ((headers.map Value.text).zip ws).mapM (fun e => headerText? c e.1 e.2) = .ok headers := by
    intro ws hws
    rw [Answer.mapM_eq_ok_iff, List.forall₂_iff_get]
    refine ⟨by simp [hws], fun n hn _ => ?_⟩
    simp [headerText?, pure, Except.pure]
  have htake : keys.take (headers.map Value.text).length = keys := by
    rw [List.length_map, ← h.length, List.take_length]
  rw [tableOf?, Answer.bind_of_ok hgiven, Answer.bind_of_ok hgivenKeys,
    Answer.bind_of_ok (show (Value.list (headers.map .text) columnsMark).items? = _ from rfl),
    Answer.bind_of_ok hlengths,
    Answer.bind_of_ok (show (Value.list rows mark).items? = _ from rfl),
    Answer.bind_of_ok (show (Value.list keys keysMark).items? = _ from rfl), htake]
  by_cases hwritable : Writable keys rows
  · rw [if_pos hwritable] at hcells
    have hwidths : (c.fit ((shownTable headers keys rows).rows.foldl widen
        (headers.map String.length))).length = headers.length := by
      rw [Canvas.length_fit, length_foldl_widen, List.length_map]
    rw [if_pos hwritable, Answer.bind_of_ok hcells, Answer.bind_of_ok (htexts hwidths), hbytes,
      Answer.bind_of_ok hcells]
    rfl
  · rw [if_neg hwritable] at hcells
    rw [if_neg hwritable, hcells]
    rfl

/-- **What is shown of a report** with rows: the lines of its table, under the title and above the
summary. -/
lemma Tabular.table?_eq (h : p.Tabular rows headers keys) (hrows : rows ≠ []) (c : Canvas) :
    p.table? c = if Writable keys rows
      then .ok ("\n".intercalate (p.title.name?.toList ++ c.draw (shownTable headers keys rows) ++
        p.content.2.name?.toList))
      else .error .badValue := by
  obtain ⟨mark, hcontent⟩ := h.content
  have htruthy : (Value.list rows mark).truthy = true := by simpa [Value.truthy] using hrows
  rw [table?]
  dsimp only
  rw [hcontent, if_pos htruthy, h.tableOf?_eq c mark]
  by_cases hwritable : Writable keys rows
  · rw [if_pos hwritable, if_pos hwritable]
    exact Answer.bind_of_ok (texts_around h.title h.summary _)
  · rw [if_neg hwritable, if_neg hwritable]
    rfl

/-- **A table is a rectangle.** What is shown of a report with rows is, between the title and the
summary, three borders, the header and a line for each row, all of one length: that of the columns
with a border on each side of them. Each cell has the width of its column and shows its text, or
the beginning of it and the ellipsis if it has no room. Where a cell holds an integer that is too
long to be written, nothing is shown. -/
theorem table_rectangle (h : p.Tabular rows headers keys) (hrows : rows ≠ [])
    (hsymbols : c.symbols = .unicode ∨ c.symbols = .ascii) :
    (Writable keys rows → ∃ top header middle body bottom,
      c.Rectangle (c.fit (shownTable headers keys rows).naturalWidths)
        (shownTable headers keys rows) top header middle body bottom ∧
      p.table? c = .ok ("\n".intercalate (p.title.name?.toList ++
        ([top, header, middle] ++ body ++ [bottom]) ++ p.content.2.name?.toList))) ∧
    (¬Writable keys rows → p.table? c = .error .badValue) := by
  constructor
  · intro hwritable
    obtain ⟨top, header, middle, body, bottom, hdraw, hrectangle⟩ :=
      Canvas.rectangle_draw (c := c) (SymbolSet.regular_of_shipped hsymbols) h.even h.columns.1
    refine ⟨top, header, middle, body, bottom, hrectangle, ?_⟩
    rw [h.table?_eq hrows, if_pos hwritable, hdraw]
  · intro hwritable
    rw [h.table?_eq hrows, if_neg hwritable]

/-- Two processes, of which the second states its name alone. -/
def processRows : List Value := [
  .dict [(.text "name", .text "orders"), (.text "version", .int 12), (.text "open", .bool true)],
  .dict [(.text "name", .text "billing and settlement")]]

/-- A report of two processes. -/
def processes : Report where
  data := .list processRows
  title := .text "Processes"
  columns := .list [.text "Name", .text "Version", .text "Open"]
  columnKeys := .list [.text "name", .text "version", .text "open"]

lemma processes_tabular : processes.Tabular processRows ["Name", "Version", "Open"]
    [.text "name", .text "version", .text "open"] where
  content := ⟨none, rfl⟩
  summary := .inl rfl
  title := .of_text _
  columns := ⟨List.cons_ne_nil _ _, none, rfl⟩
  columnKeys := ⟨none, rfl⟩
  length := rfl
  hashable := by simp
  isMapping := by decide

/-- The report on a terminal that cuts the names and the header of the versions. -/
theorem processes_rectangle : ∃ top header middle body bottom,
    Canvas.Rectangle ⟨.ascii, 26, false⟩ [14, 4, 4]
      (shownTable ["Name", "Version", "Open"] [.text "name", .text "version", .text "open"]
        processRows) top header middle body bottom ∧
    processes.table? ⟨.ascii, 26, false⟩ = .ok ("\n".intercalate (["Processes"] ++
      ([top, header, middle] ++ body ++ [bottom]) ++ [])) := by
  have hfit : Canvas.fit ⟨.ascii, 26, false⟩ (shownTable ["Name", "Version", "Open"]
      [.text "name", .text "version", .text "open"] processRows).naturalWidths = [14, 4, 4] := by
    decide +kernel
  have h := (table_rectangle (c := ⟨.ascii, 26, false⟩) processes_tabular (List.cons_ne_nil _ _)
    (.inr rfl)).1 (by decide +kernel)
  rw [hfit] at h
  exact h

example : processes.table? ⟨.ascii, 26, false⟩ = .ok "Processes
+--------------+----+----+
|Name          |V...|Open|
+--------------+----+----+
|orders        |12  |Yes |
|billing and...|    |    |
+--------------+----+----+" := by decide +kernel

end Report
end Concordance
