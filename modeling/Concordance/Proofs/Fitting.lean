import Mathlib
import Concordance.Proofs.Rounding
import Concordance.Proofs.Tables

/-!
When a table fits into the terminal.

The columns of a table that asks for too much get shares of the room, rounded down, and then each
is raised to the least width. What rounding down leaves may pay for that, or may not.

* `sum_shares_le` : exact shares that are rounded down do not spend more than there is.
* `Canvas.lacking`, `Canvas.spare` : what the shares lack of the least width, and what they leave.
  `Canvas.fit_le_iff` : the columns fit exactly if the second pays for the first.
* `Canvas.narrow` : the columns whose exact share is less than the least width. `Canvas.fit_le` :
  only these make a table too wide, each by the least width at most.
* `Report.table_fits_iff` : so for the lines of a table. `Report.crowded` : a report for which there
  is room, but whose lines are too long.
-/

namespace Concordance

/-! ### Shares -/

/-- **Shares that are rounded down** do not spend more than there is. -/
lemma sum_shares_le (a : Nat) {ws : List Nat} (hws : 0 < totalWidth ws) :
    totalWidth (ws.map fun w => w * a / totalWidth ws) ≤ a := by
  refine Nat.le_of_mul_le_mul_right ?_ hws
  calc totalWidth (ws.map fun w => w * a / totalWidth ws) * totalWidth ws
      = (ws.map fun w => w * a / totalWidth ws * totalWidth ws).sum :=
        (List.sum_map_mul_right ..).symm
    _ ≤ (ws.map fun w => w * a).sum := List.sum_le_sum fun w _ => Nat.div_mul_le_self _ _
    _ = totalWidth ws * a := by rw [List.sum_map_mul_right, List.map_id']; rfl
    _ = a * totalWidth ws := Nat.mul_comm _ _

/-- A number for each member of a kind. -/
lemma sum_extra (p : Nat → Prop) [DecidablePred p] (k : Nat) (ws : List Nat) :
    (ws.map fun w => if p w then k else 0).sum = k * (ws.filter p).length := by
  induction ws with
  | nil => rfl
  | cons w ws ih =>
      rw [List.map_cons, List.sum_cons, ih]
      by_cases hw : p w
      · rw [if_pos hw, List.filter_cons_of_pos (by simpa using hw), List.length_cons, Nat.mul_succ,
          Nat.add_comm]
      · rw [if_neg hw, List.filter_cons_of_neg (by simpa using hw), Nat.zero_add]

lemma le_totalWidth {ws : List Nat} {w : Nat} (hw : w ∈ ws) : w ≤ totalWidth ws :=
  List.le_sum_of_mem hw

namespace Canvas

variable {c : Canvas} {ws : List Nat}

/-- The share that a column gets of the room, before it is raised to the least width. -/
def share (c : Canvas) (ws : List Nat) (w : Nat) : Nat :=
  scaledWidth (c.available ws.length).toNat (totalWidth ws) w

/-- What the shares lack of the least width. -/
def lacking (c : Canvas) (ws : List Nat) : Nat :=
  totalWidth (ws.map fun w => leastWidth - c.share ws w)

/-- What the shares leave of the room. -/
def spare (c : Canvas) (ws : List Nat) : Int :=
  c.available ws.length - totalWidth (ws.map (c.share ws))

/-- The columns whose exact share of the room is less than the least width. -/
def narrow (c : Canvas) (ws : List Nat) : List Nat :=
  ws.filter fun w => w * (c.available ws.length).toNat < leastWidth * totalWidth ws

lemma fit_of_le (h : (totalWidth ws : Int) ≤ c.available ws.length) : c.fit ws = ws := by
  rw [fit]
  split
  · rfl
  · exact if_neg fun hroom => absurd hroom.2 (Int.not_lt.mpr h)

lemma fit_of_lt (hfull : c.full = false) (hroom : 0 < c.available ws.length)
    (h : c.available ws.length < totalWidth ws) :
    c.fit ws = ws.map fun w => max leastWidth (c.share ws w) := by
  rw [fit, if_neg (by simp [hfull]), if_pos ⟨hroom, h⟩]
  rfl

/-- The width of the columns that are raised. -/
lemma totalWidth_raised (c : Canvas) (ws : List Nat) :
    totalWidth (ws.map fun w => max leastWidth (c.share ws w)) =
      totalWidth (ws.map (c.share ws)) + c.lacking ws := by
  have hraised : ∀ w, max leastWidth (c.share ws w) =
      c.share ws w + (leastWidth - c.share ws w) := fun w => by omega
  simp only [hraised]
  exact List.sum_map_add

/-- **Columns fit** exactly if they ask for no more than there is, or what their shares leave pays
for what these lack of the least width. -/
lemma fit_le_iff (hfull : c.full = false) (hroom : 0 < c.available ws.length) :
    (totalWidth (c.fit ws) : Int) ≤ c.available ws.length ↔
      totalWidth ws ≤ c.available ws.length ∨ c.lacking ws ≤ c.spare ws := by
  by_cases h : (totalWidth ws : Int) ≤ c.available ws.length
  · rw [fit_of_le h]
    exact iff_of_true h (.inl h)
  · rw [fit_of_lt hfull hroom (Int.not_le.mp h), totalWidth_raised, or_iff_right h, spare]
    push_cast
    omega

/-- A column that is raised has its exact share, unless that is too narrow. -/
lemma raised_le {w : Nat} (hroom : 0 < c.available ws.length) (hws : 0 < totalWidth ws)
    (hsize : totalWidth ws * (c.available ws.length).toNat ≤ 2 ^ 50) (hw : w ∈ ws) :
    max leastWidth (c.share ws w) ≤ w * (c.available ws.length).toNat / totalWidth ws +
      if w * (c.available ws.length).toNat < leastWidth * totalWidth ws then leastWidth else 0 := by
  have hshare : c.share ws w ≤ w * (c.available ws.length).toNat / totalWidth ws :=
    scaledWidth_le (le_totalWidth hw) (by omega) hws hsize
  split
  · omega
  · next hwide =>
      have hleast : leastWidth ≤ w * (c.available ws.length).toNat / totalWidth ws :=
        (Nat.le_div_iff_mul_le hws).mpr (Nat.not_lt.mp hwide)
      omega

/-- **What columns are too wide** is the least width for each of those that are too narrow, at
most. -/
lemma fit_le (hfull : c.full = false) (hroom : 0 < c.available ws.length)
    (hsize : totalWidth ws * (c.available ws.length).toNat ≤ 2 ^ 50) :
    (totalWidth (c.fit ws) : Int) ≤
      c.available ws.length + leastWidth * (c.narrow ws).length := by
  by_cases h : (totalWidth ws : Int) ≤ c.available ws.length
  · rw [fit_of_le h]
    exact h.trans (Int.le_add_of_nonneg_right (by positivity))
  · have hws : 0 < totalWidth ws := by omega
    have hsum : totalWidth (ws.map fun w => max leastWidth (c.share ws w)) ≤
        (c.available ws.length).toNat + leastWidth * (c.narrow ws).length :=
      calc totalWidth (ws.map fun w => max leastWidth (c.share ws w))
          ≤ (ws.map fun w => w * (c.available ws.length).toNat / totalWidth ws +
            if w * (c.available ws.length).toNat < leastWidth * totalWidth ws
              then leastWidth else 0).sum :=
            List.sum_le_sum fun w hw => raised_le hroom hws hsize hw
        _ = totalWidth (ws.map fun w => w * (c.available ws.length).toNat / totalWidth ws) +
            leastWidth * (c.narrow ws).length := by
            rw [List.sum_map_add, sum_extra]
            rfl
        _ ≤ (c.available ws.length).toNat + leastWidth * (c.narrow ws).length :=
            Nat.add_le_add_right (sum_shares_le _ hws) _
    rw [fit_of_lt hfull hroom (Int.not_le.mp h)]
    omega

/-- All lines of a table have the length of its columns and their borders. -/
lemma length_draw {t : Table} (hsymbols : c.symbols.Regular) (heven : t.Even)
    (hheader : t.header ≠ []) : c.draw t ≠ [] ∧ ∀ line ∈ c.draw t,
      line.length = totalWidth (c.fit t.naturalWidths) + t.header.length + 1 := by
  obtain ⟨top, header, middle, rows, bottom, hdraw, hrectangle⟩ :=
    rectangle_draw hsymbols heven hheader
  exact ⟨List.cons_ne_nil _ _, hdraw ▸ hrectangle.length⟩

end Canvas

/-! ### Reports -/

namespace Report

variable {p : Report} {rows keys : List Value} {headers : List String} {c : Canvas}

/-- **When a table fits.** On a terminal that has room for the least widths and the borders, the
lines of a table are no longer than the terminal is wide exactly if the columns ask for no more than
there is, or what their shares leave pays for what these lack of the least width. Where doubles are
exact enough, a line is too long by the least width of each narrow column at most: a table without
narrow columns fits. -/
theorem table_fits_iff (h : p.Tabular rows headers keys) (hrows : rows ≠ [])
    (hsymbols : c.symbols = .unicode ∨ c.symbols = .ascii) (hwritable : Writable keys rows)
    (hfull : c.full = false) (hwidth : 5 * (headers.length : Int) + 1 ≤ c.width) :
    p.table? c = .ok ("\n".intercalate (p.title.name?.toList ++
      c.draw (shownTable headers keys rows) ++ p.content.2.name?.toList)) ∧
    ((∀ line ∈ c.draw (shownTable headers keys rows), (line.length : Int) ≤ c.width) ↔
      totalWidth (shownTable headers keys rows).naturalWidths ≤ c.available headers.length ∨
        c.lacking (shownTable headers keys rows).naturalWidths ≤
          c.spare (shownTable headers keys rows).naturalWidths) ∧
    (totalWidth (shownTable headers keys rows).naturalWidths * c.available headers.length ≤ 2 ^ 50 →
      ∀ line ∈ c.draw (shownTable headers keys rows), (line.length : Int) ≤
        c.width + leastWidth * (c.narrow (shownTable headers keys rows).naturalWidths).length) := by
  obtain ⟨t, ht⟩ : ∃ t, shownTable headers keys rows = t := ⟨_, rfl⟩
  obtain ⟨ws, hws⟩ : ∃ ws, t.naturalWidths = ws := ⟨_, rfl⟩
  have heven : t.Even := ht ▸ h.even
  have hheader : t.header = headers := ht ▸ rfl
  have hcount : ws.length = headers.length := by rw [← hws, t.length_naturalWidths, hheader]
  obtain ⟨hsome, hlines⟩ := Canvas.length_draw (c := c) (SymbolSet.regular_of_shipped hsymbols)
    heven (hheader ▸ h.columns.1)
  have hroom : 0 < c.available ws.length := by
    have hpos := List.length_pos_iff.mpr h.columns.1
    rw [Canvas.available, hcount]
    omega
  have hlength : c.width = c.available headers.length + (headers.length + 1) := by
    rw [Canvas.available]
    omega
  refine ⟨by rw [h.table?_eq hrows, if_pos hwritable], ?_, ?_⟩
  · rw [ht, hws, ← hcount, ← Canvas.fit_le_iff hfull hroom, hcount]
    obtain ⟨first, hfirst⟩ := List.exists_mem_of_ne_nil _ hsome
    constructor
    · intro hall
      have hle := hall first hfirst
      rw [hlines first hfirst, hws, hheader] at hle
      push_cast at hle
      omega
    · intro hle line hline
      rw [hlines line hline, hws, hheader]
      push_cast
      omega
  · intro hsize line hline
    rw [ht] at hline hsize ⊢
    rw [hws, ← hcount] at hsize
    have hle := Canvas.fit_le hfull hroom (by zify; rwa [Int.toNat_of_nonneg hroom.le])
    rw [hlines line hline, hws, hheader, hlength, ← hcount]
    push_cast
    omega

/-- The report of two processes fits: the names leave what the other columns lack. -/
theorem processes_fits :
    processes.table? ⟨.ascii, 26, false⟩ = .ok ("\n".intercalate (["Processes"] ++
      Canvas.draw ⟨.ascii, 26, false⟩ (shownTable ["Name", "Version", "Open"]
        [.text "name", .text "version", .text "open"] processRows) ++ [])) ∧
    ∀ line ∈ Canvas.draw ⟨.ascii, 26, false⟩ (shownTable ["Name", "Version", "Open"]
      [.text "name", .text "version", .text "open"] processRows), (line.length : Int) ≤ 26 := by
  obtain ⟨hshown, hfits, -⟩ := table_fits_iff (c := ⟨.ascii, 26, false⟩) processes_tabular
    (List.cons_ne_nil _ _) (.inr rfl) (by decide +kernel) rfl (by decide)
  exact ⟨hshown, hfits.mpr (.inr (by decide +kernel))⟩

/-- A row of one letter and of many. -/
def crowdedRows : List Value := [
  .dict [(.text "a", .text "x"), (.text "b", .text (String.ofList (List.replicate 100 'y')))]]

/-- A report of a narrow column beside a wide one. -/
def crowded : Report where
  data := .list crowdedRows
  columns := .list [.text "A", .text "B"]
  columnKeys := .list [.text "a", .text "b"]

/-- **A table that does not fit** although there is room for its columns and their borders: the wide
column gets seven of eight characters, and the narrow one is raised to four. -/
theorem crowded_too_wide :
    crowded.Tabular crowdedRows ["A", "B"] [.text "a", .text "b"] ∧
    Writable [.text "a", .text "b"] crowdedRows ∧ 5 * (["A", "B"].length : Int) + 1 ≤ 11 ∧
    crowded.table? ⟨.ascii, 11, false⟩ = .ok "+----+-------+
|A   |B      |
+----+-------+
|x   |yyyy...|
+----+-------+" ∧
    ∃ line ∈ Canvas.draw ⟨.ascii, 11, false⟩
      (shownTable ["A", "B"] [.text "a", .text "b"] crowdedRows), 11 < line.length := by
  have htabular : crowded.Tabular crowdedRows ["A", "B"] [.text "a", .text "b"] := {
    content := ⟨none, rfl⟩
    summary := .inl rfl
    title := .inl rfl
    columns := ⟨List.cons_ne_nil _ _, none, rfl⟩
    columnKeys := ⟨none, rfl⟩
    length := rfl
    hashable := by simp
    isMapping := by decide }
  exact ⟨htabular, by decide +kernel, by decide, by decide +kernel, by decide +kernel⟩

end Report
end Concordance
