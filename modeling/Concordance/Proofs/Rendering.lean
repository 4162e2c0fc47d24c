import Mathlib
import Concordance.Proofs.Tables
import Concordance.Report.References

/-!
Reports that can be shown.

* `Report.Tabular.exists_table` : a report of rows can be shown as a table if its cells can be
  written.
* `Report.exists_json` : the impact of a name can be written as JSON.
* `Report.render_cases` : so the impact of a name can be shown, unless the format is unknown or the
  name of a process is no text.
-/

namespace Concordance
namespace Report

variable {p : Report} {rows keys : List Value} {headers : List String}

/-! ### Tables -/

/-- **A report of cells that can be written** can be shown as a table. -/
lemma Tabular.exists_table (h : p.Tabular rows headers keys) (hwritable : Writable keys rows)
    (hempty : p.emptyMessage.isText) (c : Canvas) : ∃ text, p.table? c = .ok text := by
  by_cases hrows : rows = []
  · obtain ⟨mark, hcontent⟩ := h.content
    obtain ⟨message, hmessage⟩ := Value.isText_iff.mp hempty
    have hlines := texts_around h.title h.summary [message]
    refine ⟨"\n".intercalate (p.title.name?.toList ++ [message] ++ p.content.2.name?.toList), ?_⟩
    rw [table?]
    dsimp only
    rw [hcontent, hrows, hmessage]
    exact Answer.bind_of_ok hlines
  · rw [h.table?_eq hrows, if_pos hwritable]
    exact ⟨_, rfl⟩

/-! ### JSON -/

lemma isShownKey_eq {s : String} (h : s.startsWith "_" = false) :
    isShownKey? (.text s) = .ok true := by
  rw [isShownKey?, h]
  rfl

lemma shown_impactRow {i : Index} (name : String) (hid : i.processId.isText)
    (hname : i.processName.isText) :
    shown? (i.impactRow name) = .ok (i.impactRow name) ∧
      ∃ t, Json.Tree.ofValue? (i.impactRow name) = .ok t := by
  obtain ⟨s, hs⟩ := Value.isText_iff.mp hid
  obtain ⟨n, hn⟩ := Value.isText_iff.mp hname
  rw [Index.impactRow, hs, hn]
  constructor
  · simp only [shown?, shownEntries?, isShownKey_eq (show "process_id".startsWith "_" = false by cbv),
      isShownKey_eq (show "process_name".startsWith "_" = false by cbv),
      isShownKey_eq (show "via".startsWith "_" = false by cbv)]
    rfl
  · exact ⟨_, rfl⟩

lemma shown_rows (name : String) : ∀ {is : List Index},
    (∀ i ∈ is, i.processId.isText ∧ i.processName.isText) →
    shownItems? (is.map (Index.impactRow name)) = .ok (is.map (Index.impactRow name)) ∧
      ∃ ts, Json.Tree.ofValues? (is.map (Index.impactRow name)) = .ok ts
  | [], _ => ⟨rfl, [], rfl⟩
  | i :: is, h => by
      obtain ⟨⟨hid, hname⟩, his⟩ := List.forall_mem_cons.mp h
      obtain ⟨hrow, t, ht⟩ := shown_impactRow name hid hname
      obtain ⟨hrows, ts, hts⟩ := shown_rows name his
      rw [List.map_cons, shownItems?, hrow, hrows, Json.Tree.ofValues?, ht, hts]
      exact ⟨rfl, _, rfl⟩

/-- **The impact of a name** can be written as JSON where the processes have texts for names. -/
lemma exists_json {p : Report} {name summary : String} {is : List Index}
    (h : ∀ i ∈ is, i.processId.isText ∧ i.processName.isText)
    (hdata : p.data = .dict [(.text "rows", .list (is.map (Index.impactRow name))),
      (.text "summary", .text summary)]) (htitle : p.title.isText) :
    ∃ text, p.json? = .ok text := by
  obtain ⟨hrows, ts, hts⟩ := shown_rows name h
  obtain ⟨title, htitle⟩ := Value.isText_iff.mp htitle
  have hshown : shown? p.data = .ok p.data := by
    rw [hdata]
    simp only [shown?, shownEntries?, isShownKey_eq (show "rows".startsWith "_" = false by cbv),
      isShownKey_eq (show "summary".startsWith "_" = false by cbv), hrows]
    rfl
  have htree : ∃ t, Json.Tree.ofValue? p.data = .ok t := by
    rw [hdata, Json.Tree.ofValue?]
    simp only [Json.Tree.ofEntries?, Json.Tree.ofValue?, hts]
    exact ⟨_, rfl⟩
  obtain ⟨t, ht⟩ := htree
  have houtput : ∃ u, Json.Tree.ofValue? (if (Value.text title).truthy then
      .dict [(.text "title", .text title), (.text "data", p.data)] else p.data) = .ok u := by
    split
    · simp only [Json.Tree.ofValue?, Json.Tree.ofEntries?, ht]
      exact ⟨_, rfl⟩
    · exact ⟨t, ht⟩
  obtain ⟨u, hu⟩ := houtput
  rw [json?, hshown, htitle]
  simp only [bind, Except.bind, hu]
  exact ⟨_, rfl⟩

/-! ### The impact of a name -/

section Impact

variable {r : Registry} {name : String} {is : List Index}

/-- The report of the impact of a name: a row for each index that is found, and in the summary the
number of rows and that of all indexes. -/
lemma impactReport_data (himpact : r.impact name = .ok is) (hp : r.impactReport? name = .ok p) :
    p.data = .dict [(.text "rows", .list (is.map (Index.impactRow name))), (.text "summary", .text
      (toString (is.map (Index.impactRow name)).length ++ " of " ++ toString r.size ++
        " processes reference " ++ ("'" ++ name ++ "'")))] := by
  rw [Registry.impactReport?, himpact] at hp
  cases hp
  rfl

lemma impactReport_tabular (himpact : r.impact name = .ok is) (hp : r.impactReport? name = .ok p) :
    p.Tabular (is.map (Index.impactRow name)) ["Process", "Name", "Via"]
      [.text "process_id", .text "process_name", .text "via"] ∧ p.emptyMessage.isText := by
  rw [Registry.impactReport?, himpact] at hp
  cases hp
  refine ⟨{
    content := ⟨none, by simp [content, Value.field, Value.field?, Value.lookup?]⟩
    summary := by simp [content, Value.field, Value.field?, Value.lookup?, Value.Nameable]
    title := .of_text _
    columns := ⟨List.cons_ne_nil _ _, none, rfl⟩
    columnKeys := ⟨none, rfl⟩
    length := rfl
    hashable := by simp
    isMapping := fun row hrow => ?_ }, rfl⟩
  obtain ⟨i, -, rfl⟩ := List.mem_map.mp hrow
  rfl

lemma writable_impactRows (h : ∀ i ∈ is, i.processId.isText ∧ i.processName.isText) :
    Writable [.text "process_id", .text "process_name", .text "via"]
      (is.map (Index.impactRow name)) := by
  intro row hrow
  obtain ⟨i, hi, rfl⟩ := List.mem_map.mp hrow
  obtain ⟨s, hs⟩ := Value.isText_iff.mp (h i hi).1
  obtain ⟨n, hn⟩ := Value.isText_iff.mp (h i hi).2
  simp [held, Index.impactRow, hs, hn, Value.fields, Value.entries?, Value.lookup?,
    Value.spellableIn]

lemma impactReport_title (himpact : r.impact name = .ok is) (hp : r.impactReport? name = .ok p) :
    p.title.isText := by
  rw [Registry.impactReport?, himpact] at hp
  cases hp
  rfl

lemma impactReport_shape (himpact : r.impact name = .ok is) (hp : r.impactReport? name = .ok p) :
    p.shape = .text "table" := by
  rw [Registry.impactReport?, himpact] at hp
  cases hp
  rfl

/-- **A report of the impact of a name** can be shown, unless the format is unknown or the name of a
process is no text. -/
lemma render_cases (hid : ∀ i ∈ is, i.processId.isText) (himpact : r.impact name = .ok is)
    (hp : r.impactReport? name = .ok p) {format : String} {c : Canvas} {e : Fault}
    (hrender : p.render? format c = .error e) :
    ReportFormat.choose? format (.text "table") = .error e ∨
      ∃ i ∈ is, i.processName.isText = false := by
  obtain ⟨htabular, hempty⟩ := impactReport_tabular himpact hp
  rw [render?, impactReport_shape himpact hp] at hrender
  rcases hformat : ReportFormat.choose? format (.text "table") with e' | chosen <;>
    rw [hformat] at hrender
  · exact .inl (congrArg _ (Except.error.inj hrender))
  refine .inr ?_
  by_contra hnames
  push Not at hnames
  have htexts : ∀ i ∈ is, i.processId.isText ∧ i.processName.isText := fun i hi =>
    ⟨hid i hi, by simpa using hnames i hi⟩
  cases chosen with
  | table =>
      obtain ⟨text, htext⟩ := htabular.exists_table (writable_impactRows htexts) hempty c
      exact nomatch htext.symm.trans hrender
  | json =>
      obtain ⟨text, htext⟩ := exists_json htexts (impactReport_data himpact hp)
        (impactReport_title himpact hp)
      exact nomatch htext.symm.trans hrender

end Impact

end Report
end Concordance
