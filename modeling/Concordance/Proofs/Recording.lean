import Mathlib
import Concordance.Proofs.Loading

/-!
Files of settings that hold all of them.

* `FileTree.Rewrites` : one file of a tree is another one, and all others are as before.
  `FileTree.exists_rewrites` : so it is after a file was written, together with its directories.
* `Layer.Records es t` : the entries `es` hold all settings `t`, and nothing else. Over anything
  else they are well typed (`Layer.Records.wellTyped_merge`), what they hold is what is taken from
  them (`Layer.Records.exists_defined`), and no mapping of theirs meets another one again
  (`Layer.fieldsMeetAgain_of_flat`).
* `Yaml.Block.ofValue?_settings` : settings are written in the order of their names, section by
  section.
* `Settings.Rereads` : a file that settings are written to gives them back.
-/

namespace Concordance

/-! ### Writing one file -/

namespace FileTree

variable {tree made written : FileTree} {steps there here place : List String}
  {e d : FileEntry} {path : Path} {bytes : List UInt8}

/-- Entries elsewhere are as before. -/
lemma find?_put_other (h : there ≠ steps) : (tree.put steps e).entries.find? (·.1.steps == there) =
    tree.entries.find? (·.1.steps == there) := by
  have hnew : [((⟨steps⟩ : Path), e)].find? (·.1.steps == there) = none := by simp [h.symm]
  rw [put, List.find?_append, List.find?_filter, hnew, Option.or_none]
  congr 1
  funext f
  by_cases hf : f.1.steps = there
  · simp [hf, h]
  · simp [hf]

lemma entry?_put_self (tree : FileTree) (steps : List String) (e : FileEntry) :
    entry? (tree.put steps e) steps = some e := by
  have hold : (tree.entries.filter fun f => f.1.steps != steps).find?
      (fun f => f.1.steps == steps) = none := by
    rw [List.find?_eq_none]
    intro f hf
    simpa using (List.mem_filter.mp hf).2
  have hfind : (tree.put steps e).entries.find? (fun f => f.1.steps == steps) =
      some (⟨steps⟩, e) := by
    rw [put, List.find?_append, hold]
    simp
  rw [ entry?, hfind]

/-- What stands elsewhere stays. -/
lemma entry?_put_other (h : tree.entry? there = some d) (hne : there ≠ steps) :
    entry? (tree.put steps e) there = some d := by
  have hfind : (tree.put steps e).entries.find? (fun f => f.1.steps == there) = _ :=
    find?_put_other hne
  rw [ entry?] at h ⊢
  rcases hfound : tree.entries.find? (fun f => f.1.steps == there) with _ | f <;>
    rw [hfound] at h hfind <;> rw [hfind]
  · -- a directory that is there because something is in it
    have hany : (tree.entries.any fun f => there.isPrefixOf f.1.steps) = true →
        ((tree.put steps e).entries.any fun f => there.isPrefixOf f.1.steps) = true := by
      intro hany
      obtain ⟨f, hf, hpre⟩ := List.any_eq_true.mp hany
      rw [put, List.any_append, Bool.or_eq_true]
      by_cases hs : f.1.steps = steps
      · right
        simpa [hs] using hpre
      · left
        exact List.any_eq_true.mpr ⟨f, List.mem_filter.mpr ⟨hf, by simpa using hs⟩, hpre⟩
    simp only [Bool.or_eq_true] at h ⊢
    split at h
    · next hbegins => exact (if_pos (hbegins.imp_right hany)).trans h
    · cases h
  · exact h

/-- Something new is on no way to a place that could be reached before, unless it replaces a
directory. -/
lemma walk_put (hsteps : tree.entry? steps ≠ some .directory) {rest : List String}
    (h : tree.walk here rest = .ok place) : (tree.put steps e).walk here rest = .ok place := by
  fun_induction tree.walk here rest with
  | case1 here => exact h
  | case2 here rest ih =>
      rw [walk]
      exact ih h
  | case3 here s rest hup hlimit => cases h
  | case4 here s hup there hlimit =>
      rw [walk, if_neg hlimit]
      · exact h
      · exact hup
  | case5 here s hup there hlimit rest hrest hentry ih =>
      have hne : there ≠ steps := fun heq => hsteps (heq ▸ hentry)
      rw [walk, if_neg hlimit]
      · exact ih h
      · exact hup
      · exact entry?_put_other hentry hne
      · exact hrest
  | case6 => cases h
  | case7 => cases h

lemma place_put (hsteps : tree.entry? steps ≠ some .directory) (h : tree.place path = .ok place) :
    (tree.put steps e).place path = .ok place := by
  rw [FileTree.place] at h ⊢
  rcases hrefusal : refusal? path with _ | why <;> rw [hrefusal] at h
  · exact walk_put hsteps h
  · cases h

/-- A file is written where no directory is. -/
lemma write_of_place (hplace : tree.place path = .ok steps)
    (hsteps : tree.entry? steps ≠ some .directory) (bytes : List UInt8) :
    tree.write path bytes = .ok (tree.put steps (.file bytes)) := by
  simp only [write, hplace, bind, Except.bind]
  rfl

/-- A file is at a place where it was put, and nowhere else. -/
lemma entry?_eq_file_iff : tree.entry? there = some (.file bytes) ↔
    ∃ p, tree.entries.find? (·.1.steps == there) = some (p, .file bytes) := by
  rw [ entry?]
  rcases hfound : tree.entries.find? (fun f => f.1.steps == there) with _ | ⟨p, e⟩ <;> rw [hfound]
  · refine iff_of_false (fun h => ?_) nofun
    dsimp only at h
    split at h <;> cases h
  · constructor
    · intro h
      cases h
      exact ⟨p, rfl⟩
    · rintro ⟨q, h⟩
      cases h
      rfl

/-- Files elsewhere are as before. -/
lemma entry?_put_file_other (h : there ≠ steps) :
    entry? (tree.put steps e) there = some (.file bytes) ↔
      tree.entry? there = some (.file bytes) := by
  rw [entry?_eq_file_iff, entry?_eq_file_iff, find?_put_other h]

/-- Directories that are made leave all files as they are. -/
lemma entry?_makeFrom (h : tree.makeFrom here steps = .ok made) :
    made.entry? there = some (.file bytes) ↔ tree.entry? there = some (.file bytes) := by
  fun_induction makeFrom tree here steps with
  | case1 =>
      cases h
      exact Iff.rfl
  | case2 tree here steps ih => exact ih h
  | case3 => cases h
  | case4 tree here s steps hup place hlimit hentry ih => exact ih h
  | case5 => cases h
  | case6 tree here s steps hup place hlimit hentry ih =>
      rw [ih h]
      by_cases hplace : there = place
      · subst hplace
        rw [hentry, entry?_put_self]
        exact iff_of_false nofun nofun
      · exact entry?_put_file_other hplace

/-- Directories that are made leave all directories. -/
lemma directory_makeFrom (h : tree.makeFrom here steps = .ok made)
    (hthere : tree.entry? there = some .directory) : made.entry? there = some .directory := by
  fun_induction makeFrom tree here steps with
  | case1 =>
      cases h
      exact hthere
  | case2 tree here steps ih => exact ih h hthere
  | case3 => cases h
  | case4 tree here s steps hup place hlimit hentry ih => exact ih h hthere
  | case5 => cases h
  | case6 tree here s steps hup place hlimit hentry ih =>
      refine ih h (entry?_put_other hthere ?_)
      rintro rfl
      cases hentry.symm.trans hthere

lemma workingDir_makeFrom (h : tree.makeFrom here steps = .ok made) :
    made.workingDir = tree.workingDir := by
  fun_induction makeFrom tree here steps with
  | case1 =>
      cases h
      rfl
  | case2 tree here steps ih => exact ih h
  | case3 => cases h
  | case4 tree here s steps hup place hlimit hentry ih => exact ih h
  | case5 => cases h
  | case6 tree here s steps hup place hlimit hentry ih => exact ih h

/-- Directories that have been made are not made again, as long as they are there. -/
lemma makeFrom_again (h : tree.makeFrom here steps = .ok made)
    (hkept : ∀ place, made.entry? place = some .directory →
      written.entry? place = some .directory) : written.makeFrom here steps = .ok written := by
  fun_induction makeFrom tree here steps with
  | case1 =>
      rw [makeFrom]
  | case2 tree here steps ih =>
      rw [makeFrom]
      exact ih h
  | case3 => cases h
  | case4 tree here s steps hup place hlimit hentry ih =>
      have hthere := hkept place (directory_makeFrom h hentry)
      rw [makeFrom, if_neg hlimit, hthere]
      · exact ih h
      · exact hup
  | case5 => cases h
  | case6 tree here s steps hup place hlimit hentry ih =>
      have hthere := hkept place (directory_makeFrom h (entry?_put_self tree place .directory))
      rw [makeFrom, if_neg hlimit, hthere]
      · exact ih h
      · exact hup

/-- One file of a tree has been written, and all others are as before. -/
structure Rewrites (tree written : FileTree) (place : List String) (bytes : List UInt8) : Prop where
  there : written.entry? place = some (.file bytes)
  elsewhere : ∀ steps other, steps ≠ place →
    (written.entry? steps = some (.file other) ↔ tree.entry? steps = some (.file other))

/-- A file is written at its place, where no directory is. -/
lemma exists_place_of_write (h : tree.write path bytes = .ok written) :
    ∃ place, tree.place path = .ok place ∧ tree.entry? place ≠ some .directory ∧
      written = tree.put place (.file bytes) := by
  rcases hplace : tree.place path with why | place
  · rw [write, hplace] at h
    cases h
  · by_cases hnot : tree.entry? place = some .directory
    · simp only [write, hplace, bind, Except.bind, hnot] at h
      cases h
    · exact ⟨place, rfl, hnot,
        Except.ok.inj (h.symm.trans (write_of_place hplace hnot bytes))⟩

/-- **A file that was opened is written**, and no other one. -/
lemma exists_rewrites {opened : FileTree} {directory : Path}
    (hmade : tree.makeDirectories directory = .ok made) (hopened : made.write path [] = .ok opened)
    (bytes : List UInt8) : ∃ written place, opened.write path bytes = .ok written ∧
      written.place path = .ok place ∧ tree.Rewrites written place bytes := by
  obtain ⟨place, hplace, hnot, rfl⟩ := exists_place_of_write hopened
  have hfile : entry? (made.put place (.file [])) place ≠ some .directory := by
    rw [entry?_put_self]
    nofun
  have hopen := place_put (e := .file []) hnot hplace
  refine ⟨_, place, write_of_place hopen hfile bytes, place_put hfile hopen,
    entry?_put_self _ _ _, fun steps other hne => ?_⟩
  rw [entry?_put_file_other hne, entry?_put_file_other hne]
  rw [makeDirectories] at hmade
  split at hmade
  · cases hmade
  · exact entry?_makeFrom hmade

/-- **A file that was written can be written again**: its directory need not be made, and it can be
opened. -/
lemma exists_reopened {opened : FileTree} {directory : Path}
    (hmade : tree.makeDirectories directory = .ok made) (hopened : made.write path [] = .ok opened)
    (hwritten : opened.write path bytes = .ok written) :
    written.makeDirectories directory = .ok written ∧
      ∃ reopened, written.write path [] = .ok reopened := by
  obtain ⟨place, hplace, hnot, rfl⟩ := exists_place_of_write hopened
  obtain ⟨place', hplace', -, rfl⟩ := exists_place_of_write hwritten
  have hopen := place_put (e := .file []) hnot hplace
  obtain rfl : place' = place := Except.ok.inj (hplace'.symm.trans hopen)
  have hfile : ∀ (t : FileTree) (bytes : List UInt8),
      entry? (t.put place' (.file bytes)) place' ≠ some .directory := fun t bytes => by
    rw [entry?_put_self]
    nofun
  constructor
  · rw [makeDirectories] at hmade ⊢
    split at hmade
    · cases hmade
    · have hstart : start ((made.put place' (.file [])).put place' (.file bytes)) directory =
          tree.start directory := by
        have hdir : made.workingDir = tree.workingDir := workingDir_makeFrom hmade
        have hput : ((made.put place' (.file [])).put place' (.file bytes)).workingDir =
            tree.workingDir := hdir
        rw [start, start, hput]
      rw [hstart]
      refine makeFrom_again hmade fun there hthere => ?_
      have hne : there ≠ place' := by
        rintro rfl
        exact hnot hthere
      exact entry?_put_other (entry?_put_other hthere hne) hne
  · exact ⟨_, write_of_place (place_put (hfile _ _) hopen) (hfile _ _) []⟩

end FileTree

/-! ### Settings of the declared types -/

namespace Settings

variable {t u : Settings} {k : SettingKey} {v : Value}

/-- Settings are told apart by their values. -/
lemma ext_get (h : ∀ k : SettingKey, k.get t = k.get u) : t = u := by
  obtain ⟨⟨base, builtins, sep, wildcard⟩, ⟨enabled⟩, ⟨workers, publish⟩, ⟨symbols, format⟩,
    ⟨level⟩⟩ := t
  obtain ⟨⟨base', builtins', sep', wildcard'⟩, ⟨enabled'⟩, ⟨workers', publish'⟩,
    ⟨symbols', format'⟩, ⟨level'⟩⟩ := u
  have hbase : base = base' := h .basePackage
  have hbuiltins : builtins = builtins' := (Value.list.inj (h .builtinTypes)).1
  have hsep : sep = sep' := h .packageSeparator
  have hwildcard : wildcard = wildcard' := h .wildcardMarker
  have henabled : enabled = enabled' := (Value.list.inj (h .enabledDialects)).1
  have hworkers : workers = workers' := Value.int.inj (h .workers)
  have hpublish : publish = publish' := Value.bool.inj (h .publishToMetadata)
  have hsymbols : symbols = symbols' := h .symbols
  have hformat : format = format' := h .format
  have hlevel : level = level' := h .level
  subst hbase hbuiltins hsep hwildcard henabled hworkers hpublish hsymbols hformat hlevel
  rfl

lemma Typed.admits (h : t.Typed) (k : SettingKey) : k.Admits (k.get t) := by
  cases k with
  | basePackage => exact Value.isText_iff.mp h.basePackage
  | packageSeparator => exact Value.isText_iff.mp h.packageSeparator
  | wildcardMarker => exact Value.isText_iff.mp h.wildcardMarker
  | symbols => exact Value.isText_iff.mp h.symbols
  | format => exact Value.isText_iff.mp h.format
  | level => exact Value.isText_iff.mp h.level
  | builtinTypes => exact ⟨_, none, rfl, h.builtinTypes⟩
  | enabledDialects => exact ⟨_, none, rfl, h.enabled⟩
  | _ => exact ⟨_, rfl⟩

lemma eq_of_sameList {xs ys : List Value} (h : ∀ x ∈ xs, x.isText)
    (hsame : Value.sameList xs ys = true) : xs = ys := by
  induction xs generalizing ys with
  | nil =>
      cases ys with
      | nil => rfl
      | cons y ys => simp [Value.sameList] at hsame
  | cons x xs ih =>
      rw [List.forall_mem_cons] at h
      obtain ⟨s, rfl⟩ := Value.isText_iff.mp h.1
      cases ys with
      | nil => simp [Value.sameList] at hsame
      | cons y ys =>
          rw [Value.sameList, Bool.and_eq_true] at hsame
          rw [Value.same_text_left.mp hsame.1, ih h.2 hsame.2]

/-- An equal value of the declared type is taken for the value of a setting. -/
lemma taken_of_same (h : k.Admits v) (hsame : v.same (k.get t) = true) : k.taken v = k.get t := by
  cases k with
  | builtinTypes | enabledDialects =>
      obtain ⟨xs, mark, rfl, hxs⟩ := h
      rw [SettingKey.get, Value.same] at hsame
      exact congrArg (Value.list ·) (eq_of_sameList hxs hsame)
  | workers =>
      obtain ⟨n, hn⟩ := h
      have heq : n = t.pipeline.workers := by
        cases v with
        | bool b | int m =>
            cases hn
            simpa [SettingKey.get, Value.same, Value.sameNumber, Value.integer?] using hsame
        | _ => cases hn
      rw [SettingKey.taken, hn, heq]
      rfl
  | publishToMetadata =>
      obtain ⟨b, rfl⟩ := h
      have heq : b = t.pipeline.publishToMetadata := by
        simp only [SettingKey.get, Value.same, Value.sameNumber, Value.integer?,
          beq_iff_eq] at hsame
        revert hsame
        cases b <;> cases t.pipeline.publishToMetadata <;> decide
      rw [heq]
      rfl
  | _ =>
      obtain ⟨s, rfl⟩ := h
      exact Value.same_text_left.mp hsame

end Settings

open Value (lookup? field? KeyedOnce)

/-! ### A file that records all settings -/

lemma Value.mem_of_lookup? {es : Entries} {k v : Value} (h : lookup? es k = some v) :
    ∃ l, (l, v) ∈ es ∧ l.same k = true := by
  obtain ⟨e, he, rfl⟩ := Option.map_eq_some_iff.mp h
  have hsame : e.1.same k = true := by simpa using List.find?_some he
  exact ⟨e.1, List.mem_of_find?_eq_some he, hsame⟩

namespace Layer

variable {es fs base : Entries} {t : Settings} {k : SettingKey} {v : Value}

/-- A setting under its name: its value is equal, and of the declared type if that one is. -/
def RecordsIn (g : SettingsSection) (t : Settings) (f : Value × Value) : Prop :=
  ∃ k : SettingKey, k.home = g ∧ f.1.text? = some k.label ∧ f.2.same (k.get t) = true ∧
    (k.Admits (k.get t) → k.Admits f.2)

instance (g : SettingsSection) (t : Settings) (f : Value × Value) : Decidable (RecordsIn g t f) :=
  inferInstanceAs (Decidable (∃ _, _))

/-- The entries of a file that holds all settings, and nothing else. -/
structure Records (es : Entries) (t : Settings) : Prop where
  once : KeyedOnce es
  sections : ∀ e ∈ es, ∃ g : SettingsSection, e.1.text? = some g.label ∧ e.2.isMapping = true ∧
    KeyedOnce e.2.fields ∧ ∀ f ∈ e.2.fields, RecordsIn g t f
  complete : ∀ k : SettingKey, (k.defined? es).isSome = true

instance (es : Entries) (t : Settings) : Decidable (Records es t) :=
  decidable_of_iff (KeyedOnce es ∧ (∀ e ∈ es, ∃ g : SettingsSection, e.1.text? = some g.label ∧
    e.2.isMapping = true ∧ KeyedOnce e.2.fields ∧ ∀ f ∈ e.2.fields, RecordsIn g t f) ∧
    ∀ k : SettingKey, (k.defined? es).isSome = true)
    ⟨fun h => ⟨h.1, h.2.1, h.2.2⟩, fun h => ⟨h.once, h.sections, h.complete⟩⟩

namespace Records

variable (h : Records es t)
include h

lemma field?_section {g : SettingsSection} (hv : field? es g.label = some v) :
    v.isMapping = true ∧ KeyedOnce v.fields ∧ ∀ f ∈ v.fields, RecordsIn g t f := by
  obtain ⟨l, hl, hsame⟩ := Value.mem_of_lookup? hv
  obtain ⟨g', hname, hsection⟩ := h.sections _ hl
  rw [Value.same_text_right.mp hsame] at hname
  have hg : g.label = g'.label := Option.some.inj hname
  rw [SettingKey.home_label_injective hg]
  exact hsection

lemma defined (ht : t.Typed) (hv : k.defined? es = some v) :
    k.Admits v ∧ k.taken v = k.get t := by
  obtain ⟨w, hw, hv⟩ := Option.bind_eq_some_iff.mp hv
  obtain ⟨l, hl, hsame⟩ := Value.mem_of_lookup? hv
  obtain ⟨k', -, hname, heq, hadmits⟩ := (h.field?_section hw).2.2 _ hl
  rw [Value.same_text_right.mp hsame] at hname
  obtain rfl : k = k' := SettingKey.label_injective (Option.some.inj hname)
  have hv := hadmits (ht.admits k)
  exact ⟨hv, Settings.taken_of_same hv heq⟩

lemma orderly (ht : t.Typed) : Orderly es where
  once := h.once
  sections _ _ hv := (h.field?_section hv).1
  settings _ _ hv := (h.defined ht hv).1
  sectionsOnce _ _ hv := (h.field?_section hv).2.1

lemma exists_defined (ht : t.Typed) (k : SettingKey) :
    ∃ v, k.defined? es = some v ∧ k.taken v = k.get t := by
  obtain ⟨v, hv⟩ := Option.isSome_iff_exists.mp (h.complete k)
  exact ⟨v, hv, (h.defined ht hv).2⟩

lemma exists_section (g : SettingsSection) : ∃ v, field? es g.label = some v := by
  obtain ⟨k, rfl⟩ := SettingKey.home_surjective g
  obtain ⟨v, hv⟩ := Option.isSome_iff_exists.mp (h.complete k)
  obtain ⟨w, hw, -⟩ := Option.bind_eq_some_iff.mp hv
  exact ⟨w, hw⟩

lemma ne_nil : es ≠ [] := by
  rintro rfl
  obtain ⟨v, hv⟩ := h.exists_section .resolver
  cases hv

/-- No mapping stands inside a section. -/
lemma flat (ht : t.Typed) : ∀ e ∈ es, ∀ f ∈ e.2.fields, f.2.isMapping = false := by
  intro e he f hf
  obtain ⟨g, -, -, -, hall⟩ := h.sections e he
  obtain ⟨k, -, -, -, hadmits⟩ := hall f hf
  exact (hadmits (ht.admits k)).not_isMapping

/-- Nothing is asked of what lies below all settings. -/
lemma wellTyped_merge (ht : t.Typed) (base : Entries) : WellTyped (merge base es) := by
  refine Layer.wellTyped_merge (h.orderly ht) (fun g v hnone _ => ?_) fun k v hnone _ => ?_
  · obtain ⟨w, hw⟩ := h.exists_section g
    cases hw.symm.trans hnone
  · obtain ⟨w, hw, -⟩ := h.exists_defined ht k
    cases hw.symm.trans hnone

end Records

/-! ### Mappings that are not nested -/

variable {around : List (Mark × Mark)}

lemma meetAgain_of_not_isMapping {old : Value} (h : old.isMapping = false ∨ v.isMapping = false) :
    meetAgain around old v = false := by
  cases v with
  | dict fs mark =>
      cases old with
      | dict es mark' => rcases h with h | h <;> cases h
      | _ => rw [meetAgain]; nofun
  | _ => rw [meetAgain]; nofun

lemma fieldsMeetAgain_eq_false (h : ∀ e ∈ fs, ∀ old, lookup? base e.1 = some old →
    meetAgain around old e.2 = false) : fieldsMeetAgain around base fs = false := by
  induction fs with
  | nil => rw [fieldsMeetAgain]
  | cons e fs ih =>
      obtain ⟨k, v⟩ := e
      rw [List.forall_mem_cons] at h
      have hhead : ((lookup? base k).any fun old => meetAgain around old v) = false := by
        rcases hold : lookup? base k with _ | old
        · rfl
        · exact h.1 old hold
      rw [fieldsMeetAgain, hhead, ih h.2]
      rfl

/-- Two mappings of which one holds no mapping. -/
lemma meetAgain_of_flat {old : Value} (h : (∀ f ∈ old.fields, f.2.isMapping = false) ∨
    ∀ f ∈ v.fields, f.2.isMapping = false) : meetAgain [] old v = false := by
  cases v with
  | dict fs mark =>
      unfold meetAgain
      split
      · next es old new =>
          rw [List.contains_nil, Bool.false_or]
          refine fieldsMeetAgain_eq_false fun e he old hold => meetAgain_of_not_isMapping ?_
          refine h.imp (fun h => ?_) fun h => h e he
          obtain ⟨l, hl, -⟩ := Value.mem_of_lookup? hold
          exact h _ hl
      · rfl
  | _ => rw [meetAgain]; nofun

/-- Where one of two files has no mappings inside its sections, none meet again. -/
lemma fieldsMeetAgain_of_flat
    (h : (∀ e ∈ es, ∀ f ∈ e.2.fields, f.2.isMapping = false) ∨
      ∀ e ∈ fs, ∀ f ∈ e.2.fields, f.2.isMapping = false) : fieldsMeetAgain [] es fs = false := by
  refine fieldsMeetAgain_eq_false fun e he old hold => meetAgain_of_flat ?_
  refine h.imp (fun h => ?_) fun h => h e he
  obtain ⟨l, hl, -⟩ := Value.mem_of_lookup? hold
  exact h _ hl

end Layer

/-! ### How settings are written -/

namespace Yaml.Block

variable {bs cs : List (String × Block)}

/-- An entry under its name. -/
def named (b : String × Block) : Value × Block × Block := (.text b.1, scalar .str b.1 none, b.2)

/-- A mapping from names to blocks. -/
def ofNamed (bs : List (String × Block)) : Block :=
  mapping .map (bs.map fun b => (scalar .str b.1 none, b.2)) none

/-- What entries are sorted by. -/
def entryCodes (e : Value × Block × Block) : List ℕ := e.1.codes

lemma ofEntriesIn?_named {α : Type} {name : α → String} {value : α → Value} {block : α → Block}
    (h : ∀ a, ofValueIn? [] (value a) = .ok (block a)) (xs : List α) :
    ofEntriesIn? [] ((xs.map fun a => (name a, value a)).map fun e => (.text e.1, e.2)) =
      .ok ((xs.map fun a => (name a, block a)).map named) := by
  induction xs with
  | nil => rw [List.map_nil, List.map_nil, ofEntriesIn?]; rfl
  | cons x xs ih =>
      rw [List.map_cons, List.map_cons, ofEntriesIn?, ofValueIn?, h, ih]
      rfl

/-- Entries are sorted by their names. -/
lemma sortEntries_named (hperm : bs.Perm cs)
    (hsorted : cs.Pairwise fun a b => Text.codes a.1 < Text.codes b.1) :
    sortEntries (bs.map named) = cs.map fun c => (scalar .str c.1 none, c.2) := by
  have hcompares : Value.ComparesBy (fun a b => Value.less? a.1 b.1) entryCodes (bs.map named) := by
    intro x hx y hy
    obtain ⟨b, -, rfl⟩ := List.mem_map.mp hx
    obtain ⟨c, -, rfl⟩ := List.mem_map.mp hy
    have htexts : ∀ v ∈ [Value.text b.1, .text c.1], v.isText := by simp [Value.isText, Value.text?]
    exact Value.comparesBy_codes htexts _ (by simp [named]) _ (by simp [named])
  have hkeys : (cs.map named).Pairwise (entryCodes · < entryCodes ·) :=
    List.pairwise_map.mpr hsorted
  have horder : Value.orderedBy entryCodes (bs.map named) = cs.map named := by
    have hboth := (Value.orderedBy_perm entryCodes (bs.map named)).trans (hperm.map named)
    refine hboth.eq_of_pairwise (fun a b ha hb hab hba => ?_)
      (Value.pairwise_orderedBy entryCodes _) (hkeys.imp le_of_lt)
    have hnodup : ((cs.map named).map entryCodes).Nodup :=
      List.pairwise_map.mpr (hkeys.imp ne_of_lt)
    exact List.inj_on_of_nodup_map hnodup (hboth.mem_iff.mp ha) hb (le_antisymm hab hba)
  rw [sortEntries, Value.sortBy?_eq hcompares, horder]
  exact List.map_map

/-- Whatever a mapping holds under names is written in the order of the names. -/
lemma ofValueIn?_mapped {α : Type} {name : α → String} {value : α → Value} {block : α → Block}
    (h : ∀ a, ofValueIn? [] (value a) = .ok (block a)) {xs ys : List α} (hperm : xs.Perm ys)
    (hsorted : ys.Pairwise fun a b => Text.codes (name a) < Text.codes (name b)) :
    ofValueIn? [] (Settings.sectionValue (xs.map fun a => (name a, value a))) =
      .ok (ofNamed (ys.map fun a => (name a, block a))) := by
  have hentries : ofEntriesIn? [] ((xs.map fun a => (name a, value a)).map fun e =>
      (.text e.1, e.2)) = .ok ((xs.map fun a => (name a, block a)).map named) :=
    ofEntriesIn?_named h xs
  rw [Settings.sectionValue, ofValueIn?, ofNamed,
    ← sortEntries_named (hperm.map _) (List.pairwise_map.mpr hsorted)]
  change (ofEntriesIn? [] _ >>= _) = _
  rw [hentries]
  rfl

/-- The sections in the order of their names. -/
def sections : List SettingsSection := [.dialects, .display, .logging, .pipeline, .resolver]

/-- The settings of a section in the order of their names. -/
def settingsIn : SettingsSection → List SettingKey
  | .resolver => [.basePackage, .builtinTypes, .packageSeparator, .wildcardMarker]
  | .dialects => [.enabledDialects]
  | .pipeline => [.publishToMetadata, .workers]
  | .display => [.format, .symbols]
  | .logging => [.level]

/-- The settings of a section in the order in which they are declared. -/
def declaredIn : SettingsSection → List SettingKey
  | .pipeline => [.workers, .publishToMetadata]
  | .display => [.symbols, .format]
  | g => settingsIn g

/-- The block of settings, from the blocks of their values. -/
def ofSettings (block : SettingKey → Block) : Block :=
  ofNamed (sections.map fun g =>
    (g.label, ofNamed ((settingsIn g).map fun k => (k.label, block k))))

/-- **Settings are written in the order of their names**, section by section. -/
lemma ofValue?_settings (t : Settings) {block : SettingKey → Block}
    (h : ∀ k : SettingKey, ofValueIn? [] (k.get t) = .ok (block k)) :
    ofValue? t.toValue = .ok (ofSettings block) := by
  have hvalue : t.toValue = Settings.sectionValue
      ([SettingsSection.resolver, .dialects, .pipeline, .display, .logging].map fun g =>
        (g.label, Settings.sectionValue ((declaredIn g).map fun k => (k.label, k.get t)))) := rfl
  rw [hvalue]
  refine ofValueIn?_mapped (fun g => ofValueIn?_mapped h ?_ ?_) (by decide) (by decide)
  · cases g <;> decide
  · cases g <;> decide

end Yaml.Block

/-- A page with a block on it. -/
def Yaml.Page.ofBlock (b : Block) : Page :=
  let shared := (b.share.run []).1
  (Page.block (shared.namedIn []) .root 0 shared {}).indent 0

lemma Yaml.write?_eq {v : Value} {b : Block} (h : Block.ofValue? v = .ok b) :
    write? v = .ok (Page.ofBlock b).text := by
  rw [write?, h]
  rfl

/-! ### Reading back what was written -/

/-- A file that the settings are written to gives them back when it is read. -/
def Settings.Rereads (t : Settings) (document : Nat) : Prop :=
  ∀ text, Yaml.write? t.toValue = .ok text → ∃ es mark,
    (decodeText text.toUTF8.toList).map (Yaml.read document) = some (.ok (.dict es mark)) ∧
      Layer.Records es t

namespace Settings

variable {t : Settings} {document : Nat} {cs : List Char}

/-- Whether the settings are read from characters. -/
def readFrom (t : Settings) (document : Nat) (cs : List Char) : Bool :=
  match Yaml.read document (String.ofList (normalBreaks cs)) with
  | .ok (.dict es _) => decide (Layer.Records es t)
  | _ => false

lemma rereads_of_readFrom (hwrite : Yaml.write? t.toValue = .ok (String.ofList cs))
    (h : t.readFrom document cs = true) : t.Rereads document := by
  intro text htext
  obtain rfl : text = String.ofList cs := Except.ok.inj (htext.symm.trans hwrite)
  rw [decodeText_toUTF8, String.toList_ofList, Option.map_some]
  rw [readFrom] at h
  split at h
  · next es mark hread => exact ⟨es, mark, congrArg some hread, of_decide_eq_true h⟩
  · cases h

end Settings

end Concordance
