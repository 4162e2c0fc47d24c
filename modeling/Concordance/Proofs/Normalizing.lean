import Mathlib
import Concordance.Proofs.Changing
import Concordance.Proofs.Wording

/-!
Changing a setting to what it is shown as.

* `SettingKey.put_put` : a value that is there is put again without effect.
* `SettingsStore.Writable.exists_save` : settings that can be written are saved.
  `SettingsStore.change_leaves` : what a change leaves can be written again.
* `SettingsStore.Shows s settings key t` : the store has these settings in force, whatever the
  environment, and shows `t` under the name.
* `SettingsStore.change_shown` : after a change the setting has a text, and a change to this text
  has no effect.
-/

namespace Concordance

lemma SettingKey.put_put {t : Settings} {k : SettingKey} {v : Value} {raw : String}
    (h : k.parse? raw = some v) : k.put (k.put t v) v = k.put t v := by
  refine Settings.ext_get fun l => ?_
  by_cases hl : l = k
  · rw [hl, Settings.get_put_self h, Settings.get_put_self h]
  · rw [Settings.get_put_other hl]

namespace SettingsStore

variable {env : Environment} {s s' : SettingsStore} {key raw t : String} {scope : Scope}
  {settings : Settings} {k : SettingKey} {v : Value} {log : List LogLine}

/-! ### Writing again -/

/-- Settings that can be written are saved. -/
lemma Writable.exists_save (h : s.Writable scope settings) : ∃ files,
    (save scope settings).Yields s (.ok ()) { s with files, held := some settings } [] := by
  obtain ⟨made, opened, text, hmade, hopened, htext⟩ := h
  obtain ⟨files, -, hwritten, -, -⟩ := FileTree.exists_rewrites hmade hopened text.toUTF8.toList
  exact ⟨files, save_yields hmade hopened htext hwritten⟩

/-- **What a change leaves**: the settings with the new value, which can be written again. -/
lemma change_leaves (hkey : SettingKey.ofName? key = some k) (hvalue : k.parse? raw = some v) :
    (change env key raw scope).Ends s (fun refusal s' => refusal = none → ∃ settings,
      s'.held = some (k.put settings v) ∧ s'.Writable scope (k.put settings v) ∧
      (k.put settings v).problemIn k.home = .ok none) fun _ _ => True := by
  refine change_rule (fun _ => nofun) (fun _ _ _ => nofun) fun k' v' hkey' hvalue' =>
    (Step.ends_any _ _).imp (fun settings u _ => ?_) fun _ _ => id
  obtain rfl : k = k' := Option.some.inj (hkey.symm.trans hkey')
  obtain rfl : v = v' := Option.some.inj (hvalue.symm.trans hvalue')
  refine ⟨fun _ _ => trivial, fun _ _ => nofun, fun hproblem => ?_⟩
  refine (save_rule _).imp (fun _ u' hu' _ => ?_) fun _ _ _ => trivial
  obtain ⟨made, opened, text, files, hmade, hopened, htext, hwritten, rfl⟩ := hu'
  obtain ⟨hdirectory, reopened, hreopened⟩ := FileTree.exists_reopened hmade hopened hwritten
  exact ⟨settings, rfl, ⟨files, reopened, text, hdirectory, hreopened, htext⟩, hproblem⟩

/-- A change that was accepted had a setting and a value. -/
lemma exists_parsed (h : (change env key raw scope).run s = (.ok none, s', log)) :
    ∃ k v, SettingKey.ofName? key = some k ∧ k.parse? raw = some v := by
  have hends : (change env key raw scope).Ends s (fun refusal _ => refusal = none →
      ∃ k v, SettingKey.ofName? key = some k ∧ k.parse? raw = some v) fun _ _ => True := by
    refine change_rule (fun _ => nofun) (fun _ _ _ => nofun) fun k v hkey hvalue =>
      (Step.ends_any _ _).imp (fun settings u _ => ⟨fun _ _ => trivial, fun _ _ => nofun,
        fun _ => (Step.ends_any _ _).imp (fun _ _ _ _ => ⟨k, v, hkey, hvalue⟩) fun _ _ => id⟩)
        fun _ _ => id
  exact hends.of_run_ok h rfl

/-! ### What is shown -/

/-- The store has these settings in force, whatever the environment, and shows a text under a
name. -/
def Shows (s : SettingsStore) (settings : Settings) (key t : String) : Prop :=
  ∀ env, (load env).run s = (.ok settings, s, []) ∧ (get? env key).run s = (.ok (some t), s, [])

lemma shows_of_held (hheld : s.held = some settings) (hkey : SettingKey.ofName? key = some k)
    (ht : k.shown? settings = .ok t) : s.Shows settings key t := by
  intro env
  have hload := load_yields_held env hheld
  refine ⟨hload.run, Step.Yields.run ?_⟩
  rw [get?, hkey]
  refine hload.bind ?_
  rw [ht]
  exact (Step.yields_ofAnswer (.ok t)).bind (Step.yields_pure (some t))

/-- A file that holds the settings in force. -/
lemma Saved.read {u : SettingsStore} (h : s.Saved scope) (h' : u.Saved scope)
    (hheld : s.held = some settings) (hheld' : u.held = some settings) :
    s.files.read (s.path scope) = u.files.read (u.path scope) := by
  obtain ⟨held, text, hs, htext, hread⟩ := h
  obtain ⟨held', text', hu, htext', hread'⟩ := h'
  obtain rfl := Option.some.inj (hs.symm.trans hheld)
  obtain rfl := Option.some.inj (hu.symm.trans hheld')
  obtain rfl := Except.ok.inj (htext.symm.trans htext')
  rw [hread, hread']

/-- **A setting is changed to what it is shown as** without effect. After a change that was accepted
the setting is shown as a text, whatever the environment. A change to this text is accepted in turn,
and leaves the settings, the file and the text that is shown as they are. A list holds the pieces of
its text between commas, without the blanks around them and without the empty ones, in their
order. -/
theorem change_shown (env : Environment) (s s' : SettingsStore) (key raw : String) (scope : Scope)
    (log : List LogLine) (h : (change env key raw scope).run s = (.ok none, s', log)) :
    ∃ settings t, s'.Shows settings key t ∧
      (∀ env', ∃ s'', (change env' key t scope).run s' = (.ok none, s'', []) ∧
        s''.Shows settings key t ∧
        s''.files.read (s''.path scope) = s'.files.read (s'.path scope)) ∧
      ∀ k : SettingKey, SettingKey.ofName? key = some k →
        k = .builtinTypes ∨ k = .enabledDialects → ∃ ps qs : List String,
          ",".intercalate ps = raw ∧ (∀ p ∈ ps, ',' ∉ p.toList) ∧
          List.Forall₂ (fun p q => Text.Trims Text.isBlank p.toList q.toList) ps qs ∧
          k.get settings = .list (textValues (qs.filter (· != ""))) := by
  obtain ⟨k, v, hkey, hvalue⟩ := exists_parsed h
  obtain ⟨before, hheld, hwritable, hproblem⟩ := (change_leaves hkey hvalue).of_run_ok h rfl
  obtain ⟨t, ht, hagain⟩ := SettingKey.exists_textOf? hvalue
  have hget : k.get (k.put before v) = v := Settings.get_put_self hvalue
  have hput : k.put (k.put before v) v = k.put before v := SettingKey.put_put hvalue
  have hshown : k.shown? (k.put before v) = .ok t := by rw [SettingKey.shown?, hget, ht]
  refine ⟨k.put before v, t, shows_of_held hheld hkey hshown, fun env' => ?_, ?_⟩
  · obtain ⟨files, hsave⟩ := hwritable.exists_save
    rw [← hput] at hproblem hsave
    have hchange := change_yields hkey hagain (load_yields_held env' hheld) hproblem hsave
    rw [hput] at hchange
    exact ⟨_, hchange.run, shows_of_held rfl hkey hshown,
      (change_ends.of_run_ok hchange.run rfl).read (change_ends.of_run_ok h rfl) rfl hheld⟩
  · intro k' hkey' hlist
    obtain rfl : k = k' := Option.some.inj (hkey.symm.trans hkey')
    obtain ⟨ps, qs, hjoined, hplain, htrims, hlistOf⟩ := SettingKey.listOf_pieces raw
    refine ⟨ps, qs, hjoined, hplain, htrims, ?_⟩
    rw [hget, ← hlistOf]
    rcases hlist with rfl | rfl
    · exact (Option.some.inj hvalue).symm
    · exact (Option.some.inj hvalue).symm

/-- A change of the number of workers, made once more. -/
theorem change_shown_usual : ∃ s' settings t,
    (change {} "pipeline.workers" "2" .user).run usual = (.ok none, s', []) ∧
    s'.Shows settings "pipeline.workers" t ∧
    ∀ env', ∃ s'', (change env' "pipeline.workers" t .user).run s' = (.ok none, s'', []) ∧
      s''.Shows settings "pipeline.workers" t := by
  obtain ⟨settings, t, hshows, hagain, -⟩ := change_shown _ _ _ _ _ _ _ change_usual.run
  refine ⟨_, settings, t, change_usual.run, hshows, fun env' => ?_⟩
  obtain ⟨s'', hchange, hshows', -⟩ := hagain env'
  exact ⟨s'', hchange, hshows'⟩

end SettingsStore
end Concordance
