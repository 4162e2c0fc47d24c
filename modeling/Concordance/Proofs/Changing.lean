import Mathlib
import Concordance.Proofs.Judgement
import Concordance.Proofs.Saving

/-!
Sequences of changes of settings.

* `Settings.problem?_put`, `Settings.Sound.put_iff` : in sound settings one of which is changed,
  only its section can be wrong.
* `SettingsStore.Gives` : the settings that a store loads.
* `SettingsChange` : a change that is asked for. `SettingsChange.Effect` : what it does to sound
  settings; `SettingsChange.effect` : one change.
* `SettingsStore.changes_sound` : all changes of a sequence.
-/

namespace Concordance

/-! ### One setting among all -/

namespace Settings

variable {t u : Settings} {k l : SettingKey} {v : Value} {raw : String} {g : SettingsSection}

lemma getOr_sectionValue (es : List (String × Value)) (key : String) (default : Value) :
    getOr (sectionValue es) key default =
      .ok (((es.find? (·.1 == key)).map (·.2)).getD default) := by
  rw [sectionValue, getOr_dict]
  congr 2
  induction es with
  | nil => rfl
  | cons e es ih =>
      obtain ⟨name, v⟩ := e
      rw [List.map_cons, Value.field?]
      by_cases hname : name = key
      · subst hname
        rw [Value.lookup?_cons_self, List.find?_cons_of_pos (by simp)]
        rfl
      · rw [Value.lookup?_cons_other fun h => hname (Value.text_injective h),
          List.find?_cons_of_neg (by simpa using hname)]
        exact ih

/-- Settings are the same after being turned into a mapping and back. -/
lemma ofValue?_toValue (t : Settings) : ofValue? t.toValue = .ok t := by
  simp [ofValue?, toValue, getOr_sectionValue, bind, Except.bind, pure, Except.pure, Value.items?,
    Value.members?, toInt?, Value.truthy]

lemma get_put_other (h : l ≠ k) : l.get (k.put t v) = l.get t := by
  cases k with
  | builtinTypes | enabledDialects | workers | publishToMetadata =>
      cases v <;> first
        | rfl
        | cases l <;> first | rfl | exact absurd rfl h
  | _ => cases l <;> first | rfl | exact absurd rfl h

/-- The value that a text stands for is the one that is put. -/
lemma get_put_self (h : k.parse? raw = some v) : k.get (k.put t v) = v := by
  cases k with
  | workers =>
      obtain ⟨n, -, rfl⟩ := Option.map_eq_some_iff.mp h
      rfl
  | _ =>
      cases h
      rfl

/-- A setting that is given a value of its type. -/
lemma Typed.put (ht : t.Typed) (hv : k.Admits v) : (k.put t v).Typed := by
  cases k with
  | builtinTypes =>
      obtain ⟨xs, mark, rfl, hxs⟩ := hv
      exact { ht with builtinTypes := hxs }
  | enabledDialects =>
      obtain ⟨xs, mark, rfl, hxs⟩ := hv
      exact { ht with enabled := hxs }
  | workers | publishToMetadata => cases v <;> exact { ht with }
  | basePackage => exact { ht with basePackage := Value.isText_iff.mpr hv }
  | packageSeparator => exact { ht with packageSeparator := Value.isText_iff.mpr hv }
  | wildcardMarker => exact { ht with wildcardMarker := Value.isText_iff.mpr hv }
  | symbols => exact { ht with symbols := Value.isText_iff.mpr hv }
  | format => exact { ht with format := Value.isText_iff.mpr hv }
  | level => exact { ht with level := Value.isText_iff.mpr hv }

/-! ### Problems after a change -/

/-- Other sections are as before. -/
lemma problemIn_put_other (h : g ≠ k.home) : (k.put t v).problemIn g = t.problemIn g := by
  cases k with
  | builtinTypes | enabledDialects | workers | publishToMetadata =>
      cases v <;> first
        | rfl
        | cases g <;> first | rfl | exact absurd rfl h
  | _ => cases g <;> first | rfl | exact absurd rfl h

/-- The first problem of several sections of which only one can be wrong. -/
lemma firstProblem_map {f : SettingsSection → Answer (Option String)} :
    ∀ {gs : List SettingsSection}, gs.Nodup → g ∈ gs → (∀ h ∈ gs, h ≠ g → f h = .ok none) →
      firstProblem (gs.map f) = f g
  | h :: gs, hnodup, hg, hf => by
      obtain ⟨hnew, hnodup⟩ := List.nodup_cons.mp hnodup
      rw [List.forall_mem_cons] at hf
      rw [List.map_cons, firstProblem]
      by_cases heq : h = g
      · subst heq
        have hrest : firstProblem (gs.map f) = .ok none := by
          rw [firstProblem_eq_none_iff, List.forall_mem_map]
          exact fun g' hg' => hf.2 g' hg' fun heq => hnew (heq ▸ hg')
        rw [hrest]
        rcases f h with e | _ | text <;> rfl
      · rw [hf.1 heq]
        exact firstProblem_map hnodup ((List.mem_cons.mp hg).resolve_left (Ne.symm heq)) hf.2

/-- **Only the section of a changed setting can be wrong.** -/
lemma problem?_put (ht : t.problem? = .ok none) :
    (k.put t v).problem? = (k.put t v).problemIn k.home := by
  have hall : ∀ u : Settings, u.problems =
      [SettingsSection.resolver, .dialects, .pipeline, .display, .logging].map u.problemIn :=
    fun _ => rfl
  have hnone := firstProblem_eq_none_iff.mp ht
  rw [hall, List.forall_mem_map] at hnone
  rw [problem?, hall]
  refine firstProblem_map (by decide) (by cases k <;> decide) fun g hg hne => ?_
  rw [problemIn_put_other hne]
  exact hnone g hg

/-- A change of sound settings leaves them sound if nothing is wrong in its section. -/
lemma Sound.put_iff (ht : t.Sound) (hv : k.Admits v) :
    (k.put t v).Sound ↔ (k.put t v).problemIn k.home = .ok none := by
  rw [← problem?_put ht.valid]
  exact ⟨Sound.valid, fun h => ⟨ht.toTyped.put hv, h⟩⟩

end Settings

/-- A file that holds all settings is read as these. -/
lemma Layer.Records.ofValue? {es : Entries} {t : Settings} (h : Layer.Records es t)
    (ht : t.Typed) : Settings.ofValue? (.dict es) = .ok t := by
  have hwell := (h.orderly ht).toWellTyped
  rw [Settings.ofValue?_eq hwell]
  refine congrArg _ (Settings.ext_get fun k => ?_)
  obtain ⟨v, hv, htaken⟩ := h.exists_defined ht k
  rw [Settings.get_ofValues (Settings.given_admits hwell), Settings.given, hv]
  exact htaken

/-! ### The settings that a store loads -/

lemma Layer.load_idle {σ : Type} (tree : FileTree) (env : Environment) (user project : Path) :
    (load tree env user project : Step σ Settings).Idle := by
  have hentries : ∀ n path, (entriesAt tree n path : Step σ Entries).Idle := fun n path =>
    (Step.idle_ofAnswer _).bind fun layer => by
      rcases warning? path layer with _ | line
      · exact Step.idle_pure _
      · exact (Step.idle_log line).bind fun _ => Step.idle_pure _
  have happly : ∀ data o, (Override.apply env data o : Step σ Entries).Idle := fun data o => by
    rw [Override.apply]
    split
    · exact Step.idle_pure data
    · split
      · exact Step.idle_ofAnswer _
      · exact (Step.idle_log _).bind fun _ => Step.idle_pure data
  refine (hentries 0 user).bind fun u => (hentries 1 project).bind fun p => ?_
  split
  · exact (Step.idle_throw .tooDeep).bind fun _ =>
      (Step.Idle.foldlM happly _ _).bind fun _ => Step.idle_ofAnswer _
  · exact (Step.Idle.foldlM happly _ _).bind fun _ => Step.idle_ofAnswer _

namespace SettingsStore

variable {env : Environment} {s : SettingsStore} {t : Settings} {scope : Scope}

/-- The settings that a store loads. -/
def Gives (env : Environment) (s : SettingsStore) (t : Settings) : Prop :=
  ((load env).run s).1 = .ok t

lemma Gives.of_held (h : s.held = some t) : Gives env s t :=
  congrArg Prod.fst (load_yields_held env h).run

/-- Loading makes the settings those in force, and changes nothing else. -/
lemma Gives.yields (h : Gives env s t) :
    ∃ log, (load env).Yields s (.ok t) { s with held := some t } log := by
  rcases hheld : s.held with _ | u
  · obtain ⟨e | u, log, hyields⟩ := Layer.load_idle s.files env (s.path .user) (s.path .project)
    · rw [Gives, (load_yields_error env hheld (hyields s)).run] at h
      cases h
    · have hload := load_yields env hheld (hyields s)
      rw [Gives, hload.run] at h
      cases h
      exact ⟨log, hload⟩
  · have hload := load_yields_held env hheld
    rw [Gives, hload.run] at h
    cases h
    have hsame : { s with held := some t } = s := by rw [← hheld]
    exact ⟨[], hsame.symm ▸ hload⟩

end SettingsStore

/-! ### One change -/

/-- A change of a setting that is asked for, with the scope that it is meant for. -/
structure SettingsChange where
  name : String
  text : String
  scope : Scope
  deriving DecidableEq, Repr

namespace SettingsChange

open SettingsStore (Gives)

variable {c : SettingsChange} {env : Environment} {s s' : SettingsStore} {t t' : Settings}
  {k : SettingKey} {v : Value} {a : Answer (Option String)}

/-- The change as a step of a store. -/
def step (c : SettingsChange) (env : Environment) : Step SettingsStore (Option String) :=
  SettingsStore.change env c.name c.text c.scope

/-- Why a change of settings is refused: no setting has the name, the text stands for no value of
it, or something would be wrong with the settings. -/
inductive Refused (c : SettingsChange) (t : Settings) : String → Prop
  | unknown (hname : SettingKey.ofName? c.name = none) :
      c.Refused t (SettingsStore.unknownSetting c.name)
  | illegible {k : SettingKey} (hname : SettingKey.ofName? c.name = some k)
      (htext : k.parse? c.text = none) :
      c.Refused t ("Invalid value for " ++ c.name ++ ": " ++ c.text)
  | unsound {k : SettingKey} {v : Value} {problem : String}
      (hname : SettingKey.ofName? c.name = some k) (htext : k.parse? c.text = some v)
      (hproblem : (k.put t v).problem? = .ok (some problem)) : c.Refused t problem

/-- A change makes other settings from a copy of those before: they are sound, and differ from those
before at most in the setting that is meant. -/
structure Makes (c : SettingsChange) (t t' : Settings) (k : SettingKey) (v : Value) : Prop where
  name : SettingKey.ofName? c.name = some k
  text : k.parse? c.text = some v
  copied : (Settings.ofValue? t.toValue).map (k.put · v) = .ok t'
  sound : t'.Sound
  changed : k.get t' = v
  kept : ∀ l ≠ k, l.get t' = l.get t

/-- What a change does to a store with these settings. If it is refused the files stay, and so do
the settings in force. If it is accepted the file of its scope is written and no other one; what is
written are the new settings, which are in force from then on. It fails only if they cannot be
written, and then the settings in force stay. -/
inductive Effect (c : SettingsChange) (t : Settings) (s : SettingsStore) :
    Answer (Option String) → SettingsStore → Prop
  | refused {problem : String} {s' : SettingsStore} (hrefused : c.Refused t problem)
      (hsame : s' = s ∨ s.held = none ∧ s' = { s with held := some t }) :
      c.Effect t s (.ok (some problem)) s'
  | accepted {t' : Settings} {k : SettingKey} {v : Value} {files : FileTree}
      {place : List String} {text : String} (hmakes : c.Makes t t' k v)
      (htext : Yaml.write? t'.toValue = .ok text)
      (hplace : files.place (s.path c.scope) = .ok place)
      (hrewrites : s.files.Rewrites files place text.toUTF8.toList)
      (hreads : t'.Rereads c.scope.document → ∃ es,
        Layer.read files c.scope.document (s.path c.scope) = .ok (.mapping es) ∧
          Settings.ofValue? (.dict es) = .ok t') :
      c.Effect t s (.ok none) { s with files, held := some t' }
  | failed {t' : Settings} {k : SettingKey} {v : Value} {files : FileTree} {e : Fault}
      (hmakes : c.Makes t t' k v) (hunwritable : ¬s.Writable c.scope t') :
      c.Effect t s (.error e) { s with files, held := some t }

/-- Loading keeps what is in force. -/
lemma same_of_gives (h : Gives env s t) :
    { s with held := some t } = s ∨
      s.held = none ∧ { s with held := some t } = { s with held := some t } := by
  rcases hheld : s.held with _ | u
  · exact .inr ⟨rfl, rfl⟩
  · have hgives : Gives env s u := .of_held hheld
    obtain rfl : t = u := Except.ok.inj (h.symm.trans hgives)
    exact .inl (by rw [← hheld])

lemma makes_of_sound (hname : SettingKey.ofName? c.name = some k)
    (htext : k.parse? c.text = some v) (hsound : (k.put t v).Sound) :
    c.Makes t (k.put t v) k v where
  name := hname
  text := htext
  copied := by rw [Settings.ofValue?_toValue]; rfl
  sound := hsound
  changed := Settings.get_put_self htext
  kept _ hl := Settings.get_put_other hl

/-- **One change** of sound settings. -/
lemma effect (c : SettingsChange) (h : Gives env s t) (ht : t.Sound) :
    c.Effect t s ((c.step env).run s).1 ((c.step env).after s) := by
  refine Step.Ends.of_run (P := c.Effect t s) (SettingsStore.change_rule
    (fun hname => .refused (.unknown hname) (.inl rfl))
    (fun k hname htext => .refused (.illegible hname htext) (.inl rfl)) fun k v hname htext => ?_)
  have hv := Override.admits_of_parse? htext
  obtain ⟨log, hload⟩ := h.yields
  refine hload.ends ⟨fun e he => ?_, fun problem hproblem => ?_, fun hnone => ?_⟩
  · obtain ⟨problem, hproblem⟩ := Settings.exists_problemIn_iff.mpr
      ((ht.toTyped.put hv).judgedIn k.home)
    cases he.symm.trans hproblem
  · rw [← Settings.problem?_put ht.valid] at hproblem
    exact .refused (.unsound hname htext hproblem) (same_of_gives h)
  · have hmakes := makes_of_sound hname htext ((ht.put_iff hv).mpr hnone)
    refine (SettingsStore.save_ends _).imp (fun _ s' hs' => ?_) fun e s' hs' => ?_
    · obtain ⟨files, place, text, rfl, hwrite, hplace, hrewrites⟩ := hs'
      refine .accepted hmakes hwrite hplace hrewrites fun hreads => ?_
      obtain ⟨es, hread, hrecords⟩ := SettingsStore.read_saved (s := { s with files }) hwrite
        (FileTree.read_of_place hplace hrewrites.there) hreads
      exact ⟨es, hread, hrecords.ofValue? hmakes.sound.toTyped⟩
    · obtain ⟨hunwritable, files, rfl⟩ := hs'
      exact .failed hmakes hunwritable

/-- After a change sound settings are in force. -/
lemma Effect.exists_sound (heffect : c.Effect t s a s') (h : Gives env s t) (ht : t.Sound) :
    ∃ u, u.Sound ∧ Gives env s' u := by
  cases heffect with
  | refused _ hsame =>
      obtain rfl | ⟨-, rfl⟩ := hsame
      · exact ⟨t, ht, h⟩
      · exact ⟨t, ht, .of_held rfl⟩
  | accepted hmakes => exact ⟨_, hmakes.sound, .of_held rfl⟩
  | failed => exact ⟨t, ht, .of_held rfl⟩

/-- The bytes of a file with sound settings. -/
def SoundBytes (bytes : List UInt8) : Prop :=
  ∃ t text, Settings.Sound t ∧ Yaml.write? t.toValue = .ok text ∧ bytes = text.toUTF8.toList

/-- Each file is as before a change, or holds sound settings. -/
lemma Effect.file {answer : Option String} {place : List String} {bytes : List UInt8}
    (heffect : c.Effect t s (.ok answer) s')
    (hfile : s'.files.entry? place = some (.file bytes)) :
    s.files.entry? place = some (.file bytes) ∨ SoundBytes bytes := by
  cases heffect with
  | refused _ hsame =>
      obtain rfl | ⟨-, rfl⟩ := hsame
      · exact .inl hfile
      · exact .inl hfile
  | @accepted t' k v files there text hmakes htext hplace hrewrites hreads =>
      by_cases hthere : place = there
      · subst hthere
        cases hfile.symm.trans hrewrites.there
        exact .inr ⟨t', text, hmakes.sound, htext, rfl⟩
      · exact .inl ((hrewrites.elsewhere _ _ hthere).mp hfile)

end SettingsChange

/-! ### Sequences of changes -/

namespace SettingsStore

open SettingsChange (SoundBytes)

variable {env : Environment} {s : SettingsStore} {t : Settings} {cs : List SettingsChange}

/-- The store after changes one after another, also after those that fail. -/
def following (env : Environment) (s : SettingsStore) (cs : List SettingsChange) : SettingsStore :=
  cs.foldl (fun s c => (c.step env).after s) s

lemma following_concat (env : Environment) (s : SettingsStore) (cs : List SettingsChange)
    (c : SettingsChange) :
    following env s (cs ++ [c]) = (c.step env).after (following env s cs) := by
  rw [following, List.foldl_append]
  rfl

/-- No change fails. -/
def Succeeds (env : Environment) (s : SettingsStore) (cs : List SettingsChange) : Prop :=
  ∀ before c after, cs = before ++ c :: after →
    ∃ answer, ((c.step env).run (following env s before)).1 = .ok answer

/-- Sound settings stay in force, by induction on the changes. -/
lemma exists_sound_following (cs : List SettingsChange) (h : Gives env s t) (ht : t.Sound) :
    ∃ u, u.Sound ∧ Gives env (following env s cs) u := by
  induction cs generalizing s t with
  | nil => exact ⟨t, ht, h⟩
  | cons c cs ih =>
      obtain ⟨u, hu, hgives⟩ := (c.effect h ht).exists_sound h ht
      exact ih hgives hu

/-- Each file is as before or holds sound settings, by induction on the changes. -/
lemma sound_files (h : Gives env s t) (ht : t.Sound) (hcs : Succeeds env s cs) {place : List String}
    {bytes : List UInt8} (hfile : (following env s cs).files.entry? place = some (.file bytes)) :
    s.files.entry? place = some (.file bytes) ∨ SoundBytes bytes := by
  induction cs generalizing s t with
  | nil => exact .inl hfile
  | cons c cs ih =>
      have heffect := c.effect h ht
      obtain ⟨answer, hanswer⟩ := hcs [] c cs rfl
      obtain ⟨u, hu, hgives⟩ := heffect.exists_sound h ht
      have hrest : Succeeds env ((c.step env).after s) cs := fun before d after hd =>
        hcs (c :: before) d after (by rw [hd]; rfl)
      rcases ih hgives hu hrest hfile with hbefore | hsound
      · have hhead : ((c.step env).run s).1 = .ok answer := hanswer
        rw [hhead] at heffect
        exact heffect.file hbefore
      · exact .inr hsound

/-- **No sequence of changes makes settings unsound.** In a store that loads sound settings, any
changes keep sound settings in force, and each of them has its effect on those; if none of them
fails, every file is as it was in the beginning or holds sound settings. -/
theorem changes_sound (env : Environment) (s : SettingsStore) (t : Settings) (h : Gives env s t)
    (ht : t.Sound) (cs : List SettingsChange) :
    (∀ before c after, cs = before ++ c :: after → ∃ u, u.Sound ∧
      Gives env (following env s before) u ∧
      c.Effect u (following env s before) ((c.step env).run (following env s before)).1
        (following env s (before ++ [c]))) ∧
    (Succeeds env s cs → ∀ place bytes,
      (following env s cs).files.entry? place = some (.file bytes) →
        s.files.entry? place = some (.file bytes) ∨ SoundBytes bytes) := by
  refine ⟨fun before c _ _ => ?_, fun hcs _ _ hfile => sound_files h ht hcs hfile⟩
  obtain ⟨u, hu, hgives⟩ := exists_sound_following before h ht
  exact ⟨u, hu, hgives, following_concat env s before c ▸ c.effect hgives hu⟩

/-- The usual settings are sound. -/
lemma sound_usual : Settings.Sound {} where
  basePackage := rfl
  builtinTypes := by decide
  packageSeparator := rfl
  wildcardMarker := rfl
  enabled := by decide
  symbols := rfl
  format := rfl
  level := rfl
  valid := by decide +kernel

/-- A change after which something would be wrong. -/
lemma change_yields_refused {s' : SettingsStore} {key raw problem : String} {scope : Scope}
    {k : SettingKey} {v : Value} {log : List LogLine} (hkey : SettingKey.ofName? key = some k)
    (hvalue : k.parse? raw = some v) (hload : (load env).Yields s (.ok t) s' log)
    (hproblem : (k.put t v).problemIn k.home = .ok (some problem)) :
    (change env key raw scope).Yields s (.ok (some problem)) s' log := by
  rw [change, hkey]
  simp only [hvalue]
  rw [← List.append_nil log]
  refine hload.bind ?_
  rw [hproblem]
  exact (Step.yields_ofAnswer (.ok (some problem))).bind (Step.yields_pure (some problem))

/-- The change of the settings of the user to two workers. -/
def toTwoWorkers : SettingsChange := ⟨"pipeline.workers", "2", .user⟩

/-- A change of the settings of the project to no workers. -/
def toNoWorkers : SettingsChange := ⟨"pipeline.workers", "0", .project⟩

/-- Two changes of the usual settings, of which the second is refused: in force are the settings of
the first one. -/
theorem changes_sound_usual :
    Gives {} usual {} ∧ Settings.Sound {} ∧
      ((toNoWorkers.step {}).run (following {} usual [toTwoWorkers])).1 =
        .ok (some "Workers must be >= 1") ∧
      Gives {} (following {} usual [toTwoWorkers]) Settings.twoWorkers ∧
      toNoWorkers.Effect Settings.twoWorkers (following {} usual [toTwoWorkers])
        (.ok (some "Workers must be >= 1")) (following {} usual [toTwoWorkers, toNoWorkers]) := by
  have hgives : Gives {} usual {} := .of_held rfl
  have hfirst : (following {} usual [toTwoWorkers]).held = some Settings.twoWorkers := by
    rw [← List.nil_append [toTwoWorkers], following_concat]
    change ((change {} "pipeline.workers" "2" .user).run usual).2.1.held = _
    rw [change_usual.run]
  obtain ⟨u, -, hu, heffect⟩ :=
    (changes_sound {} usual {} hgives sound_usual [toTwoWorkers, toNoWorkers]).1 [toTwoWorkers]
      toNoWorkers [] rfl
  have htwo : Gives {} (following {} usual [toTwoWorkers]) Settings.twoWorkers := .of_held hfirst
  obtain rfl : u = Settings.twoWorkers := Except.ok.inj (hu.symm.trans htwo)
  have hanswer : ((toNoWorkers.step {}).run (following {} usual [toTwoWorkers])).1 =
      .ok (some "Workers must be >= 1") :=
    congrArg Prod.fst (change_yields_refused (k := .workers) (v := .int 0) rfl rfl
      (load_yields_held {} hfirst) rfl).run
  rw [hanswer] at heffect
  exact ⟨hgives, sound_usual, hanswer, htwo, heffect⟩

end SettingsStore
end Concordance
