import Mathlib
import Concordance.Proofs.Recording

/-!
What is in force after a change of a setting.

* `SettingsStore.Writable` : settings can be written into the file of a scope.
  `SettingsStore.save_ends` : what saving does. `SettingsStore.change_rule` : all that a change
  does.
* `SettingsStore.Saved` : the settings in force are those that a file was written with;
  `SettingsStore.change_ends` : so it is after every change that is accepted.
* `SettingsStore.prevailing?` : the value of a setting from above a file of settings.
  `SettingsStore.load_yields_recorded` : what is loaded over a file with all settings.
* `SettingsStore.Agrees` : two stores answer alike. `SettingsStore.change_agrees_iff` : when a store
  agrees with a fresh one after a change.
* `SettingsStore.change_hidden` : a change that the environment hides.
-/

namespace Concordance

/-! ### What a change leaves -/

namespace SettingsStore

variable {env : Environment} {s t : SettingsStore} {key raw : String} {scope : Scope}

/-- The settings in force are those that the file of a scope was written with. -/
def Saved (s : SettingsStore) (scope : Scope) : Prop :=
  ∃ settings text, s.held = some settings ∧ Yaml.write? settings.toValue = .ok text ∧
    s.files.read (s.path scope) = .ok text.toUTF8.toList

/-- Settings can be written into the file of a scope: its directory can be made, the file can be
opened in it, and the settings have a text. -/
def Writable (s : SettingsStore) (scope : Scope) (t : Settings) : Prop :=
  ∃ made opened text, s.files.makeDirectories (s.path scope).parent = .ok made ∧
    made.write (s.path scope) [] = .ok opened ∧ Yaml.write? t.toValue = .ok text

/-- **The rule of saving.** The directory is made, the file is opened and written, unless that
cannot be done. -/
lemma save_rule (settings : Settings) : (save scope settings).Ends s
    (fun _ s' => ∃ made opened text files,
      s.files.makeDirectories (s.path scope).parent = .ok made ∧
      made.write (s.path scope) [] = .ok opened ∧ Yaml.write? settings.toValue = .ok text ∧
      opened.write (s.path scope) text.toUTF8.toList = .ok files ∧
      s' = { s with files, held := some settings })
    fun _ s' => ¬s.Writable scope settings ∧ ∃ files, s' = { s with files } := by
  rw [save]
  refine .bind (Step.ends_get.mpr ?_)
  dsimp only
  split
  · next hmade =>
      exact Step.ends_throw.mpr ⟨fun ⟨_, _, _, h, _⟩ => (nomatch hmade.symm.trans h), s.files, rfl⟩
  · next made hmade =>
      refine .bind (Step.ends_set.mpr ?_)
      split
      · next hopened =>
          refine Step.ends_throw.mpr ⟨fun ⟨_, _, _, h, h', _⟩ => ?_, made, rfl⟩
          cases hmade.symm.trans h
          cases hopened.symm.trans h'
      · next opened hopened =>
          refine .bind (Step.ends_set.mpr (.bind (Step.ends_ofAnswer.mpr ⟨fun text htext => ?_,
            fun e htext => ⟨fun ⟨_, _, _, _, _, h⟩ => (nomatch htext.symm.trans h), opened, rfl⟩⟩)))
          obtain ⟨written, place, hwritten, -, -⟩ :=
            FileTree.exists_rewrites hmade hopened text.toUTF8.toList
          rw [hwritten]
          exact Step.ends_set.mpr
            ⟨made, opened, text, written, hmade, hopened, htext, hwritten, rfl⟩

/-- Saving settings writes one file, unless that cannot be done. -/
lemma save_ends (settings : Settings) : (save scope settings).Ends s
    (fun _ s' => ∃ files place text, s' = { s with files, held := some settings } ∧
      Yaml.write? settings.toValue = .ok text ∧ files.place (s.path scope) = .ok place ∧
      s.files.Rewrites files place text.toUTF8.toList)
    fun _ s' => ¬s.Writable scope settings ∧ ∃ files, s' = { s with files } := by
  refine (save_rule settings).imp (fun _ s' h => ?_) fun _ _ => id
  obtain ⟨made, opened, text, files, hmade, hopened, htext, hwritten, rfl⟩ := h
  obtain ⟨written, place, hwritten', hplace, hrewrites⟩ :=
    FileTree.exists_rewrites hmade hopened text.toUTF8.toList
  obtain rfl : written = files := Except.ok.inj (hwritten'.symm.trans hwritten)
  exact ⟨written, place, text, rfl, htext, hplace, hrewrites⟩

/-- **The rule of a change.** Unless it is refused at once, the settings are loaded, the section of
the changed one is checked, and if nothing is wrong there they are saved. -/
lemma change_rule {Q : Option String → SettingsStore → Prop} {E : Fault → SettingsStore → Prop}
    (hunknown : SettingKey.ofName? key = none → Q (some (unknownSetting key)) s)
    (hillegible : ∀ k, SettingKey.ofName? key = some k → k.parse? raw = none →
      Q (some ("Invalid value for " ++ key ++ ": " ++ raw)) s)
    (hloaded : ∀ k v, SettingKey.ofName? key = some k → k.parse? raw = some v →
      (load env).Ends s (fun settings t =>
        (∀ e, (k.put settings v).problemIn k.home = .error e → E e t) ∧
        (∀ problem, (k.put settings v).problemIn k.home = .ok (some problem) →
          Q (some problem) t) ∧
        ((k.put settings v).problemIn k.home = .ok none →
          (save scope (k.put settings v)).Ends t (fun _ => Q none) E)) E) :
    (change env key raw scope).Ends s Q E := by
  rw [change]
  split
  · next hname => exact Step.ends_pure.mpr (hunknown hname)
  · next k hname =>
      split
      · next htext => exact Step.ends_pure.mpr (hillegible k hname htext)
      · next v htext =>
          refine .bind ((hloaded k v hname htext).imp (fun settings t h => ?_) fun _ _ => id)
          obtain ⟨hfault, hproblem, hsave⟩ := h
          refine .bind (Step.ends_ofAnswer.mpr ⟨fun problem hchecked => ?_, hfault⟩)
          rcases problem with _ | problem
          · exact .bind ((hsave hchecked).imp (fun _ _ => Step.ends_pure.mpr) fun _ _ => id)
          · exact Step.ends_pure.mpr (hproblem problem hchecked)

/-- **An accepted change is saved.** -/
lemma change_ends : (change env key raw scope).Ends s
    (fun refusal t => refusal = none → t.Saved scope) fun _ _ => True := by
  refine change_rule (fun _ => nofun) (fun _ _ _ => nofun) fun k v _ _ =>
    (Step.ends_any _ _).imp (fun settings t _ => ?_) fun _ _ => id
  refine ⟨fun _ _ => trivial, fun _ _ => nofun, fun _ => ?_⟩
  refine (save_ends _).imp (fun _ u hu _ => ?_) fun _ _ _ => trivial
  obtain ⟨files, place, text, rfl, htext, hplace, hrewrites⟩ := hu
  exact ⟨_, text, rfl, htext, FileTree.read_of_place hplace hrewrites.there⟩

section Change

variable {s' s'' : SettingsStore} {text : String} {settings : Settings} {k : SettingKey} {v : Value}
  {log : List LogLine} {made opened written : FileTree}

lemma save_yields (hmade : s.files.makeDirectories (s.path scope).parent = .ok made)
    (hopened : made.write (s.path scope) [] = .ok opened)
    (htext : Yaml.write? settings.toValue = .ok text)
    (hwritten : opened.write (s.path scope) text.toUTF8.toList = .ok written) :
    (save scope settings).Yields s (.ok ())
      { s with files := written, held := some settings } [] := by
  rw [save]
  refine Step.yields_get.bind ?_
  simp only [hmade]
  refine (Step.yields_set _).bind ?_
  simp only [hopened]
  refine (Step.yields_set _).bind ?_
  rw [htext]
  refine (Step.yields_ofAnswer (.ok text)).bind ?_
  simp only [hwritten]
  exact Step.yields_set _

/-- A change that is accepted. -/
lemma change_yields (hkey : SettingKey.ofName? key = some k) (hvalue : k.parse? raw = some v)
    (hload : (load env).Yields s (.ok settings) s' log)
    (hproblem : (k.put settings v).problemIn k.home = .ok none)
    (hsave : (save scope (k.put settings v)).Yields s' (.ok ()) s'' []) :
    (change env key raw scope).Yields s (.ok none) s'' log := by
  rw [change, hkey]
  simp only [hvalue]
  rw [← List.append_nil log]
  refine hload.bind ?_
  rw [hproblem]
  exact (Step.yields_ofAnswer (.ok none)).bind (hsave.bind (Step.yields_pure none))

end Change

end SettingsStore

namespace Scope

/-- The number of the file of a scope. -/
def document : Scope → Nat
  | user => 0
  | project => 1

/-- The scope that a change leaves alone. -/
def other : Scope → Scope
  | user => project
  | project => user

end Scope

/-! ### What is in force after a change -/

namespace SettingsStore

variable {env : Environment} {s : SettingsStore} {scope : Scope} {other : Layer} {es : Entries}
  {t : Settings} {k : SettingKey} {e : Fault}

/-- A store over the same files that has read nothing yet. -/
def fresh (s : SettingsStore) : SettingsStore := { s with held := none }

/-- Two stores answer alike: both load the same settings, and show the same text under every
name. -/
def Agrees (env : Environment) (s t : SettingsStore) : Prop :=
  ((load env).run s).1 = ((load env).run t).1 ∧
    ∀ key, ((get? env key).run s).1 = ((get? env key).run t).1

/-- The value that a setting has from above the file of a scope, if it has one: from its variable,
or from the file of the project if that of the user is meant. -/
def prevailing? (env : Environment) (scope : Scope) (other : Layer) (k : SettingKey) :
    Option Value :=
  (Override.valueIn? Override.all env k).or
    (match scope with
      | .user => k.defined? other.entries
      | .project => none)

lemma read_saved {text : String} (htext : Yaml.write? t.toValue = .ok text)
    (hfile : s.files.read (s.path scope) = .ok text.toUTF8.toList)
    (hreads : t.Rereads scope.document) :
    ∃ es, Layer.read s.files scope.document (s.path scope) = .ok (.mapping es) ∧
      Layer.Records es t := by
  obtain ⟨es, mark, hread, hrecords⟩ := hreads text htext
  refine ⟨es, ?_, hrecords⟩
  have htruthy : (Value.dict es mark).truthy = true := by
    rw [Value.truthy, Bool.not_eq_true', List.isEmpty_eq_false_iff]
    exact hrecords.ne_nil
  rw [Layer.read, FileTree.contains?_of_read hfile, hfile]
  simp only [hread, Layer.ofValue, htruthy]
  rfl

/-- What the layers together say of a setting: a layer above the file with all settings prevails,
and nothing below it shows. -/
lemma inForce_recorded (hrecords : Layer.Records es t) (ht : t.Typed)
    (horderly : scope = .user → Layer.Orderly other.entries) (env : Environment) (k : SettingKey) :
    ∃ w, k.taken w = k.get t ∧
      Layer.inForce env (match scope with
        | .user => Layer.together (.mapping es) other
        | .project => Layer.together other (.mapping es)) k =
      (prevailing? env scope other k).getD w := by
  obtain ⟨w, hw, htaken⟩ := hrecords.exists_defined ht k
  have hnone : k.defined? [] = none := rfl
  have hes : (Layer.mapping es).entries = es := rfl
  refine ⟨w, htaken, ?_⟩
  cases scope with
  | user =>
      have hdefined : k.defined? (Layer.together (.mapping es) other) =
          (k.defined? other.entries).or (some w) := by
        rw [Layer.together, hes, Layer.defined?_merge (horderly rfl),
          Layer.defined?_merge (hrecords.orderly ht), hw, hnone, Option.or_none]
      rw [Layer.inForce, hdefined, ← Option.or_assoc, prevailing?]
      cases (Override.valueIn? Override.all env k).or (k.defined? other.entries) <;> rfl
  | project =>
      have hdefined : k.defined? (Layer.together other (.mapping es)) = some w := by
        rw [Layer.together, hes, Layer.defined?_merge (hrecords.orderly ht), hw, Option.some_or]
      rw [Layer.inForce, hdefined, prevailing?, Option.or_none]
      cases Override.valueIn? Override.all env k <;> rfl

/-- **Loading over a file with all settings**: each setting has the value of a layer above the file,
else that of the file. -/
lemma load_yields_recorded (env : Environment) (hheld : s.held = none)
    (hmine : Layer.read s.files scope.document (s.path scope) = .ok (.mapping es))
    (hrecords : Layer.Records es t) (ht : t.Typed)
    (hother : Layer.read s.files scope.other.document (s.path scope.other) = .ok other)
    (horderly : scope = .user → Layer.Orderly other.entries) :
    ∃ settings log, (load env).Yields s (.ok settings) { s with held := some settings } log ∧
      ∀ k : SettingKey,
        k.get settings = ((prevailing? env scope other k).map k.taken).getD (k.get t) := by
  have hvalues := inForce_recorded hrecords ht horderly env
  have hget : ∀ {together : Entries}, Layer.WellTyped together →
      (∀ k : SettingKey, ∃ w, k.taken w = k.get t ∧
        Layer.inForce env together k = (prevailing? env scope other k).getD w) →
      ∀ k : SettingKey, k.get (Settings.ofValues (Layer.inForce env together)) =
        ((prevailing? env scope other k).map k.taken).getD (k.get t) := by
    intro together hwell hvalues k
    obtain ⟨w, htaken, hvalue⟩ := hvalues k
    rw [Settings.get_ofValues (Layer.inForce_admits hwell), hvalue, ← htaken]
    cases prevailing? env scope other k <;> rfl
  cases scope with
  | user =>
      have hwell : Layer.WellTyped (Layer.together (.mapping es) other) :=
        (hrecords.wellTyped_merge ht []).merge (horderly rfl)
      have hmeet : Layer.fieldsMeetAgain [] es other.entries = false :=
        Layer.fieldsMeetAgain_of_flat (.inl (hrecords.flat ht))
      exact ⟨_, _, load_yields env hheld (Layer.load_yields hmine hother hmeet hwell),
        hget hwell hvalues⟩
  | project =>
      have hwell : Layer.WellTyped (Layer.together other (.mapping es)) :=
        hrecords.wellTyped_merge ht _
      have hmeet : Layer.fieldsMeetAgain [] other.entries es = false :=
        Layer.fieldsMeetAgain_of_flat (.inr (hrecords.flat ht))
      exact ⟨_, _, load_yields env hheld (Layer.load_yields hother hmine hmeet hwell),
        hget hwell hvalues⟩

/-- If the other file cannot be read, nothing is loaded. -/
lemma load_yields_unread (env : Environment) (hheld : s.held = none) {layer : Layer}
    (hmine : Layer.read s.files scope.document (s.path scope) = .ok layer)
    (hother : Layer.read s.files scope.other.document (s.path scope.other) = .error e) :
    ∃ log, (load env).Yields s (.error e) s log := by
  cases scope with
  | user => exact ⟨_, load_yields_error env hheld (Layer.load_yields_project hmine hother)⟩
  | project => exact ⟨_, load_yields_error env hheld (Layer.load_yields_user hother)⟩

lemma load_yields_held (env : Environment) (hheld : s.held = some t) :
    (load env).Yields s (.ok t) s [] := by
  rw [load]
  refine Step.yields_get.bind ?_
  rw [hheld]
  exact Step.yields_pure t

/-- What is shown under a name depends on the settings that are loaded and on nothing else. -/
lemma get?_answer {s' : SettingsStore} {log : List LogLine} (h : (load env).Yields s (.ok t) s' log)
    (key : String) : ((get? env key).run s).1 = match SettingKey.ofName? key with
      | none => .ok none
      | some k => (k.shown? t).map some := by
  rw [get?]
  rcases SettingKey.ofName? key with _ | k
  · rfl
  · have hshown : (Step.ofAnswer (k.shown? t) >>= fun text => pure (some text) :
        Step SettingsStore (Option String)).Yields s' ((k.shown? t).map some) s' [] := by
      rcases k.shown? t with e | text
      · exact (Step.yields_ofAnswer _).bind_error
      · exact (Step.yields_ofAnswer _).bind (Step.yields_pure _)
    rw [(h.bind hshown).run]

/-- Stores that load the same settings answer alike. -/
lemma agrees_of_load {s' u u' : SettingsStore} {log log' : List LogLine}
    (h : (load env).Yields s (.ok t) s' log) (h' : (load env).Yields u (.ok t) u' log') :
    Agrees env s u := by
  refine ⟨by rw [h.run, h'.run], fun key => ?_⟩
  rw [get?_answer h, get?_answer h']

/-- **After a change** the settings that a store holds are those that a fresh store loads if and
only if the other file can be read and no layer above the file that was written has another value
for a setting. -/
theorem change_agrees_iff (env : Environment) (s s' : SettingsStore) (key text : String)
    (scope : Scope) (log : List LogLine)
    (hchange : (change env key text scope).run s = (.ok none, s', log))
    (t : Settings) (hheld : s'.held = some t) (ht : t.Typed) (hreads : t.Rereads scope.document)
    (horderly : scope = .user → ∀ project,
      Layer.read s'.files 1 (s'.path .project) = .ok project → Layer.Orderly project.entries) :
    Agrees env s' s'.fresh ↔
      ∃ other, Layer.read s'.files scope.other.document (s'.path scope.other) = .ok other ∧
        ∀ k v, prevailing? env scope other k = some v → k.taken v = k.get t := by
  obtain ⟨t', text, hheld', htext, hfile⟩ := change_ends.of_run_ok hchange rfl
  obtain rfl : t = t' := Option.some.inj (hheld.symm.trans hheld')
  have hkept := load_yields_held env hheld
  obtain ⟨es, hmine, hrecords⟩ := read_saved htext hfile hreads
  rcases hother : Layer.read s'.files scope.other.document (s'.path scope.other) with e | other
  · obtain ⟨log, hload⟩ := load_yields_unread (s := s'.fresh) env rfl hmine hother
    refine iff_of_false (fun h => ?_) nofun
    have heq := h.1
    rw [hkept.run, hload.run] at heq
    cases heq
  · have hother' : scope = .user → Layer.Orderly other.entries := by
      rintro rfl
      exact horderly rfl other hother
    obtain ⟨settings, log, hload, hget⟩ :=
      load_yields_recorded (s := s'.fresh) env rfl hmine hrecords ht hother hother'
    constructor
    · intro h
      have heq := h.1
      rw [hkept.run, hload.run] at heq
      obtain rfl : t = settings := Except.ok.inj heq
      refine ⟨other, rfl, fun k v hv => ?_⟩
      rw [hget, hv]
      rfl
    · rintro ⟨_, hread, hvalues⟩
      cases hread
      have heq : settings = t := by
        refine Settings.ext_get fun k => ?_
        rw [hget]
        rcases hv : prevailing? env scope other k with _ | v
        · rfl
        · exact hvalues k v hv
      rw [heq] at hload
      exact agrees_of_load hkept hload

end SettingsStore

namespace Settings

/-- The settings where only the number of workers is not as usual. -/
def twoWorkers : Settings := { pipeline := { workers := 2 } }

/-- The blocks of their values. -/
def twoWorkersBlock (k : SettingKey) : Yaml.Block :=
  match Yaml.Block.ofValueIn? [] (k.get twoWorkers) with
  | .ok b => b
  | .error _ => default

lemma write?_twoWorkers : Yaml.write? twoWorkers.toValue =
    .ok (Yaml.Page.ofBlock (.ofSettings twoWorkersBlock)).text := by
  refine Yaml.write?_eq (Yaml.Block.ofValue?_settings _ fun k => ?_)
  have hok : ∀ k : SettingKey, (Yaml.Block.ofValueIn? [] (k.get twoWorkers)).isOk = true := by
    decide +kernel
  obtain ⟨b, hb⟩ := Step.exists_of_isOk (hok k)
  rw [twoWorkersBlock, hb]

lemma rereads_twoWorkers : twoWorkers.Rereads 0 := by
  refine rereads_of_readFrom write?_twoWorkers ?_
  rw [readFrom, Yaml.read, Yaml.Graph.read?, Yaml.Lexer.ofText?_ofList]
  decide +kernel

end Settings

namespace SettingsStore

open Settings (twoWorkers)

variable {env : Environment} {s s' : SettingsStore} {settings : Settings} {log : List LogLine}

lemma typed_twoWorkers : twoWorkers.Typed :=
  ⟨rfl, by decide, rfl, rfl, by decide, rfl, rfl, rfl⟩

/-- The bytes that are written for two workers. -/
def twoWorkersBytes : List UInt8 :=
  (Yaml.Page.ofBlock (.ofSettings Settings.twoWorkersBlock)).text.toUTF8.toList

/-- A tree with a new file of the user. -/
def withUserFile (tree : FileTree) : FileTree :=
  ((tree.put ["u"] .directory).put ["u", "config.yaml"] (.file [])).put ["u", "config.yaml"]
    (.file twoWorkersBytes)

/-- Two workers are saved in a new file of the user. -/
lemma save_yields_twoWorkers
    (hmade : s.files.makeDirectories (s.path .user).parent = .ok (s.files.put ["u"] .directory))
    (hplace : (s.files.put ["u"] .directory).place (s.path .user) = .ok ["u", "config.yaml"])
    (hnew : FileTree.entry? (s.files.put ["u"] .directory) ["u", "config.yaml"] = none) :
    (save .user twoWorkers).Yields s (.ok ())
      { s with files := withUserFile s.files, held := some twoWorkers } [] := by
  have hnot : FileTree.entry? (s.files.put ["u"] .directory) ["u", "config.yaml"] ≠
      some .directory := by
    rw [hnew]
    nofun
  have hopened := FileTree.write_of_place hplace hnot []
  have hwritten := FileTree.write_of_place (FileTree.place_put (e := .file []) hnot hplace)
    (by rw [FileTree.entry?_put_self]; nofun) twoWorkersBytes
  exact save_yields hmade hopened Settings.write?_twoWorkers hwritten

/-- A change of the settings of the user to two workers. -/
lemma change_yields_twoWorkers (hload : (load env).Yields s (.ok settings) s' log)
    (hput : SettingKey.workers.put settings (.int 2) = twoWorkers)
    (hmade : s'.files.makeDirectories (s'.path .user).parent = .ok (s'.files.put ["u"] .directory))
    (hplace : (s'.files.put ["u"] .directory).place (s'.path .user) = .ok ["u", "config.yaml"])
    (hnew : FileTree.entry? (s'.files.put ["u"] .directory) ["u", "config.yaml"] = none) :
    (change env "pipeline.workers" "2" .user).Yields s (.ok none)
      { s' with files := withUserFile s'.files, held := some twoWorkers } log := by
  have hvalue : SettingKey.workers.parse? "2" = some (.int 2) := rfl
  refine change_yields rfl hvalue hload (by rw [hput]; rfl) ?_
  rw [hput]
  exact save_yields_twoWorkers hmade hplace hnew

/-- A file of a project that sets what is usual. -/
def usualText : String := "pipeline:\n  publish_to_metadata: yes\n"

/-- A store with this file, which holds its settings. -/
def usual : SettingsStore where
  projectDir := ⟨["p"]⟩
  userDir := ⟨["u"]⟩
  files := { entries := [(⟨["p", ".procindex", "config.yaml"]⟩, .file usualText.toUTF8.toList)] }
  held := some {}

lemma change_usual : (change {} "pipeline.workers" "2" .user).Yields usual (.ok none)
    { usual with files := withUserFile usual.files, held := some twoWorkers } [] :=
  change_yields_twoWorkers (load_yields_held {} rfl) rfl rfl (by decide +kernel) (by decide +kernel)

/-- Whether a project's file can be read and sets what is as in `twoWorkers`. -/
def setsUsual (cs : List Char) : Bool :=
  match Yaml.read 1 (String.ofList cs) with
  | .ok v => decide (Layer.Orderly (Layer.ofValue v).entries ∧ ∀ k : SettingKey,
      ∀ w ∈ k.defined? (Layer.ofValue v).entries, k.Admits w ∧ w.same (k.get twoWorkers) = true)
  | .error _ => false

theorem change_agrees_iff_usual : ∃ s' log t,
    (change {} "pipeline.workers" "2" .user).run usual = (.ok none, s', log) ∧
    s'.held = some t ∧ t.Typed ∧ t.Rereads Scope.user.document ∧
    (∃ project, Layer.read s'.files 1 (s'.path .project) = .ok project ∧
      Layer.Orderly project.entries) ∧
    Agrees {} s' s'.fresh := by
  have husual : setsUsual (normalBreaks usualText.toList) = true := by
    rw [setsUsual, Yaml.read, Yaml.Graph.read?, Yaml.Lexer.ofText?_ofList]
    decide +kernel
  rw [setsUsual] at husual
  split at husual
  · next v hyaml =>
      obtain ⟨horderly, hvalues⟩ := of_decide_eq_true husual
      have hplace : (withUserFile usual.files).place (usual.path .project) =
          .ok ["p", ".procindex", "config.yaml"] := by decide +kernel
      have hfile := FileTree.read_of_place hplace rfl
      have hread := (Layer.Found.of_text hfile hyaml).read ⟨true, FileTree.contains?_of_read hfile⟩
      have hnone : ∀ k, Override.valueIn? Override.all {} k = none := fun k => by
        cases k <;> rfl
      refine ⟨_, _, _, change_usual.run, rfl, typed_twoWorkers, Settings.rereads_twoWorkers,
        ⟨_, hread, horderly⟩, ?_⟩
      refine (change_agrees_iff _ _ _ _ _ _ _ change_usual.run _ rfl typed_twoWorkers
        Settings.rereads_twoWorkers fun _ project hproject => ?_).mpr ⟨_, hread, fun k w hw => ?_⟩
      · rw [← Except.ok.inj (hread.symm.trans hproject)]
        exact horderly
      · rw [prevailing?, hnone] at hw
        exact Settings.taken_of_same (hvalues k w hw).1 (hvalues k w hw).2
  · cases husual

/-- A store without files. -/
def bare : SettingsStore where
  projectDir := ⟨["p"]⟩
  userDir := ⟨["u"]⟩

/-- An environment that asks for nine workers. -/
def nineWorkers : Environment := { entries := [("PROCINDEX_WORKERS", "9")] }

/-- **A change that a variable hides** is reported as if it were in force: the store shows what was
asked for, and a fresh store shows what the variable says. -/
theorem change_hidden : ∃ s' log,
    (change nineWorkers "pipeline.workers" "2" .user).run bare = (.ok none, s', log) ∧
    ((get? nineWorkers "pipeline.workers").run s').1 = .ok (some "2") ∧
    ((get? nineWorkers "pipeline.workers").run s'.fresh).1 = .ok (some "9") ∧
    ¬Agrees nineWorkers s' s'.fresh := by
  have huser : Layer.read bare.files 0 (bare.path .user) = .ok .absent := by
    rw [Layer.read, show bare.files.contains? (bare.path .user) = .ok false by decide +kernel]
  have hproject : Layer.read bare.files 1 (bare.path .project) = .ok .absent := by
    rw [Layer.read, show bare.files.contains? (bare.path .project) = .ok false by decide +kernel]
  have hload := load_yields nineWorkers (s := bare) rfl
    (Layer.load_yields huser hproject rfl Layer.wellTyped_nil)
  have hchange := change_yields_twoWorkers hload rfl rfl (by decide +kernel) (by decide +kernel)
  refine ⟨_, _, hchange.run, ?_⟩
  -- the file of the user is read back, and that of the project is not there
  obtain ⟨settings, text, hheld, htext, hfile⟩ := change_ends.of_run_ok hchange.run rfl
  obtain rfl : twoWorkers = settings := Option.some.inj hheld
  obtain ⟨es, hmine, hrecords⟩ := read_saved htext hfile Settings.rereads_twoWorkers
  have hother : Layer.read (withUserFile bare.files) 1 (bare.path .project) = .ok .absent := by
    rw [Layer.read, show (withUserFile bare.files).contains? (bare.path .project) = .ok false by
      decide +kernel]
  obtain ⟨loaded, log, hfresh, hget⟩ := load_yields_recorded nineWorkers
    (s := { bare with files := withUserFile bare.files }) rfl hmine hrecords typed_twoWorkers hother
    fun _ => by decide
  have hworkers : SettingKey.workers.get loaded = .int 9 := hget .workers
  have hname : SettingKey.ofName? "pipeline.workers" = some .workers := rfl
  have htwo : SettingKey.workers.shown? twoWorkers = .ok "2" := by decide +kernel
  have hnine : SettingKey.workers.shown? loaded = .ok "9" := by
    rw [SettingKey.shown?, hworkers]
    decide +kernel
  have hheldTwo := load_yields_held (t := twoWorkers) nineWorkers hheld
  have hkept := get?_answer hheldTwo "pipeline.workers"
  have hloaded := get?_answer hfresh "pipeline.workers"
  rw [hname] at hkept hloaded
  simp only [htwo] at hkept
  simp only [hnine] at hloaded
  refine ⟨hkept, hloaded, fun h => ?_⟩
  have heq := (hkept.symm.trans (h.2 "pipeline.workers")).trans hloaded
  exact absurd heq (by decide)

end SettingsStore

end Concordance
