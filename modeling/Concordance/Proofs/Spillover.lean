import Mathlib
import Concordance.Proofs.Changing

/-!
What a change of one setting does to the others, wherever the settings are loaded later.

* `SettingsStore.opened` : a store of some project that shares the directory of the user.
  `SettingsStore.Opens` : its files can be read, and their settings have the declared types.
* `SettingsStore.beneath` : the value of a setting in the file of a scope or below it.
  `SettingsStore.Opens.get` : what is loaded is this value, unless a layer above has one.
* `SettingsStore.change_keeps_iff` : a change writes all settings that are in force, so it keeps
  another setting exactly if a layer above the file has it, or if the file and what is below it had
  the value that was in force.
* `SettingsStore.change_spills` : the value of a variable stays behind in the file of the user.
-/

namespace Concordance

/-- Of the layers of the user and of the project the one that a change of a scope leaves alone. -/
def Scope.spared (mine theirs : Layer) : Scope → Layer
  | .user => theirs
  | .project => mine

/-- The settings that two trees give are the same if the two files read alike. -/
lemma Layer.load_congr {σ : Type} {tree tree' : FileTree} {userFile projectFile : Path}
    (env : Environment) (huser : read tree' 0 userFile = read tree 0 userFile)
    (hproject : read tree' 1 projectFile = read tree 1 projectFile) :
    (load tree' env userFile projectFile : Step σ Settings) =
      load tree env userFile projectFile := by
  rw [load, load, entriesAt, entriesAt, entriesAt, entriesAt, huser, hproject]

namespace SettingsStore

variable {env later : Environment} {s s' : SettingsStore} {t before : Settings} {scope : Scope}
  {user project : Layer} {k : SettingKey}

/-- A store of some project that shares the directory of the user, and has read nothing yet. -/
def opened (s : SettingsStore) (dir : Path) : SettingsStore :=
  { s with projectDir := dir, held := none }

/-- Both files of a store can be read, and their settings have the declared types. -/
structure Opens (s : SettingsStore) (user project : Layer) : Prop where
  readUser : Layer.read s.files 0 (s.path .user) = .ok user
  readProject : Layer.read s.files 1 (s.path .project) = .ok project
  orderlyUser : Layer.Orderly user.entries
  orderlyProject : Layer.Orderly project.entries

/-! ### Before the change -/

/-- The value of a setting in the file of a scope, or in what is below it. -/
def beneath (user project : Layer) (k : SettingKey) : Scope → Value
  | .user => (k.defined? user.entries).getD (k.get {})
  | .project => ((k.defined? project.entries).or (k.defined? user.entries)).getD (k.get {})

/-- The value of a setting is that of a layer above the file of a scope, or what is beneath. -/
lemma Opens.inForce (h : s.Opens user project) (env : Environment) (scope : Scope)
    (k : SettingKey) : Layer.inForce env (Layer.together user project) k =
      (prevailing? env scope (scope.spared user project) k).getD
        (beneath user project k scope) := by
  rw [Layer.inForce_together h.orderlyUser h.orderlyProject]
  unfold prevailing? beneath Scope.spared
  cases scope with
  | user =>
      dsimp only
      cases (Override.valueIn? Override.all env k).or (k.defined? project.entries) <;> rfl
  | project =>
      dsimp only
      cases Override.valueIn? Override.all env k <;> rfl

/-- What a store that has read nothing yet loads. -/
lemma Opens.get (h : s.Opens user project) (hheld : s.held = none) (hgives : Gives env s t)
    (scope : Scope) (k : SettingKey) : k.get t =
      ((prevailing? env scope (scope.spared user project) k).map k.taken).getD
        (k.taken (beneath user project k scope)) := by
  have hwell : Layer.WellTyped (Layer.together user project) :=
    (Layer.wellTyped_nil.merge h.orderlyUser).merge h.orderlyProject
  rcases hmeet : Layer.fieldsMeetAgain [] user.entries project.entries with _ | _
  · have hload := load_yields env hheld (Layer.load_yields h.readUser h.readProject hmeet hwell)
    rw [Gives, hload.run] at hgives
    cases hgives
    rw [Settings.get_ofValues (Layer.inForce_admits hwell), h.inForce env scope]
    cases prevailing? env scope (scope.spared user project) k <;> rfl
  · have hdeep :=
      load_yields_error env hheld (Layer.load_yields_deep h.readUser h.readProject hmeet)
    rw [Gives, hdeep.run] at hgives
    cases hgives

/-! ### After the change -/

/-- An accepted change writes all settings that are in force, with one of them changed. -/
lemma change_writes {key raw : String} (h : Gives env s t) : (change env key raw scope).Ends s
    (fun refusal s' => refusal = none → ∃ k v files text, SettingKey.ofName? key = some k ∧
      k.parse? raw = some v ∧ s' = { s with files, held := some (k.put t v) } ∧
      Yaml.write? (k.put t v).toValue = .ok text ∧
      files.read (s.path scope) = .ok text.toUTF8.toList)
    fun _ _ => True := by
  refine change_rule (fun _ => nofun) (fun _ _ _ => nofun) fun k v hname hvalue => ?_
  obtain ⟨log, hload⟩ := h.yields
  refine hload.ends ⟨fun _ _ => trivial, fun _ _ => nofun, fun _ => ?_⟩
  refine (save_ends _).imp (fun _ s' hs' _ => ?_) fun _ _ _ => trivial
  obtain ⟨files, place, text, rfl, htext, hplace, hrewrites⟩ := hs'
  exact ⟨k, v, files, text, hname, hvalue, rfl, htext,
    FileTree.read_of_place hplace hrewrites.there⟩

/-- Stores whose files read alike load the same settings. -/
lemma Gives.of_reads {dir : Path} (huser : s'.userDir = s.userDir)
    (hreads : ∀ scope : Scope, Layer.read s'.files scope.document ((s.opened dir).path scope) =
      Layer.read s.files scope.document ((s.opened dir).path scope))
    (h : Gives env (s.opened dir) t) : Gives env (s'.opened dir) t := by
  have hpath : ∀ scope, (s'.opened dir).path scope = (s.opened dir).path scope := fun scope => by
    cases scope with
    | user => exact congrArg (Path.join · fileName) huser
    | project => rfl
  obtain ⟨a, log, hyields⟩ := Layer.load_idle (σ := SettingsStore) s.files env
    ((s.opened dir).path .user) ((s.opened dir).path .project)
  have hsame : (Layer.load s'.files env ((s'.opened dir).path .user)
      ((s'.opened dir).path .project) : Step SettingsStore Settings) =
      Layer.load s.files env ((s.opened dir).path .user) ((s.opened dir).path .project) := by
    rw [hpath, hpath]
    exact Layer.load_congr env (hreads .user) (hreads .project)
  rcases a with e | u
  · have hfails := load_yields_error env (s := s.opened dir) rfl (hyields _)
    rw [Gives, hfails.run] at h
    cases h
  · have hloads := load_yields env (s := s.opened dir) rfl (hyields _)
    have hloads' : (load env).Yields (s'.opened dir) (.ok u) _ log :=
      load_yields env rfl (hsame ▸ hyields (s'.opened dir))
    rw [Gives, hloads.run] at h
    rw [Gives, hloads'.run]
    exact h

/-- **What a change keeps**, for a later environment and a store of any project. If the store reads
neither file otherwise than before, it loads what it would have loaded. If it reads the file that
was written, and the other file as before, then another setting is kept if and only if a layer above
the file has a value for it, or the value in force at the change was also that of the file or of
what is below it. -/
theorem change_keeps_iff (env later : Environment) (s s' : SettingsStore) (key text : String)
    (scope : Scope) (log : List LogLine)
    (hchange : (change env key text scope).run s = (.ok none, s', log))
    (t : Settings) (hgives : Gives env s t) (ht : t.Typed)
    (hreads : ∀ u, s'.held = some u → u.Rereads scope.document)
    (dir : Path) (user project : Layer) (hopens : (s.opened dir).Opens user project)
    (before : Settings) (hbefore : Gives later (s.opened dir) before) :
    ((∀ scope : Scope, Layer.read s'.files scope.document ((s.opened dir).path scope) =
        Layer.read s.files scope.document ((s.opened dir).path scope)) →
      Gives later (s'.opened dir) before) ∧
    ((scope = .project → dir = s.projectDir) →
      Layer.read s'.files scope.other.document ((s.opened dir).path scope.other) =
        .ok (scope.spared user project) →
      ∃ after, Gives later (s'.opened dir) after ∧
        ∀ k, SettingKey.ofName? key ≠ some k → (k.get after = k.get before ↔
          (prevailing? later scope (scope.spared user project) k).isSome ∨
            k.get t = k.taken (beneath user project k scope))) := by
  obtain ⟨k₀, v, files, written, hname, hvalue, rfl, hwrite, hfile⟩ :=
    (change_writes hgives).of_run_ok hchange rfl
  refine ⟨fun hsame => Gives.of_reads (s := s) rfl hsame hbefore, fun hdir hother => ?_⟩
  have ht' : (k₀.put t v).Typed := ht.put (Override.admits_of_parse? hvalue)
  have hpath : (s.opened dir).path scope = s.path scope := by
    cases scope with
    | user => rfl
    | project => rw [hdir rfl]; rfl
  have hthere : files.read ((({ s with files } : SettingsStore).opened dir).path scope) =
      .ok written.toUTF8.toList := by
    rw [← hfile, ← hpath]
    rfl
  obtain ⟨es, hmine, hrecords⟩ := read_saved hwrite hthere (hreads _ rfl)
  have horderly : scope = .user → Layer.Orderly (scope.spared user project).entries := by
    rintro rfl
    exact hopens.orderlyProject
  obtain ⟨after, log', hload, hget⟩ :=
    load_yields_recorded (s := ({ s with files } : SettingsStore).opened dir) later rfl hmine
      hrecords ht' hother horderly
  refine ⟨after, congrArg Prod.fst hload.run, fun k hk => ?_⟩
  have hne : k ≠ k₀ := fun heq => hk (heq ▸ hname)
  rw [hget, hopens.get rfl hbefore scope, Settings.get_put_other hne]
  cases prevailing? later scope (scope.spared user project) k with
  | none => simp
  | some w => simp

/-! ### Two changes of the settings of a user -/

open Settings (twoWorkers)

/-- Nothing is read where there is no file. -/
lemma read_absent {tree : FileTree} {n : ℕ} {path : Path}
    (h : tree.contains? path = .ok false) : Layer.read tree n path = .ok .absent := by
  rw [Layer.read, h]

lemma load_yields_absent (env : Environment) (hheld : s.held = none)
    (huser : s.files.contains? (s.path .user) = .ok false)
    (hproject : s.files.contains? (s.path .project) = .ok false) :
    ∃ log, (load env).Yields s (.ok (Settings.ofValues (Layer.inForce env [])))
      { s with held := some (Settings.ofValues (Layer.inForce env [])) } log :=
  ⟨_, load_yields env hheld
    (Layer.load_yields (read_absent huser) (read_absent hproject) rfl Layer.wellTyped_nil)⟩

/-- A change to two workers, seen from another project: all other settings are as they were. -/
theorem change_keeps_iff_usual : ∃ s' log before after,
    (change {} "pipeline.workers" "2" .user).run usual = (.ok none, s', log) ∧
    Gives {} usual {} ∧ Settings.Typed {} ∧
    (∀ u, s'.held = some u → u.Rereads Scope.user.document) ∧
    (usual.opened ⟨["q"]⟩).Opens .absent .absent ∧ Gives {} (usual.opened ⟨["q"]⟩) before ∧
    Gives {} (s'.opened ⟨["q"]⟩) after ∧ ∀ k ≠ SettingKey.workers, k.get after = k.get before := by
  have hgives : Gives {} usual {} := .of_held rfl
  have hreads : ∀ u, some twoWorkers = some u → u.Rereads Scope.user.document := by
    rintro _ ⟨⟩
    exact Settings.rereads_twoWorkers
  have huser : (usual.opened ⟨["q"]⟩).files.contains? ((usual.opened ⟨["q"]⟩).path .user) =
      .ok false := by decide +kernel
  have hproject : (usual.opened ⟨["q"]⟩).files.contains? ((usual.opened ⟨["q"]⟩).path .project) =
      .ok false := by decide +kernel
  have hopens : (usual.opened ⟨["q"]⟩).Opens .absent .absent :=
    ⟨read_absent huser, read_absent hproject, by decide, by decide⟩
  obtain ⟨log, hload⟩ := load_yields_absent (s := usual.opened ⟨["q"]⟩) {} rfl huser hproject
  have hbefore := congrArg Prod.fst hload.run
  have hother : Layer.read (withUserFile usual.files) 1 ((usual.opened ⟨["q"]⟩).path .project) =
      .ok .absent := read_absent (by decide +kernel)
  obtain ⟨after, hafter, hkept⟩ :=
    (change_keeps_iff {} {} usual _ "pipeline.workers" "2" .user _ change_usual.run {} hgives
      sound_usual.toTyped hreads ⟨["q"]⟩ _ _ hopens _ hbefore).2 nofun hother
  refine ⟨_, _, _, after, change_usual.run, hgives, sound_usual.toTyped, hreads, hopens, hbefore,
    hafter, fun k hk => (hkept k ?_).mpr (.inr ?_)⟩
  · have hname : SettingKey.ofName? "pipeline.workers" = some .workers := rfl
    rw [hname]
    exact fun heq => hk (Option.some.inj heq).symm
  · cases k <;> rfl

/-- An environment that asks for two workers. -/
def askedForTwo : Environment := { entries := [("PROCINDEX_WORKERS", "2")] }

/-- **A variable that outlives the environment.** Another setting is changed while a variable asks
for two workers; without the variable there would have been four before, and there are two
afterwards. -/
theorem change_spills : ∃ s' log before after,
    (change askedForTwo "display.format" "auto" .user).run bare = (.ok none, s', log) ∧
    Gives {} (bare.opened ⟨["p"]⟩) before ∧ Gives {} (s'.opened ⟨["p"]⟩) after ∧
    SettingKey.workers.get before = .int 4 ∧ SettingKey.workers.get after = .int 2 := by
  have huser : bare.files.contains? (bare.path .user) = .ok false := by decide +kernel
  have hproject : bare.files.contains? (bare.path .project) = .ok false := by decide +kernel
  obtain ⟨_, hload⟩ := load_yields_absent (s := bare) askedForTwo rfl huser hproject
  obtain ⟨_, hbefore⟩ := load_yields_absent (s := bare.opened ⟨["p"]⟩) {} rfl huser hproject
  have hput : SettingKey.format.put (Settings.ofValues (Layer.inForce askedForTwo []))
      (.text "auto") = twoWorkers := rfl
  have hsave := save_yields_twoWorkers
    (s := { bare with held := some (Settings.ofValues (Layer.inForce askedForTwo [])) }) rfl
    (by decide +kernel) (by decide +kernel)
  have hchange : (change askedForTwo "display.format" "auto" .user).Yields bare (.ok none) _ _ :=
    change_yields rfl rfl hload (by rw [hput]; decide +kernel) (by rw [hput]; exact hsave)
  -- the file of the user is read back, and that of the project is not there
  obtain ⟨settings, text, hheld, htext, hfile⟩ := change_ends.of_run_ok hchange.run rfl
  obtain rfl : twoWorkers = settings := Option.some.inj hheld
  obtain ⟨es, hmine, hrecords⟩ := read_saved htext hfile Settings.rereads_twoWorkers
  have hother : Layer.read (withUserFile bare.files) 1 (bare.path .project) = .ok .absent :=
    read_absent (by decide +kernel)
  obtain ⟨after, log, hafter, hget⟩ := load_yields_recorded {}
    (s := { bare with files := withUserFile bare.files }) rfl hmine hrecords typed_twoWorkers hother
    fun _ => by decide
  exact ⟨_, _, _, after, hchange.run, congrArg Prod.fst hbefore.run, congrArg Prod.fst hafter.run,
    rfl, hget .workers⟩

end SettingsStore
end Concordance
