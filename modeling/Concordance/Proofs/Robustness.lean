import Mathlib
import Concordance.CommandLine.Run
import Concordance.Proofs.Judgement
import Concordance.Proofs.Loading

/-!
Bad files of settings: what is reported, and what ends a run without a report.

* `SettingKey.Takes` : the values that a setting can be made of, whatever its declared type.
* `Override.Alters` : entries in which settings have been given values. The same sections are
  mappings as before, and a setting can be made of what it was given, or else as before.
* `SettingsStore.Loadable` : the files whose settings can be loaded; `SettingsStore.exists_load_iff`.
* `Program.Proceeds` : a run that goes on with its command, or reports what is wrong.
* `Program.settings_reported` : a run proceeds exactly if its settings can be loaded and judged.
* `Program.settings_fail_empty` : an empty section is not reported.
-/

namespace Concordance

open Value (lookup? field? put)

/-! ### What a setting can be made of -/

namespace Value

variable {object : Mark} {l v w : Value} {around : List Mark}

/-- The change of an object leaves a collection a collection. -/
lemma isSome_members?_redefine :
    (redefine object l v around w).members?.isSome = w.members?.isSome := by
  cases w with
  | list _ _ | tuple _ _ | dict _ _ =>
      rw [redefine]
      split <;> rfl
  | _ => rfl

lemma exists_items?_iff {v : Value} : (∃ xs, v.items? = .ok xs) ↔ v.members?.isSome := by
  rw [items?]
  rcases v.members? with _ | xs
  · simp
  · simp

end Value

namespace SettingKey

/-- The values that a setting can be made of: for a list anything that has members, for an integer
anything that stands for one. -/
def Takes : SettingKey → Value → Prop
  | builtinTypes, v | enabledDialects, v => v.members?.isSome
  | workers, v => ∃ n, Settings.toInt? v = .ok n
  | _, _ => True

/-- The change of an object makes no difference for that. -/
lemma takes_redefine {k : SettingKey} {object : Mark} {l v w : Value} {around : List Mark} :
    k.Takes (Value.redefine object l v around w) ↔ k.Takes w := by
  cases k with
  | builtinTypes | enabledDialects =>
      rw [Takes, Takes, Value.isSome_members?_redefine]
  | workers =>
      cases w with
      | list _ _ | tuple _ _ | dict _ _ =>
          rw [Value.redefine]
          split <;> exact Iff.rfl
      | _ => exact Iff.rfl
  | _ => exact Iff.rfl

end SettingKey

namespace Settings

variable {es : Entries}

lemma isMapping_of_getOr {v w default : Value} {key : String} (h : getOr v key default = .ok w) :
    v.isMapping = true := by
  cases v with
  | dict _ _ => rfl
  | _ => cases h

/-- Settings are read from mappings only. -/
lemma sectioned_of_ofValue? {t : Settings} (h : ofValue? (.dict es) = .ok t) :
    Layer.Sectioned es := by
  rw [ofValue?] at h
  obtain ⟨resolver, hresolver, h⟩ := Answer.bind_eq_ok_iff.mp h
  obtain ⟨dialects, hdialects, h⟩ := Answer.bind_eq_ok_iff.mp h
  obtain ⟨pipeline, hpipeline, h⟩ := Answer.bind_eq_ok_iff.mp h
  obtain ⟨display, hdisplay, h⟩ := Answer.bind_eq_ok_iff.mp h
  obtain ⟨logging, hlogging, h⟩ := Answer.bind_eq_ok_iff.mp h
  -- the first setting of each section is asked for
  obtain ⟨_, hbasePackage, h⟩ := Answer.bind_eq_ok_iff.mp h
  obtain ⟨_, -, h⟩ := Answer.bind_eq_ok_iff.mp h
  obtain ⟨_, -, h⟩ := Answer.bind_eq_ok_iff.mp h
  obtain ⟨_, -, h⟩ := Answer.bind_eq_ok_iff.mp h
  obtain ⟨_, -, h⟩ := Answer.bind_eq_ok_iff.mp h
  obtain ⟨_, henabled, h⟩ := Answer.bind_eq_ok_iff.mp h
  obtain ⟨_, -, h⟩ := Answer.bind_eq_ok_iff.mp h
  obtain ⟨_, hworkers, h⟩ := Answer.bind_eq_ok_iff.mp h
  obtain ⟨_, -, h⟩ := Answer.bind_eq_ok_iff.mp h
  obtain ⟨_, -, h⟩ := Answer.bind_eq_ok_iff.mp h
  obtain ⟨_, hsymbols, h⟩ := Answer.bind_eq_ok_iff.mp h
  obtain ⟨_, -, h⟩ := Answer.bind_eq_ok_iff.mp h
  obtain ⟨_, hlevel, -⟩ := Answer.bind_eq_ok_iff.mp h
  have hsection : ∀ {g : SettingsSection} {v : Value},
      getOr (.dict es) g.label (.dict []) = .ok v → v.isMapping = true →
      ∀ w, field? es g.label = some w → w.isMapping = true := by
    intro g v hv hmapping w hw
    rw [getOr_dict, hw] at hv
    cases hv
    exact hmapping
  intro g
  cases g with
  | resolver => exact hsection hresolver (isMapping_of_getOr hbasePackage)
  | dialects => exact hsection hdialects (isMapping_of_getOr henabled)
  | pipeline => exact hsection hpipeline (isMapping_of_getOr hworkers)
  | display => exact hsection hdisplay (isMapping_of_getOr hsymbols)
  | logging => exact hsection hlogging (isMapping_of_getOr hlevel)

/-- **Which entries settings can be made of.** -/
lemma exists_ofValue?_iff : (∃ t, ofValue? (.dict es) = .ok t) ↔
    Layer.Sectioned es ∧ ∀ k : SettingKey, k.Takes (given es k) := by
  constructor
  · rintro ⟨t, ht⟩
    have hsections := sectioned_of_ofValue? ht
    rw [ofValue?_of_sectioned hsections] at ht
    obtain ⟨builtins, hbuiltins, ht⟩ := Answer.bind_eq_ok_iff.mp ht
    obtain ⟨enabled, henabled, ht⟩ := Answer.bind_eq_ok_iff.mp ht
    obtain ⟨workers, hworkers, -⟩ := Answer.bind_eq_ok_iff.mp ht
    refine ⟨hsections, fun k => ?_⟩
    cases k with
    | builtinTypes => exact Value.exists_items?_iff.mp ⟨_, hbuiltins⟩
    | enabledDialects => exact Value.exists_items?_iff.mp ⟨_, henabled⟩
    | workers => exact ⟨_, hworkers⟩
    | _ => trivial
  · rintro ⟨hsections, htakes⟩
    obtain ⟨builtins, hbuiltins⟩ := Value.exists_items?_iff.mpr (htakes .builtinTypes)
    obtain ⟨enabled, henabled⟩ := Value.exists_items?_iff.mpr (htakes .enabledDialects)
    obtain ⟨workers, hworkers⟩ := htakes .workers
    rw [ofValue?_of_sectioned hsections]
    exact ⟨_, Answer.bind_eq_ok_iff.mpr ⟨_, hbuiltins, Answer.bind_eq_ok_iff.mpr ⟨_, henabled,
      Answer.bind_eq_ok_iff.mpr ⟨_, hworkers, rfl⟩⟩⟩⟩

end Settings

/-! ### The environment over entries of any kind -/

namespace Override

variable {σ : Type} {s : σ} {env : Environment} {o : Override} {v : Value}
  {data middle data' : Entries} {f g : SettingKey → Option Value}

/-- Entries in which settings have been given values: the same sections are mappings as before, and
if all are, a setting can be made of what it was given, or else as before. -/
structure Alters (f : SettingKey → Option Value) (data data' : Entries) : Prop where
  sectioned : Layer.Sectioned data' ↔ Layer.Sectioned data
  takes : Layer.Sectioned data → ∀ k : SettingKey,
    k.Takes (Settings.given data' k) ↔ k.Takes ((f k).getD (Settings.given data k))

lemma Alters.refl (data : Entries) : Alters (fun _ => none) data data :=
  ⟨Iff.rfl, fun _ _ => Iff.rfl⟩

/-- What is given later prevails. -/
lemma Alters.trans (h : Alters f data middle) (h' : Alters g middle data') :
    Alters (fun k => (g k).or (f k)) data data' where
  sectioned := h'.sectioned.trans h.sectioned
  takes hdata k := by
    rw [h'.takes (h.sectioned.mpr hdata)]
    rcases g k with _ | v
    · exact h.takes hdata k
    · exact Iff.rfl

lemma alters_define (hdefine : o.define v data = .ok data') :
    Alters (fun k => if o.key = k then some v else none) data data' where
  sectioned := sectioned_define_iff hdefine
  takes hdata k := by
    rcases define_cases o v data with ⟨es, hes, heq⟩ | ⟨es, object, hes, heq⟩ | ⟨_, -, -, heq⟩ <;>
      cases hdefine.symm.trans heq
    · rw [Settings.given, defined?_put_home hes]
      by_cases hk : o.key = k
      · rw [if_pos hk, if_pos hk.symm]
        rfl
      · rw [if_neg hk, if_neg (Ne.symm hk)]
        rfl
    · obtain ⟨around, hdefined⟩ := defined?_redefineEntries (v := v) hdata hes k
      rw [Settings.given, hdefined]
      by_cases hk : o.key = k
      · rw [if_pos hk, if_pos hk.symm]
        rfl
      · rw [if_neg hk, if_neg (Ne.symm hk), Settings.given]
        rcases k.defined? data with _ | w
        · rfl
        · exact SettingKey.takes_redefine

/-- One variable: it fails only at a section that is no mapping. -/
lemma apply_ends : (apply env data o : Step σ Entries).Ends s
    (fun data' _ => Alters (fun k => if o.key = k then o.value? env else none) data data')
    fun _ _ => ¬Layer.Sectioned data := by
  have hnone : (fun k => if o.key = k then none else none : SettingKey → Option Value) =
      fun _ => none := by
    funext k
    exact ite_self _
  rw [apply, value?]
  rcases o.raw? env with _ | raw
  · rw [Option.bind_none, hnone]
    exact Step.ends_pure.mpr (.refl data)
  · rw [Option.bind_some]
    rcases hparse : o.key.parse? raw with _ | v <;> simp only [hparse]
    · rw [hnone]
      exact .bind (Step.ends_log.mpr (Step.ends_pure.mpr (Alters.refl data)))
    · refine Step.ends_ofAnswer.mpr ⟨fun data' => alters_define, fun e he hdata => ?_⟩
      rcases define_cases o v data with ⟨_, -, heq⟩ | ⟨_, _, -, heq⟩ | ⟨w, hw, hno, -⟩
      · cases he.symm.trans heq
      · cases he.symm.trans heq
      · rw [hdata _ w hw] at hno
        cases hno

/-- Several variables of different settings. -/
lemma foldlM_ends {os : List Override} (hos : (os.map (·.key)).Nodup) :
    (os.foldlM (apply env) data : Step σ Entries).Ends s
      (fun data' _ => Alters (valueIn? os env) data data') fun _ _ => ¬Layer.Sectioned data := by
  induction os generalizing data s with
  | nil => exact Step.ends_pure.mpr (.refl data)
  | cons o os ih =>
      obtain ⟨hnew, hos⟩ := List.nodup_cons.mp hos
      have hvalue : valueIn? (o :: os) env = fun k =>
          (valueIn? os env k).or (if o.key = k then o.value? env else none) :=
        funext (valueIn?_cons_of_new hnew)
      rw [List.foldlM_cons, hvalue]
      refine .bind (apply_ends.imp (fun middle t hmiddle => ?_) fun _ _ => id)
      exact (ih hos).imp (fun data' _ hdata' => hmiddle.trans hdata') fun _ _ hno hdata =>
        hno (hmiddle.sectioned.mpr hdata)

end Override

/-! ### Loading files of any kind -/

namespace Layer

variable {σ : Type} {s : σ} {env : Environment} {tree : FileTree} {path userFile projectFile : Path}
  {n : Nat} {layer : Layer} {es : Entries}

/-- Entries that settings can be made of in an environment. -/
structure Usable (env : Environment) (es : Entries) : Prop where
  sections : Sectioned es
  takes : ∀ k : SettingKey, k.Takes (inForce env es k)

/-- What is read is what is in the file, if that can be asked for. -/
lemma read_eq_ok_iff :
    read tree n path = .ok layer ↔ Found tree n path layer ∧ tree.Reaches path := by
  refine ⟨fun h => ⟨?_, ?_⟩, fun h => h.1.read h.2⟩
  · rw [read] at h
    rcases hthere : tree.contains? path with why | _ | _ <;> simp only [hthere] at h
    · cases h
    · cases h
      exact .absent hthere
    · rcases hread : tree.read path with why | bytes <;> simp only [hread] at h
      · cases h
        exact .unreadable hthere hread
      · rcases htext : decodeText bytes with _ | text <;> simp only [htext] at h
        · cases h
        · simp only [Option.map_some] at h
          rcases hyaml : Yaml.read n text with e | v <;> simp only [hyaml] at h
          · cases e <;> cases h
            exact .malformed hread htext hyaml
          · cases h
            exact .written hread htext hyaml
  · by_contra hno
    obtain ⟨e, he⟩ := read_error_of_not_reaches (n := n) hno
    cases h.symm.trans he

lemma entriesAt_ends : (entriesAt tree n path : Step σ Entries).Ends s
    (fun es _ => ∃ layer, read tree n path = .ok layer ∧ es = layer.entries)
    fun _ _ => ¬∃ layer, read tree n path = .ok layer := by
  rcases hread : read tree n path with e | layer
  · exact (entriesAt_yields_error hread).ends_error nofun
  · exact (entriesAt_yields hread).ends ⟨layer, rfl, rfl⟩

/-- The files can be asked for and read, no two mappings of them meet again inside themselves, and
settings can be made of what they define together. -/
def Loadable (tree : FileTree) (env : Environment) (userFile projectFile : Path) : Prop :=
  ∃ user project, (Found tree 0 userFile user ∧ tree.Reaches userFile) ∧
    (Found tree 1 projectFile project ∧ tree.Reaches projectFile) ∧
    fieldsMeetAgain [] user.entries project.entries = false ∧ Usable env (together user project)

lemma loadable_iff {user project : Layer} (hu : read tree 0 userFile = .ok user)
    (hp : read tree 1 projectFile = .ok project) : Loadable tree env userFile projectFile ↔
      fieldsMeetAgain [] user.entries project.entries = false ∧
        Usable env (together user project) := by
  constructor
  · rintro ⟨user', project', hu', hp', h⟩
    cases hu.symm.trans (read_eq_ok_iff.mpr hu')
    cases hp.symm.trans (read_eq_ok_iff.mpr hp')
    exact h
  · exact fun h => ⟨user, project, read_eq_ok_iff.mp hu, read_eq_ok_iff.mp hp, h⟩

/-- What the variables of the environment make of entries can be made settings of as before. -/
lemma usable_iff {data : Entries}
    (h : Override.Alters (Override.valueIn? Override.all env) es data) :
    (∃ t, Settings.ofValue? (.dict data) = .ok t) ↔ Usable env es := by
  rw [Settings.exists_ofValue?_iff, h.sectioned]
  have hgiven : ∀ k : SettingKey, inForce env es k =
      ((Override.valueIn? Override.all env k).getD (Settings.given es k)) := by
    intro k
    rw [inForce, Settings.given]
    cases Override.valueIn? Override.all env k <;> rfl
  constructor
  · rintro ⟨hsections, htakes⟩
    exact ⟨hsections, fun k => by rw [hgiven, ← h.takes hsections]; exact htakes k⟩
  · rintro ⟨hsections, htakes⟩
    exact ⟨hsections, fun k => by rw [h.takes hsections, ← hgiven]; exact htakes k⟩

/-- **Loading from files of any kind**, as an equivalence. -/
lemma load_ends : (load tree env userFile projectFile : Step σ Settings).Ends s
    (fun _ _ => Loadable tree env userFile projectFile)
    fun _ _ => ¬Loadable tree env userFile projectFile := by
  rw [load]
  refine .bind (entriesAt_ends.imp (fun es _ => ?_) fun _ _ hno => ?_)
  · rintro ⟨user, hu, rfl⟩
    refine .bind (entriesAt_ends.imp (fun es _ => ?_) fun _ _ hno => ?_)
    · rintro ⟨project, hp, rfl⟩
      rw [loadable_iff hu hp]
      split
      · next hmeet =>
          exact .bind (Step.ends_throw.mpr fun h => by rw [hmeet] at h; cases h.1)
      · next hmeet =>
          have hkeys : (Override.all.map (·.key)).Nodup := by decide
          refine .bind ((Override.foldlM_ends hkeys).imp (fun data _ hdata => ?_)
            fun _ _ hno h => hno h.2.sections)
          have husable : (∃ t, Settings.ofValue? (.dict data) = .ok t) ↔
              Usable env (together user project) := usable_iff hdata
          rw [← husable]
          refine Step.ends_ofAnswer.mpr ⟨fun t ht => ⟨by simpa using hmeet, t, ht⟩, ?_⟩
          rintro e he ⟨-, t, ht⟩
          cases he.symm.trans ht
    · rintro ⟨_, project, -, hp, -⟩
      exact hno ⟨project, read_eq_ok_iff.mpr hp⟩
  · rintro ⟨user, _, hu, -⟩
    exact hno ⟨user, read_eq_ok_iff.mpr hu⟩

end Layer

namespace SettingsStore

variable {env : Environment} {s : SettingsStore}

/-- The files of a store can be loaded. -/
def Loadable (env : Environment) (s : SettingsStore) : Prop :=
  Layer.Loadable s.files env (s.path .user) (s.path .project)

lemma load_ends : (load env).Ends s (fun _ _ => s.held.isSome ∨ s.Loadable env)
    fun _ _ => ¬(s.held.isSome ∨ s.Loadable env) := by
  rw [load]
  refine .bind (Step.ends_get.mpr ?_)
  rcases hheld : s.held with _ | settings
  · refine .bind (Layer.load_ends.imp (fun settings t hloadable => ?_) fun _ _ hno => ?_)
    · exact .bind (Step.ends_set.mpr (Step.ends_pure.mpr (.inr hloadable)))
    · rintro (hnone | hloadable)
      · cases hnone
      · exact hno hloadable
  · exact Step.ends_pure.mpr (.inl rfl)

/-- **When settings are loaded**: if they are held already, or if the files can be loaded. -/
lemma exists_load_iff : (∃ settings, ((load env).run s).1 = .ok settings) ↔
    s.held.isSome ∨ s.Loadable env := by
  rcases hrun : (load env).run s with ⟨e | settings, t, log⟩
  · exact iff_of_false nofun (load_ends.of_run_error hrun)
  · exact iff_of_true ⟨settings, rfl⟩ (load_ends.of_run_ok hrun)

end SettingsStore

/-! ### Runs -/

namespace Program

/-- The store that a request begins with. -/
def storeOf (w : Surroundings) (r : Request) : SettingsStore :=
  { projectDir := Path.ofText r.project, userDir := w.userDir, files := w.files }

/-- A run that gets past its settings: it goes on with its command if nothing is wrong with them,
else it reports what is, ends with code 2 and leaves the files as they are. -/
inductive Proceeds (w : Surroundings) (r : Request) (c : Command) : Outcome → Prop
  | runs {settings : Settings} {store : SettingsStore} {log : List LogLine}
      (hload : (SettingsStore.load w.env).run (storeOf w r) = (.ok settings, store, log))
      (hvalid : settings.problem? = .ok none) :
      Proceeds w r c { runCommand w r c store settings with
        err := plainLog log ++ (runCommand w r c store settings).err }
  | reports {settings : Settings} {store : SettingsStore} {log : List LogLine} {problem : String}
      (hload : (SettingsStore.load w.env).run (storeOf w r) = (.ok settings, store, log))
      (hproblem : settings.problem? = .ok (some problem)) :
      Proceeds w r c {
        ending := .answered 2
        err := plainLog log ++ [.lines ("Error: invalid configuration: " ++ problem)]
        files := w.files }

/-- A run that ends with a fault before anything is said or done, but for the warnings about the
settings. -/
def Breaks (w : Surroundings) (o : Outcome) : Prop :=
  ∃ why warnings, o = { ending := .failed why, err := plainLog warnings, files := w.files }

lemma runRequest_eq (w : Surroundings) (r : Request) (c : Command) : runRequest w r c =
    match (SettingsStore.load w.env).run (storeOf w r) with
    | (.error why, _, log) =>
      { ending := .failed why, err := plainLog log ++ [], files := w.files }
    | (.ok settings, store, log) => match settings.problem? with
      | .error why => { ending := .failed why, err := plainLog log ++ [], files := w.files }
      | .ok (some problem) => {
          ending := .answered 2
          err := plainLog log ++ [.lines ("Error: invalid configuration: " ++ problem)]
          files := w.files }
      | .ok none =>
        { runCommand w r c store settings with
          err := plainLog log ++ (runCommand w r c store settings).err } := by
  rw [runRequest, storeOf]
  rcases (SettingsStore.load w.env).run _ with ⟨why | settings, store, log⟩ <;> rfl

/-- **Bad settings are reported** exactly if they can be loaded and it can be told what is wrong
with them. They are loaded if the files can be asked for and read, no two of their mappings meet
again inside themselves, all sections are mappings, and lists and a number can be made of what is in
force for them. All other settings break the run. -/
theorem settings_reported (env : Environment) (s : SettingsStore) (w : Surroundings) (r : Request)
    (c : Command) :
    ((∃ settings, ((SettingsStore.load env).run s).1 = .ok settings) ↔
      s.held.isSome ∨ s.Loadable env) ∧
    (∀ settings : Settings, (∃ problem, settings.problem? = .ok problem) ↔ settings.Judged) ∧
    (Proceeds w r c (runRequest w r c) ∧
        (∃ settings, ((SettingsStore.load w.env).run (storeOf w r)).1 = .ok settings ∧
          settings.Judged) ∨
      Breaks w (runRequest w r c) ∧
        ¬∃ settings, ((SettingsStore.load w.env).run (storeOf w r)).1 = .ok settings ∧
          settings.Judged) := by
  refine ⟨SettingsStore.exists_load_iff, fun _ => Settings.exists_problem?_iff, ?_⟩
  rcases hload : (SettingsStore.load w.env).run (storeOf w r) with ⟨why | settings, store, log⟩
  · refine .inr ⟨⟨why, log, ?_⟩, nofun⟩
    rw [runRequest_eq, hload]
    simp
  · rcases hproblem : settings.problem? with why | _ | problem
    · refine .inr ⟨⟨why, log, ?_⟩, ?_⟩
      · rw [runRequest_eq, hload]
        simp [hproblem]
      · rintro ⟨_, h, hjudged⟩
        cases h
        obtain ⟨problem, h⟩ := Settings.exists_problem?_iff.mpr hjudged
        cases h.symm.trans hproblem
    · refine .inl ⟨?_, settings, rfl, Settings.exists_problem?_iff.mp ⟨_, hproblem⟩⟩
      rw [runRequest_eq, hload]
      simpa only [hproblem] using Proceeds.runs hload hproblem
    · refine .inl ⟨?_, settings, rfl, Settings.exists_problem?_iff.mp ⟨_, hproblem⟩⟩
      rw [runRequest_eq, hload]
      simpa only [hproblem] using Proceeds.reports hload hproblem

/-- The settings of a project in which a section is named and nothing is said in it. -/
def hollow : String := "resolver:\n"

/-- What is in the file of these settings. -/
def hollowEntries : Entries := [(.text SettingsSection.resolver.label, .null)]

/-- The surroundings of a run in this project. -/
def hollowProject : Surroundings where
  env := {}
  files := { entries := [(⟨[".procindex", "config.yaml"]⟩, .file hollow.toUTF8.toList)] }
  userDir := ⟨["home", ".procindex"]⟩

/-- A request for the settings of the working directory. -/
def showSettings : Request where
  project := "."
  verbose := false
  command := some (.config none false)

/-- Whether a text writes the mapping that is in the file. -/
def writesHollow (text : String) : Bool :=
  match Yaml.read 1 (String.ofList (normalBreaks text.toList)) with
  | .ok (.dict [(.text s, .null)] _) => s == SettingsSection.resolver.label
  | _ => false

lemma read_hollow : ∃ mark,
    Yaml.read 1 (String.ofList (normalBreaks hollow.toList)) = .ok (.dict hollowEntries mark) := by
  have hhollow : writesHollow hollow = true := by
    simp only [writesHollow, Yaml.read, Yaml.Graph.read?, Yaml.Lexer.ofText?_ofList]
    decide +kernel
  rw [writesHollow] at hhollow
  split at hhollow
  · next s mark hv =>
      rw [eq_of_beq hhollow] at hv
      exact ⟨mark, hv⟩
  · cases hhollow

lemma found_hollow :
    let s := storeOf hollowProject showSettings
    (Layer.Found s.files 0 (s.path .user) .absent ∧ s.files.Reaches (s.path .user)) ∧
      Layer.Found s.files 1 (s.path .project) (.mapping hollowEntries) ∧
        s.files.Reaches (s.path .project) := by
  have hpath : Path.ofText "." = ⟨[]⟩ := by cbv
  have hstore : storeOf hollowProject showSettings =
      { projectDir := ⟨[]⟩, userDir := hollowProject.userDir, files := hollowProject.files } := by
    rw [storeOf, showSettings, hpath]
  have huser : hollowProject.files.contains? ((storeOf hollowProject showSettings).path .user) =
      .ok false := by
    rw [hstore]
    decide +kernel
  have hplace : hollowProject.files.place ((storeOf hollowProject showSettings).path .project) =
      .ok [".procindex", "config.yaml"] := by
    rw [hstore]
    decide +kernel
  have hread := FileTree.read_of_place hplace rfl
  obtain ⟨mark, hyaml⟩ := read_hollow
  exact ⟨⟨.absent huser, _, huser⟩, .of_text hread hyaml, _, FileTree.contains?_of_read hread⟩

/-- A section is asked for its settings, also if it is no mapping. -/
lemma ofValue?_hollowEntries : Settings.ofValue? (.dict hollowEntries) = .error .noAttribute := by
  have hresolver : Settings.getOr (.dict hollowEntries) "resolver" (.dict []) = .ok .null := by
    rw [Settings.getOr_dict, field?, hollowEntries, SettingsSection.label,
      Value.lookup?_cons_self, Option.getD_some]
  rw [Settings.ofValue?]
  exact (Answer.bind_of_ok hresolver).trans rfl

lemma load_hollow : ∃ log,
    let s := storeOf hollowProject showSettings
    (Layer.load s.files {} (s.path .user) (s.path .project) : Step SettingsStore Settings).Yields s
      (.error .noAttribute) s log := by
  have hu := Layer.read_eq_ok_iff.mpr found_hollow.1
  have hp := Layer.read_eq_ok_iff.mpr found_hollow.2
  refine ⟨(Layer.warning? _ _).toList ++ ((Layer.warning? _ _).toList ++ []),
    (Layer.entriesAt_yields hu).bind ((Layer.entriesAt_yields hp).bind ?_)⟩
  -- no variable is set, so the entries are as in the file
  change (Step.ofAnswer (Settings.ofValue? (.dict hollowEntries)) : Step SettingsStore _).Yields
    _ _ _ _
  rw [ofValue?_hollowEntries]
  exact Step.yields_ofAnswer _

/-- **A section without settings is not reported**: nothing is loaded, and the run breaks. -/
theorem settings_fail_empty :
    Layer.Found hollowProject.files 0 ((storeOf hollowProject showSettings).path .user) .absent ∧
    Layer.Found hollowProject.files 1 ((storeOf hollowProject showSettings).path .project)
      (.mapping hollowEntries) ∧
    ((SettingsStore.load {}).run (storeOf hollowProject showSettings)).1 = .error .noAttribute ∧
    (runRequest hollowProject showSettings (.config none false)).ending =
      .failed .noAttribute := by
  obtain ⟨log, hload⟩ := load_hollow
  have hrun : (SettingsStore.load hollowProject.env).run (storeOf hollowProject showSettings) = _ :=
    (SettingsStore.load_yields_error (s := storeOf hollowProject showSettings) {} rfl hload).run
  refine ⟨found_hollow.1.1, found_hollow.2.1, congrArg (·.1) hrun, ?_⟩
  rw [runRequest_eq, hrun]

end Program

end Concordance
