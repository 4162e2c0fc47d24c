import Mathlib
import Concordance.Proofs.Layering

/-!
Loading the settings from files.

* `Layer.Found` : what is in a file of settings; `Layer.Found.read` : this is read, unless the file
  cannot be asked for.
* `SettingsStore.load_inForce` : when the settings are loaded, and what is in force then.
* `SettingsStore.load_fails_overlong` : a name that is too long is no file to be ignored.
-/

namespace Concordance

/-! ### What is in a file -/

/-- The bytes of a text are that text again, but for its line breaks. -/
lemma decodeText_toUTF8 (s : String) :
    decodeText s.toUTF8.toList = some (String.ofList (normalBreaks s.toList)) := by
  have hbytes : (⟨s.toUTF8.toList.toArray⟩ : ByteArray) = s.toByteArray := by
    rw [String.toUTF8_eq_toByteArray, toList_eq_data]
  have hdecoded : String.fromUTF8? s.toByteArray = some s := dif_pos s.isValidUTF8
  rw [decodeText, hbytes, hdecoded, Option.map_some]

lemma Yaml.Lexer.ofText?_ofList (cs : List Char) : ofText? (String.ofList cs) =
    if cs.all isAdmitted then .ok { cursor := { rest := cs } } else .error .malformed := by
  rw [ofText?, String.toList_ofList]

namespace FileTree

variable {tree : FileTree} {path : Path}

lemma read_of_place {steps : List String} {bytes : List UInt8}
    (hplace : tree.place path = .ok steps)
    (hfile : tree.entry? steps = some (.file bytes)) : tree.read path = .ok bytes := by
  have hlook : tree.look path = .ok (.file bytes) := by
    simp only [look, hplace, bind, Except.bind, hfile]
    rfl
  rw [read, hlook]
  rfl

/-- What can be read is there. -/
lemma contains?_of_read {bytes : List UInt8} (h : tree.read path = .ok bytes) :
    tree.contains? path = .ok true := by
  rw [read] at h
  rcases hlook : tree.look path with why | entry
  · rw [hlook] at h
    cases h
  · rw [contains?, hlook]

/-- There is an answer to the question whether something stands at a path. -/
def Reaches (tree : FileTree) (path : Path) : Prop := ∃ there, tree.contains? path = .ok there

end FileTree

namespace Layer

variable {tree : FileTree} {path : Path} {n : Nat} {layer : Layer}

/-- What is in a file of settings: nothing if the file is not there, cannot be read or is no YAML,
else the value that it writes. -/
inductive Found (tree : FileTree) (n : Nat) (path : Path) : Layer → Prop
  | absent (h : tree.contains? path = .ok false) : Found tree n path absent
  | unreachable {why : FileFailure} (h : tree.contains? path = .error why) :
      Found tree n path malformed
  | unreadable {why : FileFailure} (h : tree.contains? path = .ok true)
      (hread : tree.read path = .error why) : Found tree n path malformed
  | malformed {bytes : List UInt8} {text : String} (hread : tree.read path = .ok bytes)
      (htext : decodeText bytes = some text) (hyaml : Yaml.read n text = .error .malformed) :
      Found tree n path malformed
  | written {bytes : List UInt8} {text : String} {v : Value} (hread : tree.read path = .ok bytes)
      (htext : decodeText bytes = some text) (hyaml : Yaml.read n text = .ok v) :
      Found tree n path (ofValue v)

/-- It is read from every path that can be asked for. -/
lemma Found.read (h : Found tree n path layer) (hreach : tree.Reaches path) :
    read tree n path = .ok layer := by
  cases h with
  | absent h => rw [Layer.read, h]
  | unreachable h =>
      obtain ⟨there, hthere⟩ := hreach
      cases h.symm.trans hthere
  | unreadable h hread => rw [Layer.read, h, hread]
  | malformed hread htext hyaml =>
      rw [Layer.read, FileTree.contains?_of_read hread, hread]
      simp only [htext, Option.map_some, hyaml, Yaml.Failure.fault?]
  | written hread htext hyaml =>
      rw [Layer.read, FileTree.contains?_of_read hread, hread]
      simp only [htext, Option.map_some, hyaml]

lemma Found.of_text {text : String} {v : Value} (hread : tree.read path = .ok text.toUTF8.toList)
    (hyaml : Yaml.read n (String.ofList (normalBreaks text.toList)) = .ok v) :
    Found tree n path (ofValue v) := .written hread (decodeText_toUTF8 text) hyaml

lemma read_error_of_not_reaches (h : ¬tree.Reaches path) : ∃ e, read tree n path = .error e := by
  rcases hcontains : tree.contains? path with why | there
  · exact ⟨_, by rw [Layer.read, hcontains]⟩
  · exact (h ⟨there, hcontains⟩).elim

end Layer

/-! ### The settings in force -/

namespace SettingsStore

variable {env : Environment} {s : SettingsStore} {user project : Layer}

lemma load_yields (env : Environment) {settings : Settings} {log : List LogLine}
    (hheld : s.held = none)
    (h : (Layer.load s.files env (s.path .user) (s.path .project) :
      Step SettingsStore Settings).Yields s (.ok settings) s log) :
    (load env).Yields s (.ok settings) { s with held := some settings } log := by
  rw [load, ← List.nil_append log]
  refine Step.yields_get.bind ?_
  rw [hheld, ← List.append_nil log]
  exact h.bind ((Step.yields_set _).bind (Step.yields_pure settings))

lemma load_yields_error (env : Environment) {e : Fault} {log : List LogLine} (hheld : s.held = none)
    (h : (Layer.load s.files env (s.path .user) (s.path .project) :
      Step SettingsStore Settings).Yields s (.error e) s log) :
    (load env).Yields s (.error e) s log := by
  rw [load, ← List.nil_append log]
  refine Step.yields_get.bind ?_
  rw [hheld]
  exact h.bind_error

/-- Where loading fails there are no settings, and nothing is to be said of them. -/
lemma not_loaded {P : Prop} {Q : Settings → SettingsStore → List LogLine → Prop} {e : Fault}
    {log : List LogLine} (h : (load env).Yields s (.error e) s log) (hP : ¬P) :
    ((∃ settings, ((load env).run s).1 = .ok settings) ↔ P) ∧
      ∀ settings t log, (load env).run s = (.ok settings, t, log) → Q settings t log := by
  rw [h.run]
  exact ⟨iff_of_false nofun hP, nofun⟩

/-- **The layers.** Over files whose settings have their declared types the settings are loaded,
unless the name of a file is too long or two mappings of the files meet again inside themselves.
Each setting then has the value of its variable, or else that of the project, or else that of the
user, or else its default; and what is ignored has been warned about. -/
theorem load_inForce (env : Environment) (s : SettingsStore) (hheld : s.held = none)
    {user project : Layer} (hu : Layer.Found s.files 0 (s.path .user) user)
    (hp : Layer.Found s.files 1 (s.path .project) project)
    (hwu : Layer.Orderly user.entries) (hwp : Layer.Orderly project.entries) :
    ((∃ settings, ((load env).run s).1 = .ok settings) ↔
      s.files.Reaches (s.path .user) ∧ s.files.Reaches (s.path .project) ∧
        Layer.fieldsMeetAgain [] user.entries project.entries = false) ∧
    ∀ settings t log, (load env).run s = (.ok settings, t, log) →
      (∀ k : SettingKey, (k.get settings).same
        ((((Override.valueIn? Override.all env k).or (k.defined? project.entries)).or
          (k.defined? user.entries)).getD (k.get {})) = true) ∧
      t = { s with held := some settings } ∧
      log = Layer.warnings env (s.path .user) (s.path .project) user project := by
  by_cases hreachu : s.files.Reaches (s.path .user)
  · have hreadu := hu.read hreachu
    by_cases hreachp : s.files.Reaches (s.path .project)
    · have hreadp := hp.read hreachp
      rcases hmeet : Layer.fieldsMeetAgain [] user.entries project.entries with _ | _
      · have hwell : Layer.WellTyped (Layer.together user project) :=
          (Layer.wellTyped_nil.merge hwu).merge hwp
        have hrun := (load_yields env hheld (Layer.load_yields hreadu hreadp hmeet hwell)).run
        refine ⟨iff_of_true ⟨_, by rw [hrun]⟩ ⟨hreachu, hreachp, rfl⟩, ?_⟩
        intro settings t log h
        rw [hrun] at h
        cases h
        refine ⟨fun k => ?_, rfl, rfl⟩
        rw [Settings.get_ofValues (Layer.inForce_admits hwell)]
        rw [← Layer.inForce_together hwu hwp]
        exact (Layer.inForce_admits hwell k).taken_same
      · exact not_loaded (load_yields_error env hheld (Layer.load_yields_deep hreadu hreadp hmeet))
          fun h => nomatch h.2.2
    · obtain ⟨e, he⟩ := Layer.read_error_of_not_reaches hreachp
      exact not_loaded (load_yields_error env hheld (Layer.load_yields_project hreadu he))
        fun h => hreachp h.2.1
  · obtain ⟨e, he⟩ := Layer.read_error_of_not_reaches hreachu
    exact not_loaded (load_yields_error env hheld (Layer.load_yields_user he)) fun h => hreachu h.1

/-- What a user sets for builds. -/
def sharedByUser : String := "pipeline:\n  workers: 2\n"

/-- What a project sets for builds. -/
def sharedByProject : String := "pipeline:\n  publish_to_metadata: no\n"

/-- Two files of settings that share a section. -/
def shared : SettingsStore where
  projectDir := ⟨["p"]⟩
  userDir := ⟨["u"]⟩
  files := { entries := [
    (⟨["u", "config.yaml"]⟩, .file sharedByUser.toUTF8.toList),
    (⟨["p", ".procindex", "config.yaml"]⟩, .file sharedByProject.toUTF8.toList)] }

/-- Variables of which one stands for no value. -/
def halfHeard : Environment :=
  { entries := [("PROCINDEX_WORKERS", "many"), ("PROCINDEX_LOG_LEVEL", "error")] }

/-- Two files of settings that can be laid over each other, with what comes of it for builds. -/
def Combines (env : Environment) (user project : Layer) (pipeline : PipelineSettings) : Prop :=
  Layer.Orderly user.entries ∧ Layer.Orderly project.entries ∧
    Layer.fieldsMeetAgain [] user.entries project.entries = false ∧
    let settings := Settings.ofValues (Layer.inForce env (Layer.together user project))
    settings.pipeline.workers = pipeline.workers ∧
      settings.pipeline.publishToMetadata = pipeline.publishToMetadata

instance (env : Environment) (user project : Layer) (pipeline : PipelineSettings) :
    Decidable (Combines env user project pipeline) := inferInstanceAs (Decidable (_ ∧ _))

/-- Whether two texts write files that can be laid over each other. -/
def combines (env : Environment) (user project : String) (pipeline : PipelineSettings) : Bool :=
  match Yaml.read 0 (String.ofList (normalBreaks user.toList)),
    Yaml.read 1 (String.ofList (normalBreaks project.toList)) with
  | .ok v, .ok w => decide (Combines env (.ofValue v) (.ofValue w) pipeline)
  | _, _ => false

theorem load_inForce_shared : ∃ user project settings t log,
    Layer.Found shared.files 0 (shared.path .user) user ∧
    Layer.Found shared.files 1 (shared.path .project) project ∧
    Layer.Orderly user.entries ∧ Layer.Orderly project.entries ∧
    (load halfHeard).run shared = (.ok settings, t, log) ∧
    settings.pipeline.workers = 2 ∧ settings.pipeline.publishToMetadata = false ∧
    log = Layer.warnings halfHeard (shared.path .user) (shared.path .project) user project := by
  have hcombine : combines halfHeard sharedByUser sharedByProject ⟨2, false⟩ = true := by
    simp only [combines, Yaml.read, Yaml.Graph.read?, Yaml.Lexer.ofText?_ofList]
    decide +kernel
  rw [combines] at hcombine
  split at hcombine
  · next v w hv hw =>
      obtain ⟨hwu, hwp, hmeet, hworkers, hpublish⟩ := of_decide_eq_true hcombine
      have hplaceu : shared.files.place (shared.path .user) = .ok ["u", "config.yaml"] := by
        decide +kernel
      have hplacep : shared.files.place (shared.path .project) =
          .ok ["p", ".procindex", "config.yaml"] := by decide +kernel
      have hreadu := FileTree.read_of_place hplaceu rfl
      have hreadp := FileTree.read_of_place hplacep rfl
      have hu := Layer.Found.of_text (n := 0) hreadu hv
      have hp := Layer.Found.of_text (n := 1) hreadp hw
      obtain ⟨hloads, hall⟩ := load_inForce halfHeard shared rfl hu hp hwu hwp
      have hwell := (Layer.wellTyped_nil.merge hwu).merge hwp
      have hrun := (load_yields halfHeard rfl (Layer.load_yields
        (hu.read ⟨true, FileTree.contains?_of_read hreadu⟩)
        (hp.read ⟨true, FileTree.contains?_of_read hreadp⟩) hmeet hwell)).run
      exact ⟨_, _, _, _, _, hu, hp, hwu, hwp, hrun, hworkers, hpublish, (hall _ _ _ hrun).2.2⟩
  · cases hcombine

/-- A store without files, in a project whose name is too long for a file system. -/
def overlong : SettingsStore where
  projectDir := ⟨[String.ofList (List.replicate 256 'x')]⟩
  userDir := ⟨["u"]⟩

/-- **A file that cannot be asked for is not ignored**: no file is there, but nothing is loaded. -/
theorem load_fails_overlong :
    Layer.Found overlong.files 0 (overlong.path .user) .absent ∧
    Layer.Found overlong.files 1 (overlong.path .project) .malformed ∧
    ((load {}).run overlong).1 = .error (.storage .nameTooLong) := by
  have huser : overlong.files.contains? (overlong.path .user) = .ok false := by decide +kernel
  have hproject : overlong.files.contains? (overlong.path .project) = .error .nameTooLong := by
    decide +kernel
  have hreadu : Layer.read overlong.files 0 (overlong.path .user) = .ok .absent := by
    rw [Layer.read, huser]
  have hreadp : Layer.read overlong.files 1 (overlong.path .project) =
      .error (.storage .nameTooLong) := by
    rw [Layer.read, hproject]
    rfl
  refine ⟨.absent huser, .unreachable hproject, ?_⟩
  rw [(load_yields_error {} rfl (Layer.load_yields_project hreadu hreadp)).run]

end SettingsStore

end Concordance
