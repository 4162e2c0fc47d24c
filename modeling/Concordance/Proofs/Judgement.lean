import Mathlib
import Concordance.Proofs.Settings
import Concordance.Settings.Key

/-!
Which settings can be judged.

* `Reached` : what holds of the members of a list that a search comes to.
* `Settings.JudgedIn`, `Settings.exists_problemIn_iff` : when it can be told what is wrong with one
  section. It always can with settings of the declared types (`Settings.Typed.judgedIn`).
* `Settings.Judged`, `Settings.exists_problem?_iff` : when it can be told what is wrong with all of
  them.
-/

namespace Concordance

/-! ### What a search comes to -/

section Reached

variable {α : Type} {passes P Q : α → Prop} {x : α} {xs : List α}

/-- What holds of each member of a list that a search comes to: of those before which all others are
passed. -/
def Reached (passes P : α → Prop) (xs : List α) : Prop :=
  ∀ before x after, xs = before ++ x :: after → (∀ y ∈ before, passes y) → P x

lemma reached_nil : Reached passes P [] := fun before _ _ h => by
  cases before <;> cases h

lemma reached_cons : Reached passes P (x :: xs) ↔ P x ∧ (passes x → Reached passes P xs) := by
  constructor
  · refine fun h => ⟨h [] x xs rfl nofun, fun hx before y after hxs hbefore => ?_⟩
    exact h (x :: before) y after (congrArg _ hxs) (List.forall_mem_cons.mpr ⟨hx, hbefore⟩)
  · rintro ⟨hx, hrest⟩ before y after hxs hbefore
    cases before with
    | nil =>
        cases hxs
        exact hx
    | cons z before =>
        cases hxs
        rw [List.forall_mem_cons] at hbefore
        exact hrest hbefore.1 before y after rfl hbefore.2

lemma reached_congr (h : ∀ x, P x ↔ Q x) : Reached passes P xs ↔ Reached passes Q xs := by
  rw [funext fun x => propext (h x)]

end Reached

/-! ### Known and unknown values -/

namespace Value

lemma exists_display?_iff {v : Value} : (∃ s, v.display? = .ok s) ↔ v.spellableIn [] := by
  rw [display?]
  split
  · next h => exact iff_of_true ⟨_, rfl⟩ h
  · next h =>
      refine iff_of_false ?_ h
      rintro ⟨_, hs⟩
      cases hs

lemma spellableIn_text (s : String) : spellableIn [] (.text s) = true := rfl

lemma memberOf_textValues {names : List String} {v : Value} :
    memberOf (textValues names) v = true ↔ ∃ n ∈ names, v = .text n := by
  simp [memberOf, textValues, @eq_comm _ v]

lemma spellableIn_of_memberOf {names : List String} {v : Value}
    (h : memberOf (textValues names) v = true) : v.spellableIn [] = true := by
  obtain ⟨n, -, rfl⟩ := memberOf_textValues.mp h
  exact spellableIn_text n

/-- Texts are asked for among the values that are not known; what is known is a text. -/
lemma exists_texts?_iff {names : List String} {vs : List Value} :
    (∃ ss, texts? (vs.filter fun v => !memberOf (textValues names) v) = .ok ss) ↔
      ∀ v ∈ vs, v.isText := by
  rw [texts?, Answer.mapM_ok_iff]
  refine ⟨fun h v hv => ?_, fun h v hv => ?_⟩
  · by_cases hmem : memberOf (textValues names) v
    · obtain ⟨n, -, rfl⟩ := memberOf_textValues.mp hmem
      rfl
    · obtain ⟨t, ht⟩ := h v (List.mem_filter.mpr ⟨hv, by simpa using hmem⟩)
      cases v with
      | text s => rfl
      | _ => cases ht
  · obtain ⟨s, rfl⟩ := isText_iff.mp (h v (List.mem_of_mem_filter hv))
    exact ⟨s, rfl⟩

/-- It can be told of a name whether it holds the separator, and it can be shown if it does. -/
def Tells (separator name : Value) : Prop :=
  ∃ holds, name.contains? separator = .ok holds ∧ (holds = true → name.spellableIn [])

end Value

/-! ### What is wrong with a section -/

namespace Settings

open Value (exists_display?_iff exists_texts?_iff memberOf_textValues spellableIn_of_memberOf)

variable {s : Settings} {g : SettingsSection}

/-- What it takes to tell what is wrong with a section. A separator and a marker that are there are
asked for among the names; of what is unknown, the text is asked for. -/
def JudgedIn (s : Settings) : SettingsSection → Prop
  | .resolver => s.resolver.packageSeparator.truthy → s.resolver.wildcardMarker.truthy →
      Reached (fun name => name.contains? s.resolver.packageSeparator = .ok false)
        (Value.Tells s.resolver.packageSeparator) s.resolver.builtinTypes
  | .dialects => ∀ name ∈ s.dialects.enabled, name.isText
  | .pipeline => True
  | .display => s.display.symbols.spellableIn [] ∧
      ((∃ n ∈ DisplaySettings.symbolChoices, s.display.symbols = .text n) →
        s.display.format.spellableIn [])
  | .logging => s.logging.level.isText ∨ ∃ bs, s.logging.level = .bytes bs

/-- It can be told what is wrong with each section that is looked at: with those before which
nothing is wrong. -/
def Judged (s : Settings) : Prop :=
  Reached (fun g => s.problemIn g = .ok none) s.JudgedIn
    [.resolver, .dialects, .pipeline, .display, .logging]

lemma exists_qualifiedBuiltin?_iff {sep : Value} {names : List Value} :
    (∃ found, ResolverSettings.qualifiedBuiltin? sep names = .ok found ∧
      ∀ name, found = some name → name.spellableIn []) ↔
      Reached (fun name => name.contains? sep = .ok false) (Value.Tells sep) names := by
  induction names with
  | nil => exact iff_of_true ⟨none, rfl, nofun⟩ reached_nil
  | cons name names ih =>
      rw [reached_cons, ← ih, ResolverSettings.qualifiedBuiltin?, Value.Tells]
      rcases name.contains? sep with e | _ | _
      · simp [bind, Except.bind]
      · simp [bind, Except.bind]
      · simp [bind, Except.bind, pure, Except.pure]

/-- **It can be told what is wrong with a section**, as an equivalence. -/
lemma exists_problemIn_iff :
    (∃ problem, s.problemIn g = .ok problem) ↔ s.JudgedIn g := by
  cases g with
  | resolver =>
      rw [problemIn, ResolverSettings.problem?, JudgedIn, ← exists_qualifiedBuiltin?_iff]
      rcases s.resolver.packageSeparator.truthy
      · exact iff_of_true ⟨_, rfl⟩ fun h => absurd h Bool.false_ne_true
      rcases s.resolver.wildcardMarker.truthy
      · exact iff_of_true ⟨_, rfl⟩ fun _ h => absurd h Bool.false_ne_true
      rcases ResolverSettings.qualifiedBuiltin? _ _ with e | _ | name
      · refine iff_of_false ?_ fun h => by simpa using h rfl rfl
        rintro ⟨_, h⟩
        cases h
      · exact iff_of_true ⟨_, rfl⟩ fun _ _ => ⟨none, rfl, by simp⟩
      · refine Answer.exists_bind_pure_iff.trans (exists_display?_iff.trans ?_)
        simp
  | dialects =>
      rw [problemIn, DialectSettings.problem?, JudgedIn, ← @exists_texts?_iff builtinDialectNames]
      split
      · next hempty =>
          rw [List.isEmpty_iff.mp hempty]
          exact iff_of_true ⟨_, rfl⟩ ⟨[], rfl⟩
      · exact Answer.exists_bind_pure_iff
  | pipeline => exact iff_of_true ⟨_, rfl⟩ trivial
  | display =>
      rw [problemIn, DisplaySettings.problem?, JudgedIn, ← memberOf_textValues]
      rcases hsymbols : Value.memberOf _ s.display.symbols with _ | _
      · refine Answer.exists_bind_pure_iff.trans (exists_display?_iff.trans ?_)
        simp
      · rw [spellableIn_of_memberOf hsymbols]
        rcases hformat : Value.memberOf _ s.display.format with _ | _
        · refine Answer.exists_bind_pure_iff.trans (exists_display?_iff.trans ?_)
          simp
        · exact iff_of_true ⟨_, rfl⟩ ⟨rfl, fun _ => spellableIn_of_memberOf hformat⟩
  | logging =>
      rw [problemIn, LoggingSettings.problem?, JudgedIn]
      cases s.logging.level with
      | text _ => exact iff_of_true ⟨_, rfl⟩ (.inl rfl)
      | bytes bs => exact iff_of_true ⟨_, rfl⟩ (.inr ⟨bs, rfl⟩)
      | _ =>
          refine iff_of_false ?_ ?_
          · rintro ⟨_, h⟩
            cases h
          · rintro (h | ⟨_, h⟩) <;> cases h

/-- Settings of the declared types can be judged. -/
lemma Typed.judgedIn (h : s.Typed) (g : SettingsSection) : s.JudgedIn g := by
  cases g with
  | resolver =>
      intro _ _ before name after hnames _
      obtain ⟨sep, hsep⟩ := Value.isText_iff.mp h.packageSeparator
      obtain ⟨n, rfl⟩ := Value.isText_iff.mp (h.builtinTypes name (by simp [hnames]))
      rw [hsep]
      exact ⟨_, rfl, fun _ => Value.spellableIn_text n⟩
  | dialects => exact h.enabled
  | pipeline => trivial
  | display =>
      obtain ⟨symbols, hsymbols⟩ := Value.isText_iff.mp h.symbols
      obtain ⟨format, hformat⟩ := Value.isText_iff.mp h.format
      rw [JudgedIn, hsymbols, hformat]
      exact ⟨Value.spellableIn_text _, fun _ => Value.spellableIn_text _⟩
  | logging => exact .inl h.level

lemma exists_firstProblem_iff {f : SettingsSection → Answer (Option String)}
    {gs : List SettingsSection} : (∃ problem, firstProblem (gs.map f) = .ok problem) ↔
      Reached (fun g => f g = .ok none) (fun g => ∃ problem, f g = .ok problem) gs := by
  induction gs with
  | nil => exact iff_of_true ⟨none, rfl⟩ reached_nil
  | cons g gs ih =>
      rw [reached_cons, ← ih, List.map_cons, firstProblem]
      rcases f g with e | _ | text
      · simp [bind, Except.bind]
      · simp [bind, Except.bind]
      · simp [bind, Except.bind, pure, Except.pure]

/-- **When it can be told what is wrong with settings.** -/
lemma exists_problem?_iff : (∃ problem, s.problem? = .ok problem) ↔ s.Judged := by
  have hproblems : s.problems =
      [SettingsSection.resolver, .dialects, .pipeline, .display, .logging].map s.problemIn := rfl
  rw [problem?, hproblems, exists_firstProblem_iff, Judged]
  exact reached_congr fun g => exists_problemIn_iff

end Settings

end Concordance
