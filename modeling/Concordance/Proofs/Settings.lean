import Mathlib
import Concordance.Proofs.Acceptance

/-!
What sound settings are good for.

* `Settings.Sound` : every setting is of its declared type, and nothing is wrong with them.
* `Settings.Sound.separator`, `.dialects` : the package separator is a text that is not empty, and
  the enabled dialects are known.
* `Settings.Sound.exists_createBuild` : a build can be begun under sound settings.
-/

namespace Concordance

/-- A set of values that can be members of a set can be made. -/
lemma Value.exists_setOf? {xs : List Value} (h : ∀ x ∈ xs, x.hashable = true) :
    ∃ ys, setOf? xs = .ok ys := by
  have hfold : ∀ (xs seen : List Value), (∀ x ∈ xs, x.hashable = true) →
      ∃ ys, xs.foldlM insert? seen = .ok ys := by
    intro xs
    induction xs with
    | nil => exact fun seen _ => ⟨seen, rfl⟩
    | cons x xs ih =>
        intro seen hxs
        rw [List.forall_mem_cons] at hxs
        obtain ⟨ys, hys⟩ := ih (insertNew seen x) hxs.2
        exact ⟨ys, by rw [List.foldlM_cons, insert?, if_pos hxs.1]; exact hys⟩
  exact hfold xs [] h

namespace Settings

/-- Settings of the declared types. -/
structure Typed (s : Settings) : Prop where
  basePackage : s.resolver.basePackage.isText
  builtinTypes : ∀ v ∈ s.resolver.builtinTypes, v.isText
  packageSeparator : s.resolver.packageSeparator.isText
  wildcardMarker : s.resolver.wildcardMarker.isText
  enabled : ∀ v ∈ s.dialects.enabled, v.isText
  symbols : s.display.symbols.isText
  format : s.display.format.isText
  level : s.logging.level.isText

/-- Settings of the declared types in which nothing is wrong. -/
structure Sound (s : Settings) : Prop extends s.Typed where
  valid : s.problem? = .ok none

/-- Nothing is wrong if nothing is wrong in any section. -/
lemma firstProblem_eq_none_iff : ∀ {ps : List (Answer (Option String))},
    firstProblem ps = .ok none ↔ ∀ p ∈ ps, p = .ok none
  | [] => by simp [firstProblem]
  | p :: ps => by
      rw [List.forall_mem_cons, ← @firstProblem_eq_none_iff ps]
      rcases p with e | _ | text
      · simp [firstProblem, bind, Except.bind]
      · simp [firstProblem, bind, Except.bind]
      · simp [firstProblem, bind, Except.bind, pure, Except.pure]

namespace Sound

variable {s : Settings} (h : s.Sound)
include h

lemma noProblem : ∀ p ∈ s.problems, p = .ok none := firstProblem_eq_none_iff.mp h.valid

/-- The package separator is a text that is not empty. -/
lemma separator : ∃ sep, s.resolver.packageSeparator = .text sep ∧ sep ≠ "" := by
  obtain ⟨sep, hsep⟩ := Value.isText_iff.mp h.packageSeparator
  refine ⟨sep, hsep, ?_⟩
  rintro rfl
  have hproblem : s.resolver.problem? = .ok none := h.noProblem _ (by simp [problems])
  rw [ResolverSettings.problem?, hsep] at hproblem
  cases hproblem

/-- The enabled dialects are known. -/
lemma dialects : ∀ v ∈ s.dialects.enabled, ∃ n ∈ builtinDialectNames, v = .text n := by
  have hproblem : s.dialects.problem? = .ok none := h.noProblem _ (by simp [problems])
  intro v hv
  obtain ⟨n, rfl⟩ := Value.isText_iff.mp (h.enabled v hv)
  refine ⟨n, ?_, rfl⟩
  by_contra hn
  have hunknown : .text n ∈ s.dialects.enabled.filter fun v =>
      !Value.memberOf (textValues builtinDialectNames) v := by
    rw [List.mem_filter, Bool.not_eq_true', Bool.eq_false_iff, Ne, Value.memberOf_text]
    exact ⟨hv, fun hmem => hn ((List.mem_map_of_injective Value.text_injective).mp hmem)⟩
  rw [DialectSettings.problem?] at hproblem
  rw [if_neg fun hempty => by
    rw [List.isEmpty_iff.mp hempty] at hunknown
    cases hunknown] at hproblem
  obtain ⟨names, -, htext⟩ := Answer.bind_eq_ok_iff.mp hproblem
  cases htext

/-- **A build can be begun** under sound settings: with their base package, their separator and the
enabled dialects. -/
lemma exists_createBuild : ∃ r d, s.resolver.createResolver = .ok r ∧
    s.dialects.createRegistry = .ok d ∧
    Pipeline.createBuild s = .ok (Build.start r d s.resolver.wildcardMarker) := by
  obtain ⟨builtins, hset⟩ := Value.exists_setOf? fun v hv => by
    obtain ⟨n, rfl⟩ := Value.isText_iff.mp (h.builtinTypes v hv)
    exact Value.hashable_text n
  obtain ⟨d, hd⟩ := DialectRegistry.exists_withDefaults h.dialects
  have hr : s.resolver.createResolver = .ok
      { basePackage := s.resolver.basePackage, builtins
        separator := s.resolver.packageSeparator } :=
    Answer.bind_eq_ok_iff.mpr ⟨builtins, hset, rfl⟩
  exact ⟨_, d, hr, hd, Answer.bind_eq_ok_iff.mpr ⟨_, hr, Answer.bind_eq_ok_iff.mpr ⟨d, hd, rfl⟩⟩⟩

end Sound

end Settings

end Concordance
