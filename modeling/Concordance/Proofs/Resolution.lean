import Concordance.Proofs.Findings
import Concordance.Proofs.Sorting

/-!
Resolving bare type names, as sets.

* `Resolver.simple`, `Resolver.qualified` : what follows the last separator of a name, and a name in
  the base package.
* `Resolver.pending` : the bare names that are the simple name of no qualified one;
  `Resolver.resolved` : the qualified names, and for each pending name its place in the base package
  if it is built in, else the name itself; `Resolver.unresolved` : the latter names.
* `Resolver.resolve_ends` : resolution succeeds exactly if `Resolver.Resolves`, empties the bare
  names into `Resolver.resolved`, and answers `Resolver.unresolved` in order.
-/

namespace Concordance

/-! ### Lists of texts -/

namespace Enumerates

variable {xs ys : List Value} {S : Set String}

/-- A list that stands for a set of texts is a list of texts. -/
lemma exists_names (h : Enumerates .text xs S) :
    ∃ names : List String, xs = names.map .text ∧ names.Nodup ∧ ∀ n, n ∈ names ↔ n ∈ S :=
  h.exists_list Value.text_injective

lemma isText (h : Enumerates .text xs S) {v : Value} (hv : v ∈ xs) : v.isText := by
  obtain ⟨n, -, rfl⟩ := h.exists_of_mem hv
  exact Value.isText_iff.mpr ⟨n, rfl⟩

/-- Two lists in order that stand for one set of texts are equal. -/
lemma eq_of_ordered (h : Enumerates .text xs S) (h' : Enumerates .text ys S)
    (hxs : xs.Pairwise (Value.codes · ≤ Value.codes ·))
    (hys : ys.Pairwise (Value.codes · ≤ Value.codes ·)) : xs = ys :=
  List.Perm.eq_of_pairwise (fun _ _ ha hb hab hba =>
    Value.codes_inj_of_text (h.isText ha) (h'.isText hb) (le_antisymm hab hba)) hxs hys (h.perm h')

end Enumerates

namespace Resolver

variable (r : Resolver)

/-- What follows the last separator of a name. -/
def simple (n : String) : String :=
  match r.separator with
  | .text sep => String.ofList ((Text.afterLast? sep.toList n.toList).getD n.toList)
  | _ => n

/-- A name in the base package. -/
def qualified (n : String) : String := r.basePackage.display ++ r.separator.display ++ n

/-- The bare names that are the simple name of no qualified one. -/
def pending (Q U : Set String) : Set String := U \ r.simple '' Q

/-- What a pending name becomes. -/
def promoted (n : String) : String := if r.isBuiltin (.text n) then r.qualified n else n

/-- The qualified names after resolution. -/
def resolved (Q U : Set String) : Set String := Q ∪ r.promoted '' r.pending Q U

/-- The names that nothing resolves. -/
def unresolved (Q U : Set String) : Set String := {n ∈ r.pending Q U | ¬r.isBuiltin (.text n)}

/-- Base package and separator can be written. -/
def Spellable : Prop := r.basePackage.spellableIn [] ∧ r.separator.spellableIn []

/-- When resolution succeeds: the separator can be looked for, and the base package can be written
if a name moves into it. -/
def Resolves (Q U : Set String) : Prop :=
  (Q.Nonempty → ∃ sep, r.separator = .text sep ∧ sep ≠ "") ∧
    ((∃ n ∈ r.pending Q U, r.isBuiltin (.text n)) → r.Spellable)

variable {r}

/-! ### Simple names -/

lemma simpleName_text {sep : String} (hs : r.separator = .text sep) (hne : sep ≠ "") (n : String) :
    r.simpleName (.text n) = .ok (.text (r.simple n)) := by
  simp [simpleName, simple, hs, hne]

lemma mapM_simpleName {sep : String} (hs : r.separator = .text sep) (hne : sep ≠ "") :
    ∀ names : List String,
      (names.map Value.text).mapM r.simpleName = .ok ((names.map r.simple).map .text)
  | [] => rfl
  | n :: names => by
      rw [List.map_cons, List.mapM_cons, simpleName_text hs hne, mapM_simpleName hs hne names]
      rfl

/-- The simple names of texts: an answer exactly if there is nothing to ask or a separator to look
for. -/
lemma mapM_simpleName_cases (names : List String) :
    ((names ≠ [] → ∃ sep, r.separator = .text sep ∧ sep ≠ "") ∧
      (names.map Value.text).mapM r.simpleName = .ok ((names.map r.simple).map .text)) ∨
    (¬(names ≠ [] → ∃ sep, r.separator = .text sep ∧ sep ≠ "") ∧
      ∃ e, (names.map Value.text).mapM r.simpleName = .error e) := by
  by_cases h : ∃ sep, r.separator = .text sep ∧ sep ≠ ""
  · obtain ⟨sep, hs, hne⟩ := h
    exact .inl ⟨fun _ => ⟨sep, hs, hne⟩, mapM_simpleName hs hne names⟩
  · cases names with
    | nil => exact .inl ⟨fun h => absurd rfl h, rfl⟩
    | cons n names =>
        refine .inr ⟨fun hall => h (hall (by simp)), ?_⟩
        have herr : ∃ e, r.simpleName (.text n) = .error e := by
          cases hs : r.separator with
          | text sep =>
              have hsep : sep = "" := by
                by_contra hne
                exact h ⟨sep, hs, hne⟩
              exact ⟨.badValue, by simp [simpleName, hs, hsep]⟩
          | _ => exact ⟨.illTyped, by simp [simpleName, hs]⟩
        obtain ⟨e, he⟩ := herr
        refine ⟨e, ?_⟩
        simp only [List.map_cons, List.mapM_cons, he]
        rfl

/-! ### Promotion -/

lemma qualifyBuiltin_text (h : r.Spellable) (n : String) :
    r.qualifyBuiltin (.text n) = .ok (.text (r.qualified n)) := by
  simp [qualifyBuiltin, Value.display?, h.1, h.2, Value.spellableIn, qualified]
  rfl

lemma qualifyBuiltin_error (h : ¬r.Spellable) (n : String) :
    r.qualifyBuiltin (.text n) = .error .badValue := by
  by_cases hb : r.basePackage.spellableIn []
  · have hs : ¬r.separator.spellableIn [] := fun hs => h ⟨hb, hs⟩
    simp [qualifyBuiltin, Value.display?, hb, hs, bind, Except.bind]
  · simp [qualifyBuiltin, Value.display?, hb, bind, Except.bind]

/-- Promoting one name adds what it becomes, and answers it if it is not built in. -/
lemma promote_ends {t : TypeNames} {Q : Set String} (h : Enumerates .text t.referenced Q)
    (n : String) : (r.promote (.text n)).Ends t
      (fun a t' => (r.isBuiltin (.text n) → r.Spellable) ∧
        a = (if r.isBuiltin (.text n) then none else some (.text n)) ∧
        Enumerates .text t'.referenced (insert (r.promoted n) Q) ∧
        t' = { t with referenced := t'.referenced })
      fun _ _ => ¬(r.isBuiltin (.text n) → r.Spellable) := by
  have htake : ∀ m, (TypeNames.takeReferenced (.text m)).Ends t
      (fun _ t' => Enumerates .text t'.referenced (insert m Q) ∧
        t' = { t with referenced := t'.referenced }) fun _ _ => False := fun m =>
    TypeNames.takeReferenced_ends ⟨h.insertNew m, rfl⟩
  unfold promote promoted
  by_cases hb : r.isBuiltin (.text n)
  · simp only [hb, if_true, true_implies]
    by_cases hs : r.Spellable
    · rw [qualifyBuiltin_text hs]
      refine .bind (Step.ends_ofAnswer_ok.mpr (.bind ((htake _).imp (fun _ t' ht' => ?_) ?_)))
      · exact Step.ends_pure.mpr ⟨hs, rfl, ht'⟩
      · exact fun _ _ => False.elim
    · rw [qualifyBuiltin_error hs]
      exact .bind (Step.ends_ofAnswer_error.mpr hs)
  · simp only [hb, if_false, Bool.false_eq_true, false_implies, not_true]
    refine .bind (Step.ends_log.mpr (.bind ((htake n).imp (fun _ t' ht' => ?_) ?_)))
    · exact Step.ends_pure.mpr ⟨trivial, rfl, ht'⟩
    · exact fun _ _ => id

/-- Promoting several names, in their order. -/
lemma mapM_promote_ends : ∀ (names : List String) {t : TypeNames} {Q : Set String},
    Enumerates .text t.referenced Q → ((names.map Value.text).mapM r.promote).Ends t
      (fun answers t' => ((∃ n ∈ names, r.isBuiltin (.text n)) → r.Spellable) ∧
        answers.filterMap id = (names.filter fun n => !r.isBuiltin (.text n)).map .text ∧
        Enumerates .text t'.referenced (Q ∪ r.promoted '' {n | n ∈ names}) ∧
        t' = { t with referenced := t'.referenced })
      fun _ _ => ¬((∃ n ∈ names, r.isBuiltin (.text n)) → r.Spellable)
  | [], t, Q, h => by simpa using h
  | n :: names, t, Q, h => by
      rw [List.map_cons, List.mapM_cons]
      refine .bind ((promote_ends h n).imp (fun a t' ⟨hok, ha, hQ, ht'⟩ => ?_) fun _ _ hno hall =>
        hno fun hb => hall ⟨n, by simp, hb⟩)
      refine .bind ((mapM_promote_ends names hQ).imp (fun as t'' ⟨hoks, has, hQs, ht''⟩ => ?_)
        fun _ _ hno hall => hno fun ⟨m, hm, hb⟩ => hall ⟨m, by simp [hm], hb⟩)
      refine Step.ends_pure.mpr ⟨?_, ?_, ?_, ?_⟩
      · rintro ⟨m, hm, hb⟩
        rcases List.mem_cons.mp hm with rfl | hm
        · exact hok hb
        · exact hoks ⟨m, hm, hb⟩
      · subst ha
        by_cases hb : r.isBuiltin (.text n) <;> simpa [hb] using has
      · refine hQs.congr ?_
        ext m
        simp [or_and_right, exists_or, or_assoc, or_left_comm, eq_comm]
      · rw [ht'', ht']

/-! ### Resolution -/

/-- The bare names that no simple name drops, as a list. -/
lemma enumerates_pending {xs : List Value} {names : List String} {Q U : Set String}
    (h : Enumerates .text xs U) (hQ : ∀ n, n ∈ names ↔ n ∈ Q) :
    Enumerates .text
      (xs.filter fun v => !Value.memberOf ((names.map r.simple).map .text) v)
      (r.pending Q U) := by
  refine ⟨h.1.filter _, fun v => ?_⟩
  rw [List.mem_filter, h.2]
  have hmem : ∀ n, Value.memberOf ((names.map r.simple).map .text) (.text n) = true ↔
      n ∈ r.simple '' Q := fun n => by
    rw [Value.memberOf_text, List.mem_map_of_injective Value.text_injective]
    simp [hQ]
  constructor
  · rintro ⟨⟨n, hn, rfl⟩, hno⟩
    rw [Bool.not_eq_true', Bool.eq_false_iff] at hno
    exact ⟨n, ⟨hn, fun hs => hno ((hmem n).mpr hs)⟩, rfl⟩
  · rintro ⟨n, ⟨hn, hno⟩, rfl⟩
    refine ⟨⟨n, hn, rfl⟩, ?_⟩
    rw [Bool.not_eq_true', Bool.eq_false_iff]
    exact fun h => hno ((hmem n).mp h)

/-- **Resolution**: it succeeds exactly if `Resolves`, leaves no bare name, and answers the names
that nothing resolves, in order. -/
lemma resolve_ends {t : TypeNames} {Q U : Set String} (hQ : Enumerates .text t.referenced Q)
    (hU : Enumerates .text t.unqualified U) : r.resolve.Ends t
      (fun forced t' => r.Resolves Q U ∧
        (Enumerates .text forced (r.unresolved Q U) ∧
          forced.Pairwise (Value.codes · ≤ Value.codes ·)) ∧
        Enumerates .text t'.referenced (r.resolved Q U) ∧
        t' = { t with referenced := t'.referenced, unqualified := [] })
      fun _ _ => ¬r.Resolves Q U := by
  obtain ⟨names, hnames, -, hmemQ⟩ := hQ.exists_names
  have hne : names ≠ [] ↔ Q.Nonempty := by
    simp [List.eq_nil_iff_forall_not_mem, hmemQ, Set.Nonempty]
  refine .bind (Step.ends_get.mpr (.bind ?_))
  rw [hnames]
  obtain ⟨hsep, hsimple⟩ | ⟨hsep, e, he⟩ := mapM_simpleName_cases (r := r) names
  · rw [hsimple, Step.ends_ofAnswer_ok]
    have hpend := enumerates_pending (r := r) hU hmemQ
    refine .bind ?_
    rw [Value.sort?_eq fun v hv => hpend.isText hv, Step.ends_ofAnswer_ok]
    -- the pending names in their order, as texts
    have hord := hpend.of_perm (Value.orderedBy_perm Value.codes _).symm
    have hpair := Value.pairwise_orderedBy Value.codes
      (t.unqualified.filter fun v => !Value.memberOf ((names.map r.simple).map .text) v)
    obtain ⟨remaining, hrem, hnodup, hmemP⟩ := hord.exists_names
    rw [hrem] at hpair ⊢
    have hex : (∃ n ∈ remaining, r.isBuiltin (.text n)) ↔
        ∃ n ∈ r.pending Q U, r.isBuiltin (.text n) := exists_congr fun n => by rw [hmemP]
    refine .bind ((mapM_promote_ends remaining hQ).imp
      (fun answers t' ⟨hok, hanswers, hres, ht'⟩ => ?_) fun _ _ hno hall =>
        hno fun hb => hall.2 (hex.mp hb))
    refine .bind (Step.ends_modify.mpr (Step.ends_pure.mpr ⟨⟨?_, ?_⟩, ?_, ?_, ?_⟩))
    · exact fun hQne => hsep (hne.mpr hQne)
    · exact fun hb => hok (hex.mpr hb)
    · rw [hanswers]
      refine ⟨⟨(hnodup.filter _).map Value.text_injective, fun v => ?_⟩, ?_⟩
      · simp [unresolved, hmemP, and_assoc]
      · exact hpair.sublist (List.filter_sublist.map _)
    · refine hres.congr ?_
      rw [resolved]
      congr 2
      ext n
      exact hmemP n
    · rw [ht']
  · rw [he, Step.ends_ofAnswer_error]
    exact fun hall => hsep fun h => hall.1 (hne.mp h)

end Resolver
end Concordance
