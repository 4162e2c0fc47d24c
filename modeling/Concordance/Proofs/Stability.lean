import Concordance.Proofs.Acceptance
import Concordance.Proofs.Classes

/-!
Resolving again what has been resolved.

* `Resolver.resolve_logs` : resolution warns about each name that it answers, once and in their
  order.
* `Resolver.simple_of_not_holds`, `Resolver.not_holds_simple` : a simple name holds no separator,
  and a name without one is its own simple name.
* `Resolver.resolved_again`, `Resolver.unresolved_again` : with the same bare names, resolution
  leaves the qualified names that it made, and answers of the bare names those that hold the
  separator and are not built in.
* `TypeNames.Filed` : no bare name holds the separator; a name that is added keeps that.
* `Resolver.resolve_stable` : all of this of the resolver, run on a set of type names, on what that
  leaves, and on what that leaves with the same names merged into it in any order.
-/

namespace Concordance

/-! ### Names that are taken as they are -/

namespace TypeNames

lemma takeReferenced_silent (v : Value) : (takeReferenced v).Silent :=
  Step.Silent.bind (Step.logs_get fun _ => rfl) fun _ =>
    Step.Silent.bind (Step.logs_ofAnswer fun _ _ => rfl) fun _ => Step.logs_set rfl

lemma takeUnqualified_silent (v : Value) : (takeUnqualified v).Silent :=
  Step.Silent.bind (Step.logs_get fun _ => rfl) fun _ =>
    Step.Silent.bind (Step.logs_ofAnswer fun _ _ => rfl) fun _ => Step.logs_set rfl

end TypeNames

/-! ### Names and their simple names -/

namespace Resolver

variable {r : Resolver} {sep n : String} {Q U : Set String}

/-- A name without a separator is its own simple name. -/
lemma simple_of_not_holds (hs : r.separator = .text sep) (hn : ¬Text.Holds n sep) :
    r.simple n = n := by
  have hnone := Text.afterLast?_eq_none.mpr (Text.holds_iff.not.mp hn)
  rw [simple, hs]
  simp only [hnone, Option.getD_none, String.ofList_toList]

/-- A simple name holds no separator: what follows the last one would be shorter. -/
lemma not_holds_simple (hs : r.separator = .text sep) (hne : sep ≠ "") (n : String) :
    ¬Text.Holds (r.simple n) sep := by
  rcases h : Text.afterLast? sep.toList n.toList with _ | rest
  · have hn : ¬Text.Holds n sep := Text.holds_iff.not.mpr (Text.afterLast?_eq_none.mp h)
    rwa [simple_of_not_holds hs hn]
  · have hsimple : r.simple n = .ofList rest := by
      rw [simple, hs]
      simp only [h, Option.getD_some]
    obtain ⟨⟨before, hbefore⟩, hleast⟩ := Text.afterLast?_eq_some h
    rw [hsimple, Text.holds_iff, String.toList_ofList]
    rintro ⟨front, back, hrest⟩
    have hshorter := hleast (before ++ sep.toList ++ front) back (by
      rw [hbefore, ← hrest]
      simp)
    have hlength := congrArg List.length hrest
    have hpos : 0 < sep.toList.length :=
      List.length_pos_iff.mpr (String.toList_eq_nil_iff.not.mpr hne)
    simp only [List.length_append] at hlength
    omega

/-! ### The same names again -/

lemma subset_resolved : Q ⊆ r.resolved Q U := Set.subset_union_left

/-- What is pending after a resolution was pending before. -/
lemma pending_again_subset : r.pending (r.resolved Q U) U ⊆ r.pending Q U :=
  Set.sdiff_subset_sdiff_right (Set.image_mono subset_resolved)

/-- The same bare names add nothing to what resolution has made. -/
lemma resolved_again : r.resolved (r.resolved Q U) U = r.resolved Q U :=
  Set.union_eq_self_of_subset_right
    ((Set.image_mono pending_again_subset).trans Set.subset_union_right)

lemma pending_empty : r.pending Q ∅ = ∅ := Set.empty_sdiff _

lemma resolved_empty : r.resolved Q ∅ = Q := by
  rw [resolved, pending_empty, Set.image_empty, Set.union_empty]

lemma unresolved_empty : r.unresolved Q ∅ = ∅ := by
  rw [unresolved, pending_empty]
  exact Set.eq_empty_of_forall_notMem fun _ h => h.1

/-- Of the same bare names, those that hold the separator and are not built in are not resolved
again: what is kept as it is drops itself exactly if it is its own simple name. -/
lemma unresolved_again (hs : r.separator = .text sep) (hne : sep ≠ "") :
    r.unresolved (r.resolved Q U) U =
      {n ∈ U | Text.Holds n sep ∧ ¬r.isBuiltin (.text n)} := by
  ext n
  constructor
  · rintro ⟨hpending, hbuiltin⟩
    refine ⟨hpending.1, ?_, hbuiltin⟩
    by_contra hholds
    have hkept : n ∈ r.resolved Q U := .inr ⟨n, pending_again_subset hpending, by
      rw [promoted, if_neg hbuiltin]⟩
    exact hpending.2 ⟨n, hkept, simple_of_not_holds hs hholds⟩
  · rintro ⟨hU, hholds, hbuiltin⟩
    refine ⟨⟨hU, ?_⟩, hbuiltin⟩
    rintro ⟨m, -, hm⟩
    exact not_holds_simple hs hne m (hm ▸ hholds)

/-! ### What resolution logs -/

/-- A name is warned about exactly if nothing resolves it. -/
lemma promote_logs (v : Value) :
    (r.promote v).Logs fun answer more => more = answer.toList.map unresolvedWarning := by
  unfold promote
  split
  · exact Step.Silent.bind (Step.logs_ofAnswer fun _ _ => rfl) fun _ =>
      (TypeNames.takeReferenced_silent _).bind fun _ => Step.logs_pure rfl
  · refine (Step.logs_log (Q := fun _ more => more = [unresolvedWarning v]) rfl).bind
      fun _ more hmore => (TypeNames.takeReferenced_silent v).bind fun _ => Step.logs_pure ?_
    rw [hmore]
    rfl

/-- **Resolution warns about the names that it answers.** -/
lemma resolve_logs :
    r.resolve.Logs fun forced more => more = forced.map unresolvedWarning := by
  refine Step.Silent.bind (Step.logs_get fun _ => rfl) fun t =>
    Step.Silent.bind (Step.logs_ofAnswer fun _ _ => rfl) fun simple =>
      Step.Silent.bind (Step.logs_ofAnswer fun _ _ => rfl) fun remaining =>
        (Step.logs_mapM promote_logs remaining).bind fun answers more hmore =>
          Step.Silent.bind (Step.logs_modify rfl) fun _ => Step.logs_pure ?_
  rw [hmore, List.append_nil]
  induction answers generalizing more with
  | nil => rfl
  | cons a answers ih =>
      rw [List.flatMap_cons, ih _ rfl]
      cases a with
      | none => rfl
      | some v => rfl

end Resolver

/-! ### Names that are merged and names that are added -/

namespace TypeNames

variable {t : TypeNames} {sep : String} {Q U : Set String}

/-- A set of type names that stands for these qualified and these bare names. -/
def Stands (t : TypeNames) (Q U : Set String) : Prop :=
  Enumerates .text t.referenced Q ∧ Enumerates .text t.unqualified U

/-- Names that are merged into a set in several batches, each as they come. -/
def mergeAll (batches : List (List String × List String)) : Step TypeNames Unit :=
  batches.forM fun b => merge (.list (b.1.map .text)) (.list (b.2.map .text))

/-- The names of all batches are those of a set, in any order. -/
def Spells (batches : List (List String × List String)) (Q U : Set String) : Prop :=
  (∀ n, n ∈ Q ↔ ∃ b ∈ batches, n ∈ b.1) ∧ ∀ n, n ∈ U ↔ ∃ b ∈ batches, n ∈ b.2

/-- Members that are taken one by one all join a set, if each of them does. -/
lemma forM_ends_union {take : Value → Step TypeNames PUnit} {P : Set String → TypeNames → Prop}
    (htake : ∀ n S t, P S t →
      (take (.text n)).Ends t (fun _ t' => P (insert n S) t') fun _ _ => False) :
    ∀ (names : List String) {S : Set String} {t : TypeNames}, P S t →
      ((names.map Value.text).forM take).Ends t (fun _ t' => P (S ∪ {n | n ∈ names}) t')
        fun _ _ => False
  | [], S, t, h => by simpa using h
  | n :: names, S, t, h => by
      have hset : S ∪ {m | m ∈ n :: names} = insert n S ∪ {m | m ∈ names} := by
        ext m
        simp [or_assoc, or_left_comm]
      rw [hset]
      exact .bind ((htake n S t h).imp (fun _ _ ht => forM_ends_union htake names ht) fun _ _ => id)

/-- Names that are merged join those that are there. -/
lemma mergeAll_ends : ∀ (batches : List (List String × List String)) {t : TypeNames}
    {Q U : Set String}, t.Stands Q U → (mergeAll batches).Ends t
      (fun _ t' => t'.Stands (Q ∪ {n | ∃ b ∈ batches, n ∈ b.1}) (U ∪ {n | ∃ b ∈ batches, n ∈ b.2}))
      fun _ _ => False
  | [], t, Q, U, h => by simpa [mergeAll] using h
  | b :: batches, t, Q, U, h => by
      have hunion : ∀ (S : Set String) (names : List String × List String → List String),
          S ∪ {n | ∃ c ∈ b :: batches, n ∈ names c} =
            S ∪ {n | n ∈ names b} ∪ {n | ∃ c ∈ batches, n ∈ names c} := fun S names => by
        ext m
        simp [or_assoc]
      rw [hunion Q Prod.fst, hunion U Prod.snd]
      refine .bind (.bind (Step.ends_ofAnswer_ok.mpr (.bind ((forM_ends_union
        (P := fun Q t => t.Stands Q U)
        (fun n _ _ ht => takeReferenced_ends ⟨ht.1.insertNew n, ht.2⟩) b.1 h).imp
          (fun _ t₁ h₁ => ?_) fun _ _ => id))))
      refine .bind (Step.ends_ofAnswer_ok.mpr ((forM_ends_union
        (P := fun U t => t.Stands _ U)
        (fun n _ _ ht => takeUnqualified_ends ⟨ht.1, ht.2.insertNew n⟩) b.2 h₁).imp
          (fun _ t₂ h₂ => mergeAll_ends batches h₂) fun _ _ => id))

lemma mergeAll_silent (batches : List (List String × List String)) : (mergeAll batches).Silent :=
  Step.Silent.forM (fun _ =>
    Step.Silent.bind (Step.logs_ofAnswer fun _ _ => rfl) fun _ =>
      (Step.Silent.forM takeReferenced_silent _).bind fun _ =>
        Step.Silent.bind (Step.logs_ofAnswer fun _ _ => rfl) fun _ =>
          Step.Silent.forM takeUnqualified_silent _) batches

/-- No bare name holds the separator. -/
def Filed (sep : String) (t : TypeNames) : Prop :=
  t.separator = .text sep ∧ ∀ n, .text n ∈ t.unqualified → ¬Text.Holds n sep

/-- A name that is added is filed by whether it holds the separator. -/
lemma Filed.add {t' : TypeNames} {v : Value} (h : Filed sep t) (hadd : t.add v = .ok t') :
    Filed sep t' := by
  rw [TypeNames.add] at hadd
  split at hadd
  · cases hadd
    exact h
  · obtain ⟨holds, hholds, hadd⟩ := Answer.bind_eq_ok_iff.mp hadd
    split at hadd
    · obtain ⟨referenced, -, hadd⟩ := Answer.bind_eq_ok_iff.mp hadd
      cases hadd
      exact h
    · next hno =>
        obtain ⟨unqualified, hinsert, hadd⟩ := Answer.bind_eq_ok_iff.mp hadd
        cases hadd
        refine ⟨h.1, fun n hn => ?_⟩
        rw [Value.insert?_eq_ok hinsert] at hn
        rcases of_mem_addNew hn with hn | rfl
        · exact h.2 n hn
        · rw [h.1] at hholds
          cases hholds
          rwa [Text.holds_iff, ← Text.occursIn_iff]

/-- Any names are added to a set without bare names. -/
lemma Filed.of_addAll {t₀ : TypeNames} (hsep : t₀.separator = .text sep)
    (hbare : t₀.unqualified = []) (names : Value) : Filed sep ((addAll names).after t₀) := by
  have hkeeps : (addAll names).Keeps (Filed sep) :=
    (Step.keeps_ofAnswer _).bind fun xs => Step.Keeps.forM (fun v =>
      Step.keeps_advance fun t t' ht hadd => ht.add hadd) xs
  refine hkeeps.after ⟨hsep, fun n hn => ?_⟩
  rw [hbare] at hn
  cases hn

end TypeNames

/-! ### Resolving again -/

namespace Resolver

variable {r : Resolver} {t t' : TypeNames} {sep n : String} {Q U names : Set String}

/-- Resolution takes a set of type names to another one without bare names; it answers these names
in order, and has warned about each of them. -/
def Reconciles (r : Resolver) (t : TypeNames) (names : Set String) (t' : TypeNames) : Prop :=
  ∃ forced, r.resolve.run t = (.ok forced, t', forced.map unresolvedWarning) ∧
    Enumerates .text forced names ∧ forced.Pairwise (Value.codes · ≤ Value.codes ·) ∧
    t'.isResolved

/-- Where base package and separator are texts nothing hinders resolution. -/
lemma exists_reconciles (hs : r.separator = .text sep) (hne : sep ≠ "")
    (hbase : r.basePackage.isText) (ht : t.Stands Q U) :
    ∃ t', r.Reconciles t (r.unresolved Q U) t' ∧ t'.Stands (r.resolved Q U) ∅ := by
  have hresolves : r.Resolves Q U := by
    refine ⟨fun _ => ⟨sep, hs, hne⟩, fun _ => ?_⟩
    obtain ⟨base, hbase⟩ := Value.isText_iff.mp hbase
    rw [Spellable, hbase, hs]
    exact ⟨by simp [Value.spellableIn], by simp [Value.spellableIn]⟩
  obtain ⟨forced, t', more, hrun, ⟨-, ⟨hforced, hordered⟩, hreferenced, ht'⟩, rfl⟩ :=
    ((resolve_ends ht.1 ht.2).imp (fun _ _ => id) fun _ _ hno => hno hresolves).exists_run
      resolve_logs
  have hbare : t'.unqualified = [] := by rw [ht']
  refine ⟨t', ⟨forced, hrun, hforced, hordered, ?_⟩, hreferenced, hbare ▸ .nil⟩
  rw [TypeNames.isResolved, hbare]
  rfl

/-- **Resolution is stable.** It answers, and keeps the qualified names. Resolving the result again
changes nothing. With the same names merged into the result, in any order, it leaves the same
qualified names and answers of the bare ones those that hold the separator and are not built in;
none if the bare names were added one by one to a set that files them by this separator. -/
theorem resolve_stable (hs : r.separator = .text sep) (hne : sep ≠ "")
    (hbase : r.basePackage.isText) (ht : t.Stands Q U) :
    ∃ t₁ Q₁, r.Reconciles t (r.unresolved Q U) t₁ ∧ t₁.Stands Q₁ ∅ ∧ Q ⊆ Q₁ ∧
      (∃ t₂, r.Reconciles t₁ ∅ t₂ ∧ t₂.Stands Q₁ ∅) ∧
      ∀ batches, TypeNames.Spells batches Q U →
        ∃ t₂, (TypeNames.mergeAll batches).run t₁ = (.ok (), t₂, []) ∧
          ∃ t₃, r.Reconciles t₂ {n ∈ U | Text.Holds n sep ∧ ¬r.isBuiltin (.text n)} t₃ ∧
            t₃.Stands Q₁ ∅ ∧
            ∀ (t₀ : TypeNames) (added : Value), t₀.separator = .text sep → t₀.unqualified = [] →
              t = (TypeNames.addAll added).after t₀ → r.Reconciles t₂ ∅ t₃ := by
  obtain ⟨t₁, h₁, ht₁⟩ := exists_reconciles hs hne hbase ht
  refine ⟨t₁, r.resolved Q U, h₁, ht₁, subset_resolved, ?_, fun batches hbatches => ?_⟩
  · have hagain := exists_reconciles hs hne hbase ht₁
    rwa [unresolved_empty, resolved_empty] at hagain
  · obtain ⟨⟨⟩, t₂, more, hrun, ht₂, rfl⟩ :=
      (TypeNames.mergeAll_ends batches ht₁).exists_run (TypeNames.mergeAll_silent batches)
    have hsameQ : r.resolved Q U ∪ {n | ∃ b ∈ batches, n ∈ b.1} = r.resolved Q U :=
      Set.union_eq_self_of_subset_right fun n hn => subset_resolved ((hbatches.1 n).mpr hn)
    have hsameU : (∅ ∪ {n | ∃ b ∈ batches, n ∈ b.2} : Set String) = U := by
      rw [Set.empty_union]
      exact Set.ext fun n => (hbatches.2 n).symm
    rw [hsameQ, hsameU] at ht₂
    obtain ⟨t₃, h₃, ht₃⟩ := exists_reconciles hs hne hbase ht₂
    rw [unresolved_again hs hne] at h₃
    rw [resolved_again] at ht₃
    refine ⟨t₂, hrun, t₃, h₃, ht₃, fun t₀ added hsep hbare hadded => ?_⟩
    have hfiled : TypeNames.Filed sep t := hadded ▸ .of_addAll hsep hbare added
    have hnone : {n ∈ U | Text.Holds n sep ∧ ¬r.isBuiltin (.text n)} = ∅ :=
      Set.eq_empty_of_forall_notMem fun n ⟨hn, hholds, _⟩ =>
        hfiled.2 n ((ht.2.mem_iff Value.text_injective).mpr hn) hholds
    rwa [hnone] at h₃

/-- Lists of names stand for the sets of them. -/
lemma stands_map (t : TypeNames) {q u : List String} (hq : q.Nodup) (hu : u.Nodup) :
    { t with referenced := q.map .text, unqualified := u.map .text }.Stands {n | n ∈ q}
      {n | n ∈ u} :=
  ⟨⟨hq.map Value.text_injective, fun v => by simp⟩, ⟨hu.map Value.text_injective, fun v => by simp⟩⟩

/-- A name that nothing resolves, added beside a class: merged into the result again it is not
warned about a second time. -/
theorem resolve_stable_thing :
    let r : Resolver := {}
    let t := (TypeNames.addAll (.list [.text "Thing", .text "com.acme.Order"])).after {}
    let batches := [([], ["Thing"]), (["com.acme.Order"], [])]
    t.Stands {n | n ∈ ["com.acme.Order"]} {n | n ∈ ["Thing"]} ∧
      TypeNames.Spells batches {n | n ∈ ["com.acme.Order"]} {n | n ∈ ["Thing"]} ∧
      ∃ t₁ t₂ t₃ Q₁, (r.resolve.run t).2.1 = t₁ ∧ t₁.Stands Q₁ ∅ ∧
        (TypeNames.mergeAll batches).run t₁ = (.ok (), t₂, []) ∧
        r.Reconciles t₂ ∅ t₃ ∧ t₃.Stands Q₁ ∅ := by
  intro r t batches
  have hstands : t.Stands {n | n ∈ ["com.acme.Order"]} {n | n ∈ ["Thing"]} :=
    stands_map (q := ["com.acme.Order"]) (u := ["Thing"]) {} (by simp) (by simp)
  have hspells : TypeNames.Spells batches {n | n ∈ ["com.acme.Order"]} {n | n ∈ ["Thing"]} :=
    ⟨by simp [batches], by simp [batches]⟩
  have hseparator : r.separator = .text "." := rfl
  obtain ⟨t₁, Q₁, ⟨_, hrun, -⟩, ht₁, -, -, hmerged⟩ :=
    resolve_stable hseparator (by decide) rfl hstands
  obtain ⟨t₂, hmerge, t₃, -, ht₃, hsilent⟩ := hmerged batches hspells
  exact ⟨hstands, hspells, t₁, t₂, t₃, Q₁, congrArg (·.2.1) hrun, ht₁, hmerge,
    hsilent {} _ rfl rfl rfl, ht₃⟩

end Resolver
end Concordance
