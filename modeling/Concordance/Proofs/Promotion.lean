import Mathlib
import Concordance.Proofs.Calls
import Concordance.Proofs.Settings
import Concordance.Proofs.Stability

/-!
Built-in names that have moved into the base package.

* `Text.Recurs sep name` : the separator occurs again behind its place in front of the name, in the
  name or across the seam. A separator of one character cannot lie across a seam
  (`Text.recurs_iff_holds`).
* `Resolver.simple_qualified_iff` : a name in the base package has that name for its simple name
  unless the separator recurs; the base package makes no difference.
* `TypeNames.later` : a set of type names after names have been added, merged and resolved.
* `Resolver.Represents r t n` : a resolution of the set drops the bare name, for it is the simple
  name of a qualified one. `Resolver.exists_reconciles_represented` : such a name makes no
  difference.
* `ResolverSettings.promoted_recognized_iff` : under valid settings a built-in name that has moved
  is represented from then on, exactly if the separator does not recur.
* `ResolverSettings.promoted_unrecognized` : settings where it does.
-/

namespace Concordance

/-! ### Separators across a seam -/

namespace Text

variable {base sep name : String}

/-- A separator in front of a name occurs a second time in the two together, further on. -/
def Recurs (sep name : String) : Prop :=
  ∃ before after, before ≠ "" ∧ sep ++ name = before ++ sep ++ after

/-- What stands in front of the separator and the name has no part in an occurrence that leaves less
than the name. -/
lemma recurs_iff (base sep name : String) : Recurs sep name ↔
    ∃ before after, base ++ sep ++ name = before ++ sep ++ after ∧ after.length < name.length := by
  constructor
  · rintro ⟨before, after, hne, hseam⟩
    refine ⟨base ++ before, after, ?_, ?_⟩
    · rw [String.append_assoc, hseam]
      simp only [String.append_assoc]
    · have hlength := congrArg String.length hseam
      have hpos : before.length ≠ 0 := fun h => hne (String.length_eq_zero_iff.mp h)
      simp only [String.length_append] at hlength
      omega
  · rintro ⟨before, after, hall, hless⟩
    have hlength := congrArg String.length hall
    have hlists := eq_append_iff.mp hall
    simp only [String.length_append] at hlength
    simp only [← String.length_toList] at hlength hless
    simp only [String.toList_append, List.append_assoc] at hlists
    obtain ⟨more, hbefore, hseam⟩ | ⟨more, hbase, -⟩ := List.append_eq_append_iff.mp hlists
    · refine ⟨.ofList more, after, ?_, eq_append_iff.mpr (by simpa using hseam)⟩
      rintro h
      have hempty : more = [] := by simpa using congrArg String.toList h
      simp only [hbefore, hempty, List.append_nil] at hlength
      omega
    · have hlonger := congrArg List.length hbase
      rw [List.length_append] at hlonger
      omega

/-- A separator of one character recurs only inside the name. -/
lemma recurs_iff_holds (hsep : sep.length = 1) : Recurs sep name ↔ Holds name sep := by
  constructor
  · rintro ⟨before, after, hne, hseam⟩
    rw [holds_iff]
    have hlists := eq_append_iff.mp hseam
    rw [← String.length_toList] at hsep
    obtain ⟨c, hc⟩ := List.length_eq_one_iff.mp hsep
    rcases hbefore : before.toList with _ | ⟨d, ds⟩
    · exact absurd (String.toList_eq_nil_iff.mp hbefore) hne
    · rw [String.toList_append, hc, hbefore] at hlists
      rw [hc]
      exact ⟨ds, after.toList, by simpa using (List.cons.inj hlists).2.symm⟩
  · rintro ⟨before, after, rfl⟩
    refine ⟨sep ++ before, after, fun h => ?_, by simp only [String.append_assoc]⟩
    have hlength := congrArg String.length h
    rw [String.length_append, hsep] at hlength
    simp at hlength

end Text

/-! ### Simple names of promoted names -/

namespace Resolver

variable {r : Resolver} {t u : TypeNames} {sep n : String} {Q U : Set String}

lemma simple_eq_iff (hs : r.separator = .text sep) {q : String} :
    r.simple q = n ↔ Text.IsSimpleName sep q n := by
  rw [Text.isSimpleName_iff, Resolver.simple, hs, eq_comm]

/-- **A name in the base package** has that name for its simple name unless the separator recurs. -/
lemma simple_qualified_iff (hs : r.separator = .text sep) :
    r.simple (r.qualified n) = n ↔ ¬Text.Recurs sep n := by
  have hq : r.qualified n = r.basePackage.display ++ sep ++ n := by
    rw [qualified, hs, Value.display_text]
  have hholds : Text.Holds (r.qualified n) sep := ⟨_, _, hq⟩
  rw [simple_eq_iff hs, Text.recurs_iff r.basePackage.display, Text.IsSimpleName, ← hq]
  push Not
  constructor
  · rintro (⟨-, -, hleast⟩ | ⟨hno, -⟩)
    · exact fun before after h => hleast before after h
    · exact absurd hholds hno
  · exact fun h => .inl ⟨_, hq, h⟩

/-! ### Names that are represented -/

/-- A resolution of the type names drops a bare name: it is the simple name of a qualified one. -/
def Represents (r : Resolver) (t : TypeNames) (n : String) : Prop :=
  ∃ v ∈ t.referenced, r.simpleName v = .ok (.text n)

lemma represents_iff (hs : r.separator = .text sep) (hne : sep ≠ "") (ht : t.Stands Q U) :
    r.Represents t n ↔ n ∈ r.simple '' Q := by
  constructor
  · rintro ⟨v, hv, hsimple⟩
    obtain ⟨m, hm, rfl⟩ := ht.1.exists_of_mem hv
    rw [simpleName_text hs hne] at hsimple
    exact ⟨m, hm, Value.text_injective (Except.ok.inj hsimple)⟩
  · rintro ⟨m, hm, rfl⟩
    exact ⟨.text m, (ht.1.mem_iff Value.text_injective).mpr hm, simpleName_text hs hne m⟩

/-- **A name that is represented** makes no difference to a resolution. -/
lemma exists_reconciles_represented (hs : r.separator = .text sep) (hne : sep ≠ "")
    (hbase : r.basePackage.isText) (ht : t.Stands Q U) (hn : r.Represents t n) :
    ∃ t', r.Reconciles t (r.unresolved Q (U \ {n})) t' ∧ t'.Stands (r.resolved Q (U \ {n})) ∅ := by
  have hpending : r.pending Q (U \ {n}) = r.pending Q U := by
    rw [pending, pending, Set.sdiff_sdiff_comm, Set.sdiff_singleton_eq_self]
    exact fun hmem => hmem.2 ((represents_iff hs hne ht).mp hn)
  obtain ⟨t', hreconciles, hstands⟩ := exists_reconciles hs hne hbase ht
  refine ⟨t', ?_, ?_⟩
  · rwa [unresolved, hpending]
  · rwa [resolved, hpending]

/-- A resolution moves a pending built-in name into the base package. -/
lemma qualified_mem_after (hs : r.separator = .text sep) (hne : sep ≠ "")
    (hbase : r.basePackage.isText) (ht : t.Stands Q U) (hn : n ∈ r.pending Q U)
    (hbuiltin : r.isBuiltin (.text n)) :
    .text (r.qualified n) ∈ (r.resolve.after t).referenced := by
  obtain ⟨t', ⟨forced, hrun, -⟩, hstands⟩ := exists_reconciles hs hne hbase ht
  have hafter : r.resolve.after t = t' := by rw [Step.after, hrun]
  rw [hafter, hstands.1.mem_iff Value.text_injective]
  exact .inr ⟨n, hn, by rw [promoted, if_pos hbuiltin]⟩

end Resolver

/-! ### What is done with a set of type names -/

namespace TypeNames

variable {r : Resolver} {v : Value}

/-- What can be done with a set of type names. -/
inductive Operation where
  | add (name : Value)
  | addAll (names : Value)
  | merge (referenced unqualified : Value)
  | resolve

/-- An operation as a step, where `r` resolves. -/
def Operation.step (r : Resolver) : Operation → Step TypeNames Unit
  | add name => addOne name
  | addAll names => TypeNames.addAll names
  | merge referenced unqualified => TypeNames.merge referenced unqualified
  | resolve => r.resolve >>= fun _ => pure ()

/-- The type names after operations one after another, also after those that fail. -/
def later (r : Resolver) (t : TypeNames) (ops : List Operation) : TypeNames :=
  ops.foldl (fun t op => (op.step r).after t) t

lemma files_merge (referenced unqualified : Value) : Files (merge referenced unqualified) :=
  fun I hI => (Step.keeps_ofAnswer _).bind fun names =>
    (Step.Keeps.forM (fun name => files_takeReferenced name I hI) names).bind fun _ =>
      (Step.keeps_ofAnswer _).bind fun names =>
        .forM (fun name => files_takeUnqualified name I hI) names

/-- Every operation only files names. -/
lemma Operation.files (op : Operation) : Files (op.step r) := by
  cases op with
  | add name => exact files_addOne name
  | addAll names => exact files_addAll names
  | merge referenced unqualified => exact files_merge referenced unqualified
  | resolve => exact fun I hI => (r.files_resolve I hI).bind fun _ => Step.keeps_pure ()

/-- A qualified name is not lost. -/
lemma stable_mem (v : Value) : Stable fun t => v ∈ t.referenced where
  insert h hxs := Value.insert?_eq_ok hxs ▸ subset_addNew _ _ h
  bare _ h := h

/-- Whatever is done, a qualified name stays: by induction on the operations. -/
lemma mem_later (ops : List Operation) {t : TypeNames} (h : v ∈ t.referenced) :
    v ∈ (t.later r ops).referenced := by
  induction ops generalizing t with
  | nil => exact h
  | cons op ops ih => exact ih ((op.files _ (stable_mem v)).after h)

end TypeNames

/-! ### Valid settings -/

namespace ResolverSettings

variable {s : ResolverSettings} {sep n : String}

/-- Settings of the declared types. -/
structure Textual (s : ResolverSettings) : Prop where
  basePackage : s.basePackage.isText
  builtinTypes : ∀ v ∈ s.builtinTypes, v.isText
  packageSeparator : s.packageSeparator.isText
  wildcardMarker : s.wildcardMarker.isText

/-- The search for a built-in name with a separator: none is found if none holds it. -/
lemma qualifiedBuiltin?_eq_none : ∀ {names : List String},
    qualifiedBuiltin? (.text sep) (names.map .text) = .ok none → ∀ n ∈ names, ¬Text.Holds n sep
  | [], _ => List.forall_mem_nil _
  | m :: names, h => by
      have hcontains : (Value.text m).contains? (.text sep) =
          .ok (Text.occursIn sep.toList m.toList) := rfl
      rw [List.map_cons, qualifiedBuiltin?, hcontains] at h
      rw [List.forall_mem_cons, Text.holds_iff, ← Text.occursIn_iff]
      rcases hoccurs : Text.occursIn sep.toList m.toList <;> rw [hoccurs] at h
      · exact ⟨Bool.false_ne_true, qualifiedBuiltin?_eq_none h⟩
      · cases h

/-- **Valid settings** have a separator that is not empty, and none of their built-in names holds
it. -/
lemma Textual.valid (h : s.Textual) (hvalid : s.problem? = .ok none) :
    ∃ sep, s.packageSeparator = .text sep ∧ sep ≠ "" ∧
      ∀ n, .text n ∈ s.builtinTypes → ¬Text.Holds n sep := by
  obtain ⟨sep, hsep⟩ := Value.isText_iff.mp h.packageSeparator
  obtain ⟨names, hnames⟩ : ∃ names : List String, names.map Value.text = s.builtinTypes := by
    rw [← Set.mem_range, Set.range_list_map]
    exact fun v hv => let ⟨n, hn⟩ := Value.isText_iff.mp (h.builtinTypes v hv); ⟨n, hn.symm⟩
  rw [problem?, hsep] at hvalid
  split at hvalid
  · cases hvalid
  · next hpresent =>
      split at hvalid
      · cases hvalid
      · obtain ⟨found, hfound, hnone⟩ := Answer.bind_eq_ok_iff.mp hvalid
        have hne : sep ≠ "" := by simpa using hpresent
        refine ⟨sep, hsep, hne, fun n hn => ?_⟩
        rcases found with _ | v
        · rw [← hnames] at hfound hn
          exact qualifiedBuiltin?_eq_none hfound n
            ((List.mem_map_of_injective Value.text_injective).mp hn)
        · obtain ⟨_, -, hsome⟩ := Answer.bind_eq_ok_iff.mp hnone
          cases hsome

/-- The resolver of valid settings. -/
lemma Textual.exists_createResolver (h : s.Textual) : ∃ r, s.createResolver = .ok r ∧
    r.basePackage = s.basePackage ∧ r.separator = s.packageSeparator ∧
      ∀ n, r.isBuiltin (.text n) = true ↔ .text n ∈ s.builtinTypes := by
  obtain ⟨builtins, hset⟩ := Value.exists_setOf? fun v hv => by
    obtain ⟨n, rfl⟩ := Value.isText_iff.mp (h.builtinTypes v hv)
    exact Value.hashable_text n
  have hr : s.createResolver = .ok
      { basePackage := s.basePackage, builtins, separator := s.packageSeparator } :=
    Answer.bind_eq_ok_iff.mpr ⟨builtins, hset, rfl⟩
  exact ⟨_, hr, Settings.createResolver_eq (s := { resolver := s }) hr⟩

end ResolverSettings

namespace Resolver

/-- A name that a resolution moves into the base package is represented from then on, whatever is
done with the type names. -/
def Recognizes (r : Resolver) (n : String) : Prop :=
  ∀ (t : TypeNames) (Q U : Set String), t.Stands Q U → n ∈ r.pending Q U →
    ∀ ops, r.Represents ((r.resolve.after t).later r ops) n

variable {r : Resolver} {sep n : String}

/-- A built-in name is recognized exactly if it is the simple name of its place in the base
package: alone among the type names it is represented by that place or not at all. -/
lemma recognizes_iff (hs : r.separator = .text sep) (hne : sep ≠ "") (hbase : r.basePackage.isText)
    (hbuiltin : r.isBuiltin (.text n)) : r.Recognizes n ↔ r.simple (r.qualified n) = n := by
  constructor
  · intro h
    have hstands : ({ unqualified := [.text n] } : TypeNames).Stands ∅ {n} :=
      ⟨.nil, List.nodup_singleton _, fun v => by simp [eq_comm]⟩
    have hpending : r.pending ∅ {n} = {n} := by rw [pending, Set.image_empty, Set.sdiff_empty]
    obtain ⟨t', ⟨forced, hrun, -⟩, ht'⟩ := exists_reconciles hs hne hbase hstands
    have hafter : r.resolve.after { unqualified := [.text n] } = t' := by rw [Step.after, hrun]
    have hrepresents := h _ _ _ hstands (hpending.symm ▸ rfl) []
    rw [hafter, TypeNames.later, List.foldl_nil, represents_iff hs hne ht', resolved, hpending,
      Set.image_singleton, Set.empty_union, Set.image_singleton, promoted, if_pos hbuiltin]
      at hrepresents
    exact (Set.mem_singleton_iff.mp hrepresents).symm
  · intro h t Q U ht hn ops
    refine ⟨_, TypeNames.mem_later ops (qualified_mem_after hs hne hbase ht hn hbuiltin), ?_⟩
    rw [simpleName_text hs hne, h]

end Resolver

namespace ResolverSettings

variable {s : ResolverSettings}

/-- **A built-in name that has moved is recognized**, under valid settings, exactly if the separator
does not recur when it stands in front of the name: then the name is the simple name of its place in
the base package, every later resolution over the same type names finds it represented, and it makes
no difference to one. A separator of one character never recurs. -/
theorem promoted_recognized_iff (h : s.Textual) (hvalid : s.problem? = .ok none) :
    ∃ r sep, s.createResolver = .ok r ∧ s.packageSeparator = .text sep ∧
      ∀ n, .text n ∈ s.builtinTypes → ∃ q, r.qualifyBuiltin (.text n) = .ok (.text q) ∧
        (r.simpleName (.text q) = .ok (.text n) ↔ ¬Text.Recurs sep n) ∧
        (r.Recognizes n ↔ ¬Text.Recurs sep n) ∧
        (¬Text.Recurs sep n → ∀ (t : TypeNames) (Q U : Set String), t.Stands Q U → q ∈ Q →
          ∃ t', r.Reconciles t (r.unresolved Q (U \ {n})) t' ∧
            t'.Stands (r.resolved Q (U \ {n})) ∅) ∧
        (sep.length = 1 → ¬Text.Recurs sep n) := by
  obtain ⟨sep, hsep, hne, hsimple⟩ := h.valid hvalid
  obtain ⟨r, hr, hbase, hrsep, hbuiltin⟩ := h.exists_createResolver
  have hs : r.separator = .text sep := hrsep.trans hsep
  have hbase : r.basePackage.isText := hbase ▸ h.basePackage
  have hspellable : r.Spellable := by
    obtain ⟨base, hbase⟩ := Value.isText_iff.mp hbase
    rw [Resolver.Spellable, hbase, hs]
    exact ⟨rfl, rfl⟩
  refine ⟨r, sep, hr, hsep, fun n hn => ⟨r.qualified n, Resolver.qualifyBuiltin_text hspellable n,
    ?_, ?_, fun hrecurs t Q U ht hq => ?_, fun hone => ?_⟩⟩
  · rw [← Resolver.simple_qualified_iff hs, Resolver.simpleName_text hs hne]
    exact ⟨fun heq => Value.text_injective (Except.ok.inj heq), fun heq => by rw [heq]⟩
  · rw [← Resolver.simple_qualified_iff hs]
    exact Resolver.recognizes_iff hs hne hbase ((hbuiltin n).mpr hn)
  · refine Resolver.exists_reconciles_represented hs hne hbase ht ?_
    rw [Resolver.represents_iff hs hne ht]
    exact ⟨_, hq, (Resolver.simple_qualified_iff hs).mpr hrecurs⟩
  · rw [Text.recurs_iff_holds hone]
    exact hsimple n hn

/-- Settings with a separator of two characters, and a built-in name that begins with half of it. -/
def colons : ResolverSettings where
  builtinTypes := textValues [":x", "String"]
  packageSeparator := .text "::"

/-- The resolver of these settings. -/
def colonsResolver : Resolver where
  builtins := textValues [":x", "String"]
  separator := .text "::"

lemma colons_textual : colons.Textual :=
  ⟨rfl, by simp [colons, textValues, Value.isText, Value.text?], rfl, rfl⟩

lemma colons_valid : colons.problem? = .ok none := by cbv

lemma colons_createResolver : colons.createResolver = .ok colonsResolver := by cbv

/-- The name that has nothing in common with the separator is recognized. -/
theorem promoted_recognized_string : colons.Textual ∧ colons.problem? = .ok none ∧
    colons.createResolver = .ok colonsResolver ∧
      colonsResolver.qualifyBuiltin (.text "String") = .ok (.text "java.lang::String") ∧
      colonsResolver.simpleName (.text "java.lang::String") = .ok (.text "String") ∧
      colonsResolver.Recognizes "String" := by
  obtain ⟨r, sep, hr, -, hall⟩ := promoted_recognized_iff colons_textual colons_valid
  obtain rfl : colonsResolver = r := Except.ok.inj (colons_createResolver.symm.trans hr)
  obtain ⟨q, hq, hsimple, hrecognizes, -⟩ := hall "String" (by simp [colons, textValues])
  have hqualified : colonsResolver.qualifyBuiltin (.text "String") =
      .ok (.text "java.lang::String") := by cbv
  obtain rfl : "java.lang::String" = q :=
    Value.text_injective (Except.ok.inj (hqualified.symm.trans hq))
  have hname : colonsResolver.simpleName (.text "java.lang::String") = .ok (.text "String") := by
    cbv
  exact ⟨colons_textual, colons_valid, hr, hq, hname, hrecognizes.mpr (hsimple.mp hname)⟩

/-- The other name is not: in its place in the base package the separator recurs across the seam, so
that the simple name is another one, and the name is not represented after it has moved. -/
theorem promoted_unrecognized : colons.Textual ∧ colons.problem? = .ok none ∧
    colons.createResolver = .ok colonsResolver ∧ .text ":x" ∈ colons.builtinTypes ∧
      colonsResolver.qualifyBuiltin (.text ":x") = .ok (.text "java.lang:::x") ∧
      colonsResolver.simpleName (.text "java.lang:::x") = .ok (.text "x") ∧
      ¬colonsResolver.Recognizes ":x" := by
  have hsimple : colonsResolver.simple (colonsResolver.qualified ":x") = "x" := by cbv
  refine ⟨colons_textual, colons_valid, colons_createResolver, by simp [colons, textValues],
    by cbv, by cbv, ?_⟩
  rw [Resolver.recognizes_iff rfl (by decide) rfl (by cbv), hsimple]
  decide

end ResolverSettings
end Concordance
