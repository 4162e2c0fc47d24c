import Concordance.Proofs.Contents
import Concordance.Proofs.Dialects

/-!
The classes of an index: exactly the type names of its process, resolved.

* `Text.Holds`, `Text.IsSimpleName` : a text holds a separator; what follows the last one.
* `ProcessDefinition.typeNames` : the type names that a process states, in its items, globals,
  imports and variables.
* `Settings.qualifiedNames`, `Settings.bareNames` : these and the names of the enabled dialects, by
  whether they hold the separator or by the key they were found under; `Settings.classNames` : what
  resolution makes of them.
* `Pipeline.build_classes` : where a build succeeds, the classes of the index are these, and so are
  the resources of the kind of classes that it refers to.
-/

namespace Concordance

/-! ### Separators -/

namespace Text

/-- A text holds a separator. -/
def Holds (s sep : String) : Prop := ∃ before after, s = before ++ sep ++ after

/-- What follows the last separator of a text, or all of it if it holds none. -/
def IsSimpleName (sep s t : String) : Prop :=
  (∃ before, s = before ++ sep ++ t ∧
    ∀ before' after, s = before' ++ sep ++ after → t.length ≤ after.length) ∨
  (¬Holds s sep ∧ t = s)

variable {sep : List Char}

lemma occursIn_iff : ∀ {xs : List Char}, occursIn sep xs = true ↔ sep <:+: xs
  | [] => by simp [occursIn]
  | x :: xs => by
      rw [occursIn, Bool.or_eq_true, occursIn_iff, List.isPrefixOf_iff_prefix, List.infix_cons_iff]

lemma afterLast?_eq_none : ∀ {xs : List Char}, afterLast? sep xs = none ↔ ¬sep <:+: xs
  | [] => by simp [afterLast?]
  | x :: xs => by
      rw [afterLast?, List.infix_cons_iff, ← List.isPrefixOf_iff_prefix]
      rcases h : afterLast? sep xs with _ | rest
      · simp [afterLast?_eq_none.mp h]
      · have hin : sep <:+: xs := by
          by_contra hno
          rw [afterLast?_eq_none.mpr hno] at h
          cases h
        simp [hin]

/-- What follows the last occurrence is the shortest of what follows one. -/
lemma afterLast?_eq_some : ∀ {xs rest : List Char}, afterLast? sep xs = some rest →
    (∃ before, xs = before ++ sep ++ rest) ∧
      ∀ before after, xs = before ++ sep ++ after → rest.length ≤ after.length
  | [], rest, h => by
      obtain ⟨rfl, rfl⟩ : sep = [] ∧ [] = rest := by simpa [afterLast?] using h
      exact ⟨⟨[], rfl⟩, fun _ _ _ => Nat.zero_le _⟩
  | x :: xs, rest, h => by
      rw [afterLast?] at h
      rcases hxs : afterLast? sep xs with _ | rest'
      · -- the only occurrence is at the start
        have hnone := afterLast?_eq_none.mp hxs
        simp only [hxs] at h
        split at h
        · rename_i hprefix
          obtain ⟨after, hafter⟩ := List.isPrefixOf_iff_prefix.mp hprefix
          obtain rfl : after = rest := by
            rw [← hafter, List.drop_left] at h
            exact Option.some.inj h
          refine ⟨⟨[], hafter.symm⟩, fun before after' h' => ?_⟩
          rcases before with _ | ⟨y, before⟩
          · have hlen := congrArg List.length (hafter.trans h')
            simp only [List.nil_append, List.length_append] at hlen
            omega
          · refine absurd ⟨before, after', ?_⟩ hnone
            simpa using (List.cons.inj h').2.symm
        · cases h
      · simp only [hxs, Option.some.injEq] at h
        subst h
        obtain ⟨⟨before, hbefore⟩, hleast⟩ := afterLast?_eq_some hxs
        refine ⟨⟨x :: before, by simp [hbefore]⟩, fun before' after h' => ?_⟩
        rcases before' with _ | ⟨y, before'⟩
        · -- an occurrence at the start leaves at least as much as one further on
          have hlen := congrArg List.length h'
          have hlen' := congrArg List.length hbefore
          simp only [List.nil_append, List.length_append, List.length_cons] at hlen hlen'
          omega
        · exact hleast before' after (by simpa using (List.cons.inj h').2)

lemma eq_append_iff {s before sep after : String} :
    s = before ++ sep ++ after ↔ s.toList = before.toList ++ sep.toList ++ after.toList := by
  rw [← String.toList_inj, String.toList_append, String.toList_append]

lemma holds_iff {s sep : String} : Holds s sep ↔ sep.toList <:+: s.toList := by
  constructor
  · rintro ⟨before, after, h⟩
    exact ⟨before.toList, after.toList, (eq_append_iff.mp h).symm⟩
  · rintro ⟨before, after, h⟩
    exact ⟨.ofList before, .ofList after, eq_append_iff.mpr (by simpa using h.symm)⟩

/-- The simple name of a text is the one that is looked for. -/
lemma isSimpleName_iff {sep s t : String} :
    IsSimpleName sep s t ↔ t = .ofList ((afterLast? sep.toList s.toList).getD s.toList) := by
  unfold IsSimpleName
  rw [holds_iff]
  rcases h : afterLast? sep.toList s.toList with _ | rest
  · have hno := afterLast?_eq_none.mp h
    simp only [hno, not_false_eq_true, true_and, Option.getD_none, String.ofList_toList,
      or_iff_right_iff_imp]
    rintro ⟨before, hs, -⟩
    exact absurd ⟨before.toList, t.toList, (eq_append_iff.mp hs).symm⟩ hno
  · obtain ⟨⟨before, hbefore⟩, hleast⟩ := afterLast?_eq_some h
    have hin : sep.toList <:+: s.toList := ⟨before, rest, hbefore.symm⟩
    have hs : s = .ofList before ++ sep ++ .ofList rest :=
      eq_append_iff.mpr (by simpa using hbefore)
    simp only [hin, not_true_eq_false, false_and, or_false, Option.getD_some]
    constructor
    · rintro ⟨before', ht, hleast'⟩
      have hs' := eq_append_iff.mp ht
      have h1 := hleast _ _ hs'
      have h2 := hleast' (.ofList before) (.ofList rest) hs
      rw [String.length_toList] at h1
      rw [String.length_ofList] at h2
      have hlen : t.toList.length = rest.length := (String.length_toList).trans (le_antisymm h2 h1)
      rw [← List.append_inj_right' (hs'.symm.trans hbefore) hlen, String.ofList_toList]
    · rintro rfl
      refine ⟨.ofList before, hs, fun before' after h' => ?_⟩
      rw [String.length_ofList, ← String.length_toList]
      exact hleast _ _ (eq_append_iff.mp h')

end Text

/-! ### The type names of a process -/

/-- The type names that a process states: the classes of its items, the types of its globals, its
imports, and the types of its variables, which their items decide. -/
def ProcessDefinition.typeNames (p : ProcessDefinition) : Set String :=
  {n | n ≠ "" ∧
    ((∃ k i, (k, .item i (.text n)) ∈ p.itemDefinitions.pairs) ∨
      (∃ k, (k, .text n) ∈ p.globals.fields) ∨
      .text n ∈ p.imports.elements ∨
      ∃ v ∈ p.declared, v.typeName? p.itemDefinitions.pairs = some n)}

namespace Settings

variable (s : Settings) (sep : String) (p : ProcessDefinition)

/-- The type names with the separator, and the qualified names of the enabled dialects. -/
def qualifiedNames : Set String :=
  {n ∈ p.typeNames | Text.Holds n sep} ∪
    {n | ∃ c ∈ builtinDialects, .text c.name ∈ s.dialects.enabled ∧
      n ∈ p.metadata.namesUnder c.referencedKey}

/-- The type names without the separator, and the bare names of the enabled dialects. -/
def bareNames : Set String :=
  {n ∈ p.typeNames | ¬Text.Holds n sep} ∪
    {n | ∃ c ∈ builtinDialects, .text c.name ∈ s.dialects.enabled ∧
      n ∈ p.metadata.namesUnder c.unqualifiedKey}

/-- The bare names that are no simple name of a qualified one. -/
def pendingNames : Set String :=
  {n ∈ s.bareNames sep p | ¬∃ q ∈ s.qualifiedNames sep p, Text.IsSimpleName sep q n}

/-- The qualified names, the pending ones that are built in under the base package, and the other
pending ones as they are. -/
def classNames : Set String :=
  s.qualifiedNames sep p ∪
    {m | ∃ n ∈ s.pendingNames sep p, .text n ∈ s.resolver.builtinTypes ∧
      m = s.resolver.basePackage.display ++ sep ++ n} ∪
    {n ∈ s.pendingNames sep p | .text n ∉ s.resolver.builtinTypes}

end Settings

/-! ### What a build makes of them -/

namespace Finding

variable {sep m n : String}

lemma ofTypeName_eq_qualified :
    ofTypeName (.text sep) m = .qualified n ↔ m = n ∧ Text.Holds n sep := by
  rw [Text.holds_iff, ← Text.occursIn_iff, ofTypeName]
  split <;> rename_i h
  · rw [qualified.injEq]
    exact ⟨fun hmn => ⟨hmn, hmn ▸ h⟩, And.left⟩
  · constructor
    · intro hbare
      cases hbare
    · rintro ⟨rfl, hn⟩
      exact absurd hn h

lemma ofTypeName_eq_bare : ofTypeName (.text sep) m = .bare n ↔ m = n ∧ ¬Text.Holds n sep := by
  rw [Text.holds_iff, ← Text.occursIn_iff, ofTypeName]
  split <;> rename_i h
  · constructor
    · intro hqualified
      cases hqualified
    · rintro ⟨rfl, hn⟩
      exact absurd h hn
  · rw [bare.injEq]
    exact ⟨fun hmn => ⟨hmn, hmn ▸ h⟩, And.left⟩

end Finding

namespace Build

variable {p : ProcessDefinition} {b : Build} {sep n : String}

lemma itemName?_iff {v : Value} : v.itemName? = some n ↔ ∃ i, v = .item i (.text n) ∧ n ≠ "" := by
  cases v <;> simp [Value.itemName?, Value.name?_eq_some]

/-- A type that a variable has is not empty. -/
lemma typeName?_ne {items : List (Value × Value)} {v : Variable}
    (h : v.typeName? items = some n) : n ≠ "" := by
  unfold Variable.typeName? Variable.itemName? at h
  obtain h | ⟨-, h⟩ := Option.or_eq_some_iff.mp h
  · split at h
    · cases h
    · cases h
    · obtain ⟨item, -, hitem⟩ := Option.bind_eq_some_iff.mp h
      obtain ⟨-, -, hne⟩ := itemName?_iff.mp hitem
      exact hne
  · exact (Value.name?_eq_some.mp h).2

/-- The type names of a process are those that its build visits. -/
lemma mem_typeNames (h : b.Holds p) : n ∈ p.typeNames ↔
    n ∈ b.itemNames ∨ (∃ e ∈ p.globals.fields, e.2.name? = some n) ∨
      (∃ v ∈ p.imports.elements, v.name? = some n) ∨ n ∈ b.variableNames := by
  have hitems : n ∈ b.itemNames ↔
      n ≠ "" ∧ ∃ k i, (k, .item i (.text n)) ∈ p.itemDefinitions.pairs := by
    simp only [itemNames, h.items, itemName?_iff, Set.mem_ofPred_eq]
    constructor
    · rintro ⟨⟨k, v⟩, he, i, rfl, hne⟩
      exact ⟨hne, k, i, he⟩
    · rintro ⟨hne, k, i, he⟩
      exact ⟨_, he, i, rfl, hne⟩
  have hglobals : (∃ e ∈ p.globals.fields, e.2.name? = some n) ↔
      n ≠ "" ∧ ∃ k, (k, .text n) ∈ p.globals.fields := by
    simp only [Value.name?_eq_some]
    constructor
    · rintro ⟨⟨k, v⟩, he, rfl, hne⟩
      exact ⟨hne, k, he⟩
    · rintro ⟨hne, k, he⟩
      exact ⟨_, he, rfl, hne⟩
  have himports : (∃ v ∈ p.imports.elements, v.name? = some n) ↔
      n ≠ "" ∧ .text n ∈ p.imports.elements := by
    simp only [Value.name?_eq_some]
    constructor
    · rintro ⟨v, hv, rfl, hne⟩
      exact ⟨hne, hv⟩
    · rintro ⟨hne, hv⟩
      exact ⟨_, hv, rfl, hne⟩
  have hvars : n ∈ b.variableNames ↔
      n ≠ "" ∧ ∃ v ∈ p.declared, v.typeName? p.itemDefinitions.pairs = some n := by
    simp only [variableNames, h.items, h.vars, Set.mem_ofPred_eq]
    constructor
    · rintro ⟨v, hv, hn⟩
      exact ⟨typeName?_ne hn, v, hv, hn⟩
    · exact And.right
  rw [hitems, hglobals, himports, hvars, ← and_or_left, ← and_or_left, ← and_or_left]
  rfl

lemma mem_ofTypeNames_qualified {S : Set String} :
    .qualified n ∈ Finding.ofTypeNames (.text sep) S ↔ n ∈ S ∧ Text.Holds n sep := by
  simp only [mem_ofTypeNames, eq_comm (a := Finding.qualified n), Finding.ofTypeName_eq_qualified]
  constructor
  · rintro ⟨_, hm, rfl, hn⟩
    exact ⟨hm, hn⟩
  · rintro ⟨hm, hn⟩
    exact ⟨n, hm, rfl, hn⟩

lemma mem_ofTypeNames_bare {S : Set String} :
    .bare n ∈ Finding.ofTypeNames (.text sep) S ↔ n ∈ S ∧ ¬Text.Holds n sep := by
  simp only [mem_ofTypeNames, eq_comm (a := Finding.bare n), Finding.ofTypeName_eq_bare]
  constructor
  · rintro ⟨_, hm, rfl, hn⟩
    exact ⟨hm, hn⟩
  · rintro ⟨hm, hn⟩
    exact ⟨n, hm, rfl, hn⟩

/-- What no node adds is not heard. -/
lemma not_mem_heardFindings {f : Finding} (hf : ∀ v, f ∉ nodeFindings v) (obs : List Observation) :
    f ∉ heardFindings obs := by
  rintro ⟨v, -, hv⟩
  exact hf v hv

/-- Nodes add no type names. -/
lemma heardFindings_types (obs : List Observation) :
    .qualified n ∉ heardFindings obs ∧ .bare n ∉ heardFindings obs := by
  constructor <;> refine not_mem_heardFindings (fun v => ?_) obs
  · cases v <;> simp [nodeFindings]
  · cases v <;> simp [nodeFindings]

/-- What is found before resolution, by the names it shows. -/
lemma mem_found {s : Settings} (h : b.Holds p) (hsep : b.resolver.separator = .text sep)
    (hd : s.dialects.createRegistry = .ok b.dialects) (hok : b.Tellable p)
    (obs : List Observation) :
    (.qualified n ∈ heardFindings obs ∪ b.read p ∪ b.told p ↔ n ∈ s.qualifiedNames sep p) ∧
      (.bare n ∈ heardFindings obs ∪ b.read p ∪ b.told p ↔ n ∈ s.bareNames sep p) := by
  have hnames := mem_typeNames (n := n) h
  have hdialects : ∀ keys : Contributor → Option String, ∀ names : Contribution → List String,
      (∀ c pair, c.contribute p.metadata = .ok pair → c ∈ builtinDialects →
        (n ∈ names pair ↔ n ∈ p.metadata.namesUnder (keys c))) →
      ((∃ c ∈ b.dialects.contributors, ∃ pair, c.contribute p.metadata = .ok pair ∧
        n ∈ names pair) ↔ ∃ c ∈ builtinDialects, .text c.name ∈ s.dialects.enabled ∧
          n ∈ p.metadata.namesUnder (keys c)) := fun keys names hkeys => by
    simp only [DialectRegistry.mem_contributors hd, and_assoc]
    refine exists_congr fun c => and_congr_right fun hc => and_congr_right fun hen => ?_
    obtain ⟨pair, hpair⟩ := hok.1 c ((DialectRegistry.mem_contributors hd c).mpr ⟨hc, hen⟩)
    rw [← hkeys c pair hpair hc]
    constructor
    · rintro ⟨pair', hpair', hn⟩
      rwa [Except.ok.inj (hpair.symm.trans hpair')]
    · intro hn
      exact ⟨pair, hpair, hn⟩
  have hreferenced := hdialects (·.referencedKey) (·.referenced) fun c pair hpair hc => by
    rw [(Contributor.mem_contribute hpair n).1, (Contributor.present_builtin c hc).1]
  have hunqualified := hdialects (·.unqualifiedKey) (·.unqualified) fun c pair hpair hc => by
    rw [(Contributor.mem_contribute hpair n).2, (Contributor.present_builtin c hc).2]
  constructor
  · simp only [Settings.qualifiedNames, Set.mem_union, hnames, (heardFindings_types obs).1,
      false_or, read, told, itemFindings, globalFindings, importFindings, dialectFindings,
      variableFindings, hsep, mem_ofTypeNames_qualified, Set.mem_ofPred_eq, reduceCtorEq, and_false,
      exists_false, or_false, Finding.qualified.injEq, exists_eq_right', hreferenced, or_and_right,
      or_assoc]
    exact or_congr_right <| or_congr_right <| or_congr_right or_comm
  · simp only [Settings.bareNames, Set.mem_union, hnames, (heardFindings_types obs).2, false_or,
      read, told, itemFindings, globalFindings, importFindings, dialectFindings, variableFindings,
      hsep, mem_ofTypeNames_bare, Set.mem_ofPred_eq, reduceCtorEq, and_false, exists_false,
      or_false, Finding.bare.injEq, exists_eq_right', hunqualified, or_and_right, or_assoc]
    exact or_congr_right <| or_congr_right <| or_congr_right or_comm

end Build

/-! ### Resolution -/

lemma Value.mem_insertNew {xs : List Value} {v : Value} {n : String} :
    .text n ∈ insertNew xs v ↔ .text n ∈ xs ∨ .text n = v := by
  unfold insertNew
  split
  · rename_i h
    refine ⟨.inl, fun hor => hor.elim id ?_⟩
    rintro rfl
    exact memberOf_text.mp h
  · simp

/-- A set has the texts of the list that it is made of. -/
lemma Value.mem_setOf {n : String} : ∀ {xs seen ys : List Value}, xs.foldlM insert? seen = .ok ys →
    (.text n ∈ ys ↔ .text n ∈ seen ∨ .text n ∈ xs)
  | [], seen, ys, h => by
      obtain rfl : seen = ys := by simpa [pure, Except.pure] using h
      simp
  | x :: xs, seen, ys, h => by
      rw [List.foldlM_cons] at h
      rcases hzs : insert? seen x with e | zs <;> rw [hzs] at h
      · cases h
      · rw [mem_setOf h, insert?_eq_ok hzs, mem_insertNew, List.mem_cons, or_assoc]

namespace Settings

variable {s : Settings} {r : Resolver}

/-- The resolver that the settings describe. -/
lemma createResolver_eq (h : s.resolver.createResolver = .ok r) :
    r.basePackage = s.resolver.basePackage ∧ r.separator = s.resolver.packageSeparator ∧
      ∀ n, r.isBuiltin (.text n) = true ↔ .text n ∈ s.resolver.builtinTypes := by
  simp only [ResolverSettings.createResolver, Resolver.make?, Value.toSet?, Value.items?,
    Value.members?, bind, Except.bind, Value.setOf?] at h
  rcases hset : s.resolver.builtinTypes.foldlM Value.insert? [] with e | builtins
  · simp [hset] at h
  · simp only [hset, pure, Except.pure, Except.ok.injEq] at h
    subst h
    refine ⟨rfl, rfl, fun n => ?_⟩
    rw [Resolver.isBuiltin, Value.memberOf_text, Value.mem_setOf hset]
    simp

end Settings

namespace Build

variable {p : ProcessDefinition} {b : Build} {sep n : String}

/-- The classes of a completed build are the class names of its process. -/
lemma mem_completed_iff {s : Settings} (h : b.Holds p)
    (hr : s.resolver.createResolver = .ok b.resolver)
    (hsep : s.resolver.packageSeparator = .text sep)
    (hd : s.dialects.createRegistry = .ok b.dialects) {obs : List Observation}
    (hok : b.Completable p (heardFindings obs)) (m : String) :
    .qualified m ∈ b.completed p (heardFindings obs) ↔ m ∈ s.classNames sep p := by
  obtain ⟨hbase, hrsep, hbuiltin⟩ := Settings.createResolver_eq hr
  have hfound := fun n => mem_found (n := n) h (hrsep.trans hsep) hd hok.2.1 obs
  have hsimple : ∀ q n, b.resolver.simple q = n ↔ Text.IsSimpleName sep q n := fun q n => by
    rw [Text.isSimpleName_iff, Resolver.simple, hrsep, hsep, eq_comm]
  have hqualified : ∀ n, b.resolver.qualified n = s.resolver.basePackage.display ++ sep ++ n :=
    fun n => by rw [Resolver.qualified, hbase, hrsep, hsep, Value.display_text]
  rw [qualified_completed]
  generalize heardFindings obs ∪ b.read p ∪ b.told p = G at hfound ⊢
  have hpending : b.resolver.pending {n | .qualified n ∈ G} {n | .bare n ∈ G} =
      s.pendingNames sep p := by
    ext n
    simp only [Resolver.pending, Settings.pendingNames, Set.mem_sdiff, Set.mem_image,
      Set.mem_ofPred_eq, (hfound _).1, (hfound _).2, hsimple]
  simp only [Resolver.classNames, Resolver.resolved, hpending, Set.mem_ofPred_eq, Set.mem_union,
    (hfound m).1, Set.mem_image, Settings.classNames, or_assoc]
  refine or_congr_right ?_
  constructor
  · rintro ⟨n, hn, rfl⟩
    unfold Resolver.promoted
    by_cases hb : b.resolver.isBuiltin (.text n)
    · rw [if_pos hb]
      exact .inl ⟨n, hn, (hbuiltin n).mp hb, hqualified n⟩
    · rw [if_neg hb]
      exact .inr ⟨hn, fun hmem => hb ((hbuiltin n).mpr hmem)⟩
  · rintro (⟨n, hn, hmem, rfl⟩ | ⟨hn, hmem⟩)
    · exact ⟨n, hn, by rw [Resolver.promoted, if_pos ((hbuiltin n).mpr hmem), hqualified]⟩
    · exact ⟨m, hn, by rw [Resolver.promoted, if_neg fun hb => hmem ((hbuiltin m).mp hb)]⟩

/-- Nodes refer to processes, never to classes or functions. -/
lemma heardFindings_references (obs : List Observation) :
    .reference n .className ∉ heardFindings obs ∧ .reference n .function ∉ heardFindings obs := by
  constructor <;> refine not_mem_heardFindings (fun v => ?_) obs
  · cases v <;> simp [nodeFindings]
  · cases v <;> simp [nodeFindings]

end Build

namespace Pipeline

/-- **The classes of an index**: where a build succeeds, they are the class names of its process,
each once, and so are the classes that the index refers to. -/
theorem build_classes {s : Settings} {sep : String} {site site' : Site} {i : Index}
    {lines : List LogLine} (hp : site.process.Textual)
    (hsep : s.resolver.packageSeparator = .text sep)
    (h : (build s).run site = (.ok i, site', lines)) :
    Enumerates .text i.classes (s.classNames sep site.process) ∧
      Enumerates .text (i.references .className) (s.classNames sep site.process) := by
  obtain ⟨b, ⟨hholds, hr, hd, -⟩, hok, hshows⟩ := (build_ends hp).of_run_ok h
  have hclasses := Build.mem_completed_iff hholds hr hsep hd hok
  refine ⟨hshows.classes.congr (Set.ext hclasses),
    (hshows.references_enumerates .className).congr (Set.ext fun n => ?_)⟩
  rw [Set.mem_ofPred_eq, Build.reference_completed, ← hclasses n]
  simp [(Build.heardFindings_references _).1]

/-- The classes of the small build. -/
theorem build_classes_sample : ∃ i site lines,
    (build .sample).run { process := .sample, registry := {} } = (.ok i, site, lines) ∧
      Enumerates .text i.classes (Settings.sample.classNames "." .sample) ∧
      Enumerates .text (i.references .className) (Settings.sample.classNames "." .sample) := by
  obtain ⟨i, site, lines, h⟩ := sample_ok
  have hp : Site.process { process := .sample, registry := {} } |>.Textual :=
    ProcessDefinition.textual_sample
  have hsep : Settings.sample.resolver.packageSeparator = .text "." := rfl
  have hclasses := build_classes hp hsep h
  exact ⟨i, site, lines, h, hclasses⟩

end Pipeline

end Concordance
