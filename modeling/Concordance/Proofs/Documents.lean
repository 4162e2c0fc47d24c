import Mathlib
import Concordance.Proofs.Classes
import Concordance.Proofs.Descriptors
import Concordance.Proofs.Rebuild
import Concordance.Proofs.Settings

/-!
What a descriptor describes can be built.

* `Finding.AllEncodable` : all names among several findings can be encoded. A described process
  brings no others in, `ProcessDefinition.Described.encodable_completed`.
* `ProcessDefinition.Described.ready` : only the dialects can keep its build from being ended.
* `Pipeline.Documented` : a process that was read from a clean tree, and may have been built since.
  `Pipeline.Filled` : a registry that only builds of such processes have filled. The invariants of
  both are `Pipeline.Documented.described` and `Pipeline.Filled.legible`.
* `Pipeline.documented_build_fails_iff` : over such a registry such a process is built, unless its
  bag holds something that an enabled dialect cannot read.
* `Pipeline.documented_build_fails_half` : this needs that the base package can be encoded.
-/

namespace Concordance

/-! ### Names that can be encoded -/

namespace Finding

/-- The name that a finding holds. -/
def name : Finding → String
  | part n | shared n _ | reference n _ | qualified n | bare n => n

/-- Every name among several findings can be encoded. -/
def AllEncodable (F : Set Finding) : Prop := ∀ f ∈ F, Text.isEncodable f.name = true

lemma name_ofTypeName (sep : Value) (n : String) : (ofTypeName sep n).name = n := by
  rcases Build.ofTypeName_cases sep n with h | h
  · rw [h]; rfl
  · rw [h]; rfl

lemma allEncodable_ofTypeNames {sep : Value} {S : Set String}
    (h : ∀ n ∈ S, Text.isEncodable n = true) : AllEncodable (ofTypeNames sep S) := by
  rintro f ⟨n, hn, rfl⟩
  rw [name_ofTypeName]
  exact h n hn

lemma AllEncodable.union {F G : Set Finding} (hF : AllEncodable F) (hG : AllEncodable G) :
    AllEncodable (F ∪ G) := fun f hf => hf.elim (hF f) (hG f)

end Finding

open Finding (AllEncodable)

lemma Value.encodable_of_name? {v : Value} {n : String} (h : v = .null ∨ v.Legible)
    (hn : v.name? = some n) : Text.isEncodable n = true := by
  rw [name?_eq_some] at hn
  rcases h with rfl | ⟨s, rfl, hs⟩
  · cases hn.1
  · cases hn.1
    exact hs

namespace Resolver

variable {r : Resolver} {F : Set Finding}

/-- Resolution puts nothing into a name but the base package and the separator. -/
lemma allEncodable_settle (hbase : r.basePackage.Legible) (hsep : r.separator.Legible)
    (hF : AllEncodable F) : AllEncodable (r.settle F) := by
  obtain ⟨base, hbase, hbase'⟩ := hbase
  obtain ⟨sep, hsep, hsep'⟩ := hsep
  have hclass : ∀ n ∈ r.classNames F, Text.isEncodable n = true := by
    rintro n (hn | ⟨m, hm, rfl⟩)
    · exact hF _ hn
    · have hm' : Text.isEncodable m = true := hF _ hm.1
      rw [promoted]
      split
      · rw [qualified, hbase, hsep, Value.display_text, Value.display_text,
          Text.isEncodable_append, Text.isEncodable_append, hbase', hsep', hm']
        rfl
      · exact hm'
  rintro f (hf | ⟨n, hn, rfl⟩)
  · cases f with
    | qualified n => exact hclass n hf
    | bare n => exact hf.elim
    | _ => exact hF _ hf
  · exact hclass n hn

end Resolver

namespace ProcessDefinition.Described

variable {p : ProcessDefinition} {b : Build}

/-- The names that the nodes carry. -/
lemma encodable_nodes (hp : p.Described) :
    AllEncodable (Build.heardFindings p.observations) := by
  rintro f ⟨v, hv, hf⟩
  rw [ProcessDefinition.nodes_eq] at hv
  obtain ⟨xs, hxs, hall⟩ := hp.nodes
  rw [hxs] at hv
  have hnode := hall v hv
  cases v with
  | ruleSet a c group =>
      obtain ⟨n, rfl, rfl⟩ := hf
      exact Value.legible_text.mp (hnode.resolve_left nofun)
  | workItem a c work =>
      obtain ⟨n, hn, rfl⟩ := hf
      exact Value.encodable_of_name? hnode hn
  | subProcess a c processId processName =>
      rcases hf with ⟨n, hn, rfl⟩ | ⟨n, hn, rfl⟩
      · exact Value.encodable_of_name? (.inr hnode.2) hn
      · exact Value.encodable_of_name? (.inr hnode.1) hn
  | _ => exact hf.elim

/-- The items, as they are delivered. -/
lemma mem_pairs (hp : p.Described) : ∀ e ∈ p.itemDefinitions.pairs, e.2.LegibleItem := by
  obtain ⟨es, hes, hall⟩ := hp.items
  rw [hes]
  exact fun e he => (hall e he).2

/-- The variables, as they are delivered. -/
lemma mem_declared (hp : p.Described) : ∀ v ∈ p.declared, v.name.Legible ∧ v.type.Legible ∧
    ∃ m, v.metadata = .dict m ∧
      (m = [] ∨ ∃ subject, m = [(.text Variable.itemSubjectKey, .text subject)]) := by
  obtain ⟨xs, hxs, hall⟩ := hp.vars
  intro v hv
  rw [ProcessDefinition.declared, hxs] at hv
  obtain ⟨x, hx, hxv⟩ := List.mem_filterMap.mp hv
  obtain ⟨n, t, m, rfl, hn, ht, hm⟩ := hall x hx
  cases hxv
  exact ⟨hn, ht, m, rfl, hm⟩

/-- The names that are found when the process has been read. -/
lemma encodable_read (hp : p.Described) (h : b.Holds p) : AllEncodable (b.read p) := by
  refine .union ?_ (.union (.union ?_ ?_) ?_)
  · refine Finding.allEncodable_ofTypeNames ?_
    rintro n ⟨e, he, hn⟩
    rw [h.items] at he
    obtain ⟨i, s, hs, hlegible⟩ := hp.mem_pairs e he
    rw [hs] at hn
    exact Value.encodable_of_name? hlegible hn
  · refine Finding.allEncodable_ofTypeNames ?_
    obtain ⟨es, hes, hall⟩ := hp.globals
    rw [hes]
    rintro n ⟨e, he, hn⟩
    exact Value.encodable_of_name? (.inr (hall e he).2) hn
  · obtain ⟨es, hes, hall⟩ := hp.globals
    rw [hes]
    rintro f ⟨n, ⟨e, he, hn⟩, rfl⟩
    exact Value.legible_text.mp (hn ▸ (hall e he).1)
  · refine Finding.allEncodable_ofTypeNames ?_
    obtain ⟨xs, hxs, hall⟩ := hp.imports
    rw [hxs]
    rintro n ⟨v, hv, hn⟩
    exact Value.encodable_of_name? (.inr (hall v hv)) hn

/-- The names that built-in dialects read from the bag. -/
lemma encodable_dialects (hp : p.Described)
    (hd : ∀ c ∈ b.dialects.contributors, c ∈ builtinDialects) :
    AllEncodable (b.dialectFindings p) := by
  have hunder : ∀ c ∈ b.dialects.contributors, ∀ key n, (∀ k, key = some k → k ∈ c.keys) →
      n ∈ p.metadata.namesUnder key → Text.isEncodable n = true := by
    rintro c hc key n hkey ⟨k, hk, v, hv, hn⟩
    have hother : k ≠ Index.metadataKey := fun heq =>
      Contributor.metadataKey_not_mem c (hd c hc) (heq ▸ hkey k hk)
    exact Value.isClean_elements (hp.bag k v hother hv) _ hn
  rintro f ⟨c, hc, pair, hpair, ⟨n, hn, rfl⟩ | ⟨n, hn, rfl⟩⟩
  · exact hunder c hc _ n (fun k hk => Contributor.mem_keys.mpr (.inl hk))
      ((Contributor.mem_contribute hpair n).1.mp hn)
  · exact hunder c hc _ n (fun k hk => Contributor.mem_keys.mpr (.inr hk))
      ((Contributor.mem_contribute hpair n).2.mp hn)

/-- The names of the variables and of their types. -/
lemma encodable_variables (hp : p.Described) (h : b.Holds p) :
    AllEncodable b.variableFindings := by
  refine .union ?_ (Finding.allEncodable_ofTypeNames ?_)
  · rintro f ⟨n, ⟨v, hv, hn⟩, rfl⟩
    rw [h.vars] at hv
    exact Value.legible_text.mp (hn ▸ (hp.mem_declared v hv).1)
  · rintro n ⟨v, hv, hn⟩
    rw [h.vars] at hv
    rw [Variable.typeName?, Option.or_eq_some_iff] at hn
    rcases hn with hn | ⟨-, hn⟩
    · rw [Variable.itemName?] at hn
      split at hn
      · cases hn
      · cases hn
      · obtain ⟨item, hitem, hn⟩ := Option.bind_eq_some_iff.mp hn
        rw [h.items] at hitem
        obtain ⟨e, he, rfl⟩ := Option.map_eq_some_iff.mp hitem
        obtain ⟨i, s, hs, hlegible⟩ := hp.mem_pairs e (List.mem_of_find?_eq_some he)
        rw [hs] at hn
        exact Value.encodable_of_name? hlegible hn
    · exact Value.encodable_of_name? (.inr (hp.mem_declared v hv).2.1) hn

/-- The names of signals, messages and function imports. -/
lemma encodable_closing (hp : p.Described) (h : b.Holds p) : AllEncodable (b.closing p) := by
  refine .union ?_ (.union ?_ ?_)
  · rintro f ⟨n, hn, rfl⟩
    obtain ⟨xs, hxs, hall⟩ := hp.signals
    rw [h.signals, hxs] at hn
    exact Value.legible_text.mp (hall _ hn)
  · rintro f ⟨n, hn, rfl⟩
    obtain ⟨es, hes, hall⟩ := hp.messages
    rw [h.messages, ProcessDefinition.mem_keyTexts, hes] at hn
    obtain ⟨e, he, hn⟩ := hn
    exact Value.legible_text.mp (hn ▸ hall e he)
  · rintro f ⟨n, hn, -, rfl⟩
    obtain ⟨xs, hxs, hall⟩ := hp.functionImports
    rw [hxs] at hn
    exact Value.legible_text.mp (hall _ hn)

/-- **Every name that a build finds can be encoded**, if base package and separator can. -/
lemma encodable_completed (hp : p.Described) (h : b.Holds p)
    (hd : ∀ c ∈ b.dialects.contributors, c ∈ builtinDialects)
    (hbase : b.resolver.basePackage.Legible) (hsep : b.resolver.separator.Legible) :
    AllEncodable (b.completed p (Build.heardFindings p.observations)) :=
  (Resolver.allEncodable_settle hbase hsep ((hp.encodable_nodes.union (hp.encodable_read h)).union
    ((hp.encodable_dialects hd).union (hp.encodable_variables h)))).union (hp.encodable_closing h)

/-- An index that shows names that can be encoded. -/
lemma legible_of_shows {i : Index} {F : Set Finding} (hp : p.Described) (h : i.Shows p F)
    (hF : AllEncodable F) : i.Legible := by
  intro v hv
  simp only [Index.names, List.mem_cons, List.mem_append, List.mem_map] at hv
  rcases hv with rfl | rfl | ⟨q, hq, rfl⟩ | ⟨q, hq, rfl⟩ | ⟨q, hq, rfl⟩
  · rw [h.processId]
    exact hp.id
  · rw [h.processName]
    exact hp.name
  · obtain ⟨own, hresources, hown⟩ := h.resources
    rw [Index.parts_eq hresources] at hq
    obtain ⟨n, hn, rfl⟩ := hown.exists_of_mem hq
    exact ⟨n, rfl, hF _ hn⟩
  · obtain ⟨x, hx, rfl⟩ := h.shared.exists_of_mem hq
    exact ⟨x.1, rfl, hF _ hx⟩
  · obtain ⟨x, hx, rfl⟩ := h.references.exists_of_mem hq
    exact ⟨x.1, rfl, hF _ hx⟩

/-- The type of every variable can be found. -/
lemma exists_variableType (hp : p.Described) (h : b.Holds p) :
    ∀ v ∈ b.vars, ∃ t, b.variableType v = .ok t := by
  intro v hv
  rw [h.vars] at hv
  obtain ⟨-, -, m, hmetadata, hm⟩ := hp.mem_declared v hv
  rcases hm with rfl | ⟨subject, rfl⟩
  · have hsubject : v.itemSubject? = .ok .null := by rw [Variable.itemSubject?, hmetadata]; rfl
    exact ⟨v.type, by rw [Build.variableType, hsubject]; rfl⟩
  · have hsubject : v.itemSubject? = .ok (.text subject) := by
      rw [Variable.itemSubject?, hmetadata, Value.get?_dict, if_pos (Value.hashable_text _)]
      simp [Value.lookup?]
    have hnull : Value.text subject ≠ .null := by simp
    rw [Build.variableType_eq hsubject hnull, Value.hashable_text]
    rcases hitem : Value.lookup? b.items (.text subject) with _ | item
    · exact ⟨_, rfl⟩
    · rw [h.items] at hitem
      obtain ⟨e, he, rfl⟩ := Option.map_eq_some_iff.mp hitem
      obtain ⟨i, s, hs, -⟩ := hp.mem_pairs e (List.mem_of_find?_eq_some he)
      rw [hs]
      exact ⟨_, rfl⟩

/-- **Only the dialects can keep its build from being ended**, where the separator is a text that is
not empty and base package and wildcard marker are texts. -/
lemma ready (hp : p.Described) (h : b.Holds p) {sep : String}
    (hsep : b.resolver.separator = .text sep) (hne : sep ≠ "")
    (hbase : b.resolver.basePackage.isText) (hmarker : b.wildcard.isText) : b.Ready p := by
  have htext : b.resolver.separator.isText := Value.isText_iff.mpr ⟨sep, hsep⟩
  refine ⟨⟨fun e he => ?_, ⟨fun _ => ?_, fun _ _ _ => htext⟩, fun _ => ?_, fun _ _ _ => htext⟩,
    fun v hv => ?_, fun Q U => ⟨fun _ => ⟨sep, hsep, hne⟩, fun _ => ?_⟩, fun _ => ?_,
    fun v hv => ?_⟩
  · rw [h.items] at he
    obtain ⟨i, s, hs, -⟩ := hp.mem_pairs e he
    exact ⟨s, by rw [hs]; rfl, fun _ => htext⟩
  · obtain ⟨es, hes, -⟩ := hp.globals
    rw [hes]
    rfl
  · obtain ⟨xs, hxs, -⟩ := hp.imports
    rw [hxs]
    rfl
  · obtain ⟨t, ht⟩ := hp.exists_variableType h v hv
    exact ⟨t, ht, fun _ => htext⟩
  · obtain ⟨base, hbase⟩ := Value.isText_iff.mp hbase
    rw [Resolver.Spellable, hbase, hsep]
    exact ⟨rfl, rfl⟩
  · obtain ⟨xs, hxs, -⟩ := hp.functionImports
    rw [hxs]
    rfl
  · obtain ⟨xs, hxs, hall⟩ := hp.functionImports
    rw [hxs] at hv
    obtain ⟨n, rfl, -⟩ := hall v hv
    obtain ⟨marker, hmarker⟩ := Value.isText_iff.mp hmarker
    rw [hmarker]
    change ∃ wild, Build.endsWithAny n [.text marker] = .ok wild
    rw [Build.endsWithAny]
    split
    · exact ⟨true, rfl⟩
    · exact ⟨false, rfl⟩

end ProcessDefinition.Described

/-! ### Whole builds -/

/-- Settings whose base package and separator can be encoded. -/
structure Settings.Encodable (s : Settings) : Prop where
  basePackage : s.resolver.basePackage.Legible
  packageSeparator : s.resolver.packageSeparator.Legible

namespace Pipeline

variable {s : Settings} {p : ProcessDefinition} {r : Registry} {i : Index}

/-- Of a described process an index is made, whose names can be encoded, if every enabled dialect
can read the bag; else the build fails with what one of them fails with. -/
lemma made_cases (hs : s.Sound) (he : s.Encodable) (hp : p.Described) :
    (∃ i, made s p = .ok i ∧ i.Legible ∧ ∀ c ∈ builtinDialects,
      .text c.name ∈ s.dialects.enabled → ∃ pair, c.contribute p.metadata = .ok pair) ∨
    ∃ e, made s p = .error e ∧ ∃ c ∈ builtinDialects,
      .text c.name ∈ s.dialects.enabled ∧ c.contribute p.metadata = .error e := by
  obtain ⟨r, d, hr, hd, hstart⟩ := hs.exists_createBuild
  obtain ⟨hbase, hsep, -⟩ := Settings.createResolver_eq hr
  obtain ⟨sep, hseparator, hne⟩ := hs.separator
  have hmem := DialectRegistry.mem_contributors hd
  -- what the build holds once the process is replayed
  have hb := Build.holds_hear (r := r) (d := d) (w := s.resolver.wildcardMarker) hp.textual
    hp.accepted.decodes
  obtain ⟨hbr, hbd, hbw, -⟩ := Build.replayed_settings (r := r) (d := d)
    (w := s.resolver.wildcardMarker) hp.textual
  have hready : (Build.replayed p r d s.resolver.wildcardMarker).Ready p :=
    hp.ready hb (by rw [hbr, hsep, hseparator]) hne (by rw [hbr, hbase]; exact hs.basePackage)
      (by rw [hbw]; exact hs.wildcardMarker)
  have hends := Build.collect_faults hp.textual hp.accepted hready
  have hmade : made s p =
      ((collect p).outcome (Build.start r d s.resolver.wildcardMarker)).1 := by
    simp only [made, hstart, bind, Except.bind]
  rcases ho : (collect p).outcome (Build.start r d s.resolver.wildcardMarker) with ⟨e | i, t⟩ <;>
    rw [ho] at hmade
  · obtain ⟨c, hc, hfault⟩ := hends.of_outcome_error ho
    exact .inr ⟨e, hmade, c, ((hmem c).mp hc).1, ((hmem c).mp hc).2, hfault⟩
  · obtain ⟨hall, hshows⟩ := hends.of_outcome_ok (congrArg (·.1) ho)
    refine .inl ⟨i, hmade, hp.legible_of_shows hshows ?_, fun c hc hen => hall c ((hmem c).mpr
      ⟨hc, hen⟩)⟩
    refine hp.encodable_completed hb (fun c hc => ?_) ?_ ?_
    · rw [hbd] at hc
      exact ((hmem c).mp hc).1
    · rw [hbr, hbase]
      exact he.basePackage
    · rw [hbr, hsep]
      exact he.packageSeparator

/-- A process that was read from a clean tree, and may have been built since. -/
inductive Documented : ProcessDefinition → Prop
  | parsed {source : String} {data : Value} {p : ProcessDefinition} (hdata : data.isClean = true)
      (hp : Descriptor.parse source data = .ok p) : Documented p
  | built {s : Settings} {p : ProcessDefinition} {r : Registry} (hp : Documented p) :
      Documented ((build s).after { process := p, registry := r }).process

/-- A registry that only builds of such processes have filled, each under sound settings whose base
package and separator can be encoded. -/
inductive Filled : Registry → Prop
  | empty : Filled {}
  | built {s : Settings} {p : ProcessDefinition} {r : Registry} (hs : s.Sound) (he : s.Encodable)
      (hp : Documented p) (hr : Filled r) :
      Filled ((build s).after { process := p, registry := r }).registry

/-- A build leaves a described process. -/
lemma described_after (hp : p.Described) :
    ((build s).after { process := p, registry := r }).process.Described := by
  have hsettles := settles s { process := p, registry := r }
  rw [build_after]
  generalize settle s { process := p, registry := r } = x at hsettles
  cases hsettles with
  | unmade _ => exact hp
  | unbagged _ _ => exact hp
  | refused _ hbag _ => exact hp.carries (bagged_carries hbag)
  | filed _ hbag _ => exact hp.carries (bagged_carries hbag)

lemma Documented.described (h : Documented p) : p.Described := by
  induction h with
  | parsed hdata hp => exact Descriptor.described_of_parse hdata hp
  | built _ ih => exact described_after ih

/-- A build of a described process leaves indexes whose names can be encoded. -/
lemma legible_after (hs : s.Sound) (he : s.Encodable) (hp : p.Described)
    (hr : ∀ e ∈ r.entries, e.2.Legible) :
    ∀ e ∈ ((build s).after { process := p, registry := r }).registry.entries, e.2.Legible := by
  have hsettles := settles s { process := p, registry := r }
  rw [build_after]
  generalize settle s { process := p, registry := r } = x at hsettles
  cases hsettles with
  | unmade _ => exact hr
  | unbagged _ _ => exact hr
  | refused _ _ _ => exact hr
  | @filed i process registry changed hmade _ hpublish =>
      obtain ⟨j, hj, hlegible, -⟩ | ⟨e, hfail, -⟩ := made_cases hs he hp
      · cases hmade.symm.trans hj
        cases Registry.publish_filed hpublish with
        | kept _ _ => exact hr
        | entered _ hentered =>
            exact fun e hmem => (hentered.forall_mem (P := fun _ => True) trivial hlegible
              (fun e he => ⟨trivial, hr e he⟩) e hmem).2
      · cases hmade.symm.trans hfail

lemma Filled.legible (h : Filled r) : ∀ e ∈ r.entries, e.2.Legible := by
  induction h with
  | empty => exact List.forall_mem_nil _
  | built hs he hp _ ih => exact legible_after hs he hp.described ih

/-- An index whose names can be encoded is built over others. -/
lemma build_ok (hp : p.Described) (hr : ∀ e ∈ r.entries, e.2.Legible) (hmade : made s p = .ok i)
    (hi : i.Legible) : ((build s).outcome { process := p, registry := r }).1 = .ok i := by
  rw [build_answer hp.id.isText, verdict_answer_iff, bagged_ok_iff, Registry.filedOver_ok_iff]
  refine ⟨hmade, fun _ => hp.isMapping, fun old hold => ⟨?_, hi.fingerprinted⟩⟩
  obtain ⟨e, he, rfl⟩ := Option.map_eq_some_iff.mp hold
  exact (hr e (List.mem_of_find?_eq_some he)).fingerprinted

/-- **What a descriptor describes can be built.** Under sound settings whose base package and
separator can be encoded, a build of a process that was read from a clean tree, over a registry that
such builds have filled, fails exactly if the bag holds anything but null or names under a key of an
enabled dialect, and with nothing but the refusal of a metadata key. -/
theorem documented_build_fails_iff (hs : s.Sound) (he : s.Encodable) (hp : Documented p)
    (hr : Filled r) :
    (∀ e t, (build s).outcome { process := p, registry := r } = (.error e, t) →
      ∃ key expected met, e = .metadata key expected met) ∧
    ((∃ e t, (build s).outcome { process := p, registry := r } = (.error e, t)) ↔
      ∃ c ∈ builtinDialects, .text c.name ∈ s.dialects.enabled ∧ ∃ k ∈ c.keys, ∃ v,
        p.metadata.get? (.text k) = .ok v ∧ v ≠ .null ∧ ¬v.IsNames) := by
  have hdescribed := hp.described
  have hunread := fun c => @Contributor.contribute_error_iff p.metadata c hdescribed.isMapping
  obtain ⟨i, hmade, hlegible, hall⟩ | ⟨e, hmade, c, hc, henabled, hfault⟩ :=
    made_cases hs he hdescribed
  · have hok := build_ok hdescribed hr.legible hmade hlegible
    refine ⟨fun e t h => ?_, ⟨fun ⟨e, t, h⟩ => ?_, fun ⟨c, hc, henabled, hbad⟩ => ?_⟩⟩
    · rw [h] at hok
      cases hok
    · rw [h] at hok
      cases hok
    · obtain ⟨e, hfault⟩ := (hunread c).mpr hbad
      obtain ⟨pair, hpair⟩ := hall c hc henabled
      cases hfault.symm.trans hpair
  · have hfail : (build s).outcome { process := p, registry := r } =
        (.error e, { process := p, registry := r }) := by
      rw [build_outcome]
      simp only [settle, hmade]
    refine ⟨fun e' t h => ?_, iff_of_true ⟨e, _, hfail⟩
      ⟨c, hc, henabled, (hunread c).mp ⟨e, hfault⟩⟩⟩
    cases hfail.symm.trans h
    obtain ⟨k, -, expected, met, rfl⟩ :=
      Contributor.refusesKey_contribute hdescribed.isMapping hfault
    exact ⟨k, expected, met, rfl⟩

/-- A descriptor with a metadata bag. -/
def bagDocument (bag : Value) : Value := .dict [(.text "id", .text "P"), (.text "metadata", bag)]

/-- What it describes, if the bag holds no lists. -/
def bagProcess (bag : Value) : ProcessDefinition := { id := .text "P", metadata := bag }

/-- A bag that holds a number where a dialect expects names. -/
def numberBag : Value := .dict [(.text "MVELDialectReferencedTypes", .int 1)]

lemma sound_default : ({} : Settings).Sound where
  basePackage := rfl
  builtinTypes := by decide
  packageSeparator := rfl
  wildcardMarker := rfl
  enabled := by decide
  symbols := rfl
  format := rfl
  level := rfl
  valid := by cbv

lemma documented_bagProcess : Documented (bagProcess (.dict [])) ∧
    Documented (bagProcess numberBag) := by
  have hempty : Descriptor.parse "p.yaml" (bagDocument (.dict [])) =
      .ok (bagProcess (.dict [])) := by cbv
  have hnumber : Descriptor.parse "p.yaml" (bagDocument numberBag) =
      .ok (bagProcess numberBag) := by cbv
  exact ⟨.parsed (by cbv) hempty, .parsed (by cbv) hnumber⟩

/-- A process with an empty bag is built again and again; one with a number in its bag is not. -/
theorem documented_build_fails_iff_number : ({} : Settings).Sound ∧ ({} : Settings).Encodable ∧
    Documented (bagProcess (.dict [])) ∧ Documented (bagProcess numberBag) ∧
    ∃ r, Filled r ∧
      (¬∃ e t, (build {}).outcome { process := bagProcess (.dict []), registry := r } =
        (.error e, t)) ∧
      ∃ key expected met t, (build {}).outcome { process := bagProcess numberBag, registry := r } =
        (.error (.metadata key expected met), t) := by
  have he : ({} : Settings).Encodable :=
    ⟨Value.legible_text.mpr (by decide +kernel), Value.legible_text.mpr (by decide +kernel)⟩
  obtain ⟨hempty, hnumber⟩ := documented_bagProcess
  have hr := Filled.built sound_default he hempty .empty
  refine ⟨sound_default, he, hempty, hnumber, _, hr, ?_, ?_⟩
  · rw [(documented_build_fails_iff sound_default he hempty hr).2]
    rintro ⟨c, -, -, k, -, v, hv, hnull, -⟩
    exact hnull (Except.ok.inj hv).symm
  · obtain ⟨hkind, hiff⟩ := documented_build_fails_iff sound_default he hnumber hr
    have hmvel : "mvel" ∈ builtinDialectNames := by decide
    have hbad : ∃ v, numberBag.get? (.text "MVELDialectReferencedTypes") = .ok v ∧ v ≠ .null ∧
        ¬v.IsNames := by
      refine ⟨.int 1, by cbv, nofun, fun hnames => ?_⟩
      obtain ⟨xs, hxs, -⟩ := hnames.members
      cases hxs
    obtain ⟨e, t, hfail⟩ := hiff.mpr
      ⟨{ name := "mvel", referencedKey := some "MVELDialectReferencedTypes" }, by decide,
        List.mem_map_of_mem hmvel, "MVELDialectReferencedTypes", by decide, hbad⟩
    obtain ⟨key, expected, met, rfl⟩ := hkind e t hfail
    exact ⟨key, expected, met, t, hfail⟩

/-- Settings whose base package is half of a surrogate pair. -/
def halfPackage : Settings where
  resolver := { basePackage := .text (.singleton (Text.ofHalf 0xd800))
                builtinTypes := [.text "Object"] }
  dialects := { enabled := [] }
  pipeline := { publishToMetadata := false }

/-- A descriptor with a variable. -/
def variableDocument : Value := .dict [(.text "id", .text "P"),
  (.text "variables", .list [.dict [(.text "name", .text "v")]])]

/-- What it describes. -/
def variableProcess : ProcessDefinition where
  id := .text "P"
  vars := .list [.var (.text "v") (.text "Object") (.dict [])]

/-- The index of this process, in which the type of the variable is in the base package. -/
def halfClassIndex : Index where
  processId := .text "P"
  processName := .text ""
  resources := variableProcess.resources [.ofName "v"] true
  shared := []
  resourceRefs := [.ofPair (.singleton (Text.ofHalf 0xd800) ++ ".Object", .className)]
  classes := [.text (.singleton (Text.ofHalf 0xd800) ++ ".Object")]

lemma sound_halfPackage : halfPackage.Sound where
  basePackage := rfl
  builtinTypes := by decide
  packageSeparator := rfl
  wildcardMarker := rfl
  enabled := by decide
  symbols := rfl
  format := rfl
  level := rfl
  valid := by cbv

lemma made_variableProcess : made halfPackage variableProcess = .ok halfClassIndex := by cbv

lemma fingerprint?_halfClassIndex : halfClassIndex.fingerprint? = .error .unencodable := by
  decide +kernel

/-- **A base package that cannot be encoded** is put into the names of an index, which is stored but
has no fingerprint: the process of a clean descriptor is built once and not again. -/
theorem documented_build_fails_half : halfPackage.Sound ∧ variableDocument.isClean = true ∧
    Descriptor.parse "p.yaml" variableDocument = .ok variableProcess ∧
    ∃ r, (build halfPackage).outcome { process := variableProcess, registry := {} } =
        (.ok halfClassIndex, { process := variableProcess, registry := r }) ∧
      (build halfPackage).outcome { process := variableProcess, registry := r } =
        (.error .unencodable, { process := variableProcess, registry := r }) := by
  have hbag : bagged halfPackage halfClassIndex variableProcess = .ok variableProcess := rfl
  have hpublish : Registry.publish {} halfClassIndex =
    .ok ({ entries := [(.text "P", halfClassIndex)] }, true) := by cbv
  have hagain : Registry.publish { entries := [(.text "P", halfClassIndex)] } halfClassIndex =
      .error .unencodable := by
    have hold : Registry.get? { entries := [(.text "P", halfClassIndex)] }
        halfClassIndex.processId = some halfClassIndex := by cbv
    have hhash : halfClassIndex.processId.hashable = true := rfl
    simp only [Registry.publish, hhash, hold, fingerprint?_halfClassIndex, bind, Except.bind]
    rfl
  refine ⟨sound_halfPackage, by cbv, by cbv, { entries := [(.text "P", halfClassIndex)] }, ?_, ?_⟩
  · rw [build_outcome]
    simp only [settle, made_variableProcess, conclude, hbag, hpublish]
  · rw [build_outcome]
    simp only [settle, made_variableProcess, conclude, hbag, hagain]

end Pipeline

end Concordance
