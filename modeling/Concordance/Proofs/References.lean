import Concordance.Proofs.Agreement
import Concordance.Proofs.Classes

/-!
The references of an index: exactly what its process declares, nothing lost and nothing invented.

* `Value.EndsIn` : a text ends in a marker, or in one of several. `Build.isWildcard_iff` : a build
  that can tell whether a text ends in its marker tells right.
* `ProcessDefinition.sharedPairs`, `ProcessDefinition.resourcePairs` : the shared references and the
  references to resources that a process declares, by name and kind.
* `Index.Exact` : an index with these references, a part for each variable, and the resources of the
  process closed to changes. `ProcessDefinition.withoutPlain` : plain nodes make no difference to
  it.
* `Pipeline.build_exact` : where a build succeeds, the index is exact.
-/

namespace Concordance

/-! ### The wildcard marker -/

/-- A text ends in a marker, or in one of several. -/
def Value.EndsIn (marker : Value) (s : String) : Prop :=
  ∃ m front : String, s = front ++ m ∧
    (marker = .text m ∨ ∃ ms mark, marker = .tuple ms mark ∧ .text m ∈ ms)

namespace Build

/-- One of several markers ends a text, if the answer is given. -/
lemma endsWithAny_iff {s : String} : ∀ {ms : List Value} {ends : Bool},
    endsWithAny s ms = .ok ends → (ends = true ↔ ∃ m, .text m ∈ ms ∧ m.toList <:+ s.toList)
  | [], ends, h => by
      cases h
      simp
  | m :: ms, ends, h => by
      cases m with
      | text m =>
          rw [endsWithAny] at h
          split at h
          · cases h
            rename_i hm
            exact ⟨fun _ => ⟨m, by simp, List.isSuffixOf_iff_suffix.mp hm⟩, fun _ => rfl⟩
          · rename_i hm
            have hno : ¬m.toList <:+ s.toList := fun hsuffix =>
              hm (List.isSuffixOf_iff_suffix.mpr hsuffix)
            rw [endsWithAny_iff h]
            constructor
            · rintro ⟨m', hm', hsuffix⟩
              exact ⟨m', by simp [hm'], hsuffix⟩
            · rintro ⟨m', hm', hsuffix⟩
              rcases List.mem_cons.mp hm' with hmm | hm'
              · cases hmm
                exact absurd hsuffix hno
              · exact ⟨m', hm', hsuffix⟩
      | _ => cases h

lemma suffix_iff {m s : String} : m.toList <:+ s.toList ↔ ∃ front, s = front ++ m := by
  constructor
  · rintro ⟨front, h⟩
    exact ⟨.ofList front, by rw [← String.toList_inj]; simpa using h.symm⟩
  · rintro ⟨front, rfl⟩
    exact ⟨front.toList, by simp⟩

/-- Whether a text ends in the marker, if the answer is given. -/
lemma isWildcard_iff {marker : Value} {s : String} {wild : Bool}
    (h : isWildcard marker (.text s) = .ok wild) : wild = true ↔ marker.EndsIn s := by
  have hone : ∀ m, endsWithAny s [m] = .ok wild → (∀ ms mark, m ≠ .tuple ms mark) →
      (wild = true ↔ m.EndsIn s) := fun m hm htuple => by
    rw [endsWithAny_iff hm]
    simp only [Value.EndsIn, suffix_iff, List.mem_singleton]
    constructor
    · rintro ⟨m', rfl, front, hs⟩
      exact ⟨m', front, hs, .inl rfl⟩
    · rintro ⟨m', front, hs, rfl | ⟨ms, mark, rfl, -⟩⟩
      · exact ⟨m', rfl, front, hs⟩
      · exact absurd rfl (htuple ms mark)
  cases marker with
  | tuple ms mark =>
      rw [endsWithAny_iff h]
      simp only [Value.EndsIn, suffix_iff]
      constructor
      · rintro ⟨m, hm, front, hs⟩
        exact ⟨m, front, hs, .inr ⟨ms, mark, rfl, hm⟩⟩
      · rintro ⟨m, front, hs, hm | ⟨ms', mark', hms, hm⟩⟩
        · cases hm
        · cases hms
          exact ⟨m, hm, front, hs⟩
  | _ => exact hone _ h fun _ _ => nofun

end Build

/-! ### What a process declares -/

namespace ProcessDefinition

variable (p : ProcessDefinition)

/-- The names of the variables of a process. -/
def partNames : Set String := {n | ∃ t m, .var (.text n) t m ∈ p.vars.elements}

/-- The shared references of a process: every rule-flow group of a rule set, every name of a task
that is not empty, every global, every signal and every key of a message. -/
def sharedPairs : Set (String × PartType) :=
  {x | (x.2 = .ruleflowGroup ∧ ∃ k l, .ruleSet k l (.text x.1) ∈ p.nodes.elements) ∨
    (x.2 = .taskName ∧ x.1 ≠ "" ∧ ∃ k l, .workItem k l (.text x.1) ∈ p.nodes.elements) ∨
    (x.2 = .global ∧ ∃ v, (.text x.1, v) ∈ p.globals.fields) ∨
    (x.2 = .signal ∧ (.text x.1 ∈ p.signals.distinct ∨ ∃ v, (.text x.1, v) ∈ p.messages.pairs))}

/-- The resources that a process refers to: every name and every id of a sub-process that is not
empty, every function import that does not end in a marker, and every class. -/
def resourcePairs (marker : Value) (classes : List Value) : Set (String × ResourceType) :=
  {x | (x.2 = .processName ∧ x.1 ≠ "" ∧ ∃ k l i, .subProcess k l i (.text x.1) ∈ p.nodes.elements) ∨
    (x.2 = .processId ∧ x.1 ≠ "" ∧ ∃ k l n, .subProcess k l (.text x.1) n ∈ p.nodes.elements) ∨
    (x.2 = .function ∧ .text x.1 ∈ p.functionImports.elements ∧ ¬marker.EndsIn x.1) ∨
    (x.2 = .className ∧ .text x.1 ∈ classes)}

/-- The process without its plain nodes, which have an id and a name only. -/
def withoutPlain : ProcessDefinition :=
  { p with nodes := .list (p.nodes.elements.filter fun v => match v with
      | .node .. => false
      | _ => true) }

variable {p} in
lemma mem_withoutPlain {v : Value} (h : ∀ k l, v ≠ .node k l) :
    v ∈ p.withoutPlain.nodes.elements ↔ v ∈ p.nodes.elements := by
  have hmem : v ∈ p.withoutPlain.nodes.elements ↔ v ∈ p.nodes.elements ∧ _ := List.mem_filter
  rw [hmem, and_iff_left_iff_imp]
  intro _
  cases v with
  | node k l => exact absurd rfl (h k l)
  | _ => rfl

/-- A plain node is no shared reference. -/
lemma sharedPairs_withoutPlain : p.withoutPlain.sharedPairs = p.sharedPairs := by
  have hrules : ∀ k l g, .ruleSet k l g ∈ p.withoutPlain.nodes.elements ↔
      .ruleSet k l g ∈ p.nodes.elements := fun _ _ _ => mem_withoutPlain nofun
  have htasks : ∀ k l w, .workItem k l w ∈ p.withoutPlain.nodes.elements ↔
      .workItem k l w ∈ p.nodes.elements := fun _ _ _ => mem_withoutPlain nofun
  ext x
  simp only [sharedPairs, Set.mem_ofPred_eq, hrules, htasks]
  rfl

/-- A plain node refers to no resource. -/
lemma resourcePairs_withoutPlain (marker : Value) (classes : List Value) :
    p.withoutPlain.resourcePairs marker classes = p.resourcePairs marker classes := by
  have hcalls : ∀ k l i n, .subProcess k l i n ∈ p.withoutPlain.nodes.elements ↔
      .subProcess k l i n ∈ p.nodes.elements := fun _ _ _ _ => mem_withoutPlain nofun
  ext x
  simp only [resourcePairs, Set.mem_ofPred_eq, hcalls]
  rfl

end ProcessDefinition

/-- The index of a process holds its parts and references, each once, and nothing else; its
resources, the first with the parts and one for the name if there is one, are closed to changes. -/
structure Index.Exact (marker : Value) (p : ProcessDefinition) (i : Index) : Prop where
  resources : i.resources = p.resources i.parts true
  parts : Enumerates Part.ofName i.parts p.partNames
  shared : Enumerates SharedReference.ofPair i.shared p.sharedPairs
  references : Enumerates ResourceReference.ofPair i.resourceRefs (p.resourcePairs marker i.classes)

/-! ### What a node carries -/

namespace Build

variable {v : Value} {n : String}

lemma part_nodeFindings : .part n ∉ nodeFindings v := by
  cases v <;> simp [nodeFindings]

lemma shared_nodeFindings {t : PartType} : .shared n t ∈ nodeFindings v ↔
    (t = .ruleflowGroup ∧ ∃ k l, v = .ruleSet k l (.text n)) ∨
      (t = .taskName ∧ n ≠ "" ∧ ∃ k l, v = .workItem k l (.text n)) := by
  cases v <;> simp [nodeFindings, Value.name?_eq_some, and_comm, and_left_comm, and_assoc]

lemma reference_nodeFindings {t : ResourceType} : .reference n t ∈ nodeFindings v ↔
    (t = .processName ∧ n ≠ "" ∧ ∃ k l i, v = .subProcess k l i (.text n)) ∨
      (t = .processId ∧ n ≠ "" ∧ ∃ k l m, v = .subProcess k l (.text n) m) := by
  cases v <;> simp [nodeFindings, Value.name?_eq_some, and_comm, and_left_comm, and_assoc]

/-- What was heard of a process is what its nodes carry. -/
lemma mem_heardFindings {p : ProcessDefinition} {f : Finding} :
    f ∈ heardFindings p.observations ↔ ∃ v ∈ p.nodes.elements, f ∈ nodeFindings v := by
  rw [← ProcessDefinition.nodes_eq]
  rfl

end Build

/-! ### Exactness -/

namespace Build

variable {p : ProcessDefinition} {b : Build} {n : String}

lemma mem_partNames (h : b.Holds p) :
    .part n ∈ b.completed p (heardFindings p.observations) ↔ n ∈ p.partNames := by
  have hheard : .part n ∉ heardFindings p.observations := fun hn =>
    let ⟨_, _, hv⟩ := mem_heardFindings.mp hn
    part_nodeFindings hv
  rw [part_completed, or_iff_right hheard, h.vars]
  constructor
  · rintro ⟨v, hv, hn⟩
    obtain ⟨x, hx, hxv⟩ := List.mem_filterMap.mp hv
    cases x <;> cases hxv
    cases hn
    exact ⟨_, _, hx⟩
  · rintro ⟨t, m, hx⟩
    exact ⟨_, List.mem_filterMap.mpr ⟨_, hx, rfl⟩, rfl⟩

lemma mem_sharedPairs (h : b.Holds p) {t : PartType} :
    .shared n t ∈ b.completed p (heardFindings p.observations) ↔ (n, t) ∈ p.sharedPairs := by
  have hnodes : .shared n t ∈ heardFindings p.observations ↔
      (t = .ruleflowGroup ∧ ∃ k l, .ruleSet k l (.text n) ∈ p.nodes.elements) ∨
        (t = .taskName ∧ n ≠ "" ∧ ∃ k l, .workItem k l (.text n) ∈ p.nodes.elements) := by
    simp only [mem_heardFindings, shared_nodeFindings]
    constructor
    · rintro ⟨v, hv, ⟨ht, k, l, rfl⟩ | ⟨ht, hne, k, l, rfl⟩⟩
      · exact .inl ⟨ht, k, l, hv⟩
      · exact .inr ⟨ht, hne, k, l, hv⟩
    · rintro (⟨ht, k, l, hv⟩ | ⟨ht, hne, k, l, hv⟩)
      · exact ⟨_, hv, .inl ⟨ht, k, l, rfl⟩⟩
      · exact ⟨_, hv, .inr ⟨ht, hne, k, l, rfl⟩⟩
  have hmessages : n ∈ b.messages ↔ ∃ v, (.text n, v) ∈ p.messages.pairs := by
    rw [h.messages, ProcessDefinition.mem_keyTexts]
    simp
  have hglobals : (∃ e ∈ p.globals.fields, e.1 = .text n) ↔
      ∃ v, (.text n, v) ∈ p.globals.fields := by
    simp
  rw [shared_completed, hnodes, h.signals, hmessages, hglobals, or_assoc]
  rfl

lemma mem_resourcePairs {i : Index} (hok : b.Closable p)
    (hshows : i.Shows p (b.completed p (heardFindings p.observations))) {t : ResourceType} :
    .reference n t ∈ b.completed p (heardFindings p.observations) ↔
      (n, t) ∈ p.resourcePairs b.wildcard i.classes := by
  have hnodes : .reference n t ∈ heardFindings p.observations ↔
      (t = .processName ∧ n ≠ "" ∧ ∃ k l i, .subProcess k l i (.text n) ∈ p.nodes.elements) ∨
        (t = .processId ∧ n ≠ "" ∧ ∃ k l m, .subProcess k l (.text n) m ∈ p.nodes.elements) := by
    simp only [mem_heardFindings, reference_nodeFindings]
    constructor
    · rintro ⟨v, hv, ⟨ht, hne, k, l, i, rfl⟩ | ⟨ht, hne, k, l, m, rfl⟩⟩
      · exact .inl ⟨ht, hne, k, l, i, hv⟩
      · exact .inr ⟨ht, hne, k, l, m, hv⟩
    · rintro (⟨ht, hne, k, l, i, hv⟩ | ⟨ht, hne, k, l, m, hv⟩)
      · exact ⟨_, hv, .inl ⟨ht, hne, k, l, i, rfl⟩⟩
      · exact ⟨_, hv, .inr ⟨ht, hne, k, l, m, rfl⟩⟩
  have hfunction : .text n ∈ p.functionImports.elements →
      (isWildcard b.wildcard (.text n) = .ok false ↔ ¬b.wildcard.EndsIn n) := fun hn => by
    obtain ⟨wild, hwild⟩ := hok.2 _ hn
    rw [← isWildcard_iff hwild, hwild]
    cases wild <;> simp
  have hclasses : .qualified n ∈ b.completed p (heardFindings p.observations) ↔
      .text n ∈ i.classes := (hshows.classes.mem_iff Value.text_injective).symm
  rw [reference_completed, hnodes, and_congr_right_iff.mpr hfunction, hclasses, or_assoc,
    or_comm (b := t = .function ∧ _)]
  rfl

end Build

namespace Pipeline

/-- **Nothing lost, nothing invented**: where a build succeeds, the index holds exactly what its
process declares, and the same without the plain nodes. -/
theorem build_exact {s : Settings} {site site' : Site} {i : Index} {lines : List LogLine}
    (hp : site.process.Textual) (h : (build s).run site = (.ok i, site', lines)) :
    i.Exact s.resolver.wildcardMarker site.process ∧
      i.Exact s.resolver.wildcardMarker site.process.withoutPlain := by
  obtain ⟨b, ⟨hholds, -, -, hw⟩, hok, hshows⟩ := (build_ends hp).of_run_ok h
  obtain ⟨parts, hres, hparts⟩ := hshows.resources
  obtain rfl := Index.parts_eq hres
  have hexact : i.Exact s.resolver.wildcardMarker site.process :=
    ⟨hres, hparts.congr (Set.ext fun n => Build.mem_partNames hholds),
      hshows.shared.congr (Set.ext fun x => Build.mem_sharedPairs hholds),
      hshows.references.congr (Set.ext fun x => hw ▸ Build.mem_resourcePairs hok.2.2.2 hshows)⟩
  refine ⟨hexact, hres, hexact.parts, ?_, ?_⟩
  · rw [ProcessDefinition.sharedPairs_withoutPlain]
    exact hexact.shared
  · rw [ProcessDefinition.resourcePairs_withoutPlain]
    exact hexact.references

/-- The small build is exact. -/
theorem build_exact_sample : ∃ i site lines,
    (build .sample).run { process := .sample, registry := {} } = (.ok i, site, lines) ∧
      i.Exact (.text "*") .sample ∧ i.Exact (.text "*") ProcessDefinition.sample.withoutPlain := by
  obtain ⟨i, site, lines, h⟩ := sample_ok
  have hp : Site.process { process := .sample, registry := {} } |>.Textual :=
    ProcessDefinition.textual_sample
  have hexact := build_exact hp h
  exact ⟨i, site, lines, h, hexact⟩

end Pipeline

end Concordance
