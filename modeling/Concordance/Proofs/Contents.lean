import Mathlib
import Concordance.Proofs.Replay

/-!
What replaying a process leaves in a build, read off the fields of the process.

* `Value.pairs`, `Value.distinct` : the mapping, and the set, that a value can be turned into.
* `ProcessDefinition.Textual` : names and type names of a process are texts, where they may be
  absent also null; nothing is asked of the collections they stand in.
* `ProcessDefinition.nodes_eq`, `vars_eq`, `items_eq`, `mem_signals_iff`, `messages_eq` : what
  the observations of a process deliver, if all of them decode.
* `Build.collect_exact` : a whole build succeeds exactly if the process can be read and completed,
  and shows what its process declares, after resolution. `Build.collect_faults` : one that only the
  dialects can fail, fails with what a dialect fails with.
-/

namespace Concordance

namespace Value

/-- The mapping that a value can be turned into, empty if there is none. -/
def pairs (v : Value) : List (Value × Value) := v.entriesOf?.toOption.getD []

/-- The set that a value can be turned into, empty if there is none. -/
def distinct (v : Value) : List Value := v.toSet?.toOption.getD []

/-! ### Absent collections -/

/-- A value that does not count as present has no elements. -/
lemma elements_eq_nil {v : Value} (h : v.truthy = false) : v.elements = [] := by
  unfold elements
  rcases hm : v.members? with _ | xs
  · rfl
  · by_contra hxs
    exact absurd ((truthy_iff_of_members? hm).mpr hxs) (by simp [h])

/-- A value that does not count as present has no entries. -/
lemma pairs_eq_nil {v : Value} (h : v.truthy = false) : v.pairs = [] := by
  have hmade : (do
      let xs ← v.items?
      let ps ← xs.mapM pair?
      pure (dictOf ps) : Answer _).toOption.getD [] = [] := by
    have helements := elements_eq_nil h
    unfold elements at helements
    rcases hm : v.members? with _ | xs
    · simp [items?, hm, bind, Except.bind, Except.toOption]
    · obtain rfl : xs = [] := by simpa [hm] using helements
      simp [items?, hm, bind, Except.bind, pure, Except.pure, Except.toOption, dictOf]
  cases v with
  | dict es => simpa [pairs, entriesOf?, truthy, Except.toOption] using h
  | _ => exact hmade

/-- A value that does not count as present has no members. -/
lemma distinct_eq_nil {v : Value} (h : v.truthy = false) : v.distinct = [] := by
  have hmade : (do setOf? (← v.items?) : Answer _).toOption.getD [] = [] := by
    have helements := elements_eq_nil h
    unfold elements at helements
    rcases hm : v.members? with _ | xs
    · simp [items?, hm, bind, Except.bind, Except.toOption]
    · obtain rfl : xs = [] := by simpa [hm] using helements
      simp [items?, hm, bind, Except.bind, pure, Except.pure, Except.toOption, setOf?]
  cases v with
  | set frozen xs mark =>
      simpa [distinct, toSet?, truthy, Except.toOption, pure, Except.pure] using h
  | _ => exact hmade

end Value

/-! ### What the observations of a process deliver -/

/-- Names and type names of a process are texts; a type, a name that a node carries and the class
of an item may be null. -/
structure ProcessDefinition.Textual (p : ProcessDefinition) : Prop extends p.Named where
  nodes : ∀ v ∈ p.nodes.elements, Build.NodeNameable v
  vars : ∀ n t m, .var n t m ∈ p.vars.elements → n.isText ∧ t.Nameable
  items : ∀ k i s, (k, .item i s) ∈ p.itemDefinitions.pairs → s.Nameable

namespace ProcessDefinition

variable {p : ProcessDefinition}

/-- The variables of a process. -/
def declared (p : ProcessDefinition) : List Variable := p.vars.elements.filterMap Variable.ofValue?

/-- What a collection that may be absent is turned into, if it is present. -/
def given {α : Type} (v : Value) (a : Answer α) : Option α := if v.truthy then a.toOption else none

lemma filterMap_offered {α β : Type} {v : Value} {a : Answer α} {o : α → Observation}
    {read : Observation → Option β} : (Observation.offered v a o).filterMap read =
      ((given v a).bind fun x => read (o x)).toList := by
  unfold Observation.offered given
  rcases hv : v.truthy with _ | _
  · rfl
  · rcases a with e | x
    · rfl
    · rcases hr : read (o x) <;> simp [Except.toOption, hr]

lemma mem_offered_of_given {α : Type} {v : Value} {a : Answer α} {o : α → Observation} {x : α}
    (h : given v a = some x) : o x ∈ Observation.offered v a o := by
  unfold given at h
  unfold Observation.offered
  split at h
  · simp [*]
  · cases h

lemma nodes_eq : p.observations.filterMap Observation.node? = p.nodes.elements := by
  simp [observations, filterMap_offered, Function.comp_def]

lemma vars_eq : p.observations.filterMap Observation.var? = p.declared := by
  simp [observations, filterMap_offered, Function.comp_def, Observation.var?, declared]

/-- A mapping that can be decoded is decoded as it is. -/
lemma decodeMapping_eq {key : String} {es : List (Value × Value)} {mark : Option Mark}
    {shape : Option Shape} {m : Option (List (Value × Value))}
    (h : decodeMapping key (.dict es mark) shape = .ok m) : m = some es := by
  simp only [decodeMapping] at h
  rcases hes : es.forM (checkEntry key shape) with e | _ <;> rw [hes] at h <;> cases h
  rfl

lemma getD_given_pairs (v : Value) : (given v v.entriesOf?).getD [] = v.pairs := by
  unfold given
  rcases hv : v.truthy with _ | _
  · exact (Value.pairs_eq_nil hv).symm
  · rfl

/-- What is delivered last, of a collection that may be absent, if it can be decoded. -/
lemma last_given {α β : Type} {v : Value} {a : Answer α} {o : α → Observation}
    {read : Observation → Option β} {before after : β}
    (hread : p.observations.filterMap read = ((given v a).bind fun x => read (o x)).toList)
    (hnone : given v a = none → before = after)
    (hsome : ∀ x, given v a = some x → read (o x) = some after) :
    Observation.lastOf read p.observations before = after := by
  unfold Observation.lastOf
  rw [hread]
  rcases hg : given v a with _ | x
  · simpa using hnone hg
  · simp [hsome x hg]

lemma items_eq (h : ∀ o ∈ p.observations, o.Decodes) :
    Observation.lastOf Observation.items? p.observations [] = p.itemDefinitions.pairs := by
  have hgiven := getD_given_pairs p.itemDefinitions
  refine last_given (v := p.itemDefinitions) (a := p.itemDefinitions.entriesOf?)
    (o := fun es => .metadata Build.itemsKey (.dict es)) ?_ (fun hg => ?_) fun es hg => ?_
  · simp [observations, filterMap_offered, Function.comp_def, Observation.items?]
  · simpa [hg] using hgiven
  · obtain rfl : es = p.itemDefinitions.pairs := by simpa [hg] using hgiven
    have hmem : .metadata Build.itemsKey (.dict p.itemDefinitions.pairs) ∈ p.observations := by
      simp [observations, mem_offered_of_given (o := fun es =>
        Observation.metadata Build.itemsKey (.dict es)) hg]
    have hdec := (h _ hmem).2.1 rfl
    simp only [Observation.items?, if_true] at hdec ⊢
    rcases hm : decodeMapping Build.itemsKey (.dict p.itemDefinitions.pairs) (some .item) with e | m
    · simp [hm, Except.toOption] at hdec
    · simp [decodeMapping_eq hm, Except.toOption]

lemma messages_eq (h : ∀ o ∈ p.observations, o.Decodes) :
    Observation.lastOf Observation.messages? p.observations [] =
      Build.keyTexts p.messages.pairs := by
  have hgiven := getD_given_pairs p.messages
  refine last_given (v := p.messages) (a := p.messages.entriesOf?)
    (o := fun es => .metadata Build.messagesKey (.dict es)) ?_ (fun hg => ?_) fun es hg => ?_
  · simp [observations, filterMap_offered, Function.comp_def, Observation.messages?]
  · rw [← hgiven, hg]
    rfl
  · obtain rfl : es = p.messages.pairs := by simpa [hg] using hgiven
    have hmem : .metadata Build.messagesKey (.dict p.messages.pairs) ∈ p.observations := by
      simp [observations, mem_offered_of_given (o := fun es =>
        Observation.metadata Build.messagesKey (.dict es)) hg]
    have hdec := (h _ hmem).2.2.2 rfl
    simp only [Observation.messages?, if_true] at hdec ⊢
    rcases hm : decodeMapping Build.messagesKey (.dict p.messages.pairs) none with e | m
    · simp [hm, Except.toOption] at hdec
    · simp [decodeMapping_eq hm, Except.toOption]

lemma mem_keyTexts {es : List (Value × Value)} {n : String} :
    n ∈ Build.keyTexts es ↔ ∃ e ∈ es, e.1 = .text n := by
  simp only [Build.keyTexts, List.mem_filterMap]
  refine exists_congr fun e => and_congr_right fun _ => ?_
  cases e.1 <;> simp [Value.text?]

lemma mem_signals_iff (h : ∀ o ∈ p.observations, o.Decodes) (n : String) :
    n ∈ Observation.lastOf Observation.signals? p.observations [] ↔
      .text n ∈ p.signals.distinct := by
  have hgiven : (given p.signals p.signals.toSet?).getD [] = p.signals.distinct := by
    unfold given
    rcases hv : p.signals.truthy with _ | _
    · exact (Value.distinct_eq_nil hv).symm
    · rfl
  obtain ⟨names, hnames, hdistinct⟩ : ∃ names : List String, p.signals.distinct = names.map .text ∧
      Observation.lastOf Observation.signals? p.observations [] = names.eraseDups := by
    rcases hg : given p.signals p.signals.toSet? with _ | xs
    · refine ⟨[], by rw [← hgiven, hg]; rfl, ?_⟩
      simp [Observation.lastOf, observations, filterMap_offered, Function.comp_def,
        Observation.signals?, hg]
    · obtain rfl : xs = p.signals.distinct := by simpa [hg] using hgiven
      have hmem : .metadata Build.signalsKey (.set false p.signals.distinct) ∈ p.observations := by
        simp [observations, mem_offered_of_given (o := fun xs =>
          Observation.metadata Build.signalsKey (.set false xs)) hg]
      have hdec := (h _ hmem).2.2.1 rfl
      simp only [Observation.signals?, if_true, decodeStrings, Value.members?] at hdec
      rcases hm : p.signals.distinct.mapM (decodeString Build.signalsKey) with e | names
      · simp [hm, bind, Except.bind, Except.toOption] at hdec
      · refine ⟨names, Build.mapM_decodeString_eq hm, last_given (v := p.signals)
          (a := p.signals.toSet?) (o := fun xs => .metadata Build.signalsKey (.set false xs)) ?_
          (by simp [hg]) ?_⟩
        · simp [observations, filterMap_offered, Function.comp_def, Observation.signals?]
        · rintro xs hxs
          obtain rfl : p.signals.distinct = xs := by simpa [hg] using hxs
          simp [Observation.signals?, decodeStrings, Value.members?, hm, bind, Except.bind, pure,
            Except.pure, Except.toOption]
  rw [hdistinct, hnames, List.mem_eraseDups, List.mem_map_of_injective Value.text_injective]

/-- The names and the types of the variables are texts, or absent where they may be. -/
lemma Textual.declared_nameable (hp : p.Textual) :
    ∀ v ∈ p.declared, v.name.isText ∧ v.type.Nameable := by
  intro v hv
  obtain ⟨x, hx, hxv⟩ := List.mem_filterMap.mp hv
  cases x <;> cases hxv
  exact hp.vars _ _ _ hx

/-- The classes of the items are texts, or absent. -/
lemma Textual.items_nameable (hp : p.Textual) : ∀ e ∈ p.itemDefinitions.pairs, ∀ s,
    Build.structureRef? e.2 = .ok s → s.Nameable := by
  rintro ⟨k, v⟩ he s hs
  cases v <;> cases hs
  exact hp.items _ _ _ he

end ProcessDefinition

/-! ### Whole builds -/

namespace Build

/-- The build holds what its process declares. -/
structure Holds (p : ProcessDefinition) (b : Build) : Prop where
  vars : b.vars = p.declared
  items : b.items = p.itemDefinitions.pairs
  signals : ∀ n, n ∈ b.signals ↔ .text n ∈ p.signals.distinct
  messages : b.messages = keyTexts p.messages.pairs

variable {p : ProcessDefinition} {r : Resolver} {d : DialectRegistry} {w : Value}

lemma Holds.nameable (hp : p.Textual) {b : Build} (h : b.Holds p) : b.Nameable p where
  process := hp.toNamed
  items := h.items ▸ hp.items_nameable
  vars := h.vars ▸ hp.declared_nameable

lemma nameable_observations (hp : p.Textual) : ∀ o ∈ p.observations, o.Nameable := fun o ho v hv =>
  hp.nodes v (by rw [← ProcessDefinition.nodes_eq]; exact List.mem_filterMap.mpr ⟨o, ho, hv⟩)

/-- What a build has heard once a process is replayed. -/
lemma holds_hear (hp : p.Textual) (hdec : ∀ o ∈ p.observations, o.Decodes) :
    ((opened p r d w).hear p.observations).Holds p := by
  have hbeside := (opened_hear (r := r) (d := d) (w := w) hp.id hp.name
    (nameable_observations hp)).2
  rw [hbeside]
  exact ⟨ProcessDefinition.vars_eq, ProcessDefinition.items_eq hdec,
    ProcessDefinition.mem_signals_iff hdec, ProcessDefinition.messages_eq hdec⟩

/-- The build of a process when a compiler has told all of it. -/
def replayed (p : ProcessDefinition) (r : Resolver) (d : DialectRegistry) (w : Value) : Build :=
  (opened p r d w).hear p.observations

lemma replayed_settings (hp : p.Textual) :
    (replayed p r d w).resolver = r ∧ (replayed p r d w).dialects = d ∧
      (replayed p r d w).wildcard = w ∧ (replayed p r d w).phase = .building := by
  rw [replayed, (opened_hear hp.id hp.name (nameable_observations hp)).2]
  exact ⟨rfl, rfl, rfl, rfl⟩

/-- **A whole build** succeeds exactly if a compiler can read the process and the build can be
completed; the index then shows what the process declares. -/
theorem collect_exact (hp : p.Textual) : (Pipeline.collect p).Ends (start r d w)
    (fun i _ => (p.Accepted ∧
        (replayed p r d w).Completable p (heardFindings p.observations)) ∧
      i.Shows p ((replayed p r d w).completed p (heardFindings p.observations)))
    fun _ _ => ¬(p.Accepted ∧
      (replayed p r d w).Completable p (heardFindings p.observations)) := by
  refine .bind ((replay_exact hp.id hp.name hp.nodes).imp ?_ fun _ _ hno hall => hno hall.1)
  rintro _ b ⟨rfl, haccepted⟩
  have hG := (opened_hear (r := r) (d := d) (w := w) hp.id hp.name (nameable_observations hp)).1
  obtain ⟨-, -, -, hphase⟩ := replayed_settings (r := r) (d := d) (w := w) hp
  have hholds := holds_hear (r := r) (d := d) (w := w) hp haccepted.decodes
  exact (finish_ends (hholds.nameable hp) hphase hG).imp
    (fun _ _ hi => ⟨⟨haccepted, hi.1⟩, hi.2.1⟩) fun _ _ hno hall => hno hall.2

/-- **A whole build that only the dialects can fail** succeeds exactly if each of them can read the
bag; what it fails with, one of them fails with. -/
theorem collect_faults (hp : p.Textual) (haccepted : p.Accepted)
    (hready : (replayed p r d w).Ready p) : (Pipeline.collect p).Ends (start r d w)
      (fun i _ => (∀ c ∈ d.contributors, ∃ pair, c.contribute p.metadata = .ok pair) ∧
        i.Shows p ((replayed p r d w).completed p (heardFindings p.observations)))
      fun e _ => ∃ c ∈ d.contributors, c.contribute p.metadata = .error e := by
  have hG := (opened_hear (r := r) (d := d) (w := w) hp.id hp.name (nameable_observations hp)).1
  obtain ⟨-, hd, -, hphase⟩ := replayed_settings (r := r) (d := d) (w := w) hp
  have hholds := holds_hear (r := r) (d := d) (w := w) hp haccepted.decodes
  have hfaults : (Pipeline.collect p).Ends (start r d w) (fun _ _ => True)
      fun e _ => ∃ c ∈ d.contributors, c.contribute p.metadata = .error e := by
    refine .bind ((replay_exact hp.id hp.name hp.nodes).imp ?_ fun _ _ hno => absurd haccepted hno)
    rintro _ b ⟨rfl, -⟩
    have hend := finish_faults (b := replayed p r d w) (hholds.nameable hp) hphase hG hready
    rwa [hd] at hend
  refine ((collect_exact hp).and hfaults).imp (fun i _ hi => ?_) fun _ _ he => he.2
  obtain ⟨⟨⟨-, hcompletable⟩, hshows⟩, -⟩ := hi
  exact ⟨hd ▸ hready.completable_iff.mp hcompletable, hshows⟩

/-- **A whole build**: where it succeeds, the index shows what the process declares. -/
theorem collect_ends (hp : p.Textual) : (Pipeline.collect p).Ends (start r d w)
    (fun i _ => ∃ b : Build, (b.Holds p ∧ b.resolver = r ∧ b.dialects = d ∧ b.wildcard = w) ∧
      b.Completable p (heardFindings p.observations) ∧
      i.Shows p (b.completed p (heardFindings p.observations))) fun _ _ => True := by
  refine (collect_exact hp).imp (fun i _ hi => ?_) fun _ _ _ => trivial
  obtain ⟨⟨haccepted, hcompletable⟩, hshows⟩ := hi
  obtain ⟨hr, hd, hw, -⟩ := replayed_settings (r := r) (d := d) (w := w) hp
  exact ⟨_, ⟨holds_hear hp haccepted.decodes, hr, hd, hw⟩, hcompletable, hshows⟩

end Build

namespace Pipeline

/-- A fresh build has the resolver, the dialects and the wildcard marker of the settings. -/
lemma createBuild_eq_ok {s : Settings} {b : Build} (h : createBuild s = .ok b) :
    ∃ r d, s.resolver.createResolver = .ok r ∧ s.dialects.createRegistry = .ok d ∧
      b = Build.start r d s.resolver.wildcardMarker := by
  rcases hr : s.resolver.createResolver with e | r
  · simp [createBuild, hr, bind, Except.bind] at h
  · rcases hd : s.dialects.createRegistry with e | d
    · simp [createBuild, hr, hd, bind, Except.bind] at h
    · refine ⟨r, d, rfl, rfl, ?_⟩
      simpa [createBuild, hr, hd, bind, Except.bind, pure, Except.pure, eq_comm] using h

/-- **A build by the pipeline**: where it succeeds, the index shows what the process declares. -/
theorem build_ends {s : Settings} {site : Site} (hp : site.process.Textual) : (build s).Ends site
    (fun i _ => ∃ b : Build, (b.Holds site.process ∧ s.resolver.createResolver = .ok b.resolver ∧
        s.dialects.createRegistry = .ok b.dialects ∧ b.wildcard = s.resolver.wildcardMarker) ∧
      b.Completable site.process (Build.heardFindings site.process.observations) ∧
      i.Shows site.process (b.completed site.process
        (Build.heardFindings site.process.observations))) fun _ _ => True := by
  refine .bind (Step.ends_get.mpr (.bind (Step.ends_ofAnswer.mpr ⟨fun b₀ hb₀ => ?_, fun _ _ =>
    trivial⟩)))
  obtain ⟨r, d, hr, hd, rfl⟩ := createBuild_eq_ok hb₀
  rcases hrun : (collect site.process).run (Build.start r d s.resolver.wildcardMarker) with
    ⟨answer, b, lines⟩
  refine .bind ((Step.ends_any _ _).imp (fun _ _ _ => ?_) fun _ _ => id)
  refine .bind (Step.ends_ofAnswer.mpr ⟨fun i hi => ?_, fun _ _ => trivial⟩)
  obtain ⟨b, ⟨hholds, rfl, rfl, hw⟩, hshows⟩ := (Build.collect_ends hp).of_run_ok (hi ▸ hrun)
  refine .bind ((Step.ends_any _ _).imp (fun _ _ _ => ?_) fun _ _ => id)
  exact Step.ends_pure.mpr ⟨b, ⟨hholds, hr, hd, hw⟩, hshows⟩

end Pipeline

/-! ### A small build -/

/-- A small process, in which most kinds of declaration occur. -/
def ProcessDefinition.sample : ProcessDefinition where
  id := .text "p"
  name := .text "n"
  imports := .list [.text "a.B"]
  functionImports := .list [.text "f", .text "u.*"]
  globals := .dict [(.text "g", .text "T")]
  nodes := .list [.ruleSet (.text "1") (.text "") (.text ""),
    .workItem (.text "2") (.text "") (.text "w"), .node (.text "3") (.text "")]
  vars := .list [.var (.text "x") .null (.dict [(.text "ItemSubjectRef", .text "i")])]
  itemDefinitions := .dict [(.text "i", .item (.text "i") (.text "S"))]
  signals := .set false [.text "s"]

/-- The settings of a small build. -/
def Settings.sample : Settings where
  resolver := { builtinTypes := [.text "S"] }
  dialects := { enabled := [.text "mvel"] }
  pipeline := { publishToMetadata := false }

lemma ProcessDefinition.textual_sample : sample.Textual where
  id := rfl
  name := rfl
  nodes := by
    simp [sample, Value.elements, Value.members?, Build.NodeNameable, Value.Nameable]
  vars := fun n t m h => by
    obtain ⟨rfl, rfl, -⟩ : n = .text "x" ∧ t = .null ∧ _ := by
      simpa [sample, Value.elements, Value.members?] using h
    exact ⟨rfl, .inl rfl⟩
  items := fun k i s h => by
    obtain ⟨-, -, rfl⟩ : k = .text "i" ∧ i = .text "i" ∧ s = .text "S" := by
      simpa [sample, Value.pairs, Value.entriesOf?, Except.toOption] using h
    exact .of_text "S"
  globals := by
    simp [sample, Value.fields, Value.entries?, Value.Nameable, Value.isText, Value.text?]
  imports := by simp [sample, Value.elements, Value.members?, Value.Nameable]
  functions := by simp [sample, Value.elements, Value.members?, Value.isText, Value.text?]

/-- The small build succeeds. -/
lemma Pipeline.sample_ok : ∃ i site lines,
    (build .sample).run { process := .sample, registry := {} } = (.ok i, site, lines) := by
  have hok : ((build .sample).run { process := .sample, registry := {} }).1.isOk = true := by cbv
  rcases hrun : (build .sample).run { process := .sample, registry := {} } with ⟨e | i, site, lines⟩
  · rw [hrun] at hok
    cases hok
  · exact ⟨i, site, lines, rfl⟩

end Concordance
