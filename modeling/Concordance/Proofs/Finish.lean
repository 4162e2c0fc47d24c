import Concordance.Proofs.Completion
import Concordance.Proofs.Observation
import Concordance.Proofs.Resolution

/-!
The end of a build, from what was found while the process was read to the index.

* `Build.told` : what the visits find out before the bare type names are resolved.
* `Resolver.settle` : the findings after resolution, where every class is also a reference.
* `Build.finish` : the two calls that end a build. `Build.finish_ends` : they succeed exactly if
  `Build.Completable`, and the index then shows `Build.completed`.
* `Build.Ready` : when only the dialects can keep a build from being ended. `Build.finish_faults` :
  it then fails with what a dialect fails with.
* `Index.Shows p F i` : the index `i` of the process `p` holds the findings `F`, each once, and
  nothing else.
-/

namespace Concordance

/-- The index of a process holds the findings, each once, and nothing else. -/
structure Index.Shows (p : ProcessDefinition) (F : Set Finding) (i : Index) : Prop where
  processId : i.processId = p.id
  processName : i.processName = p.name
  resources : ∃ parts, i.resources = p.resources parts true ∧
    Enumerates Part.ofName parts {n | .part n ∈ F}
  shared : Enumerates SharedReference.ofPair i.shared {x | .shared x.1 x.2 ∈ F}
  references : Enumerates ResourceReference.ofPair i.resourceRefs {x | .reference x.1 x.2 ∈ F}
  classes : Enumerates .text i.classes {n | .qualified n ∈ F}

namespace Resolver

variable (r : Resolver) (F : Set Finding)

/-- The type names after resolution. -/
def classNames : Set String := r.resolved {n | .qualified n ∈ F} {n | .bare n ∈ F}

/-- The type names that nothing resolves. -/
def strangers : Set String := r.unresolved {n | .qualified n ∈ F} {n | .bare n ∈ F}

/-- The findings with the type names after resolution in place of those before. -/
def sift : Set Finding :=
  {f | match f with
    | .qualified n => n ∈ r.classNames F
    | .bare _ => False
    | f => f ∈ F}

/-- The findings after resolution, where every class is referred to. -/
def settle : Set Finding := r.sift F ∪ {f | ∃ n ∈ r.classNames F, f = .reference n .className}

end Resolver

namespace Build

/-- What is found when the process has been read. -/
def read (b : Build) (p : ProcessDefinition) : Set Finding :=
  b.itemFindings ∪ (b.globalFindings p ∪ b.importFindings p)

/-- When the items, the globals and the imports of a process can be visited. -/
def Readable (b : Build) (p : ProcessDefinition) : Prop :=
  (∀ e ∈ b.items, ∃ s, structureRef? e.2 = .ok s ∧
    (s.name?.isSome → b.resolver.separator.isText)) ∧
  (p.globals.Mappable ∧ ∀ e ∈ p.globals.fields,
    e.2.name?.isSome → b.resolver.separator.isText) ∧
  (p.imports.Iterable ∧ ∀ v ∈ p.imports.elements, v.name?.isSome → b.resolver.separator.isText)

/-- What is found before the bare type names are resolved. -/
def told (b : Build) (p : ProcessDefinition) : Set Finding :=
  b.dialectFindings p ∪ b.variableFindings

/-- When the dialects and the variables of a build can be visited. -/
def Tellable (b : Build) (p : ProcessDefinition) : Prop :=
  (∀ c ∈ b.dialects.contributors, ∃ pair, c.contribute p.metadata = .ok pair) ∧
  ∀ v ∈ b.vars, ∃ t, b.variableType v = .ok t ∧ (t.name?.isSome → b.resolver.separator.isText)

/-- What is found after the bare type names are resolved. -/
def closing (b : Build) (p : ProcessDefinition) : Set Finding :=
  signalFindings b.signals ∪ (signalFindings b.messages ∪ b.functionFindings p)

/-- When the function imports of a process can be visited. -/
def Closable (b : Build) (p : ProcessDefinition) : Prop :=
  p.functionImports.Iterable ∧
    ∀ v ∈ p.functionImports.elements, ∃ wild, isWildcard b.wildcard v = .ok wild

/-- Everything an index shows after a build that had found `F` while the process was read. -/
def completed (b : Build) (p : ProcessDefinition) (F : Set Finding) : Set Finding :=
  b.resolver.settle (F ∪ b.read p ∪ b.told p) ∪ b.closing p

/-- When a build can be ended that has found `F` while the process was read. -/
def Completable (b : Build) (p : ProcessDefinition) (F : Set Finding) : Prop :=
  b.Readable p ∧ b.Tellable p ∧
    b.resolver.Resolves {n | .qualified n ∈ F ∪ b.read p ∪ b.told p}
      {n | .bare n ∈ F ∪ b.read p ∪ b.told p} ∧
    b.Closable p

/-- The two calls that end a build. -/
def finish (p : ProcessDefinition) : Step Build Index := do
  complete p
  buildComplete p

section Finish

variable {p : ProcessDefinition} {F : Set Finding} {b : Build}

/-! ### The process has been read -/

lemma adds_read (h : Nameable p b) : Adds p b (do
    visitItems
    visitGlobals p.globals
    visitImports p.imports) (b.Readable p) (b.read p) :=
  (adds_visitItems h).seq ((adds_visitGlobals h).seq (adds_visitImports h))

/-- The visits that end the reading of a process. -/
lemma complete_ends (h : Nameable p b) (hphase : b.phase = .building) (hF : Gathered p F b) :
    (complete p).Ends b (fun _ b' => b.Readable p ∧ Gathered p (F ∪ b.read p) b' ∧
      Beside { b with phase := .compiled } b') fun _ _ => ¬b.Readable p := by
  refine .bind (ends_require hphase (.bind (Step.ends_modify.mpr ?_)))
  exact adds_read (b := { b with phase := .compiled }) (h.congr rfl rfl) F _
    (hF.congr rfl rfl rfl rfl) (Beside.refl _)

/-! ### The type names are resolved -/

/-- The type names of a build are resolved. -/
lemma Gathered.sift (hF : Gathered p F b) {t : TypeNames}
    (hQ : Enumerates .text t.referenced (b.resolver.classNames F))
    (ht : t = { b.types with referenced := t.referenced, unqualified := [] })
    (forced : List Value) :
    Gathered p (b.resolver.sift F) { b with types := t, unresolved := forced } where
  own := hF.own
  resources := hF.resources
  shared := hF.shared
  references := hF.references
  separator := by rw [ht]; exact hF.separator
  qualified := hQ
  bare := by rw [ht]; exact Enumerates.nil

lemma adds_classes {xs : List Value} {S : Set String} (h : Enumerates .text xs S) :
    Adds p b (xs.forM fun name => onRefs (·.addResourceRef name .className)) True
      {f | ∃ n ∈ S, f = .reference n .className} := by
  have hone : ∀ v ∈ xs, Adds p b (onRefs (·.addResourceRef v .className)) True
      {f | ∃ n, v = .text n ∧ f = .reference n .className} := fun v hv => by
    obtain ⟨n, -, rfl⟩ := h.exists_of_mem hv
    exact (adds_addResourceRef n .className).congr Iff.rfl (by ext; simp)
  refine (Adds.forM hone).congr (by simp) ?_
  ext f
  constructor
  · rintro ⟨v, hv, n, rfl, rfl⟩
    exact ⟨n, (h.mem_iff Value.text_injective).mp hv, rfl⟩
  · rintro ⟨n, hn, rfl⟩
    exact ⟨_, (h.mem_iff Value.text_injective).mpr hn, n, rfl, rfl⟩

/-- Resolution replaces the type names and adds every class as a reference. -/
lemma resolveTypes_ends (hF : Gathered p F b) : resolveTypes.Ends b
    (fun _ b' => b.resolver.Resolves {n | .qualified n ∈ F} {n | .bare n ∈ F} ∧
      Gathered p (b.resolver.settle F) b' ∧
      (Enumerates .text b'.unresolved (b.resolver.strangers F) ∧
        b'.unresolved.Pairwise (Value.codes · ≤ Value.codes ·)) ∧
      Beside { b with unresolved := b'.unresolved } b')
    fun _ _ => ¬b.resolver.Resolves {n | .qualified n ∈ F} {n | .bare n ∈ F} := by
  refine .bind (Step.ends_get.mpr (.bind (ends_onTypes.mpr ?_)))
  refine (Resolver.resolve_ends hF.qualified hF.bare).imp
    (fun forced t ⟨hok, hforced, hQ, ht⟩ => ?_) fun _ _ => id
  have hsift := hF.sift (b := b) hQ ht forced
  refine .bind (Step.ends_modify.mpr (.bind (Step.ends_get.mpr ?_)))
  refine (adds_classes hQ _ _ hsift (Beside.refl _)).imp (fun _ b' h => ?_) fun _ _ hno =>
    absurd trivial hno
  obtain ⟨-, hG, hb'⟩ := h
  have hun : b'.unresolved = forced := by rw [hb']
  exact ⟨hok, hG, hun ▸ hforced, by rw [hb']; rfl⟩

/-! ### The index is closed -/

/-- What was gathered is what the index shows. -/
lemma Gathered.shows_indexOf (hF : Gathered p F b) :
    (indexOf { b with refs := b.refs.freeze } p).Shows p F where
  processId := rfl
  processName := rfl
  resources := by
    obtain ⟨parts, hres, hparts⟩ := hF.resources
    exact ⟨parts, Collector.freeze_own hres, hparts⟩
  shared := hF.shared
  references := hF.references
  classes := hF.qualified

/-- The resource of the process is there when the index is closed. -/
lemma exists_ownResource {parts : List Part} (hown : b.own = some p.id)
    (hres : b.refs.resources = p.resources parts false) (hid : p.id.isText) :
    ∃ own, ownResource? { b with refs := b.refs.freeze } = .ok own := by
  obtain ⟨s, hid⟩ := Value.isText_iff.mp hid
  have hown' : ({ b with refs := b.refs.freeze } : Build).own = some p.id := hown
  rw [ownResource?, hown']
  exact ⟨_, Collector.demand_own (Collector.freeze_own hres) hid⟩

/-- The last steps of a build close the index. -/
lemma close_ends {parts : List Part} (hown : b.own = some p.id)
    (hres : b.refs.resources = p.resources parts false) (hid : p.id.isText)
    {Q : Index → Build → Prop} {E : Fault → Build → Prop}
    (hQ : ∀ i, i = indexOf { b with refs := b.refs.freeze } p →
      Q i { b with refs := b.refs.freeze, index := some i, phase := .completed }) :
    Step.Ends (do
      modify fun b => { b with refs := b.refs.freeze }
      let b ← get
      let i := b.indexOf p
      set { b with index := some i, phase := .completed }
      let own ← Step.ofAnswer b.ownResource?
      Step.log (indexedLine p own i)
      pure i) b Q E := by
  obtain ⟨own, hown⟩ := exists_ownResource hown hres hid
  refine .bind (Step.ends_modify.mpr (.bind (Step.ends_get.mpr ?_)))
  refine .bind (Step.ends_set.mpr (.bind ?_))
  rw [hown, Step.ends_ofAnswer_ok]
  exact .bind (Step.ends_log.mpr (Step.ends_pure.mpr (hQ _ rfl)))

/-- A step that adds findings, and what comes after it. -/
lemma Adds.ends_bind {α : Type} {b₀ : Build} {step : Step Build PUnit} {ok : Prop}
    {new : Set Finding} {next : PUnit → Step Build α} {Q : α → Build → Prop}
    {E : Fault → Build → Prop} (h : Adds p b₀ step ok new) (hF : Gathered p F b)
    (hb : b₀.Beside b)
    (hnext : ok → ∀ b', Gathered p (F ∪ new) b' → b₀.Beside b' → (next ⟨⟩).Ends b' Q E)
    (hfail : ¬ok → ∀ e t, E e t) : (step >>= next).Ends b Q E :=
  .bind <| (h F b hF hb).imp (fun _ b' h => hnext h.1 b' h.2.1 h.2.2) fun e t hno => hfail hno e t

/-- The last call of a build, once the dialects have been visited. -/
def wrapUp (b : Build) (p : ProcessDefinition) : Step Build Index := do
  b.vars.forM visitVariable
  resolveTypes
  visitSignals b.signals
  visitSignals b.messages
  visitFunctionImports p.functionImports
  modify fun b => { b with refs := b.refs.freeze }
  let b ← get
  let i := b.indexOf p
  set { b with index := some i, phase := .completed }
  let own ← Step.ofAnswer b.ownResource?
  Step.log (indexedLine p own i)
  pure i

lemma buildComplete_eq : buildComplete p = (do
    require .buildComplete
    let b ← get
    b.dialects.contributors.forM (visitDialect p.metadata)
    b.wrapUp p) := rfl

/-- Once the dialects have been visited, a build succeeds exactly if the variables and the function
imports can be visited and the type names resolved. -/
lemma wrapUp_ends {b₁ : Build} (h : Nameable p b) (hF : Gathered p F b₁) (hb₁ : Beside b b₁) :
    (b.wrapUp p).Ends b₁
      (fun i b' => ((∀ v ∈ b.vars, ∃ t, b.variableType v = .ok t ∧
            (t.name?.isSome → b.resolver.separator.isText)) ∧
          b.resolver.Resolves {n | .qualified n ∈ F ∪ b.variableFindings}
            {n | .bare n ∈ F ∪ b.variableFindings} ∧
          b.Closable p) ∧
        i.Shows p (b.resolver.settle (F ∪ b.variableFindings) ∪ b.closing p) ∧
        Enumerates .text b'.unresolved (b.resolver.strangers (F ∪ b.variableFindings)) ∧
        b'.unresolved.Pairwise (Value.codes · ≤ Value.codes ·))
      fun _ _ => ¬((∀ v ∈ b.vars, ∃ t, b.variableType v = .ok t ∧
            (t.name?.isSome → b.resolver.separator.isText)) ∧
          b.resolver.Resolves {n | .qualified n ∈ F ∪ b.variableFindings}
            {n | .bare n ∈ F ∪ b.variableFindings} ∧
          b.Closable p) := by
  refine (adds_visitVariables h).ends_bind hF hb₁ (fun hvars b₂ hF₂ hb₂ => ?_)
    fun hno _ _ hall => hno hall.1
  have hres : b₂.resolver = b.resolver := by rw [hb₂]
  refine .bind ((resolveTypes_ends hF₂).imp (fun _ b₃ h₃ => ?_) fun _ _ hno hall =>
    hno (hres ▸ hall.2.1))
  rw [hres] at h₃
  obtain ⟨hresolves, hF₃, hforced, hb₃⟩ := h₃
  -- from here on the names that nothing resolves are known
  have hb₃ : Beside { b with unresolved := b₃.unresolved } b₃ := by rw [hb₃, hb₂]; rfl
  refine (adds_visitSignals b.signals).ends_bind hF₃ hb₃ (fun _ b₄ hF₄ hb₄ => ?_)
    fun hno => absurd trivial hno
  refine (adds_visitSignals b.messages).ends_bind hF₄ hb₄ (fun _ b₅ hF₅ hb₅ => ?_)
    fun hno => absurd trivial hno
  have hfunctions : Adds p { b with unresolved := b₃.unresolved }
      (visitFunctionImports p.functionImports) (b.Closable p) (b.functionFindings p) :=
    adds_visitFunctionImports (h.congr rfl rfl)
  refine hfunctions.ends_bind hF₅ hb₅ (fun hclose b₆ hF₆ hb₆ => ?_) fun hno _ _ hall =>
    hno hall.2.2
  rw [Set.union_assoc, Set.union_assoc] at hF₆
  have hun : b₆.unresolved = b₃.unresolved := by rw [hb₆]
  obtain ⟨parts, hparts, -⟩ := hF₆.resources
  exact close_ends hF₆.own hparts h.process.id fun i hi =>
    ⟨⟨hvars, hresolves, hclose⟩, hi ▸ hF₆.shows_indexOf, hun ▸ hforced⟩

/-- **The last call of a build**: it succeeds exactly if everything can be visited and resolved, and
the index then shows everything that was found. -/
lemma buildComplete_ends (h : Nameable p b) (hphase : b.phase = .compiled) (hF : Gathered p F b) :
    (buildComplete p).Ends b
      (fun i b' => (b.Tellable p ∧
          b.resolver.Resolves {n | .qualified n ∈ F ∪ b.told p} {n | .bare n ∈ F ∪ b.told p} ∧
          b.Closable p) ∧
        i.Shows p (b.resolver.settle (F ∪ b.told p) ∪ b.closing p) ∧
        Enumerates .text b'.unresolved (b.resolver.strangers (F ∪ b.told p)) ∧
        b'.unresolved.Pairwise (Value.codes · ≤ Value.codes ·))
      fun _ _ => ¬(b.Tellable p ∧
          b.resolver.Resolves {n | .qualified n ∈ F ∪ b.told p} {n | .bare n ∈ F ∪ b.told p} ∧
          b.Closable p) := by
  rw [buildComplete_eq]
  refine .bind (ends_require hphase (.bind (Step.ends_get.mpr ?_)))
  refine adds_visitDialects.ends_bind hF (Beside.refl b) (fun hdialects b₁ hF₁ hb₁ => ?_)
    fun hno _ _ hall => hno hall.1.1
  have hwrap := wrapUp_ends h hF₁ hb₁
  rw [Set.union_assoc] at hwrap
  exact hwrap.imp (fun _ _ ⟨⟨hvars, hrest⟩, hshows⟩ => ⟨⟨⟨hdialects, hvars⟩, hrest⟩, hshows⟩)
    fun _ _ hno hall => hno ⟨hall.1.2, hall.2⟩

/-- **The end of a build**: the two calls succeed exactly if the build can be ended, and the index
then shows everything that was found. -/
theorem finish_ends (h : Nameable p b) (hphase : b.phase = .building) (hF : Gathered p F b) :
    (finish p).Ends b
      (fun i b' => b.Completable p F ∧ i.Shows p (b.completed p F) ∧
        Enumerates .text b'.unresolved (b.resolver.strangers (F ∪ b.read p ∪ b.told p)) ∧
        b'.unresolved.Pairwise (Value.codes · ≤ Value.codes ·))
      fun _ _ => ¬b.Completable p F := by
  refine .bind ((complete_ends h hphase hF).imp (fun _ b₁ h₁ => ?_) fun _ _ hno hall => hno hall.1)
  obtain ⟨hread, hF₁, hb₁⟩ := h₁
  have hend := buildComplete_ends (b := b₁) (F := F ∪ b.read p)
    (h.congr (by rw [hb₁]) (by rw [hb₁])) (by rw [hb₁]) hF₁
  rw [hb₁] at hend ⊢
  exact hend.imp (fun _ _ ⟨hall, hshows, hforced⟩ =>
    ⟨⟨hread, hall.1, hall.2.1, hall.2.2⟩, hshows, hforced⟩) fun _ _ hno hall => hno hall.2

/-! ### Where a build fails -/

/-- When only the dialects can keep a build from being ended. -/
structure Ready (p : ProcessDefinition) (b : Build) : Prop where
  read : b.Readable p
  vars : ∀ v ∈ b.vars, ∃ t, b.variableType v = .ok t ∧
    (t.name?.isSome → b.resolver.separator.isText)
  resolves : ∀ Q U, b.resolver.Resolves Q U
  close : b.Closable p

lemma Ready.completable_iff (h : b.Ready p) : b.Completable p F ↔
    ∀ c ∈ b.dialects.contributors, ∃ pair, c.contribute p.metadata = .ok pair :=
  ⟨fun hall => hall.2.1.1, fun hall => ⟨h.read, ⟨hall, h.vars⟩, h.resolves _ _, h.close⟩⟩

/-- The visit to a dialect fails with what the dialect fails with. -/
lemma visitDialect_failsWith (metadata : Value) (c : Contributor) :
    (visitDialect metadata c).FailsWith fun e => c.contribute metadata = .error e := by
  have htake : ∀ (xs : List Value) (n : String),
      ∀ e, Value.insert? xs (.text n) = .error e → c.contribute metadata = .error e :=
    fun xs n e he => by
      rw [Value.insert?, if_pos (Value.hashable_text n)] at he
      cases he
  refine (Step.failsWith_ofAnswer fun _ => id).bind fun pair => ?_
  refine (Step.FailsWith.forM (fun n => ?_) _).focus.bind fun _ =>
    (Step.FailsWith.forM (fun n => ?_) _).focus
  · exact Step.failsWith_get.bind fun t => (Step.failsWith_ofAnswer (htake _ n)).bind fun _ =>
      Step.failsWith_set _
  · exact Step.failsWith_get.bind fun t => (Step.failsWith_ofAnswer (htake _ n)).bind fun _ =>
      Step.failsWith_set _

/-- The visits to several dialects fail with what one of them fails with. -/
lemma visitDialects_faults (metadata : Value) (cs : List Contributor) (b : Build) :
    (cs.forM (visitDialect metadata)).Ends b (fun _ _ => True)
      fun e _ => ∃ c ∈ cs, c.contribute metadata = .error e := by
  refine Step.Ends.forM (fun ds _ => ds ⊆ cs) (fun c ds t hds => ?_) (fun _ _ => trivial) cs b
    (List.Subset.refl cs)
  rw [List.cons_subset] at hds
  exact (visitDialect_failsWith metadata c t).imp (fun _ _ _ => hds.2) fun e _ he => ⟨c, hds.1, he⟩

/-- **The end of a build that only the dialects can fail**: what it fails with, one of them fails
with. -/
lemma finish_faults (h : Nameable p b) (hphase : b.phase = .building) (hF : Gathered p F b)
    (hready : b.Ready p) : (finish p).Ends b (fun _ _ => True)
      fun e _ => ∃ c ∈ b.dialects.contributors, c.contribute p.metadata = .error e := by
  refine .bind ((complete_ends h hphase hF).imp (fun _ b₁ h₁ => ?_) fun _ _ hno =>
    absurd hready.read hno)
  obtain ⟨-, hF₁, hb₁⟩ := h₁
  have hvars : b₁.vars = b.vars := by rw [hb₁]
  have hnameable : Nameable p b₁ := h.congr (by rw [hb₁]) hvars
  have hdialects := (adds_visitDialects _ b₁ hF₁ (Beside.refl b₁)).and
    (visitDialects_faults p.metadata b₁.dialects.contributors b₁)
  rw [buildComplete_eq]
  have hcompiled : b₁.phase = .compiled := by rw [hb₁]
  refine .bind (ends_require hcompiled (.bind (Step.ends_get.mpr (.bind ?_))))
  refine hdialects.imp (fun _ b₂ hb₂ => ?_) fun e t he => ?_
  · refine (wrapUp_ends hnameable hb₂.1.2.1 hb₂.1.2.2).imp (fun _ _ _ => trivial) fun _ _ hno =>
      absurd ?_ hno
    rw [hb₁]
    exact ⟨hready.vars, hready.resolves _ _, hready.close⟩
  · obtain ⟨c, hc, hce⟩ := he.2
    exact ⟨c, by rwa [hb₁] at hc, hce⟩

end Finish

/-! ### What a completed build has found -/

section Completed

variable {p : ProcessDefinition} {F : Set Finding} {b : Build} {n : String}

/-- A type name is no part and no reference. -/
lemma ofTypeName_cases (sep : Value) (n : String) :
    Finding.ofTypeName sep n = .qualified n ∨ Finding.ofTypeName sep n = .bare n := by
  unfold Finding.ofTypeName
  split
  · split <;> simp
  · simp

lemma part_ofTypeNames {sep : Value} {S : Set String} : .part n ∉ Finding.ofTypeNames sep S := by
  rw [mem_ofTypeNames]
  rintro ⟨m, -, h⟩
  rcases ofTypeName_cases sep m with hm | hm <;> rw [hm] at h <;> cases h

lemma shared_ofTypeNames {sep : Value} {S : Set String} {t : PartType} :
    .shared n t ∉ Finding.ofTypeNames sep S := by
  rw [mem_ofTypeNames]
  rintro ⟨m, -, h⟩
  rcases ofTypeName_cases sep m with hm | hm <;> rw [hm] at h <;> cases h

lemma reference_ofTypeNames {sep : Value} {S : Set String} {t : ResourceType} :
    .reference n t ∉ Finding.ofTypeNames sep S := by
  rw [mem_ofTypeNames]
  rintro ⟨m, -, h⟩
  rcases ofTypeName_cases sep m with hm | hm <;> rw [hm] at h <;> cases h

/-- Parts come from variables. -/
lemma part_completed : .part n ∈ b.completed p F ↔
    .part n ∈ F ∨ ∃ v ∈ b.vars, v.name = .text n := by
  simp [completed, Resolver.settle, Resolver.sift, read, told, closing, itemFindings,
    globalFindings, importFindings, dialectFindings, variableFindings, signalFindings,
    functionFindings, part_ofTypeNames]

/-- Shared references come from nodes, globals, signals and messages. -/
lemma shared_completed {t : PartType} : .shared n t ∈ b.completed p F ↔
    .shared n t ∈ F ∨ (t = .global ∧ ∃ e ∈ p.globals.fields, e.1 = .text n) ∨
      (t = .signal ∧ (n ∈ b.signals ∨ n ∈ b.messages)) := by
  have htold : .shared n t ∈ F ∪ b.read p ∪ b.told p ↔
      .shared n t ∈ F ∨ (t = .global ∧ ∃ e ∈ p.globals.fields, e.1 = .text n) := by
    simp [read, told, itemFindings, globalFindings, importFindings, dialectFindings,
      variableFindings, shared_ofTypeNames, and_comm]
  have hclosing : .shared n t ∈ b.closing p ↔ t = .signal ∧ (n ∈ b.signals ∨ n ∈ b.messages) := by
    simp [closing, signalFindings, functionFindings, and_or_left, and_comm]
  rw [completed, Set.mem_union, hclosing, ← or_assoc, ← htold]
  simp [Resolver.settle, Resolver.sift]

/-- Classes come from resolution alone. -/
lemma qualified_completed : .qualified n ∈ b.completed p F ↔
    n ∈ b.resolver.classNames (F ∪ b.read p ∪ b.told p) := by
  have hclosing : .qualified n ∉ b.closing p := by
    simp [closing, signalFindings, functionFindings]
  rw [completed, Set.mem_union, or_iff_left hclosing]
  simp [Resolver.settle, Resolver.sift]

/-- References to resources come from nodes, classes and function imports. -/
lemma reference_completed {t : ResourceType} : .reference n t ∈ b.completed p F ↔
    .reference n t ∈ F ∨ (t = .className ∧ .qualified n ∈ b.completed p F) ∨
      (t = .function ∧ .text n ∈ p.functionImports.elements ∧
        isWildcard b.wildcard (.text n) = .ok false) := by
  have htold : .reference n t ∈ F ∪ b.read p ∪ b.told p ↔ .reference n t ∈ F := by
    simp [read, told, itemFindings, globalFindings, importFindings, dialectFindings,
      variableFindings, reference_ofTypeNames]
  have hclosing : .reference n t ∈ b.closing p ↔ t = .function ∧
      .text n ∈ p.functionImports.elements ∧ isWildcard b.wildcard (.text n) = .ok false := by
    simp [closing, signalFindings, functionFindings, and_comm, and_left_comm]
  rw [qualified_completed, ← htold, completed, Set.mem_union, hclosing, ← or_assoc]
  simp [Resolver.settle, Resolver.sift, and_comm]

end Completed

end Build

/-! ### Queries of an index -/

/-- A list with one name after the other has the names of a set, each once. -/
lemma Enumerates.foldl_insertNew {xs : List Value} {S : Set String} (h : Enumerates .text xs S) :
    ∀ names : List String, Enumerates .text ((names.map Value.text).foldl Value.insertNew xs)
      (S ∪ {n | n ∈ names})
  | [] => h.congr (by ext; simp)
  | n :: names => ((h.insertNew n).foldl_insertNew names).congr (by ext; simp; tauto)

namespace Index.Shows

variable {p : ProcessDefinition} {F : Set Finding} {i : Index}

/-- The references of one kind are those that were found. -/
lemma references_enumerates (h : i.Shows p F) (t : ResourceType) :
    Enumerates .text (i.references t) {n | .reference n t ∈ F} := by
  obtain ⟨names, hnames, hmem⟩ : ∃ names : List String,
      (i.resourceRefs.filter (·.type == t)).map (·.name) = names.map .text ∧
        ∀ n, n ∈ names ↔ .reference n t ∈ F := by
    obtain ⟨pairs, hpairs, -, hmem⟩ := h.references.exists_list ResourceReference.ofPair_injective
    refine ⟨(pairs.filter (·.2 == t)).map (·.1), ?_, fun n => ?_⟩
    · simp [hpairs, List.filter_map, Function.comp_def, ResourceReference.ofPair]
    · simp [hmem]
  unfold Index.references Value.dedup
  rw [hnames]
  exact (Enumerates.nil.foldl_insertNew names).congr (by ext; simp [hmem])

end Index.Shows
end Concordance
