import Concordance.Proofs.Replay

/-!
Calls in any order, accepted or refused: what the build of one process keeps under all of them.

* `TypeNames.Files` : a step that only files names; `Build.Filing` : what such steps and shared
  references keep, the visits of a build then keep too.
* `Call` : the five calls; `Build.called` : the build after several of them.
* `Build.Kept p b` : the build `b` has registered the process `p` and holds no part, reference or
  class twice; what it refers to as a class is one. `Build.Stage` : a build is fresh, keeps all
  this, or is completed. `Build.stage_called` is the run, its step is `Build.keeps_stage`.
* `ProcessDefinition.Returns p i` : after some calls the last one returns the index `i`.
  `Index.Tidy p i` : the index is that of the process, without repetition, and its classes are the
  references of that kind. `ProcessDefinition.Returns.tidy` : what is returned is tidy.
-/

namespace Concordance

/-! ### Type names only become more -/

namespace TypeNames

/-- The qualified names hold those of an earlier time, and none twice. -/
structure Grown (earlier : List Value) (t : TypeNames) : Prop where
  subset : ∀ v ∈ earlier, v ∈ t.referenced
  distinct : Distinct Value.same t.referenced

variable {earlier : List Value} {t u : TypeNames} {name : Value}

lemma Grown.insert? {xs : List Value} (h : Grown earlier t)
    (hxs : Value.insert? t.referenced name = .ok xs) :
    Grown earlier { t with referenced := xs } := by
  obtain rfl := Value.insert?_eq_ok hxs
  exact ⟨fun v hv => subset_addNew name v (h.subset v hv), h.distinct.addNew name⟩

/-- A property that more qualified names keep, and whatever bare names. -/
structure Stable (I : TypeNames → Prop) : Prop where
  insert : ∀ {t name xs}, I t → Value.insert? t.referenced name = .ok xs →
    I { t with referenced := xs }
  bare : ∀ {t} xs, I t → I { t with unqualified := xs }

lemma stable_grown (earlier : List Value) : Stable (Grown earlier) where
  insert := Grown.insert?
  bare _ h := ⟨h.subset, h.distinct⟩

/-- A step that only files names: it keeps all such properties. -/
def Files {α : Type} (step : Step TypeNames α) : Prop := ∀ I, Stable I → step.Keeps I

lemma Stable.add {I : TypeNames → Prop} (hI : Stable I) (h : I t) (hadd : t.add name = .ok u) :
    I u := by
  unfold TypeNames.add at hadd
  split at hadd
  · cases hadd
    exact h
  · rcases hc : name.contains? t.separator with e | _ | _
    · simp [hc, bind, Except.bind] at hadd
    · rcases hi : Value.insert? t.unqualified name with e | xs <;>
        simp [hc, hi, bind, Except.bind, pure, Except.pure] at hadd
      exact hadd ▸ hI.bare xs h
    · rcases hi : Value.insert? t.referenced name with e | xs <;>
        simp [hc, hi, bind, Except.bind, pure, Except.pure] at hadd
      exact hadd ▸ hI.insert h hi

lemma files_addOne (name : Value) : Files (addOne name) := fun _ hI =>
  Step.keeps_advance fun _ _ h hadd => hI.add h hadd

lemma files_addAll (names : Value) : Files (addAll names) := fun I hI =>
  (Step.keeps_ofAnswer _).bind fun xs => .forM (fun name => files_addOne name I hI) xs

lemma files_takeReferenced (name : Value) : Files (takeReferenced name) := fun _ hI =>
  Step.keeps_advance fun _ _ h hxs => hI.insert h hxs

lemma files_takeUnqualified (name : Value) : Files (takeUnqualified name) := fun _ hI =>
  Step.keeps_advance fun _ xs h _ => hI.bare xs h

end TypeNames

namespace Resolver

open TypeNames (Files)

lemma files_promote (r : Resolver) (name : Value) : Files (r.promote name) := by
  intro I hI
  refine Step.Keeps.ite ?_ ?_
  · exact (Step.keeps_ofAnswer _).bind fun full =>
      (TypeNames.files_takeReferenced full I hI).bind fun _ => Step.keeps_pure _
  · exact (Step.keeps_log _).bind fun _ =>
      (TypeNames.files_takeReferenced name I hI).bind fun _ => Step.keeps_pure _

lemma files_resolve (r : Resolver) : Files r.resolve := by
  intro I hI
  refine Step.keeps_get.bind fun t => (Step.keeps_ofAnswer _).bind fun simple => ?_
  refine (Step.keeps_ofAnswer _).bind fun remaining => ?_
  refine (Step.Keeps.mapM (fun name => r.files_promote name I hI) remaining).bind fun forced => ?_
  exact (Step.keeps_modify fun _ h => hI.bare [] h).bind fun _ => Step.keeps_pure _

end Resolver

namespace Build

/-! ### A build of one process -/

/-- The build has registered the process, and holds nothing twice; every class that it refers to is
one of its qualified names. -/
structure Kept (p : ProcessDefinition) (b : Build) : Prop where
  phase : b.phase ≠ .created
  own : b.own = some p.id
  resources : ∃ parts, b.refs.resources = p.resources parts false ∧ Distinct Part.same parts ∧
    ∀ q ∈ parts, q.type = .var
  shared : Distinct SharedReference.same b.refs.shared
  references : Distinct ResourceReference.same b.refs.resourceRefs
  classes : Distinct Value.same b.types.referenced
  backed : ∀ r ∈ b.refs.resourceRefs, r.type = .className → r.name ∈ b.types.referenced

/-- Every qualified name is also referred to as a class. -/
def Covered (b : Build) : Prop :=
  ∀ v ∈ b.types.referenced, ∃ r ∈ b.refs.resourceRefs,
    r.type = .className ∧ (r.name = v ∨ r.name.same v = true)

section Kept

variable {p : ProcessDefinition} {b c : Build}

lemma Kept.congr (h : Kept p b) (hphase : c.phase ≠ .created) (hown : c.own = b.own)
    (hrefs : c.refs = b.refs) (htypes : c.types = b.types) : Kept p c where
  phase := hphase
  own := hown ▸ h.own
  resources := hrefs ▸ h.resources
  shared := hrefs ▸ h.shared
  references := hrefs ▸ h.references
  classes := htypes ▸ h.classes
  backed := hrefs ▸ htypes ▸ h.backed

/-- What was gathered by names is kept. -/
lemma Kept.of_gathered (h : Gathered p ∅ b) (hphase : b.phase ≠ .created) : Kept p b := by
  obtain ⟨parts, hres, hparts⟩ := h.resources
  have hnil : parts = [] := (hparts.congr (by simp)).eq_nil
  have hshared : b.refs.shared = [] := (h.shared.congr (by simp)).eq_nil
  have hrefs : b.refs.resourceRefs = [] := (h.references.congr (by simp)).eq_nil
  have hclasses : b.types.referenced = [] := (h.qualified.congr (by simp)).eq_nil
  refine ⟨hphase, h.own, ⟨parts, hres, ?_, ?_⟩, ?_, ?_, ?_, ?_⟩ <;>
    simp [hnil, hshared, hrefs, hclasses, Distinct]

lemma Kept.types {t : TypeNames} (h : Kept p b) (ht : TypeNames.Grown b.types.referenced t) :
    Kept p { b with types := t } where
  phase := h.phase
  own := h.own
  resources := h.resources
  shared := h.shared
  references := h.references
  classes := ht.distinct
  backed := fun r hr hclass => ht.subset _ (h.backed r hr hclass)

/-- One more reference to a resource; a class has to be a qualified name. -/
lemma Kept.addReference (h : Kept p b) (r : ResourceReference)
    (hr : r.type = .className → r.name ∈ b.types.referenced) :
    Kept p { b with refs := { b.refs with
      resourceRefs := addNew ResourceReference.same b.refs.resourceRefs r } } where
  phase := h.phase
  own := h.own
  resources := h.resources
  shared := h.shared
  references := h.references.addNew r
  classes := h.classes
  backed := fun s hs => by
    rcases of_mem_addNew hs with hs | rfl
    · exact h.backed s hs
    · exact hr

/-! ### Steps on the parts of a build -/

lemma keeps_require {I : Build → Prop} (call : Callback) : (require call).Keeps I :=
  Step.keeps_get.bind fun _ => .ite (Step.keeps_pure _) fun _ hs => Step.ends_throw.mpr hs

lemma keeps_onTypes {α : Type} {step : Step TypeNames α} (h : TypeNames.Files step) :
    (onTypes step).Keeps (Kept p) :=
  fun b hb => ends_onTypes.mpr
    ((h _ (TypeNames.stable_grown _) b.types ⟨fun _ => id, hb.classes⟩).imp
      (fun _ _ ht => hb.types ht) fun _ _ ht => hb.types ht)

lemma keeps_onRefs {I : Build → Prop} {change : Collector → Answer Collector}
    (h : ∀ b refs, I b → change b.refs = .ok refs → I { b with refs }) : (onRefs change).Keeps I :=
  fun b hb => .bind (Step.ends_get.mpr (.bind (Step.ends_ofAnswer.mpr
    ⟨fun refs hrefs => Step.ends_set.mpr (h b refs hb hrefs), fun _ _ => hb⟩)))

lemma keeps_addShared (v : Value) (t : PartType) :
    (onRefs (·.addShared v t)).Keeps (Kept p) := keeps_onRefs fun b refs h hrefs => by
  obtain rfl := Collector.addShared_eq_ok hrefs
  exact ⟨h.phase, h.own, h.resources, h.shared.addNew _, h.references, h.classes, h.backed⟩

lemma keeps_addResourceRef (v : Value) {t : ResourceType} (ht : t ≠ .className) :
    (onRefs (·.addResourceRef v t)).Keeps (Kept p) := keeps_onRefs fun b refs h hrefs => by
  obtain rfl := Collector.addResourceRef_eq_ok hrefs
  exact h.addReference { name := v, type := t } fun hclass => absurd hclass ht

lemma keeps_addOwnPart (hid : p.id.isText) (v : Value) : (addOwnPart v).Keeps (Kept p) := by
  intro b h
  refine .bind (Step.ends_get.mpr ?_)
  rw [h.own]
  refine keeps_onRefs (I := Kept p) (fun c refs hc hrefs => ?_) b h
  obtain ⟨s, hs⟩ := Value.isText_iff.mp hid
  obtain ⟨parts, hres, hdist, hvar⟩ := hc.resources
  rw [Collector.addPart_own hres hs] at hrefs
  split at hrefs <;> cases hrefs
  refine ⟨hc.phase, hc.own, ⟨_, rfl, hdist.addNew _, fun q hq => ?_⟩, hc.shared, hc.references,
    hc.classes, hc.backed⟩
  rcases of_mem_addNew hq with hq | rfl
  · exact hvar q hq
  · rfl

/-! ### Calls while the process is read -/

lemma keeps_nodeAdded (v : Value) : (nodeAdded v).Keeps (Kept p) := by
  refine (keeps_require _).bind fun _ => ?_
  split
  · exact Step.keeps_pure _
  · exact keeps_addShared _ _
  · exact (keeps_addShared _ _).ite (Step.keeps_pure _)
  · exact ((keeps_addResourceRef _ (by decide)).bind fun _ =>
      (keeps_addResourceRef _ (by decide)).ite (Step.keeps_pure _)).ite
        ((keeps_addResourceRef _ (by decide)).ite (Step.keeps_pure _))
  · exact Step.keeps_pure _

lemma keeps_metadataAdded (key : String) (data : Value) :
    (metadataAdded key data).Keeps (Kept p) := by
  refine (keeps_require _).bind fun _ => ?_
  refine .ite ?_ (.ite ?_ (.ite ?_ (.ite ?_ (Step.keeps_pure _)))) <;>
    exact (Step.keeps_ofAnswer _).bind fun _ =>
      Step.keeps_modify fun b h => h.congr h.phase rfl rfl rfl

/-! ### Calls when the process has been read -/

/-- A property of builds that filed names and shared references keep. -/
structure Filing (I : Build → Prop) : Prop where
  types : ∀ {α : Type} {step : Step TypeNames α}, TypeNames.Files step → (onTypes step).Keeps I
  shared : ∀ v t, (onRefs (·.addShared v t)).Keeps I

lemma filing_kept : Filing (Kept p) where
  types := keeps_onTypes
  shared := keeps_addShared

section Filing

variable {I : Build → Prop}

lemma Filing.visitItems (hI : Filing I) : visitItems.Keeps I :=
  Step.keeps_get.bind fun _ => .forM (fun _ => (Step.keeps_ofAnswer _).bind fun name =>
    hI.types (TypeNames.files_addOne name)) _

lemma Filing.visitGlobals (hI : Filing I) (globals : Value) : (visitGlobals globals).Keeps I := by
  refine .ite ((Step.keeps_ofAnswer _).bind fun es => .forM (fun e => ?_) es) (Step.keeps_pure _)
  exact (hI.types (TypeNames.files_addOne e.2)).bind fun _ => hI.shared e.1 .global

lemma Filing.visitImports (hI : Filing I) (imports : Value) : (visitImports imports).Keeps I :=
  (hI.types (TypeNames.files_addAll imports)).ite (Step.keeps_pure _)

lemma Filing.visitDialect (hI : Filing I) (metadata : Value) (c : Contributor) :
    (visitDialect metadata c).Keeps I := by
  refine (Step.keeps_ofAnswer _).bind fun _ => (hI.types fun J hJ => ?_).bind fun _ =>
    hI.types fun J hJ => ?_
  · exact .forM (fun _ => TypeNames.files_takeReferenced _ J hJ) _
  · exact .forM (fun _ => TypeNames.files_takeUnqualified _ J hJ) _

lemma Filing.visitSignals (hI : Filing I) (names : List String) : (visitSignals names).Keeps I :=
  .forM (fun _ => hI.shared _ _) names

end Filing

lemma keeps_complete (p' : ProcessDefinition) : (complete p').Keeps (Kept p) := by
  refine (keeps_require _).bind fun _ => ?_
  refine (Step.keeps_modify fun b h => h.congr (by simp) rfl rfl rfl).bind fun _ => ?_
  exact filing_kept.visitItems.bind fun _ => (filing_kept.visitGlobals _).bind fun _ =>
    filing_kept.visitImports _

lemma keeps_visitVariable (hid : p.id.isText) (v : Variable) : (visitVariable v).Keeps (Kept p) :=
  (keeps_addOwnPart hid _).bind fun _ => Step.keeps_get.bind fun _ =>
    (Step.keeps_ofAnswer _).bind fun _ => keeps_onTypes (TypeNames.files_addOne _)

/-- Once the qualified names are those that are left and those that are referred to as classes,
adding the former as classes covers all of them. -/
lemma forM_addClass_ends (xs : List Value) (h : Kept p b) (hxs : ∀ v ∈ xs, v ∈ b.types.referenced)
    (hb : ∀ v ∈ b.types.referenced, v ∈ xs ∨ ∃ r ∈ b.refs.resourceRefs,
      r.type = .className ∧ (r.name = v ∨ r.name.same v = true)) :
    (xs.forM fun name => onRefs (·.addResourceRef name .className)).Ends b
      (fun _ c => Kept p c ∧ Covered c) fun _ c => Kept p c := by
  refine Step.Ends.forM (fun xs c => Kept p c ∧ (∀ v ∈ xs, v ∈ c.types.referenced) ∧
    ∀ v ∈ c.types.referenced, v ∈ xs ∨ ∃ r ∈ c.refs.resourceRefs,
      r.type = .className ∧ (r.name = v ∨ r.name.same v = true)) ?_ ?_ xs b ⟨h, hxs, hb⟩
  · rintro name xs c ⟨hc, hmem, hcov⟩
    refine .bind (Step.ends_get.mpr (.bind (Step.ends_ofAnswer.mpr
      ⟨fun refs hrefs => Step.ends_set.mpr ?_, fun _ _ => hc⟩)))
    obtain rfl := Collector.addResourceRef_eq_ok hrefs
    refine ⟨hc.addReference { name, type := .className } fun _ => hmem name (by simp),
      fun v hv => hmem v (by simp [hv]), fun v hv => ?_⟩
    rcases hcov v hv with hv | ⟨r, hr, hclass⟩
    · rcases List.mem_cons.mp hv with rfl | hv
      · obtain ⟨r, hr, rfl | hsame⟩ := exists_mem_addNew ResourceReference.same
          c.refs.resourceRefs { name := v, type := .className }
        · exact .inr ⟨_, hr, rfl, .inl rfl⟩
        · simp only [ResourceReference.same, Bool.and_eq_true, beq_iff_eq] at hsame
          exact .inr ⟨r, hr, hsame.1, .inr hsame.2⟩
      · exact .inl hv
    · exact .inr ⟨r, subset_addNew _ r hr, hclass⟩
  · rintro c ⟨hc, -, hcov⟩
    exact ⟨hc, fun v hv => (hcov v hv).resolve_left List.not_mem_nil⟩

lemma resolveTypes_keeps (h : Kept p b) :
    resolveTypes.Ends b (fun _ c => Kept p c ∧ Covered c) fun _ c => Kept p c := by
  refine .bind (Step.ends_get.mpr (.bind ?_))
  refine (keeps_onTypes b.resolver.files_resolve b h).imp (fun forced c hc => ?_)
    fun _ _ => id
  refine .bind (Step.ends_modify.mpr (.bind (Step.ends_get.mpr ?_)))
  exact forM_addClass_ends _ (hc.congr hc.phase rfl rfl rfl) (fun _ => id) fun _ => .inl

lemma keeps_visitSignals (names : List String) : (visitSignals names).Keeps fun b =>
    Kept p b ∧ Covered b := by
  refine (filing_kept.visitSignals names).and (.forM (fun _ => ?_) names)
  refine keeps_onRefs fun b refs h hrefs => ?_
  obtain rfl := Collector.addShared_eq_ok hrefs
  exact h

lemma keeps_visitFunctionImports (imports : Value) :
    (visitFunctionImports imports).Keeps fun b => Kept p b ∧ Covered b := by
  have hadd : ∀ v, (onRefs (·.addResourceRef v .function)).Keeps Covered := fun v =>
    keeps_onRefs fun b refs h hrefs => by
      obtain rfl := Collector.addResourceRef_eq_ok hrefs
      exact fun w hw => let ⟨r, hr, hclass⟩ := h w hw; ⟨r, subset_addNew _ r hr, hclass⟩
  refine Step.Keeps.ite ((Step.keeps_ofAnswer _).bind fun xs => .forM (fun v => ?_) xs)
    (Step.keeps_pure _)
  refine Step.keeps_get.bind fun _ => (Step.keeps_ofAnswer _).bind fun _ => ?_
  exact Step.Keeps.ite ((keeps_addResourceRef v (by decide)).and (hadd v)) (Step.keeps_pure _)

end Kept

end Build

/-! ### The index that is returned -/

/-- The index is that of the process and holds nothing twice; its classes are the references to
classes. -/
structure Index.Tidy (p : ProcessDefinition) (i : Index) : Prop where
  processId : i.processId = p.id
  processName : i.processName = p.name
  resources : ∃ parts, i.resources = p.resources parts true ∧ Distinct Part.same parts ∧
    ∀ q ∈ parts, q.type = .var
  shared : Distinct SharedReference.same i.shared
  references : Distinct ResourceReference.same i.resourceRefs
  classes : Distinct Value.same i.classes
  backed : ∀ r ∈ i.resourceRefs, r.type = .className → r.name ∈ i.classes
  covered : ∀ v ∈ i.classes, ∃ r ∈ i.resourceRefs,
    r.type = .className ∧ (r.name = v ∨ r.name.same v = true)

namespace Build

section Calls

variable {p : ProcessDefinition} {b : Build} {i : Index}

lemma Kept.tidy_indexOf (h : Kept p b) (hcov : Covered b) :
    (indexOf { b with refs := b.refs.freeze } p).Tidy p where
  processId := rfl
  processName := rfl
  resources := by
    obtain ⟨parts, hres, hparts⟩ := h.resources
    exact ⟨parts, Collector.freeze_own hres, hparts⟩
  shared := h.shared
  references := h.references
  classes := h.classes
  backed := h.backed
  covered := hcov

/-- **The last call**: it returns a tidy index and completes the build, or fails and keeps it. -/
lemma buildComplete_keeps (hid : p.id.isText) (h : Kept p b) : (buildComplete p).Ends b
    (fun i c => i.Tidy p ∧ c.phase = .completed) fun _ c => Kept p c := by
  refine .bind ((keeps_require _ b h).imp (fun _ b h => ?_) fun _ _ => id)
  refine .bind (Step.ends_get.mpr (.bind ?_))
  refine (Step.Keeps.forM (fun c => filing_kept.visitDialect p.metadata c) _ b h).imp
    (fun _ c h => ?_) fun _ _ => id
  refine .bind ((Step.Keeps.forM (keeps_visitVariable hid) b.vars c h).imp (fun _ c h => ?_)
    fun _ _ => id)
  refine .bind ((resolveTypes_keeps h).imp (fun _ c h => ?_) fun _ _ => id)
  refine .bind ((keeps_visitSignals b.signals c h).imp (fun _ c h => ?_) fun _ _ => And.left)
  refine .bind ((keeps_visitSignals b.messages c h).imp (fun _ c h => ?_) fun _ _ => And.left)
  refine .bind ((keeps_visitFunctionImports p.functionImports c h).imp (fun _ c h => ?_)
    fun _ _ => And.left)
  obtain ⟨parts, hparts, -⟩ := h.1.resources
  exact close_ends h.1.own hparts hid fun i hi => ⟨hi ▸ h.1.tidy_indexOf h.2, rfl⟩

/-- What is returned carries the id and the name of the process. -/
lemma buildComplete_names (b : Build) : (buildComplete p).Ends b
    (fun i _ => i.processId = p.id ∧ i.processName = p.name) fun _ _ => True := by
  have hany : ∀ {α : Type} (step : Step Build α) (b : Build) {Q : α → Build → Prop},
      (∀ a c, Q a c) → step.Ends b Q fun _ _ => True := fun step b _ hQ =>
    (Step.ends_any step b).imp (fun a c _ => hQ a c) fun _ _ => id
  refine .bind (hany _ b fun _ c => .bind (Step.ends_get.mpr (.bind (hany _ c fun _ d => ?_))))
  refine .bind (hany _ d fun _ d => .bind (hany _ d fun _ d => .bind (hany _ d fun _ d => ?_)))
  refine .bind (hany _ d fun _ d => .bind (hany _ d fun _ d => .bind (hany _ d fun _ d => ?_)))
  refine .bind (Step.ends_get.mpr (.bind (hany _ _ fun _ e => .bind (hany _ e fun _ e => ?_))))
  exact .bind (hany _ e fun _ e => Step.ends_pure.mpr ⟨rfl, rfl⟩)

end Calls

end Build

/-! ### Any sequence of calls -/

/-- A call on the build of a process. -/
inductive Call where
  | processAdded
  | observed (o : Observation)
  | complete
  | buildComplete

/-- What a call does to the build of a process. -/
def Call.step (p : ProcessDefinition) : Call → Step Build Unit
  | processAdded => Build.processAdded p
  | observed o => o.call
  | complete => Build.complete p
  | buildComplete => Build.buildComplete p >>= fun _ => pure ()

namespace Build

/-- The build after several calls, whether it accepted each of them or refused it. -/
def called (p : ProcessDefinition) (b : Build) (calls : List Call) : Build :=
  calls.foldl (fun b c => (c.step p).after b) b

/-- Where the build of a process can be: fresh, under way, or over. -/
inductive Stage (p : ProcessDefinition) (r : Resolver) (d : DialectRegistry) (w : Value)
    (b : Build) : Prop
  | fresh (h : b = start r d w)
  | underway (h : Kept p b)
  | over (h : b.phase = .completed)

section Stages

variable {p : ProcessDefinition} {r : Resolver} {d : DialectRegistry} {w : Value} {b : Build}

/-- A call outside its phase is refused and changes nothing. -/
lemma refused_ends {α : Type} {call : Callback} {next : PUnit → Step Build α}
    {Q : α → Build → Prop} (h : b.phase ≠ call.admits) :
    (require call >>= next).Ends b Q fun _ c => c = b := by
  refine .bind (.bind (Step.ends_get.mpr ?_))
  rw [if_neg h]
  exact Step.ends_throw.mpr rfl

/-- A call that keeps what a build under way keeps leads from stage to stage, if it is not the first
or the last one. -/
lemma keeps_stage_of_middle {α : Type} {call : Callback} {next : PUnit → Step Build α}
    (hcall : call.admits ≠ .created ∧ call.admits ≠ .completed)
    (h : (require call >>= next).Keeps (Kept p)) :
    (require call >>= next).Keeps (Stage p r d w) := by
  rintro b (rfl | hb | hb)
  · exact (refused_ends hcall.1.symm).imp (fun _ _ h => h) fun _ _ h => h ▸ .fresh rfl
  · exact (h b hb).imp (fun _ _ h => .underway h) fun _ _ h => .underway h
  · exact (refused_ends (hb ▸ hcall.2.symm)).imp (fun _ _ h => h) fun _ _ h => h ▸ .over hb

/-- **Every call** leads from stage to stage, accepted or refused. -/
lemma keeps_stage (hid : p.id.isText) (hname : p.name.isText) (c : Call) :
    (c.step p).Keeps (Stage p r d w) := by
  cases c with
  | processAdded =>
      rintro b (rfl | hb | hb)
      · refine (processAdded_ends hid hname).imp (fun _ b h => ?_) fun _ _ => False.elim
        exact .underway (Kept.of_gathered h.1 (by rw [h.2]; simp))
      · exact (refused_ends hb.phase).imp (fun _ _ h => h) fun _ _ h => h ▸ .underway hb
      · exact (refused_ends (by simp [hb, Callback.admits])).imp (fun _ _ h => h) fun _ _ h =>
          h ▸ .over hb
  | observed o =>
      cases o with
      | node v => exact keeps_stage_of_middle (by decide) (keeps_nodeAdded v)
      | metadata key data => exact keeps_stage_of_middle (by decide) (keeps_metadataAdded key data)
  | complete => exact keeps_stage_of_middle (by decide) (keeps_complete p)
  | buildComplete =>
      rintro b (rfl | hb | hb)
      · have hphase : (start r d w).phase ≠ Callback.buildComplete.admits := nofun
        exact .bind ((refused_ends hphase).imp (fun _ _ h => h) fun _ _ h => h ▸ .fresh rfl)
      · exact .bind ((buildComplete_keeps hid hb).imp (fun _ _ h => Step.ends_pure.mpr (.over h.2))
          fun _ _ h => .underway h)
      · exact .bind ((refused_ends (by simp [hb, Callback.admits])).imp (fun _ _ h => h)
          fun _ _ h => h ▸ .over hb)

/-- **Any calls** lead from a fresh build to one of the stages. -/
theorem stage_called (hid : p.id.isText) (hname : p.name.isText) :
    ∀ (calls : List Call) {b : Build}, Stage p r d w b → Stage p r d w (b.called p calls)
  | [], _, h => h
  | c :: calls, _, h => stage_called hid hname calls ((keeps_stage hid hname c).after h)

end Stages

end Build

/-- After some calls on a fresh build of the process, in any order, the last call returns the index.
-/
def ProcessDefinition.Returns (p : ProcessDefinition) (i : Index) : Prop :=
  ∃ r d w calls,
    ((Build.buildComplete p).outcome ((Build.start r d w).called p calls)).1 = .ok i

namespace ProcessDefinition.Returns

variable {p : ProcessDefinition} {i : Index}

lemma names (h : p.Returns i) : i.processId = p.id ∧ i.processName = p.name := by
  obtain ⟨r, d, w, calls, h⟩ := h
  exact (Build.buildComplete_names _).of_outcome_ok h

/-- **What is returned is tidy**, after any calls. -/
theorem tidy (h : p.Returns i) (hid : i.processId.isText) (hname : i.processName.isText) :
    i.Tidy p := by
  rw [h.names.1] at hid
  rw [h.names.2] at hname
  obtain ⟨r, d, w, calls, h⟩ := h
  have hends : (Build.buildComplete p).Ends ((Build.start r d w).called p calls)
      (fun i _ => i.Tidy p) fun _ _ => True := by
    have hstage : Build.Stage p r d w _ := Build.stage_called hid hname calls (.fresh rfl)
    rcases hstage with hb | hb | hb
    · exact (Build.refused_ends (by rw [hb]; nofun)).imp (fun _ _ h => h) fun _ _ _ => trivial
    · exact (Build.buildComplete_keeps hid hb).imp (fun _ _ h => h.1) fun _ _ _ => trivial
    · exact (Build.refused_ends (by simp [hb, Callback.admits])).imp (fun _ _ h => h) fun _ _ _ =>
        trivial
  exact hends.of_outcome_ok h

end ProcessDefinition.Returns

/-! ### Processes that declare nothing -/

/-- The process that declares nothing but its id and its name. -/
def ProcessDefinition.bare (x y : String) : ProcessDefinition := { id := .text x, name := .text y }

lemma ProcessDefinition.named_bare (x y : String) : (bare x y).Named where
  id := rfl
  name := rfl
  globals := by simp [bare, Value.fields, Value.entries?]
  imports := by simp [bare, Value.elements, Value.members?]
  functions := by simp [bare, Value.elements, Value.members?]

namespace Build

variable {x y : String} {b : Build}

lemma readable_bare (h : b.items = []) : b.Readable (.bare x y) := by
  simp [Readable, h, ProcessDefinition.bare, Value.Mappable, Value.Iterable, Value.truthy,
    Value.fields, Value.entries?, Value.elements, Value.members?]

lemma read_bare (h : b.items = []) : b.read (.bare x y) = ∅ := by
  ext f
  simp [read, itemFindings, itemNames, globalFindings, importFindings, h, Finding.ofTypeNames,
    ProcessDefinition.bare, Value.fields, Value.entries?, Value.elements, Value.members?]

lemma told_bare (hdialects : b.dialects = {}) (h : b.vars = []) : b.told (.bare x y) = ∅ := by
  ext f
  simp [told, dialectFindings, variableFindings, variableNames, h, hdialects, Finding.ofTypeNames]

lemma closing_bare (hsignals : b.signals = []) (hmessages : b.messages = []) :
    b.closing (.bare x y) = ∅ := by
  ext f
  simp [closing, signalFindings, functionFindings, hsignals, hmessages, ProcessDefinition.bare,
    Value.elements, Value.members?]

lemma settle_empty (r : Resolver) : r.settle ∅ = ∅ := by
  have hnames : r.classNames ∅ = ∅ := by
    simp [Resolver.classNames, Resolver.resolved, Resolver.pending]
  ext f
  cases f <;> simp [Resolver.settle, Resolver.sift, hnames]

/-- The build of a process that declares nothing, when the process has been read. -/
lemma called_bare (x y : String) :
    Gathered (.bare x y) ∅ ((start {} {} .null).called (.bare x y) [.processAdded, .complete]) ∧
      Beside { start {} {} .null with phase := .compiled, own := some (.text x) }
        ((start {} {} .null).called (.bare x y) [.processAdded, .complete]) := by
  have hp := ProcessDefinition.named_bare x y
  change Gathered _ _ ((complete (.bare x y)).after (opened (.bare x y) {} {} .null)) ∧
    Beside _ ((complete (.bare x y)).after (opened (.bare x y) {} {} .null))
  obtain ⟨hF, hbeside⟩ := Step.Ends.after ((processAdded_ends (r := {}) (d := {}) (w := .null) hp.id
    hp.name).imp (fun _ _ => id) fun _ _ => False.elim)
  change Gathered _ _ (opened (.bare x y) {} {} .null) at hF
  change Beside _ (opened (.bare x y) {} {} .null) at hbeside
  have hb : (opened (.bare x y) {} {} .null).items = [] ∧
      (opened (.bare x y) {} {} .null).vars = [] ∧
      (opened (.bare x y) {} {} .null).phase = .building := by
    rw [hbeside]
    exact ⟨rfl, rfl, rfl⟩
  obtain ⟨hitems, hvars, hphase⟩ := hb
  have hends := complete_ends ⟨hp, by simp [hitems], by simp [hvars]⟩ hphase hF
  rw [read_bare hitems, Set.union_empty] at hends
  obtain ⟨hF', hbeside'⟩ := Step.Ends.after (hends.imp (fun _ _ h => h.2)
    fun _ _ hno => absurd (readable_bare hitems) hno)
  refine ⟨hF', ?_⟩
  rw [hbeside] at hbeside' ⊢
  exact hbeside'

end Build

/-- **A process that declares nothing** is indexed without references. -/
theorem ProcessDefinition.returns_bare (x y : String) :
    ∃ i, (bare x y).Returns i ∧ i.Shows (bare x y) ∅ := by
  have hp := named_bare x y
  obtain ⟨hF, hbeside⟩ := Build.called_bare x y
  set b := (Build.start {} {} .null).called (bare x y) [.processAdded, .complete]
  have hb : b.phase = .compiled ∧ b.dialects = {} ∧ b.items = [] ∧ b.vars = [] ∧
      b.signals = [] ∧ b.messages = [] := by
    rw [hbeside]
    exact ⟨rfl, rfl, rfl, rfl, rfl, rfl⟩
  obtain ⟨hphase, hdialects, hitems, hvars, hsignals, hmessages⟩ := hb
  have htellable : b.Tellable (bare x y) := ⟨by simp [hdialects], by simp [hvars]⟩
  have hresolves : b.resolver.Resolves {n | .qualified n ∈ (∅ : Set Finding)}
      {n | .bare n ∈ (∅ : Set Finding)} := by simp [Resolver.Resolves, Resolver.pending]
  have hclosable : b.Closable (bare x y) := by
    simp [Build.Closable, bare, Value.Iterable, Value.truthy, Value.elements, Value.members?]
  have hends := Build.buildComplete_ends ⟨hp, by simp [hitems], by simp [hvars]⟩ hphase hF
  rw [Build.told_bare hdialects hvars, Set.union_empty, Build.settle_empty,
    Build.closing_bare hsignals hmessages, Set.union_empty] at hends
  obtain ⟨i, hi, -, hshows, -⟩ := (hends.imp (fun _ _ h => h)
    fun _ _ hno => hno ⟨htellable, hresolves, hclosable⟩).exists_outcome_ok
  exact ⟨i, ⟨{}, {}, .null, [.processAdded, .complete], hi⟩, hshows⟩

end Concordance
