import Concordance.Pipeline
import Concordance.Proofs.Finish

/-!
Whole builds: from a fresh build through the calls of a compiler to the index.

* `Build.processAdded_ends` : the first call registers a process with texts for id and name.
* `ProcessDefinition.observations` : what a compiler tells of a process, in its order;
  `ProcessDefinition.Accepted` : a compiler can read the process. `Build.replay_exact` : replaying a
  process is hearing these observations, and fails exactly if it cannot be read.
-/

namespace Concordance

namespace Build

section Start

variable {p : ProcessDefinition} {r : Resolver} {d : DialectRegistry} {w : Value}

/-- The build of a process before anything is observed. -/
def opened (p : ProcessDefinition) (r : Resolver) (d : DialectRegistry) (w : Value) : Build :=
  (processAdded p).after (start r d w)

/-- A change of the references that is not refused. -/
lemma ends_onRefs {b : Build} {change : Collector → Answer Collector} {refs : Collector}
    {Q : Unit → Build → Prop} {E : Fault → Build → Prop} (h : change b.refs = .ok refs)
    (hQ : Q () { b with refs }) : (onRefs change).Ends b Q E := by
  refine .bind (Step.ends_get.mpr (.bind ?_))
  rw [h]
  exact Step.ends_ofAnswer_ok.mpr (Step.ends_set.mpr hQ)

/-- The first call registers the process under its id and its name. -/
lemma processAdded_ends (hid : p.id.isText) (hname : p.name.isText) :
    (processAdded p).Ends (start r d w)
      (fun _ b => Gathered p ∅ b ∧
        Beside { start r d w with phase := .building, own := some p.id } b)
      fun _ _ => False := by
  obtain ⟨s, hs⟩ := Value.isText_iff.mp hid
  obtain ⟨n, hn⟩ := Value.isText_iff.mp hname
  have hfirst : Collector.addResource {} p.id .processId =
      .ok { resources := [{ id := p.id, type := .processId }] } := by
    simp [Collector.addResource, hs, Collector.find?]
  refine .bind (ends_require rfl (.bind (Step.ends_modify.mpr (.bind (Step.ends_log.mpr ?_)))))
  refine .bind (ends_onRefs hfirst (.bind (Step.ends_modify.mpr ?_)))
  by_cases hne : p.name.truthy
  · have hsecond : Collector.addResource { resources := [{ id := p.id, type := .processId }] }
        p.name .processName = .ok { resources := p.resources [] false } := by
      simp [Collector.addResource, hn, Collector.find?, ProcessDefinition.resources, hn ▸ hne]
    rw [if_pos hne]
    refine ends_onRefs hsecond ⟨⟨rfl, ⟨[], rfl, ?_⟩, ?_, ?_, rfl, ?_, ?_⟩, rfl⟩ <;>
      exact Enumerates.nil
  · rw [if_neg hne]
    have hres : p.resources [] false = [{ id := p.id, type := .processId }] := by
      simp [ProcessDefinition.resources, hne]
    refine Step.ends_pure.mpr ⟨⟨rfl, ⟨[], hres.symm, ?_⟩, ?_, ?_, rfl, ?_, ?_⟩, rfl⟩ <;>
      exact Enumerates.nil

/-- What a build knows after a process was added and observations were heard. -/
lemma opened_hear (hid : p.id.isText) (hname : p.name.isText) {obs : List Observation}
    (hobs : ∀ o ∈ obs, o.Nameable) : Gathered p (heardFindings obs) ((opened p r d w).hear obs) ∧
      (noting { start r d w with phase := .building, own := some p.id } obs).Beside
        ((opened p r d w).hear obs) := by
  obtain ⟨hG, hbeside⟩ := Step.Ends.after ((processAdded_ends (r := r) (d := d) (w := w) hid
    hname).imp (fun _ _ => id) fun _ _ => False.elim)
  have hphase : (opened p r d w).phase = .building := by
    change ((processAdded p).after (start r d w)).phase = _
    rw [hbeside]
  obtain ⟨hG', hbeside'⟩ := hear_gathered obs hphase hG hobs
  exact ⟨by simpa using hG', (hbeside.noting obs).trans hbeside'⟩

end Start

/-! ### Calls that do not read the log -/

lemma quiet_onRefs (change : Collector → Answer Collector) : (onRefs change).Quiet :=
  Step.quiet_get.bind fun _ => (Step.quiet_ofAnswer _).bind fun _ => Step.quiet_set _

lemma quiet_require (call : Callback) : (require call).Quiet :=
  Step.quiet_get.bind fun _ => (Step.quiet_pure _).ite (Step.quiet_throw _)

lemma quiet_processAdded (p : ProcessDefinition) : (processAdded p).Quiet := by
  refine (quiet_require _).bind fun _ => (Step.quiet_modify _).bind fun _ => ?_
  refine (Step.quiet_log _).bind fun _ => (quiet_onRefs _).bind fun _ => ?_
  exact (Step.quiet_modify _).bind fun _ => (quiet_onRefs _).ite (Step.quiet_pure _)

lemma quiet_nodeAdded (v : Value) : (nodeAdded v).Quiet := by
  refine (quiet_require _).bind fun _ => ?_
  split
  · exact Step.quiet_pure _
  · exact quiet_onRefs _
  · exact (quiet_onRefs _).ite (Step.quiet_pure _)
  · exact ((quiet_onRefs _).bind fun _ => (quiet_onRefs _).ite (Step.quiet_pure _)).ite
      ((quiet_onRefs _).ite (Step.quiet_pure _))
  · exact Step.quiet_pure _

end Build

/-! ### Replaying a process -/

/-- The observation that a compiler makes of a collection, if it is present. -/
def Observation.offered {α : Type} (v : Value) (a : Answer α) (o : α → Observation) :
    List Observation :=
  if v.truthy then a.toOption.toList.map o else []

/-- What a compiler tells of a process, in its order. -/
def ProcessDefinition.observations (p : ProcessDefinition) : List Observation :=
  p.nodes.elements.map .node ++ p.vars.elements.map (.metadata Build.variableKey) ++
    Observation.offered p.itemDefinitions p.itemDefinitions.entriesOf?
      (fun es => .metadata Build.itemsKey (.dict es)) ++
    Observation.offered p.signals p.signals.toSet?
      (fun xs => .metadata Build.signalsKey (.set false xs)) ++
    Observation.offered p.messages p.messages.entriesOf?
      (fun es => .metadata Build.messagesKey (.dict es))

/-- A compiler can read the process: its collections are such, and all observations decode. -/
structure ProcessDefinition.Accepted (p : ProcessDefinition) : Prop where
  nodes : p.nodes.members?.isSome
  vars : p.vars.members?.isSome
  items : p.itemDefinitions.truthy → ∃ es, p.itemDefinitions.entriesOf? = .ok es
  signals : p.signals.truthy → ∃ xs, p.signals.toSet? = .ok xs
  messages : p.messages.truthy → ∃ es, p.messages.entriesOf? = .ok es
  decodes : ∀ o ∈ p.observations, o.Decodes

namespace Build

section Replay

variable {p : ProcessDefinition} {r : Resolver} {d : DialectRegistry} {w : Value}
  {obs : List Observation}

lemma hear_append (b : Build) (obs more : List Observation) :
    b.hear (obs ++ more) = (b.hear obs).hear more := List.foldl_append

/-- A call is heard, and it is accepted exactly if it can be decoded. -/
lemma call_ends (hid : p.id.isText) (hname : p.name.isText) (hobs : ∀ o ∈ obs, o.Nameable)
    {o : Observation} (ho : o.Nameable) : o.call.Ends ((opened p r d w).hear obs)
      (fun _ b => b = (opened p r d w).hear (obs ++ [o]) ∧ o.Decodes) fun _ _ => ¬o.Decodes := by
  obtain ⟨hG, hbeside⟩ := opened_hear (r := r) (d := d) (w := w) hid hname hobs
  have hphase : ((opened p r d w).hear obs).phase = .building := by rw [hbeside]; rfl
  rw [hear_append]
  cases o with
  | node v =>
      have hadds := adds_nodeAdded hphase (ho v rfl) _ _ hG (Beside.refl _)
      exact (((quiet_nodeAdded v).ends _).and hadds).imp (fun _ _ h => ⟨h.1, trivial⟩)
        fun _ _ h => absurd trivial h.2
  | metadata key data =>
      have hends := metadataAdded_ends hphase key data
      have hafter := Step.Ends.after (hends.imp (fun _ _ h => h.1) fun _ _ h => h.1)
      exact hends.imp (fun _ _ h => ⟨h.1.trans hafter.symm, h.2⟩) fun _ _ h => h.2.1

/-- Calls one after another. -/
lemma forM_call_ends (hid : p.id.isText) (hname : p.name.isText) {β : Type} {o : β → Observation} :
    ∀ {xs : List β} {obs : List Observation}, (∀ a ∈ obs, a.Nameable) →
      (∀ x ∈ xs, (o x).Nameable) → (xs.forM fun x => (o x).call).Ends ((opened p r d w).hear obs)
        (fun _ b => b = (opened p r d w).hear (obs ++ xs.map o) ∧ ∀ x ∈ xs, (o x).Decodes)
        fun _ _ => ¬∀ x ∈ xs, (o x).Decodes
  | [], obs, _, _ => Step.ends_pure.mpr ⟨by simp, by simp⟩
  | x :: xs, obs, hobs, hxs => by
      refine .bind ((call_ends hid hname hobs (hxs x (by simp))).imp (fun _ b h => ?_)
        fun _ _ hno hall => hno (hall x (by simp)))
      obtain ⟨rfl, hdec⟩ := h
      have hmore : ∀ a ∈ obs ++ [o x], a.Nameable := by
        simpa [or_imp, forall_and] using ⟨hobs, hxs x (by simp)⟩
      refine (forM_call_ends hid hname hmore fun y hy => hxs y (by simp [hy])).imp
        (fun _ b h => ?_) fun _ _ hno hall => hno fun y hy => hall y (by simp [hy])
      obtain ⟨rfl, hdecs⟩ := h
      exact ⟨by simp, by simpa using ⟨hdec, hdecs⟩⟩

/-- A call about a collection that may be absent, and what comes after it. -/
lemma offered_ends (hid : p.id.isText) (hname : p.name.isText) (hobs : ∀ a ∈ obs, a.Nameable)
    {α β : Type} {v : Value} {a : Answer α} {o : α → Observation} {next : PUnit → Step Build β}
    {Q : β → Build → Prop} {E : Prop} (ho : ∀ x, (o x).Nameable)
    (hmade : ¬(v.truthy → ∃ x, a = .ok x) → E)
    (hdecodes : ¬(∀ x ∈ Observation.offered v a o, x.Decodes) → E)
    (h : (v.truthy → ∃ x, a = .ok x) → (∀ x ∈ Observation.offered v a o, x.Decodes) →
      (next ⟨⟩).Ends ((opened p r d w).hear (obs ++ Observation.offered v a o)) Q fun _ _ => E) :
    Step.Ends (if v.truthy then Step.ofAnswer a >>= fun x => (o x).call >>= next else next ⟨⟩)
      ((opened p r d w).hear obs) Q fun _ _ => E := by
  by_cases hv : v.truthy
  · rw [if_pos hv]
    refine .bind (Step.ends_ofAnswer.mpr ⟨fun x hx => ?_, fun e he => hmade fun hall => ?_⟩)
    · have hoffered : Observation.offered v a o = [o x] := by
        simp [Observation.offered, hv, hx, Except.toOption]
      rw [hoffered] at h hdecodes
      refine .bind ((call_ends hid hname hobs (ho x)).imp (fun _ b hb => ?_) fun _ _ hno =>
        hdecodes fun hall => hno (hall _ (by simp)))
      obtain ⟨rfl, hdec⟩ := hb
      exact h (fun _ => ⟨x, hx⟩) (by simpa using hdec)
    · obtain ⟨x, hx⟩ := hall hv
      cases he.symm.trans hx
  · rw [if_neg hv]
    have hoffered : Observation.offered v a o = [] := by simp [Observation.offered, hv]
    simpa [hoffered] using h (fun hyes => absurd hyes hv) (by simp [hoffered])

/-- A call about a collection that may be absent. -/
lemma offered_ends_last (hid : p.id.isText) (hname : p.name.isText) (hobs : ∀ a ∈ obs, a.Nameable)
    {α : Type} {v : Value} {a : Answer α} {o : α → Observation} {E : Prop}
    (ho : ∀ x, (o x).Nameable) (hmade : ¬(v.truthy → ∃ x, a = .ok x) → E)
    (hdecodes : ¬(∀ x ∈ Observation.offered v a o, x.Decodes) → E) :
    Step.Ends (if v.truthy then Step.ofAnswer a >>= fun x => (o x).call else Pure.pure ⟨⟩)
      ((opened p r d w).hear obs)
      (fun _ b => b = (opened p r d w).hear (obs ++ Observation.offered v a o) ∧
        (v.truthy → ∃ x, a = .ok x) ∧ ∀ x ∈ Observation.offered v a o, x.Decodes)
      fun _ _ => E := by
  have hends : Step.Ends (if v.truthy
      then Step.ofAnswer a >>= fun x => (o x).call >>= Pure.pure else Pure.pure ⟨⟩)
      ((opened p r d w).hear obs)
      (fun _ b => b = (opened p r d w).hear (obs ++ Observation.offered v a o) ∧
        (v.truthy → ∃ x, a = .ok x) ∧ ∀ x ∈ Observation.offered v a o, x.Decodes) fun _ _ => E :=
    offered_ends hid hname hobs ho hmade hdecodes fun hok hdec =>
      Step.ends_pure.mpr ⟨rfl, hok, hdec⟩
  simpa only [bind_pure] using hends

/-- What can be iterated gives its elements. -/
lemma ends_items {α : Type} {v : Value} {b : Build} {f : List Value → Step Build α}
    {Q : α → Build → Prop} {E : Prop} (hmembers : ¬v.members?.isSome → E)
    (h : v.members?.isSome → (f v.elements).Ends b Q fun _ _ => E) :
    (Step.ofAnswer v.items? >>= f).Ends b Q fun _ _ => E := by
  refine .bind (Step.ends_ofAnswer.mpr ?_)
  rw [Value.elements] at h
  rw [Value.items?]
  rcases hm : v.members? with _ | xs
  · rw [hm] at hmembers
    refine ⟨fun ys hys => ?_, fun _ _ => hmembers Bool.false_ne_true⟩
    cases hys
  · rw [hm] at h
    refine ⟨fun ys hys => ?_, fun e he => ?_⟩
    · cases hys
      exact h rfl
    · cases he

lemma nameable_metadata (key : String) (data : Value) :
    (Observation.metadata key data).Nameable := fun _ hv => nomatch hv

lemma nameable_offered {α : Type} {v : Value} {a : Answer α} {o : α → Observation}
    (ho : ∀ x, (o x).Nameable) : ∀ b ∈ Observation.offered v a o, b.Nameable := fun b hb => by
  unfold Observation.offered at hb
  split at hb
  · obtain ⟨x, -, rfl⟩ := List.mem_map.mp hb
    exact ho x
  · cases hb

/-- **Replaying a process** is hearing what it declares, and fails exactly if a compiler cannot read
the process. -/
theorem replay_exact (hid : p.id.isText) (hname : p.name.isText)
    (hnodes : ∀ v ∈ p.nodes.elements, NodeNameable v) :
    (Pipeline.replay p).Ends (start r d w)
      (fun _ b => b = (opened p r d w).hear p.observations ∧ p.Accepted)
      fun _ _ => ¬p.Accepted := by
  have hopen : (Build.processAdded p).Ends (start r d w)
      (fun _ b => b = (opened p r d w).hear []) fun _ _ => False :=
    (((quiet_processAdded p).ends (start r d w)).and (processAdded_ends hid hname)).imp
      (fun _ _ h => h.1) fun _ _ h => h.2
  refine .bind (hopen.imp ?_ fun _ _ => False.elim)
  rintro _ b rfl
  -- nodes
  have hnode : ∀ v ∈ p.nodes.elements, (Observation.node v).Nameable := fun v hv w hw => by
    cases hw
    exact hnodes v hv
  refine ends_items (fun hno hp => hno hp.nodes) fun hnodes => .bind ?_
  refine (forM_call_ends hid hname (o := Observation.node) (by simp) hnode).imp ?_
    fun _ _ hno _ => hno fun _ _ => trivial
  rintro _ b ⟨rfl, hdec₁⟩
  have hobs₁ : ∀ o ∈ [] ++ p.nodes.elements.map Observation.node, o.Nameable := by
    simpa using hnode
  -- variables
  refine ends_items (fun hno hp => hno hp.vars) fun hvars => .bind ?_
  refine (forM_call_ends hid hname (o := Observation.metadata variableKey) hobs₁
    fun _ _ => nameable_metadata _ _).imp ?_ fun _ _ hno hp => hno fun v hv => hp.decodes _ ?_
  swap
  · simp [ProcessDefinition.observations, hv]
  rintro _ b ⟨rfl, hdec₂⟩
  have hobs₂ := List.forall_mem_append.mpr ⟨hobs₁, List.forall_mem_map.mpr
    fun v (_ : v ∈ p.vars.elements) => nameable_metadata variableKey v⟩
  -- item definitions, signals and messages
  refine offered_ends (o := fun es => Observation.metadata itemsKey (.dict es)) hid hname hobs₂
    (fun _ => nameable_metadata _ _) (fun hno hp => hno hp.items)
    (fun hno hp => hno fun o ho => hp.decodes o (by simp [ProcessDefinition.observations, ho]))
    fun hitems hdec₃ => ?_
  have hobs₃ := List.forall_mem_append.mpr ⟨hobs₂, nameable_offered (v := p.itemDefinitions)
    (a := p.itemDefinitions.entriesOf?) fun es => nameable_metadata itemsKey (.dict es)⟩
  refine offered_ends (o := fun xs => Observation.metadata signalsKey (.set false xs)) hid hname
    hobs₃ (fun _ => nameable_metadata _ _) (fun hno hp => hno hp.signals)
    (fun hno hp => hno fun o ho => hp.decodes o (by simp [ProcessDefinition.observations, ho]))
    fun hsignals hdec₄ => ?_
  have hobs₄ := List.forall_mem_append.mpr ⟨hobs₃, nameable_offered (v := p.signals)
    (a := p.signals.toSet?) fun xs => nameable_metadata signalsKey (.set false xs)⟩
  refine (offered_ends_last (o := fun es => Observation.metadata messagesKey (.dict es)) hid hname
    hobs₄ (fun _ => nameable_metadata _ _) (fun hno (hp : p.Accepted) => hno hp.messages)
    (fun hno hp => hno fun o ho => hp.decodes o
      (by simp [ProcessDefinition.observations, ho]))).imp ?_ fun _ _ => id
  rintro _ b ⟨rfl, hmessages, hdec₅⟩
  refine ⟨rfl, hnodes, hvars, hitems, hsignals, hmessages, ?_⟩
  simp only [ProcessDefinition.observations, List.forall_mem_append, List.forall_mem_map]
  exact ⟨⟨⟨⟨hdec₁, hdec₂⟩, hdec₃⟩, hdec₄⟩, hdec₅⟩

/-- **Replaying a process**, where it is accepted, is hearing what it declares, all of which can be
decoded. -/
theorem replay_ends (hid : p.id.isText) (hname : p.name.isText)
    (hnodes : ∀ v ∈ p.nodes.elements, NodeNameable v) :
    (Pipeline.replay p).Ends (start r d w)
      (fun _ b => b = (opened p r d w).hear p.observations ∧ ∀ o ∈ p.observations, o.Decodes)
      fun _ _ => True :=
  (replay_exact hid hname hnodes).imp (fun _ _ h => ⟨h.1, h.2.decodes⟩) fun _ _ _ => trivial

end Replay

end Build
end Concordance
