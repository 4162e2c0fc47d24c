import Concordance.Proofs.Agreement
import Concordance.Proofs.Contents

/-!
The order of events does not matter: a build depends on what was delivered, not on when or how
often.

* `Build.Alike` : two builds with the same settings, alike variables, the same items, and the same
  names of signals and messages. `Build.Alike.completed_eq`, `Build.Alike.completable` : such builds
  complete to the same findings, or both cannot be completed.
* `Observation.Equivalent` : two lists of observations that deliver the same nodes and variables,
  and the same items, signals and messages in the end.
* `Build.SameEnd` : two ends of a build that are both failures, or agree in the index and in the
  names that nothing resolves.
* `Build.finish_of_equivalent` : builds that heard equivalent observations end the same way, and
  replaying a process is hearing its observations.
-/

namespace Concordance

/-- Two variables that a build cannot tell apart: name, type, and the item they name. -/
def Variable.Alike (v w : Variable) : Prop :=
  v.name = w.name ∧ v.type = w.type ∧ v.itemSubject? = w.itemSubject?

/-- Two lists of variables that a build cannot tell apart, in any order and repetition. -/
def Variable.SameSet (vs ws : List Variable) : Prop :=
  (∀ v ∈ vs, ∃ w ∈ ws, v.Alike w) ∧ ∀ w ∈ ws, ∃ v ∈ vs, w.Alike v

/-- Two mappings with the same entries, in any order. -/
def Value.SameMapping (es fs : List (Value × Value)) : Prop :=
  (∀ e, e ∈ es ↔ e ∈ fs) ∧ ∀ k, lookup? es k = lookup? fs k

namespace Build

/-- Two builds with the same settings that hold the same. -/
structure Alike (b c : Build) : Prop where
  resolver : b.resolver = c.resolver
  dialects : b.dialects = c.dialects
  wildcard : b.wildcard = c.wildcard
  vars : Variable.SameSet b.vars c.vars
  items : Value.SameMapping b.items c.items
  signals : ∀ n, n ∈ b.signals ↔ n ∈ c.signals
  messages : ∀ n, n ∈ b.messages ↔ n ∈ c.messages

namespace Alike

variable {b c : Build} {p : ProcessDefinition} {F : Set Finding}

lemma symm (h : b.Alike c) : c.Alike b where
  resolver := h.resolver.symm
  dialects := h.dialects.symm
  wildcard := h.wildcard.symm
  vars := ⟨h.vars.2, h.vars.1⟩
  items := ⟨fun e => (h.items.1 e).symm, fun k => (h.items.2 k).symm⟩
  signals := fun n => (h.signals n).symm
  messages := fun n => (h.messages n).symm

/-! ### What the variables say -/

lemma variableType_eq (h : b.Alike c) {v w : Variable} (hvw : v.Alike w) :
    b.variableType v = c.variableType w := by
  unfold variableType
  simp only [hvw.2.1, hvw.2.2, h.items.2]

lemma typeName?_eq (h : b.Alike c) {v w : Variable} (hvw : v.Alike w) :
    v.typeName? b.items = w.typeName? c.items := by
  simp only [Variable.typeName?, Variable.itemName?, hvw.2.1, hvw.2.2, h.items.2]

lemma variableFindings_subset (h : b.Alike c) : b.variableFindings ⊆ c.variableFindings := by
  rintro f (⟨n, ⟨v, hv, hn⟩, rfl⟩ | hf)
  · obtain ⟨w, hw, hvw⟩ := h.vars.1 v hv
    exact .inl ⟨n, ⟨w, hw, hvw.1 ▸ hn⟩, rfl⟩
  · obtain ⟨n, ⟨v, hv, hn⟩, rfl⟩ := mem_ofTypeNames.mp hf
    obtain ⟨w, hw, hvw⟩ := h.vars.1 v hv
    rw [h.resolver]
    exact .inr (mem_ofTypeNames.mpr ⟨n, ⟨w, hw, h.typeName?_eq hvw ▸ hn⟩, rfl⟩)

/-! ### What a build finds -/

lemma read_eq (h : b.Alike c) : b.read p = c.read p := by
  simp only [read, itemFindings, itemNames, globalFindings, importFindings, h.resolver, h.items.1]

lemma told_eq (h : b.Alike c) : b.told p = c.told p := by
  rw [told, told, dialectFindings, dialectFindings, h.dialects,
    h.variableFindings_subset.antisymm h.symm.variableFindings_subset]

lemma closing_eq (h : b.Alike c) : b.closing p = c.closing p := by
  simp only [closing, signalFindings, functionFindings, h.signals, h.messages, h.wildcard]

/-- Alike builds complete to the same findings. -/
lemma completed_eq (h : b.Alike c) : b.completed p F = c.completed p F := by
  rw [completed, completed, h.read_eq, h.told_eq, h.closing_eq, h.resolver]

/-- Of alike builds, one can be completed if the other can. -/
lemma completable (h : b.Alike c) (hb : b.Completable p F) : c.Completable p F := by
  obtain ⟨⟨hitems, hglobals, himports⟩, ⟨hdialects, hvars⟩, hresolves, hclose⟩ := hb
  rw [h.resolver] at hitems hglobals himports hvars
  refine ⟨⟨fun e he => hitems e ((h.items.1 e).mpr he), hglobals, himports⟩,
    ⟨h.dialects ▸ hdialects, fun w hw => ?_⟩, ?_, ?_⟩
  · obtain ⟨v, hv, hwv⟩ := h.vars.2 w hw
    rw [h.symm.variableType_eq hwv]
    exact hvars v hv
  · rw [h.resolver, h.read_eq, h.told_eq] at hresolves
    exact hresolves
  · unfold Closable at hclose ⊢
    rwa [h.wildcard] at hclose

end Alike

/-! ### How a build ends -/

/-- Both builds failed, or their indexes agree and they leave the same names unresolved. -/
@[irreducible] def SameEnd : Answer Index × Build → Answer Index × Build → Prop
  | (.ok i, b), (.ok j, c) => i.Agree j ∧ b.unresolved = c.unresolved
  | (.error _, _), (.error _, _) => True
  | _, _ => False

variable {p : ProcessDefinition} {F : Set Finding}

/-- Alike builds that have found the same end the same way, whatever was logged before. -/
lemma Alike.sameEnd {b c : Build} (h : b.Alike c) (hname : p.name.isText) (hb : b.Nameable p)
    (hc : c.Nameable p) (hbphase : b.phase = .building) (hcphase : c.phase = .building)
    (hbF : Gathered p F b) (hcF : Gathered p F c) (lines more : List LogLine) :
    SameEnd (ExceptT.run (finish p) b lines).1 (ExceptT.run (finish p) c more).1 := by
  have h1 := (finish_ends hb hbphase hbF).apply lines
  have h2 := (finish_ends hc hcphase hcF).apply more
  rcases hr1 : (ExceptT.run (finish p) b lines).1 with ⟨e | i, b'⟩ <;>
    rcases hr2 : (ExceptT.run (finish p) c more).1 with ⟨e' | j, c'⟩ <;> rw [hr1] at h1 <;>
    rw [hr2] at h2 <;> unfold SameEnd
  · trivial
  · exact absurd (h.symm.completable h2.1) h1
  · exact absurd (h.completable h1.1) h2
  · obtain ⟨-, hi, hbun, hbord⟩ := h1
    obtain ⟨-, hj, hcun, hcord⟩ := h2
    rw [← h.completed_eq] at hj
    rw [← h.resolver, ← h.read_eq, ← h.told_eq] at hcun
    exact ⟨hi.agree hb.process.id hname hj, hbun.eq_of_ordered hcun hbord hcord⟩

end Build

/-! ### Equivalent observations -/

namespace Observation

/-- Two lists of observations deliver the same nodes and the same variables, in any order and
repetition, and in the end the same items, signals and messages. -/
structure Equivalent (obs obs' : List Observation) : Prop where
  nodes : ∀ v, v ∈ obs.filterMap node? ↔ v ∈ obs'.filterMap node?
  vars : Variable.SameSet (obs.filterMap var?) (obs'.filterMap var?)
  items : Value.SameMapping (lastOf items? obs []) (lastOf items? obs' [])
  signals : ∀ n, n ∈ lastOf signals? obs [] ↔ n ∈ lastOf signals? obs' []
  messages : ∀ n, n ∈ lastOf messages? obs [] ↔ n ∈ lastOf messages? obs' []

/-- The names among observations are texts, or null where they may be absent. -/
structure Legible (obs : List Observation) : Prop where
  nodes : ∀ v ∈ obs.filterMap node?, Build.NodeNameable v
  vars : ∀ v ∈ obs.filterMap var?, v.name.isText ∧ v.type.Nameable
  items : ∀ e ∈ lastOf items? obs [], ∀ s, Build.structureRef? e.2 = .ok s → s.Nameable

variable {obs obs' : List Observation}

/-- What is equivalent to something legible is legible. -/
lemma Equivalent.legible (h : Equivalent obs obs') (hobs : Legible obs) : Legible obs' where
  nodes := fun v hv => hobs.nodes v ((h.nodes v).mpr hv)
  vars := fun w hw => by
    obtain ⟨v, hv, hwv⟩ := h.vars.2 w hw
    rw [hwv.1, hwv.2.1]
    exact hobs.vars v hv
  items := fun e he => hobs.items e ((h.items.1 e).mpr he)

lemma Legible.nameable (h : Legible obs) : ∀ o ∈ obs, o.Nameable := fun o ho v hv =>
  h.nodes v (List.mem_filterMap.mpr ⟨o, ho, hv⟩)

lemma Equivalent.heardFindings_eq (h : Equivalent obs obs') :
    Build.heardFindings obs = Build.heardFindings obs' := by
  simp only [Build.heardFindings, h.nodes]

end Observation

namespace Build

variable {p : ProcessDefinition} {r : Resolver} {d : DialectRegistry} {w : Value}
  {obs obs' : List Observation}

/-- What a build holds after a process was added and observations were heard. -/
lemma opened_hear_nameable (hp : p.Named) (hobs : Observation.Legible obs) :
    ((opened p r d w).hear obs).Nameable p ∧ ((opened p r d w).hear obs).phase = .building := by
  rw [(opened_hear hp.id hp.name hobs.nameable).2]
  exact ⟨⟨hp, hobs.items, hobs.vars⟩, rfl⟩

lemma alike_of_equivalent (hp : p.Named) (hobs : Observation.Legible obs)
    (h : Observation.Equivalent obs obs') :
    ((opened p r d w).hear obs).Alike ((opened p r d w).hear obs') := by
  rw [(opened_hear hp.id hp.name hobs.nameable).2,
    (opened_hear hp.id hp.name (h.legible hobs).nameable).2]
  exact ⟨rfl, rfl, rfl, h.vars, h.items, h.signals, h.messages⟩

/-- Builds that heard equivalent observations end the same way, whatever was logged before. -/
lemma sameEnd_of_equivalent (hp : p.Named) (hobs : Observation.Legible obs)
    (h : Observation.Equivalent obs obs') (lines more : List LogLine) :
    SameEnd (ExceptT.run (finish p) ((opened p r d w).hear obs) lines).1
      (ExceptT.run (finish p) ((opened p r d w).hear obs') more).1 := by
  have hobs' := h.legible hobs
  obtain ⟨hb, hbphase⟩ := opened_hear_nameable (r := r) (d := d) (w := w) hp hobs
  obtain ⟨hc, hcphase⟩ := opened_hear_nameable (r := r) (d := d) (w := w) hp hobs'
  have hbF := (opened_hear (r := r) (d := d) (w := w) hp.id hp.name hobs.nameable).1
  have hcF := (opened_hear (r := r) (d := d) (w := w) hp.id hp.name hobs'.nameable).1
  rw [← h.heardFindings_eq] at hcF
  exact (alike_of_equivalent hp hobs h).sameEnd hp.name hb hc hbphase hcphase hbF hcF lines more

/-- **The order of events does not matter**: builds that heard equivalent observations end the same
way. Replaying a process, where it is accepted, is hearing the observations of the process; so a
whole build ends like one that heard equivalent observations. -/
theorem finish_of_equivalent (hp : p.Named) (hobs : Observation.Legible obs)
    (h : Observation.Equivalent obs obs') :
    SameEnd ((finish p).outcome ((opened p r d w).hear obs))
        ((finish p).outcome ((opened p r d w).hear obs')) ∧
      (obs = p.observations → ∀ b lines,
        (Pipeline.replay p).run (start r d w) = (.ok (), b, lines) →
        b = (opened p r d w).hear obs ∧
          SameEnd ((Pipeline.collect p).outcome (start r d w))
            ((finish p).outcome ((opened p r d w).hear obs'))) := by
  rw [Step.outcome_eq, Step.outcome_eq, Step.outcome_eq]
  refine ⟨sameEnd_of_equivalent hp hobs h [] [], fun hreplay b lines hrun => ?_⟩
  subst hreplay
  have hnodes : ∀ v ∈ p.nodes.elements, NodeNameable v := by
    rw [← ProcessDefinition.nodes_eq]
    exact hobs.nodes
  obtain ⟨rfl, -⟩ := (replay_ends hp.id hp.name hnodes).of_run_ok hrun
  refine ⟨rfl, ?_⟩
  have hreplay : ExceptT.run (Pipeline.replay p) (start r d w) [] =
      ((.ok (), (opened p r d w).hear p.observations), lines) :=
    Prod.ext (Prod.ext (congrArg (·.1) hrun) (congrArg (·.2.1) hrun)) (congrArg (·.2.2) hrun)
  have hcollect : (ExceptT.run (Pipeline.collect p) (start r d w) []).1 =
      (ExceptT.run (finish p) ((opened p r d w).hear p.observations) lines).1 := by
    change (ExceptT.run (Pipeline.replay p >>= fun _ => finish p) (start r d w) []).1 = _
    rw [Step.run_bind_apply, hreplay]
  rw [hcollect]
  exact sameEnd_of_equivalent hp hobs h lines []

/-- What a process delivers is legible if its names are texts and its replay is accepted. -/
lemma legible_observations (hp : p.Textual) {b : Build} {lines : List LogLine}
    (hrun : (Pipeline.replay p).run (start r d w) = (.ok (), b, lines)) :
    Observation.Legible p.observations where
  nodes := by
    rw [ProcessDefinition.nodes_eq]
    exact hp.nodes
  vars := by
    rw [ProcessDefinition.vars_eq]
    exact hp.declared_nameable
  items := by
    obtain ⟨-, hdec⟩ := (replay_ends hp.id hp.name hp.nodes).of_run_ok hrun
    rw [ProcessDefinition.items_eq hdec]
    exact hp.items_nameable

/-! ### Two orders of one delivery -/

/-- What the small process delivers, the other way round: first a superseded delivery and a refused
one, in the end a repetition and a key that is not known. -/
def reordered : List Observation :=
  .metadata signalsKey (.list [.text "old"]) :: .metadata signalsKey (.int 1) ::
    ProcessDefinition.sample.observations.reverse ++
    [.node (.node (.text "3") (.text "")), .metadata "other" .null]

lemma equivalent_reordered :
    Observation.Equivalent ProcessDefinition.sample.observations reordered where
  nodes := fun v => by
    change v ∈ [.ruleSet (.text "1") (.text "") (.text ""),
      .workItem (.text "2") (.text "") (.text "w"), .node (.text "3") (.text "")] ↔ v ∈ [
      .node (.text "3") (.text ""), .workItem (.text "2") (.text "") (.text "w"),
      .ruleSet (.text "1") (.text "") (.text ""), .node (.text "3") (.text "")]
    simp
    tauto
  vars := by
    change Variable.SameSet [⟨.text "x", .null, .dict [(.text "ItemSubjectRef", .text "i")]⟩]
      [⟨.text "x", .null, .dict [(.text "ItemSubjectRef", .text "i")]⟩]
    simp [Variable.SameSet, Variable.Alike]
  items := ⟨fun e => Iff.rfl, fun k => rfl⟩
  signals := fun n => Iff.rfl
  messages := fun n => Iff.rfl

theorem finish_of_equivalent_sample :
    ProcessDefinition.sample.Named ∧
      Observation.Legible ProcessDefinition.sample.observations ∧
      Observation.Equivalent ProcessDefinition.sample.observations reordered ∧
      (∃ b lines, (Pipeline.replay .sample).run (start {} .builtin (.text "*")) =
        (.ok (), b, lines)) ∧
      SameEnd ((Pipeline.collect .sample).outcome (start {} .builtin (.text "*")))
        ((finish .sample).outcome ((opened .sample {} .builtin (.text "*")).hear reordered)) := by
  have hok : ((Pipeline.replay .sample).run (start {} .builtin (.text "*"))).1.isOk = true := by cbv
  rcases hrun : (Pipeline.replay .sample).run (start {} .builtin (.text "*")) with
    ⟨e | ⟨⟩, b, lines⟩
  · rw [hrun] at hok
    cases hok
  · have hp := ProcessDefinition.textual_sample
    have hlegible := legible_observations hp hrun
    obtain ⟨-, hwhole⟩ := finish_of_equivalent (r := {}) (d := .builtin) (w := .text "*") hp.toNamed
      hlegible equivalent_reordered
    obtain ⟨-, hend⟩ := hwhole rfl b lines hrun
    exact ⟨hp.toNamed, hlegible, equivalent_reordered, ⟨b, lines, rfl⟩, hend⟩

end Build

end Concordance
