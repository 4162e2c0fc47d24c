import Mathlib
import Concordance.Proofs.Contents
import Concordance.Proofs.Lifecycle
import Concordance.Proofs.Publication

/-!
A finished index never changes, whatever is done with the build, the process and the registry.

An index holds the resources of its build themselves, not copies of them: what it reads later is
what they are then.

* `Build.liveIndex` : the index as it reads at any time. `Build.Seals b i` : the build has the index
  `i`, whose resources are its first ones and closed to changes.
* `Build.Upholds b c` : what has been sealed stays sealed. Every call and every direct change of the
  references does this: `Event.upholds`, `Build.upholds_onRefs`.
* `World` : builds, processes and a registry; `Operation` : what can be done with them.
* `Operation.upholds` is the step, `World.run_upholds` the run, `World.index_immutable` the result:
  the index reads the same, and its resources refuse parts.
-/

namespace Concordance

/-! ### Resources that are shared -/

namespace Collector

/-- A part is added to one resource itself, told by its place. -/
def addPartAt (c : Collector) (n : Nat) (name : Value) (type : PartType) : Answer Collector :=
  match c.resources[n]? with
  | none => .error .noMember
  | some r => do
    let r ← r.addPart? name type
    pure { c with resources := c.resources.set n r }

/-- A change that leaves the first resources as they are, as far as they are closed to changes. -/
def Spares (change : Collector → Answer Collector) : Prop :=
  ∀ {c c' rs}, change c = .ok c' → rs <+: c.resources → (∀ r ∈ rs, r.frozen = true) →
    rs <+: c'.resources

lemma spares_addResource (id : Value) (type : ResourceType) : Spares (·.addResource id type) := by
  intro c c' rs hc hrs _
  simp only [addResource] at hc
  split_ifs at hc
  · cases hc
    exact hrs
  · cases hc
    exact hrs.trans (List.prefix_append _ _)

lemma spares_addShared (name : Value) (type : PartType) : Spares (·.addShared name type) := by
  intro c c' rs hc hrs _
  obtain rfl := addShared_eq_ok hc
  exact hrs

lemma spares_addResourceRef (name : Value) (type : ResourceType) :
    Spares (·.addResourceRef name type) := by
  intro c c' rs hc hrs _
  obtain rfl := addResourceRef_eq_ok hc
  exact hrs

lemma freeze_of_frozen {r : Resource} (h : r.frozen = true) : r.freeze = r := by
  cases r
  cases h
  rfl

lemma spares_freeze : Spares fun c => .ok c.freeze := by
  intro c c' rs hc hrs hfrozen
  cases hc
  have hsame : rs.map Resource.freeze = rs := by
    conv_rhs => rw [← List.map_id rs]
    exact List.map_congr_left fun r hr => freeze_of_frozen (hfrozen r hr)
  rw [← hsame]
  exact hrs.map _

/-- A closed resource refuses a part, whatever its name. -/
lemma addPartAt_frozen {c : Collector} {n : Nat} {r : Resource} (hr : c.resources[n]? = some r)
    (hfrozen : r.frozen = true) (name : Value) (type : PartType) :
    c.addPartAt n name type = .error (.frozen r.id.display) := by
  have hrefused : r.addPart? name type = .error (.frozen r.id.display) := if_pos hfrozen
  rw [addPartAt, hr]
  change (r.addPart? name type >>= fun _ => _) = _
  rw [hrefused]
  rfl

lemma getElem?_known {rs ss : List Resource} (h : rs <+: ss) {n : Nat} (hn : n < rs.length) :
    ss[n]? = rs[n]? := by
  obtain ⟨more, rfl⟩ := h
  exact List.getElem?_append_left hn

lemma spares_addPartAt (n : Nat) (name : Value) (type : PartType) :
    Spares (·.addPartAt n name type) := by
  intro c c' rs hc hrs hfrozen
  replace hc : c.addPartAt n name type = .ok c' := hc
  rcases hr : c.resources[n]? with _ | r
  · rw [addPartAt, hr] at hc
    cases hc
  by_cases hn : n < rs.length
  · -- the place is one of the first ones, so the resource there is closed
    have hmem : rs[n]? = some r := (getElem?_known hrs hn).symm.trans hr
    rw [addPartAt_frozen hr (hfrozen r (List.mem_of_getElem? hmem))] at hc
    cases hc
  · rw [addPartAt, hr] at hc
    replace hc : (r.addPart? name type >>= fun r' =>
      pure { c with resources := c.resources.set n r' }) = .ok c' := hc
    rcases hpart : r.addPart? name type with e | r'
    · rw [hpart] at hc
      cases hc
    · rw [hpart] at hc
      cases hc
      obtain ⟨more, hmore⟩ := hrs
      rw [← hmore, List.set_append, if_neg hn]
      exact List.prefix_append _ _

end Collector

namespace Build

variable {b c d : Build} {i : Index}

/-- The index as it reads now: its resources are the first ones of the build itself. -/
def liveIndex (b : Build) : Option Index :=
  b.index.map fun i => { i with resources := b.refs.resources.take i.resources.length }

/-- The build is completed by the index, whose resources are its first ones and closed. -/
structure Seals (b : Build) (i : Index) : Prop where
  index : b.index = some i
  phase : b.phase = .completed
  resources : i.resources <+: b.refs.resources
  frozen : ∀ r ∈ i.resources, r.frozen = true

/-- If the build has an index, it seals it. -/
def Sealed (b : Build) : Prop := ∀ i, b.index = some i → b.Seals i

/-- What is sealed stays sealed. -/
structure Upholds (b c : Build) : Prop where
  sound : b.Sealed → c.Sealed
  seals : ∀ i, b.Seals i → c.Seals i

lemma Seals.liveIndex (h : b.Seals i) : b.liveIndex = some i := by
  rw [Build.liveIndex, h.index, Option.map_some, ← List.prefix_iff_eq_take.mp h.resources]

lemma Seals.sealed (h : b.Seals i) : b.Sealed := fun j hj => by
  rw [h.index] at hj
  exact Option.some.inj hj ▸ h

lemma sealed_of_none (h : b.index = none) : b.Sealed := fun i hi => by
  rw [h] at hi
  cases hi

/-- A build that has just been closed seals its index. -/
lemma seals_closed (b : Build) (p : ProcessDefinition) :
    (b.closed p).Seals (indexOf { b with refs := b.refs.freeze } p) where
  index := rfl
  phase := rfl
  resources := List.prefix_refl _
  frozen := fun r hr => by
    obtain ⟨s, -, rfl⟩ := List.mem_map.mp hr
    rfl

lemma Upholds.refl (b : Build) : Upholds b b := ⟨id, fun _ => id⟩

/-- It is enough to look at a build with an index that it seals, and at one without an index. -/
lemma Upholds.of_cases (hnone : b.index = none → c.Sealed) (hseals : ∀ i, b.Seals i → c.Seals i) :
    Upholds b c where
  sound hb := by
    rcases hi : b.index with _ | i
    · exact hnone hi
    · exact (hseals i (hb i hi)).sealed
  seals := hseals

/-! ### Every operation on a build upholds its index -/

/-- A change of the references that spares closed resources. -/
lemma upholds_onRefs {change : Collector → Answer Collector} (h : Collector.Spares change)
    (b : Build) : Upholds b ((onRefs change).after b) := by
  refine .of_cases (fun hnone => ?_) fun i hi => ?_
  · have hkeeps : (onRefs change).Keeps fun c => c.index = none := keeps_onRefs fun _ _ hc _ => hc
    exact sealed_of_none (hkeeps.after hnone)
  · have hkeeps : (onRefs change).Keeps (Seals · i) := keeps_onRefs fun c refs hc hrefs =>
      ⟨hc.index, hc.phase, h hrefs hc.resources hc.frozen, hc.frozen⟩
    exact hkeeps.after hi

/-- Other items have no influence on a finished index. -/
lemma upholds_items (b : Build) (items : List (Value × Value)) : Upholds b { b with items } :=
  .of_cases (fun hnone => sealed_of_none hnone) fun _ hi =>
    ⟨hi.index, hi.phase, hi.resources, hi.frozen⟩

end Build

/-- No call is admitted once the build is completed. -/
lemma Event.admits_ne (e : Event) : e.callback.admits ≠ .completed := by
  cases e <;> nofun

lemma Event.refused_ends (e : Event) {b : Build} (h : b.phase ≠ e.callback.admits) :
    e.step.Ends b (fun _ c => c = b) fun _ c => c = b := by
  obtain ⟨next, hnext⟩ := e.guarded
  rw [hnext]
  exact Build.refused_ends h

/-- Every other call than the last one leaves a build without an index as it has none. -/
lemma Build.Moves.index_eq_none {b c : Build} {call : Callback} (h : b.Moves call c)
    (hcall : call ≠ .buildComplete) (hnone : b.index = none) : c.index = none := by
  cases h with
  | stays _ index => exact index.trans hnone
  | opens _ _ _ index => exact index.trans hnone
  | reads _ _ _ index => exact index.trans hnone
  | closes which => exact absurd which hcall

/-- **Any call upholds the index**: a completed build refuses it, and the call that completes a
build closes every resource. -/
lemma Event.upholds (e : Event) (b : Build) :
    e.step.Ends b (fun _ c => b.Upholds c) fun _ c => b.Upholds c := by
  by_cases hphase : b.phase = e.callback.admits
  swap
  · exact (e.refused_ends hphase).imp (fun _ _ hc => hc ▸ .refl b) fun _ _ hc => hc ▸ .refl b
  have hopen : ∀ i, ¬b.Seals i := fun i hi => e.admits_ne (hphase.symm.trans hi.phase)
  have hsealed : ∀ {c : Build}, (b.index = none → c.Sealed) → b.Upholds c := fun hc =>
    .of_cases hc fun i hi => (hopen i hi).elim
  cases e with
  | buildComplete v =>
      refine (Build.buildCompleteOf_moves v hphase).imp ?_ ?_
      · rintro _ c ⟨⟨d, p, rfl⟩, -⟩
        exact hsealed fun _ => (d.seals_closed p).sealed
      · rintro _ c (hc | ⟨d, p, rfl⟩)
        · exact hsealed fun hnone => Build.sealed_of_none (hc.index_eq.trans hnone)
        · exact hsealed fun _ => (d.seals_closed p).sealed
  | _ =>
      exact (Event.moves _ b).imp
        (fun _ _ hc => hsealed fun hnone =>
          Build.sealed_of_none (hc.1.index_eq_none nofun hnone))
        fun _ _ hc => hsealed fun hnone => Build.sealed_of_none (hc.1.index_eq_none nofun hnone)

/-! ### Builds that the pipeline runs -/

namespace Pipeline

/-- The build that the pipeline runs for a process, as it leaves it. -/
def built (s : Settings) (p : ProcessDefinition) : Option Build :=
  match createBuild s with
  | .ok start => some ((collect p).after start)
  | .error _ => none

/-- Each call of a compiler keeps a build sealed. -/
lemma keeps_sealed_call {x : Step Build Unit} (e : Event)
    (he : e.step = (x >>= fun _ => pure none)) : x.Keeps Build.Sealed := by
  intro b hb
  have hends := e.upholds b
  rw [he] at hends
  exact (hends.imp (fun _ c hc => hc.sound hb) fun _ c hc => hc.sound hb).of_bind_pure

lemma keeps_sealed_metadataAdded (key : String) (data : Value) :
    (Build.metadataAdded key data).Keeps Build.Sealed :=
  keeps_sealed_call (.metadataAdded (.text key) data) rfl

/-- A collection that is told only if there is one, and what comes after it. -/
lemma keeps_sealed_offered {α : Type} {c : Bool} {a : Answer α} {key : String} {f : α → Value}
    {next : PUnit → Step Build PUnit} (h : ∀ u, (next u).Keeps Build.Sealed) :
    Step.Keeps (if c then Step.ofAnswer a >>= fun x => Build.metadataAdded key (f x) >>= next
      else next ⟨⟩) Build.Sealed :=
  .ite ((Step.keeps_ofAnswer _).bind fun _ => (keeps_sealed_metadataAdded _ _).bind h) (h ⟨⟩)

/-- What the pipeline tells a build keeps it sealed. -/
lemma keeps_sealed_replay (p : ProcessDefinition) : (replay p).Keeps Build.Sealed := by
  refine (keeps_sealed_call (.processAdded p.toValue) rfl).bind fun _ => ?_
  refine (Step.keeps_ofAnswer _).bind fun nodes => ?_
  refine (Step.Keeps.forM (fun v => keeps_sealed_call (.nodeAdded v) rfl) nodes).bind fun _ => ?_
  refine (Step.keeps_ofAnswer _).bind fun vars => ?_
  refine (Step.Keeps.forM (keeps_sealed_metadataAdded _) vars).bind fun _ => ?_
  refine keeps_sealed_offered fun _ => keeps_sealed_offered fun _ => ?_
  beta_reduce
  exact .ite ((Step.keeps_ofAnswer _).bind fun _ => keeps_sealed_metadataAdded _ _)
    (Step.keeps_pure _)

/-- A build that the pipeline runs is sealed in the end, by the index that is returned if one is. -/
lemma collect_seals (p : ProcessDefinition) {b : Build} (hb : b.Sealed) :
    (collect p).Ends b (fun i c => c.Sealed ∧ c.index = some i) fun _ c => c.Sealed := by
  refine .bind ((keeps_sealed_replay p b hb).imp (fun _ c hc => .bind ?_) fun _ _ => id)
  have hcomplete : (Build.complete p).Keeps Build.Sealed :=
    keeps_sealed_call (.complete p.toValue) rfl
  refine (hcomplete c hc).imp (fun _ d hd => ?_) fun _ _ => id
  by_cases hphase : d.phase = .compiled
  · refine (Build.buildComplete_closes hphase).imp ?_ ?_
    · rintro i _ ⟨e, -, rfl, hi⟩
      exact ⟨(e.seals_closed p).sealed, hi⟩
    · rintro _ f (hf | ⟨e, -, rfl, -⟩)
      · intro i hi
        have hindex : d.index = some i := hf.index_eq.symm.trans hi
        have hover := (hd i hindex).phase
        rw [hphase] at hover
        cases hover
      · exact (e.seals_closed p).sealed
  · exact (Build.refused_ends (Q := fun _ _ => False) hphase).imp (fun _ _ => False.elim)
      fun _ _ hc => hc ▸ hd

/-- A build that has just been created has no index. -/
lemma createBuild_index {s : Settings} {b : Build} (h : createBuild s = .ok b) :
    b.index = none := by
  obtain ⟨r, d, -, -, rfl⟩ := createBuild_eq_ok h
  rfl

lemma sealed_built {s : Settings} {p : ProcessDefinition} {b : Build} (h : built s p = some b) :
    b.Sealed := by
  rw [built] at h
  split at h
  · rename_i start hstart
    obtain rfl := Option.some.inj h
    exact ((collect_seals p (Build.sealed_of_none (createBuild_index hstart))).imp
      (fun _ _ hc => hc.1)
      fun _ _ => id).after
  · cases h

/-- The index that the pipeline makes is that of the build it ran. -/
lemma seals_built {s : Settings} {p : ProcessDefinition} {i : Index} (h : made s p = .ok i) :
    ∃ b, built s p = some b ∧ b.Seals i := by
  rcases hstart : createBuild s with e | start
  · simp [made, hstart, bind, Except.bind] at h
  have hmade : ((collect p).outcome start).1 = .ok i := by
    simpa only [made, hstart, bind, Except.bind] using h
  obtain ⟨hsealed, hindex⟩ :=
    (collect_seals p (Build.sealed_of_none (createBuild_index hstart))).of_outcome_ok hmade
  exact ⟨(collect p).after start, by rw [built, hstart], hsealed i hindex⟩

end Pipeline

/-! ### Builds, processes and a registry -/

/-- Builds and processes, each told by its number, and a registry. -/
structure World where
  builds : List Build := []
  processes : List ProcessDefinition := []
  registry : Registry := {}

/-- What can be done with builds, processes and the registry. The resources of a build and those of
its index are told by the number of the build and their place in it. -/
inductive Operation where
  | create (resolver : Resolver) (dialects : DialectRegistry) (wildcard : Value)
  | declare (p : ProcessDefinition)
  | call (k : Nat) (e : Event)
  | addResource (k : Nat) (id : Value) (type : ResourceType)
  | addShared (k : Nat) (name : Value) (type : PartType)
  | addResourceRef (k : Nat) (name : Value) (type : ResourceType)
  | freeze (k : Nat)
  | addPart (k n : Nat) (name : Value) (type : PartType)
  /-- The item definitions that a build was told are changed from outside. -/
  | mutateItems (k : Nat) (items : List (Value × Value))
  | assign (j : Nat) (field : String) (v : Value)
  /-- The pipeline builds a process. -/
  | build (s : Settings) (j : Nat)
  /-- The pipeline publishes the index of a build with a process. -/
  | publish (s : Settings) (k j : Nat)
  /-- The index of a build goes into the registry. -/
  | file (k : Nat)
  | remove (id : Value)

namespace World

/-- What happens to one build; nothing if there is none of the number. -/
def onBuild (w : World) (k : Nat) (f : Build → Answer Unit × Build) : Answer Unit × World :=
  match w.builds[k]? with
  | none => (.error .noMember, w)
  | some b => ((f b).1, { w with builds := w.builds.set k (f b).2 })

/-- What happens to the references of one build. -/
def onRefs (w : World) (k : Nat) (change : Collector → Answer Collector) : Answer Unit × World :=
  w.onBuild k (Build.onRefs change).outcome

/-- A process is built: there is one more build, and what the build left in the other places. -/
def build (w : World) (s : Settings) (j : Nat) : Answer Unit × World :=
  match w.processes[j]? with
  | none => (.error .noMember, w)
  | some p =>
    let (a, site) := (Pipeline.build s).outcome { process := p, registry := w.registry }
    (a.map fun _ => (), { builds := w.builds ++ (Pipeline.built s p).toList
                          processes := w.processes.set j site.process
                          registry := site.registry })

/-- The index of a build is published, as it reads now. -/
def publish (w : World) (s : Settings) (k j : Nat) : Answer Unit × World :=
  match w.builds[k]?.bind Build.liveIndex, w.processes[j]? with
  | some i, some p =>
    let (a, site) := (Pipeline.publish s i).outcome { process := p, registry := w.registry }
    (a.map fun _ => (), { w with processes := w.processes.set j site.process
                                 registry := site.registry })
  | _, _ => (.error .noMember, w)

/-- The index of a build goes into the registry, as it reads now. -/
def file (w : World) (k : Nat) : Answer Unit × World :=
  match w.builds[k]?.bind Build.liveIndex with
  | some i => match w.registry.publish i with
    | .ok (registry, _) => (.ok (), { w with registry })
    | .error e => (.error e, w)
  | none => (.error .noMember, w)

/-- A field of a process is assigned. -/
def assign (w : World) (j : Nat) (field : String) (v : Value) : Answer Unit × World :=
  match w.processes[j]?.bind (·.setField? field v) with
  | some p => (.ok (), { w with processes := w.processes.set j p })
  | none => (.error .noAttribute, w)

end World

/-- What an operation answers, and what it leaves. -/
def Operation.outcome (w : World) : Operation → Answer Unit × World
  | create r d v => (.ok (), { w with builds := w.builds ++ [Build.start r d v] })
  | declare p => (.ok (), { w with processes := w.processes ++ [p] })
  | call k e => w.onBuild k (e.step >>= fun _ => pure ()).outcome
  | addResource k id type => w.onRefs k (·.addResource id type)
  | addShared k name type => w.onRefs k (·.addShared name type)
  | addResourceRef k name type => w.onRefs k (·.addResourceRef name type)
  | freeze k => w.onRefs k fun c => .ok c.freeze
  | addPart k n name type => w.onRefs k (·.addPartAt n name type)
  | mutateItems k items => w.onBuild k fun b => (.ok (), { b with items })
  | assign j field v => w.assign j field v
  | build s j => w.build s j
  | publish s k j => w.publish s k j
  | file k => w.file k
  | remove id => (.ok (), { w with registry := (w.registry.remove id).1 })

namespace World

variable {w v : World} {k : Nat} {b : Build} {i : Index}

/-- The world after several operations, whether they succeed or fail. -/
def run (w : World) (ops : List Operation) : World := ops.foldl (fun w op => (op.outcome w).2) w

/-- Every build with an index seals it. -/
def Sealed (w : World) : Prop := ∀ b ∈ w.builds, b.Sealed

/-- What is sealed stays sealed, under its number. -/
structure Upholds (w v : World) : Prop where
  sound : w.Sealed → v.Sealed
  seals : ∀ {k : Nat} {b : Build} {i : Index}, w.builds[k]? = some b → b.Seals i →
    ∃ c, v.builds[k]? = some c ∧ c.Seals i

lemma Upholds.trans {u : World} (h : w.Upholds v) (h' : v.Upholds u) : w.Upholds u where
  sound := h'.sound ∘ h.sound
  seals hb hi := by
    obtain ⟨c, hc, hci⟩ := h.seals hb hi
    exact h'.seals hc hci

/-- An operation that leaves the builds as they are. -/
lemma Upholds.of_builds_eq (h : v.builds = w.builds) : w.Upholds v where
  sound hw := fun b hb => hw b (h ▸ hb)
  seals hb hi := ⟨_, h ▸ hb, hi⟩

/-- An operation that adds builds at the end. -/
lemma Upholds.of_append {bs : List Build} (h : v.builds = w.builds ++ bs)
    (hbs : ∀ b ∈ bs, b.Sealed) : w.Upholds v where
  sound hw := fun b hb => by
    rw [h] at hb
    rcases List.mem_append.mp hb with hb | hb
    · exact hw b hb
    · exact hbs b hb
  seals {k b i} hb hi := by
    have hk : k < w.builds.length := (List.getElem?_eq_some_iff.mp hb).1
    exact ⟨b, by rw [h, List.getElem?_append_left hk, hb], hi⟩

/-- An operation on one build. -/
lemma upholds_onBuild {f : Build → Answer Unit × Build} (hf : ∀ b : Build, b.Upholds (f b).2)
    (k : Nat) :
    w.Upholds (w.onBuild k f).2 := by
  rw [onBuild]
  split
  · exact .of_builds_eq rfl
  · next b hb =>
      refine ⟨fun hw c hc => ?_, fun {l c i} hc hi => ?_⟩
      · rcases List.mem_or_eq_of_mem_set hc with hc | rfl
        · exact hw c hc
        · exact (hf b).sound (hw b (List.mem_of_getElem? hb))
      · by_cases hl : k = l
        · subst hl
          obtain rfl : b = c := Option.some.inj (hb.symm.trans hc)
          have hk : k < w.builds.length := (List.getElem?_eq_some_iff.mp hb).1
          exact ⟨_, List.getElem?_set_self hk, (hf b).seals i hi⟩
        · exact ⟨c, (List.getElem?_set_ne hl).trans hc, hi⟩

lemma upholds_onRefs {change : Collector → Answer Collector} (h : Collector.Spares change)
    (k : Nat) : w.Upholds (w.onRefs k change).2 :=
  upholds_onBuild (Build.upholds_onRefs h) k

end World

/-- **Every operation** upholds what is sealed. -/
lemma Operation.upholds (op : Operation) (w : World) : w.Upholds (op.outcome w).2 := by
  cases op with
  | create r d v =>
      refine .of_append rfl fun b hb => ?_
      obtain rfl := List.mem_singleton.mp hb
      exact Build.sealed_of_none rfl
  | declare p => exact .of_builds_eq rfl
  | call k e =>
      refine World.upholds_onBuild (fun b => ?_) k
      exact Step.Ends.after (.bind ((e.upholds b).imp (fun _ _ hc => Step.ends_pure.mpr hc)
        fun _ _ => id))
  | addResource k id type => exact World.upholds_onRefs (Collector.spares_addResource id type) k
  | addShared k name type => exact World.upholds_onRefs (Collector.spares_addShared name type) k
  | addResourceRef k name type =>
      exact World.upholds_onRefs (Collector.spares_addResourceRef name type) k
  | freeze k => exact World.upholds_onRefs Collector.spares_freeze k
  | addPart k n name type => exact World.upholds_onRefs (Collector.spares_addPartAt n name type) k
  | mutateItems k items => exact World.upholds_onBuild (fun b => b.upholds_items items) k
  | assign j field v =>
      change w.Upholds (w.assign j field v).2
      rw [World.assign]
      split <;> exact .of_builds_eq rfl
  | build s j =>
      change w.Upholds (w.build s j).2
      rw [World.build]
      split
      · exact .of_builds_eq rfl
      · exact .of_append rfl fun b hb => Pipeline.sealed_built (Option.mem_toList.mp hb)
  | publish s k j =>
      change w.Upholds (w.publish s k j).2
      rw [World.publish.eq_def]
      split <;> exact .of_builds_eq rfl
  | file k =>
      change w.Upholds (w.file k).2
      rw [World.file.eq_def]
      split
      · split <;> exact .of_builds_eq rfl
      · exact .of_builds_eq rfl
  | remove id => exact .of_builds_eq rfl

namespace World

variable {w : World}

/-- **Any operations** uphold what is sealed. -/
lemma run_upholds (ops : List Operation) : ∀ w : World, w.Upholds (w.run ops) := by
  induction ops with
  | nil => exact fun w => .of_builds_eq rfl
  | cons op ops ih => exact fun w => (op.upholds w).trans (ih _)

lemma sealed_run (ops : List Operation) : (run {} ops).Sealed :=
  (run_upholds ops {}).sound nofun

/-- A part for a closed resource is refused, and nothing changes. -/
lemma addPart_refused {k n : Nat} {b : Build} {r : Resource} (hb : w.builds[k]? = some b)
    (hr : b.refs.resources[n]? = some r) (hfrozen : r.frozen = true) (name : Value)
    (type : PartType) :
    (Operation.addPart k n name type).outcome w = (.error (.frozen r.id.display), w) := by
  have hrefused : (Build.onRefs (·.addPartAt n name type)).outcome b =
      (.error (.frozen r.id.display), b) := by
    refine Step.Ends.outcome_eq (.bind (Step.ends_get.mpr (.bind (Step.ends_ofAnswer.mpr ?_))))
    have hchange := Collector.addPartAt_frozen hr hfrozen name type
    refine ⟨fun refs hrefs => ?_, fun e he => ?_⟩
    · exact absurd (hchange.symm.trans hrefs) nofun
    · rw [Except.error.inj (hchange.symm.trans he)]
  have hsame : w.builds.set k b = w.builds := by
    obtain ⟨hk, rfl⟩ := List.getElem?_eq_some_iff.mp hb
    exact List.set_getElem_self hk
  change w.onRefs k _ = _
  simp only [onRefs, onBuild, hb, hrefused, hsame]

/-- **A finished index is immutable.** Whatever led to a build with an index, and whatever is done
later with this and other builds, with processes and the registry: the index reads as it did, and
so do its written form, its fingerprint and what it mentions; each of its resources refuses parts.
-/
theorem index_immutable (ops later : List Operation) {k : Nat} {b : Build} {i : Index}
    (hb : (run {} ops).builds[k]? = some b) (hi : b.index = some i) :
    b.liveIndex = some i ∧ ∃ c, ((run {} ops).run later).builds[k]? = some c ∧
      (∃ j, c.liveIndex = some j ∧ j = i ∧ j.toDict? = i.toDict? ∧
        j.fingerprint? = i.fingerprint? ∧ ∀ n, j.mentions n = i.mentions n) ∧
      ∀ n r, i.resources[n]? = some r → ∀ name type,
        (Operation.addPart k n name type).outcome ((run {} ops).run later) =
          (.error (.frozen r.id.display), (run {} ops).run later) := by
  have hseals : b.Seals i := sealed_run ops b (List.mem_of_getElem? hb) i hi
  obtain ⟨c, hc, hci⟩ := (run_upholds later (run {} ops)).seals hb hseals
  refine ⟨hseals.liveIndex, c, hc, ⟨i, hci.liveIndex, rfl, rfl, rfl, fun _ => rfl⟩, ?_⟩
  intro n r hr name type
  have hn : n < i.resources.length := (List.getElem?_eq_some_iff.mp hr).1
  exact addPart_refused hc ((Collector.getElem?_known hci.resources hn).trans hr)
    (hci.frozen r (List.mem_of_getElem? hr)) name type

/-- One build of a process that declares nothing, call by call. -/
def bareOperations : List Operation :=
  let p := ProcessDefinition.bare "P" "n"
  [.declare p, .create {} {} (.text "*"), .call 0 (.processAdded p.toValue),
    .call 0 (.complete p.toValue), .call 0 (.buildComplete p.toValue)]

/-- Attempts at its index: through the process, the build and one of its resources, and by another
build of the process. -/
def bareAttempts : List Operation :=
  [.assign 0 "name" (.text "m"), .addResource 0 (.text "Q") .processId,
    .addPart 0 0 (.text "v") .var, .build {} 0, .remove (.text "P")]

theorem index_immutable_bare : ∃ b i, (run {} bareOperations).builds[0]? = some b ∧
    b.index = some i ∧
    ∃ c, ((run {} bareOperations).run bareAttempts).builds[0]? = some c ∧ c.liveIndex = some i := by
  have hfound : ((run {} bareOperations).builds[0]?.bind (·.index)).isSome := by cbv
  obtain ⟨i, hfound⟩ := Option.isSome_iff_exists.mp hfound
  obtain ⟨b, hb, hi⟩ := Option.bind_eq_some_iff.mp hfound
  obtain ⟨-, c, hc, ⟨j, hj, rfl, -⟩, -⟩ := index_immutable bareOperations bareAttempts hb hi
  exact ⟨b, j, hb, hi, c, hc, hj⟩

end World
end Concordance
