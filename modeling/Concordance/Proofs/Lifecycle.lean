import Mathlib
import Concordance.Proofs.Leftovers

/-!
The phases of a build under any calls, most of them out of place and with values of any kind.

* `Event` : one of the five calls with any arguments; `Event.step` : what it does. An argument that
  is no process counts as far as it has the fields that are read of it.
* `Event.guarded` : every call asks for its phase first. `Event.failsTimely` : in its phase it never
  fails with the fault of a call outside its phase.
* `Build.Moves` : the phase stays, or one of three calls moves it on by one step; `Event.moves` :
  every call does, and no other.
* `Build.heard` : the build after several calls; `Build.Sound` : it has an index if it is completed.
* `Build.phases_advance` : the law of the phases, after any calls and for any next one.
-/

namespace Concordance

/-! ### Calls with any arguments -/

/-- The id and the name that a process, a node or a message carries. -/
def Value.named? : Value → Option (Value × Value)
  | .process id name .. => some (id, name)
  | .node id name => some (id, name)
  | .ruleSet id name _ => some (id, name)
  | .workItem id name _ => some (id, name)
  | .subProcess id name _ _ => some (id, name)
  | .message id name _ => some (id, name)
  | _ => none

namespace Build

/-- The first call, with any value: it reads an id and a name. -/
def processAddedOf (v : Value) : Step Build Unit :=
  match v.named? with
  | some (id, name) => processAdded { id, name }
  | none => do
    require .processAdded
    enter .building
    throw .noAttribute

/-- An observation under any key: only texts are known keys. -/
def metadataAddedOf (key data : Value) : Step Build Unit :=
  match key with
  | .text k => metadataAdded k data
  | _ => require .metadataAdded

/-- The call that ends the reading, with any value: globals are read after the items. -/
def completeOf (v : Value) : Step Build Unit :=
  match ProcessDefinition.ofValue? v with
  | some p => complete p
  | none => do
    require .complete
    enter .compiled
    visitItems
    throw .noAttribute

/-- The visits of the last call to what the build has heard, with the bag of a variable. -/
def visitHeard (metadata : Value) : Step Build Unit := do
  let b ← get
  b.dialects.contributors.forM (visitDialect metadata)
  b.vars.forM visitVariable
  resolveTypes
  visitSignals b.signals
  visitSignals b.messages

/-- The last call, with any value: a variable has a bag as well, but no function imports. -/
def buildCompleteOf (v : Value) : Step Build (Option Index) :=
  match ProcessDefinition.ofValue? v, Variable.ofValue? v with
  | some p, _ => some <$> buildComplete p
  | none, some v => do
    require .buildComplete
    visitHeard v.metadata
    throw .noAttribute
  | none, none => do
    require .buildComplete
    throw .noAttribute

end Build

/-- A call on a build, with any arguments. -/
inductive Event where
  | processAdded (process : Value)
  | nodeAdded (node : Value)
  | metadataAdded (key data : Value)
  | complete (process : Value)
  | buildComplete (process : Value)

namespace Event

/-- Which call it is. -/
def callback : Event → Callback
  | processAdded _ => .processAdded
  | nodeAdded _ => .nodeAdded
  | metadataAdded .. => .metadataAdded
  | complete _ => .complete
  | buildComplete _ => .buildComplete

/-- What a call does to a build; only the last one returns an index. -/
def step : Event → Step Build (Option Index)
  | processAdded v => Build.processAddedOf v >>= fun _ => pure none
  | nodeAdded v => Build.nodeAdded v >>= fun _ => pure none
  | metadataAdded key data => Build.metadataAddedOf key data >>= fun _ => pure none
  | complete v => Build.completeOf v >>= fun _ => pure none
  | buildComplete v => Build.buildCompleteOf v

/-- The calls of a compiler are among these. -/
lemma step_ofProcess (p : ProcessDefinition) :
    (processAdded p.toValue).step = (Build.processAdded p >>= fun _ => pure none) ∧
    (complete p.toValue).step = (Build.complete p >>= fun _ => pure none) ∧
    (buildComplete p.toValue).step = some <$> Build.buildComplete p :=
  ⟨rfl, rfl, rfl⟩

end Event

namespace Build

/-! ### The phase is asked for first -/

/-- The step asks first whether the build is in the phase of a call. -/
def Guarded {α : Type} (call : Callback) (step : Step Build α) : Prop :=
  ∃ next : PUnit → Step Build α, step = require call >>= next

lemma Guarded.bind {α β : Type} {call : Callback} {x : Step Build β} (h : Guarded call x)
    (f : β → Step Build α) : Guarded call (x >>= f) := by
  obtain ⟨next, rfl⟩ := h
  exact ⟨fun u => next u >>= f, bind_assoc _ _ _⟩

/-- **A call outside its phase** is refused, and changes nothing. -/
lemma Guarded.refused {α : Type} {call : Callback} {step : Step Build α} {b : Build}
    (h : Guarded call step) (hphase : b.phase ≠ call.admits) :
    step.outcome b = (.error (.lifecycle call b.phase), b) := by
  obtain ⟨next, rfl⟩ := h
  refine Step.Ends.outcome_eq (.bind (.bind (Step.ends_get.mpr ?_)))
  rw [if_neg hphase]
  exact Step.ends_throw.mpr rfl

end Build

/-- Every call asks for its phase first. -/
lemma Event.guarded (e : Event) : Build.Guarded e.callback e.step := by
  cases e with
  | processAdded v =>
      refine Build.Guarded.bind ?_ _
      rcases hv : v.named? with _ | ⟨id, name⟩ <;> rw [Build.processAddedOf, hv] <;>
        exact ⟨_, rfl⟩
  | nodeAdded v => exact Build.Guarded.bind ⟨_, rfl⟩ _
  | metadataAdded key data =>
      refine Build.Guarded.bind ?_ _
      rw [Build.metadataAddedOf.eq_def]
      split
      · exact ⟨_, rfl⟩
      · exact ⟨pure, (bind_pure _).symm⟩
  | complete v =>
      refine Build.Guarded.bind ?_ _
      rcases hv : ProcessDefinition.ofValue? v with _ | p <;> rw [Build.completeOf, hv] <;>
        exact ⟨_, rfl⟩
  | buildComplete v =>
      change Build.Guarded _ (Build.buildCompleteOf v)
      rw [Build.buildCompleteOf]
      split
      · rw [map_eq_pure_bind]
        exact Build.Guarded.bind ⟨_, rfl⟩ _
      · exact ⟨_, rfl⟩
      · exact ⟨_, rfl⟩

/-! ### Faults of values -/

/-- The fault of a call outside its phase. -/
def Fault.isUntimely : Fault → Bool
  | lifecycle .. => true
  | _ => false

/-- The answer is not that a call came outside its phase. -/
def Timely {α : Type} (a : Answer α) : Prop := ∀ e, a = .error e → e.isUntimely = false

section Timely

variable {α β : Type}

@[simp] lemma timely_ok (x : α) : Timely (.ok x : Answer α) := nofun

@[simp] lemma timely_pure (x : α) : Timely (pure x : Answer α) := nofun

@[simp] lemma timely_error {e : Fault} : Timely (.error e : Answer α) ↔ e.isUntimely = false :=
  ⟨fun h => h e rfl, fun h _ he => Except.error.inj he ▸ h⟩

@[simp] lemma timely_throw {e : Fault} : Timely (throw e : Answer α) ↔ e.isUntimely = false :=
  timely_error

lemma Timely.bind {a : Answer β} {f : β → Answer α} (ha : Timely a) (hf : ∀ x, Timely (f x)) :
    Timely (a >>= f) := by
  rcases a with e | x
  · exact timely_error.mpr (timely_error.mp ha)
  · exact hf x

lemma Timely.map {a : Answer β} (ha : Timely a) (f : β → α) : Timely (a.map f) := by
  rcases a with e | x
  · exact timely_error.mpr (timely_error.mp ha)
  · exact timely_ok _

lemma Timely.ite {c : Prop} [Decidable c] {a b : Answer α} (ha : Timely a) (hb : Timely b) :
    Timely (if c then a else b) := by
  split
  · exact ha
  · exact hb

lemma Timely.mapM {f : β → Answer α} (hf : ∀ x, Timely (f x)) : ∀ xs : List β, Timely (xs.mapM f)
  | [] => timely_pure _
  | x :: xs => by
      rw [List.mapM_cons]
      exact (hf x).bind fun _ => (Timely.mapM hf xs).bind fun _ => timely_pure _

lemma Timely.forM {f : β → Answer PUnit} (hf : ∀ x, Timely (f x)) :
    ∀ xs : List β, Timely (xs.forM f)
  | [] => timely_pure _
  | x :: xs => (hf x).bind fun _ => Timely.forM hf xs

end Timely

namespace Value

lemma timely_items? (v : Value) : Timely v.items? := by
  rw [items?]
  split <;> simp [Fault.isUntimely]

lemma timely_mapping? (v : Value) : Timely v.mapping? := by
  rw [mapping?]
  split <;> simp [Fault.isUntimely]

lemma timely_get? (v k : Value) : Timely (v.get? k) :=
  v.timely_mapping?.bind fun _ => .ite (timely_pure _) (timely_throw.mpr rfl)

lemma timely_insert? (xs : List Value) (v : Value) : Timely (insert? xs v) :=
  .ite (timely_ok _) (timely_error.mpr rfl)

lemma timely_byteIn (bs : List UInt8) (n : Int) : Timely (byteIn bs n) :=
  .ite (timely_ok _) (timely_error.mpr rfl)

lemma timely_contains? (v w : Value) : Timely (v.contains? w) := by
  fun_cases contains? v w
  all_goals first
    | exact timely_byteIn _ _
    | simp [Fault.isUntimely]

lemma timely_display? (v : Value) : Timely v.display? :=
  .ite (timely_ok _) (timely_error.mpr rfl)

lemma timely_sort? (xs : List Value) : Timely (sort? xs) := by
  refine .ite (timely_ok _) ?_
  split <;> simp [Fault.isUntimely]

end Value

lemma timely_decodeInstance (key : String) (v : Value) (s : Shape) :
    Timely (decodeInstance key v s) :=
  .ite (timely_ok _) (timely_error.mpr rfl)

lemma timely_decodeString (key : String) (v : Value) : Timely (decodeString key v) := by
  rw [decodeString.eq_def]
  split <;> simp [refuse, Fault.isUntimely]

lemma timely_decodeStrings (key : String) (v : Value) : Timely (decodeStrings key v) := by
  rw [decodeStrings.eq_def]
  split
  · exact timely_ok _
  · exact timely_error.mpr rfl
  · exact timely_error.mpr rfl
  · split
    · exact timely_error.mpr rfl
    · exact (Timely.mapM (timely_decodeString key) _).bind fun _ => timely_pure _

lemma timely_decodeMapping (key : String) (v : Value) (s : Option Shape) :
    Timely (decodeMapping key v s) := by
  have hentry : ∀ e, Timely (checkEntry key s e) := by
    intro e
    refine .ite (timely_error.mpr rfl) ?_
    rcases s with _ | shape
    · exact timely_ok _
    · exact .ite (timely_ok _) (timely_error.mpr rfl)
  rw [decodeMapping.eq_def]
  split
  · exact timely_ok _
  · exact (Timely.forM hentry _).bind fun _ => timely_pure _
  · exact timely_error.mpr rfl

lemma Contributor.timely_contribute (c : Contributor) (metadata : Value) :
    Timely (c.contribute metadata) := by
  have hread : ∀ key, Timely (read metadata key) := by
    rintro (_ | key)
    · exact timely_ok _
    · exact (metadata.timely_get? _).bind fun _ => (timely_decodeStrings _ _).bind fun _ =>
        timely_pure _
  exact (hread _).bind fun _ => (hread _).bind fun _ => timely_pure _

namespace Collector

lemma timely_addResource (c : Collector) (id : Value) (type : ResourceType) :
    Timely (c.addResource id type) :=
  .ite (timely_error.mpr rfl) (.ite (timely_ok _) (timely_ok _))

lemma timely_addShared (c : Collector) (name : Value) (type : PartType) :
    Timely (c.addShared name type) :=
  .ite (timely_ok _) (timely_error.mpr rfl)

lemma timely_addResourceRef (c : Collector) (name : Value) (type : ResourceType) :
    Timely (c.addResourceRef name type) :=
  .ite (timely_ok _) (timely_error.mpr rfl)

lemma timely_demand (c : Collector) (id : Value) (type : ResourceType) :
    Timely (c.demand id type) := by
  refine Timely.bind (.ite (timely_ok _) (timely_error.mpr rfl)) fun r => ?_
  rcases r with _ | r
  · exact timely_throw.mpr rfl
  · exact timely_pure _

lemma timely_addPart (c : Collector) (id : Value) (type : ResourceType) (name : Value)
    (part : PartType) : Timely (c.addPart id type name part) :=
  (c.timely_demand id type).bind fun _ => Timely.bind
    (.ite (timely_error.mpr rfl) (.ite (timely_ok _) (timely_error.mpr rfl))) fun _ => timely_pure _

end Collector

namespace TypeNames

/-- The step never fails with the fault of a call outside its phase. -/
abbrev TimelyStep {σ α : Type} (step : Step σ α) : Prop :=
  step.FailsWith fun e => e.isUntimely = false

lemma timely_add (t : TypeNames) (name : Value) : Timely (t.add name) := by
  refine .ite (timely_ok _) ((name.timely_contains? _).bind fun _ => .ite ?_ ?_)
  · exact (Value.timely_insert? _ _).bind fun _ => timely_pure _
  · exact (Value.timely_insert? _ _).bind fun _ => timely_pure _

lemma timely_addOne (name : Value) : TimelyStep (addOne name) :=
  Step.failsWith_get.bind fun t => (Step.failsWith_ofAnswer (t.timely_add name)).bind fun _ =>
    Step.failsWith_set _

lemma timely_addAll (names : Value) : TimelyStep (addAll names) :=
  (Step.failsWith_ofAnswer names.timely_items?).bind fun _ => .forM timely_addOne _

lemma timely_takeReferenced (name : Value) : TimelyStep (takeReferenced name) :=
  Step.failsWith_get.bind fun _ => (Step.failsWith_ofAnswer (Value.timely_insert? _ _)).bind
    fun _ => Step.failsWith_set _

lemma timely_takeUnqualified (name : Value) : TimelyStep (takeUnqualified name) :=
  Step.failsWith_get.bind fun _ => (Step.failsWith_ofAnswer (Value.timely_insert? _ _)).bind
    fun _ => Step.failsWith_set _

end TypeNames

namespace Resolver

open TypeNames (TimelyStep)

lemma timely_simpleName (r : Resolver) (name : Value) : Timely (r.simpleName name) := by
  rw [simpleName.eq_def]
  split <;> first
    | exact .ite (timely_error.mpr rfl) (timely_ok _)
    | exact timely_error.mpr rfl

lemma timely_qualifyBuiltin (r : Resolver) (name : Value) : Timely (r.qualifyBuiltin name) :=
  r.basePackage.timely_display?.bind fun _ => r.separator.timely_display?.bind fun _ =>
    name.timely_display?.bind fun _ => timely_pure _

lemma timely_promote (r : Resolver) (name : Value) : TimelyStep (r.promote name) := by
  refine .ite ?_ ?_
  · exact (Step.failsWith_ofAnswer (r.timely_qualifyBuiltin name)).bind fun _ =>
      (TypeNames.timely_takeReferenced _).bind fun _ => Step.failsWith_pure _
  · exact (Step.failsWith_log _).bind fun _ => (TypeNames.timely_takeReferenced _).bind fun _ =>
      Step.failsWith_pure _

lemma timely_resolve (r : Resolver) : TimelyStep r.resolve := by
  refine Step.failsWith_get.bind fun t => ?_
  refine (Step.failsWith_ofAnswer (Timely.mapM r.timely_simpleName _)).bind fun _ => ?_
  refine (Step.failsWith_ofAnswer (Value.timely_sort? _)).bind fun _ => ?_
  exact (Step.FailsWith.mapM r.timely_promote _).bind fun _ => (Step.failsWith_modify _).bind
    fun _ => Step.failsWith_pure _

end Resolver

namespace Build

open TypeNames (TimelyStep)

lemma timely_onRefs {change : Collector → Answer Collector} (h : ∀ c, Timely (change c)) :
    TimelyStep (onRefs change) :=
  Step.failsWith_get.bind fun b => (Step.failsWith_ofAnswer (h b.refs)).bind fun _ =>
    Step.failsWith_set _

lemma timely_addShared (name : Value) (type : PartType) :
    TimelyStep (onRefs (·.addShared name type)) :=
  timely_onRefs fun c => c.timely_addShared name type

lemma timely_addResourceRef (name : Value) (type : ResourceType) :
    TimelyStep (onRefs (·.addResourceRef name type)) :=
  timely_onRefs fun c => c.timely_addResourceRef name type

lemma timely_structureRef? (v : Value) : Timely (structureRef? v) := by
  rw [structureRef?.eq_def]
  split <;> simp [Fault.isUntimely]

lemma timely_variableType (b : Build) (v : Variable) : Timely (b.variableType v) := by
  have hread : Timely v.itemSubject? := Value.timely_get? _ _
  rcases hsub : v.itemSubject? with e | subject
  · have herror : b.variableType v = .error e := by simp [variableType, hsub, bind, Except.bind]
    rw [hsub, timely_error] at hread
    exact herror ▸ timely_error.mpr hread
  · by_cases hnull : subject = .null
    · have hown : b.variableType v = .ok v.type := by
        simp [variableType, hsub, hnull, bind, Except.bind, pure, Except.pure]
      exact hown ▸ timely_ok _
    · rw [variableType_eq hsub hnull]
      refine .ite (timely_error.mpr rfl) ?_
      split
      · exact timely_ok _
      · exact timely_ok _
      · exact (timely_structureRef? _).map _

lemma timely_isWildcard (marker name : Value) : Timely (isWildcard marker name) := by
  have htext : ∀ (s : String) (ms : List Value), Timely (endsWithAny s ms) := by
    intro s ms
    induction ms with
    | nil => exact timely_ok _
    | cons m ms ih =>
        cases m with
        | text t => exact .ite (timely_ok _) ih
        | _ => exact timely_error.mpr rfl
  have hbytes : ∀ (bs : List UInt8) (ms : List Value), Timely (bytesEndWithAny bs ms) := by
    intro bs ms
    induction ms with
    | nil => exact timely_ok _
    | cons m ms ih =>
        cases m with
        | bytes t => exact .ite (timely_ok _) ih
        | _ => exact timely_error.mpr rfl
  rw [isWildcard.eq_def]
  split
  · split
    · exact htext _ _
    · exact htext _ _
  · split
    · exact hbytes _ _
    · exact hbytes _ _
  · exact timely_error.mpr rfl

lemma timely_ownResource? (b : Build) : Timely b.ownResource? := by
  rw [ownResource?]
  split
  · exact timely_error.mpr rfl
  · exact b.refs.timely_demand _ _

/-! ### Visits -/

lemma timely_visitItems : TimelyStep visitItems :=
  Step.failsWith_get.bind fun _ => .forM (fun _ =>
    (Step.failsWith_ofAnswer (timely_structureRef? _)).bind fun _ =>
      (TypeNames.timely_addOne _).focus) _

lemma timely_visitGlobals (globals : Value) : TimelyStep (visitGlobals globals) :=
  .ite ((Step.failsWith_ofAnswer globals.timely_mapping?).bind fun _ => .forM (fun _ =>
    (TypeNames.timely_addOne _).focus.bind fun _ => timely_addShared _ _) _) (Step.failsWith_pure _)

lemma timely_visitImports (imports : Value) : TimelyStep (visitImports imports) :=
  .ite (TypeNames.timely_addAll imports).focus (Step.failsWith_pure _)

lemma timely_visitDialect (metadata : Value) (c : Contributor) :
    TimelyStep (visitDialect metadata c) :=
  (Step.failsWith_ofAnswer (c.timely_contribute metadata)).bind fun _ =>
    (Step.FailsWith.forM (fun _ => TypeNames.timely_takeReferenced _) _).focus.bind fun _ =>
      (Step.FailsWith.forM (fun _ => TypeNames.timely_takeUnqualified _) _).focus

lemma timely_visitVariable (v : Variable) : TimelyStep (visitVariable v) := by
  refine Step.FailsWith.bind ?_ fun _ => Step.failsWith_get.bind fun b =>
    (Step.failsWith_ofAnswer (b.timely_variableType v)).bind fun _ =>
      (TypeNames.timely_addOne _).focus
  refine Step.failsWith_get.bind fun b => ?_
  split
  · exact Step.failsWith_throw rfl
  · exact timely_onRefs fun c => c.timely_addPart _ _ _ _

lemma timely_resolveTypes : TimelyStep resolveTypes :=
  Step.failsWith_get.bind fun b => b.resolver.timely_resolve.focus.bind fun _ =>
    (Step.failsWith_modify _).bind fun _ => Step.failsWith_get.bind fun _ =>
      .forM (fun _ => timely_addResourceRef _ _) _

lemma timely_visitSignals (names : List String) : TimelyStep (visitSignals names) :=
  .forM (fun _ => timely_addShared _ _) _

lemma timely_visitHeard (metadata : Value) : TimelyStep (visitHeard metadata) :=
  Step.failsWith_get.bind fun _ => (Step.FailsWith.forM (timely_visitDialect metadata) _).bind
    fun _ => (Step.FailsWith.forM timely_visitVariable _).bind fun _ => timely_resolveTypes.bind
      fun _ => (timely_visitSignals _).bind fun _ => timely_visitSignals _

lemma timely_visitFunctionImports (imports : Value) : TimelyStep (visitFunctionImports imports) :=
  .ite ((Step.failsWith_ofAnswer imports.timely_items?).bind fun _ => .forM (fun _ =>
    Step.failsWith_get.bind fun _ => (Step.failsWith_ofAnswer (timely_isWildcard _ _)).bind fun _ =>
      (timely_addResourceRef _ _).ite (Step.failsWith_pure _)) _) (Step.failsWith_pure _)

/-- In its phase the first step of a call is passed. -/
lemma timely_require_bind {α : Type} {call : Callback} {next : PUnit → Step Build α} {b : Build}
    (hphase : b.phase = call.admits) (h : TimelyStep (next ⟨⟩)) :
    (require call >>= next).Ends b (fun _ _ => True) fun e _ => e.isUntimely = false :=
  .bind (ends_require hphase (h b))

end Build

/-- **In its phase a call never fails as one outside its phase**: what fails is a value it met. -/
lemma Event.failsTimely (e : Event) {b : Build} (hphase : b.phase = e.callback.admits) :
    e.step.Ends b (fun _ _ => True) fun f _ => f.isUntimely = false := by
  have hlast : ∀ {x : Step Build Unit},
      x.Ends b (fun _ _ => True) (fun f _ => f.isUntimely = false) →
      (x >>= fun _ => pure (none : Option Index)).Ends b (fun _ _ => True)
        fun f _ => f.isUntimely = false := fun hx =>
    .bind (hx.imp (fun _ _ _ => Step.ends_pure.mpr trivial) fun _ _ => id)
  cases e with
  | processAdded v =>
      refine hlast ?_
      rw [Build.processAddedOf]
      split
      · refine Build.timely_require_bind hphase ((Step.failsWith_modify _).bind fun _ => ?_)
        refine (Step.failsWith_log _).bind fun _ => ?_
        refine (Build.timely_onRefs fun c => c.timely_addResource _ _).bind fun _ => ?_
        refine (Step.failsWith_modify _).bind fun _ => .ite ?_ (Step.failsWith_pure _)
        exact Build.timely_onRefs fun c => c.timely_addResource _ _
      · exact Build.timely_require_bind hphase ((Step.failsWith_modify _).bind fun _ =>
          Step.failsWith_throw rfl)
  | nodeAdded v =>
      refine hlast (Build.timely_require_bind hphase ?_)
      split
      · exact Step.failsWith_pure _
      · exact Build.timely_addShared _ _
      · exact (Build.timely_addShared _ _).ite (Step.failsWith_pure _)
      · have hid : ∀ id : Value, TypeNames.TimelyStep (if id.truthy then
            Build.onRefs (·.addResourceRef id .processId) else pure ⟨⟩) := fun id =>
          (Build.timely_addResourceRef _ _).ite (Step.failsWith_pure _)
        exact ((Build.timely_addResourceRef _ _).bind fun _ => hid _).ite (hid _)
      · exact Step.failsWith_pure _
  | metadataAdded key data =>
      refine hlast ?_
      rw [Build.metadataAddedOf.eq_def]
      split
      · refine Build.timely_require_bind hphase (.ite ?_ (.ite ?_ (.ite ?_ (.ite ?_ ?_))))
        · exact (Step.failsWith_ofAnswer (timely_decodeInstance _ _ _)).bind fun _ =>
            Step.failsWith_modify _
        · exact (Step.failsWith_ofAnswer (timely_decodeMapping _ _ _)).bind fun _ =>
            Step.failsWith_modify _
        · exact (Step.failsWith_ofAnswer (timely_decodeStrings _ _)).bind fun _ =>
            Step.failsWith_modify _
        · exact (Step.failsWith_ofAnswer (timely_decodeMapping _ _ _)).bind fun _ =>
            Step.failsWith_modify _
        · exact Step.failsWith_pure _
      · exact Build.ends_require hphase (Q := fun _ _ => True) trivial
  | complete v =>
      refine hlast ?_
      rw [Build.completeOf]
      split
      · exact Build.timely_require_bind hphase ((Step.failsWith_modify _).bind fun _ =>
          Build.timely_visitItems.bind fun _ => (Build.timely_visitGlobals _).bind fun _ =>
            Build.timely_visitImports _)
      · exact Build.timely_require_bind hphase ((Step.failsWith_modify _).bind fun _ =>
          Build.timely_visitItems.bind fun _ => Step.failsWith_throw rfl)
  | buildComplete v =>
      change (Build.buildCompleteOf v).Ends b _ _
      rw [Build.buildCompleteOf]
      split
      · rw [map_eq_pure_bind]
        refine .bind ((Build.timely_require_bind hphase ?_).imp
          (fun _ _ _ => Step.ends_pure.mpr trivial) fun _ _ => id)
        refine Step.failsWith_get.bind fun b => ?_
        refine (Step.FailsWith.forM (Build.timely_visitDialect _) _).bind fun _ => ?_
        refine (Step.FailsWith.forM Build.timely_visitVariable _).bind fun _ => ?_
        refine Build.timely_resolveTypes.bind fun _ => ?_
        refine (Build.timely_visitSignals _).bind fun _ => ?_
        refine (Build.timely_visitSignals _).bind fun _ => ?_
        refine (Build.timely_visitFunctionImports _).bind fun _ => ?_
        refine (Step.failsWith_modify _).bind fun _ => Step.failsWith_get.bind fun c => ?_
        refine (Step.failsWith_set _).bind fun _ => ?_
        exact (Step.failsWith_ofAnswer c.timely_ownResource?).bind fun _ =>
          (Step.failsWith_log _).bind fun _ => Step.failsWith_pure _
      · exact Build.timely_require_bind hphase ((Build.timely_visitHeard _).bind fun _ =>
          Step.failsWith_throw rfl)
      · exact Build.timely_require_bind hphase (Step.failsWith_throw rfl)

/-! ### The phases -/

namespace Build

/-- What a call may do to the phase and the index: nothing, or one step forward; the last step
brings the index. -/
inductive Moves (b : Build) (call : Callback) (c : Build) : Prop
  | stays (phase : c.phase = b.phase) (index : c.index = b.index)
  | opens (which : call = .processAdded) (before : b.phase = .created) (after : c.phase = .building)
      (index : c.index = b.index)
  | reads (which : call = .complete) (before : b.phase = .building) (after : c.phase = .compiled)
      (index : c.index = b.index)
  | closes (which : call = .buildComplete) (before : b.phase = .compiled)
      (after : c.phase = .completed) (index : c.index.isSome)

/-- A build has an index exactly if it is completed. -/
def Sound (b : Build) : Prop := b.index.isSome ↔ b.phase = .completed

section Moves

variable {b c : Build} {call : Callback}

lemma Moves.sound (h : Moves b call c) (hb : b.Sound) : c.Sound := by
  cases h with
  | stays phase index => rw [Sound, phase, index]; exact hb
  | opens _ before after index =>
      rw [Sound, before] at hb
      rw [Sound, after, index, hb]
      decide
  | reads _ before after index =>
      rw [Sound, before] at hb
      rw [Sound, after, index, hb]
      decide
  | closes _ _ after index => exact ⟨fun _ => after, fun _ => index⟩

lemma Moves.rank (h : Moves b call c) :
    c.phase.rank = b.phase.rank ∨ c.phase.rank = b.phase.rank + 1 := by
  cases h with
  | stays phase _ => exact .inl (congrArg Phase.rank phase)
  | opens _ before after _ => rw [before, after]; exact .inr rfl
  | reads _ before after _ => rw [before, after]; exact .inr rfl
  | closes _ before after _ => rw [before, after]; exact .inr rfl

/-- No call leads out of the last phase, and none changes the index there. -/
lemma Moves.over (h : Moves b call c) (hb : b.phase = .completed) :
    c.phase = .completed ∧ c.index = b.index := by
  cases h with
  | stays phase index => exact ⟨phase.trans hb, index⟩
  | opens _ before _ _ => rw [before] at hb; cases hb
  | reads _ before _ _ => rw [before] at hb; cases hb
  | closes _ before _ _ => rw [before] at hb; cases hb

lemma Leftover.phase_eq (h : Leftover b c) : c.phase = b.phase := by rw [h.rest]

lemma Leftover.index_eq (h : Leftover b c) : c.index = b.index := by rw [h.rest]

lemma Leftover.stays (h : Leftover b c) : Moves b call c := .stays h.phase_eq h.index_eq

/-- What is visited for the last call leaves names, references and parts behind. -/
lemma leftover_visitHeard (metadata : Value) : (visitHeard metadata).Keeps (Leftover b) :=
  Step.keeps_get.bind fun _ => (Step.Keeps.forM (filing_leftover.visitDialect metadata) _).bind
    fun _ => (Step.Keeps.forM leftover_visitVariable _).bind fun _ => leftover_resolveTypes.bind
      fun _ => (filing_leftover.visitSignals _).bind fun _ => filing_leftover.visitSignals _

lemma leftover_nodeAdded (v : Value) : (nodeAdded v).Keeps (Leftover b) := by
  refine (keeps_require _).bind fun _ => ?_
  split
  · exact Step.keeps_pure _
  · exact filing_leftover.shared _ _
  · exact (filing_leftover.shared _ _).ite (Step.keeps_pure _)
  · exact ((leftover_addResourceRef _ _).bind fun _ =>
      (leftover_addResourceRef _ _).ite (Step.keeps_pure _)).ite
        ((leftover_addResourceRef _ _).ite (Step.keeps_pure _))
  · exact Step.keeps_pure _

/-- The first call moves the build on, and registers what it can. -/
lemma processAddedOf_moves (v : Value) (hphase : b.phase = .created) :
    (processAddedOf v).Ends b (fun _ c => c.phase = .building ∧ c.index = b.index)
      fun _ c => c.phase = .building ∧ c.index = b.index := by
  have hrefs : ∀ change : Collector → Answer Collector,
      (onRefs change).Keeps fun c => c.phase = .building ∧ c.index = b.index := fun _ =>
    keeps_onRefs fun _ _ hc _ => hc
  have hown : ∀ id, (modify fun c : Build => { c with own := some id } : Step Build PUnit).Keeps
      fun c => c.phase = .building ∧ c.index = b.index := fun _ => Step.keeps_modify fun _ hc => hc
  rw [processAddedOf]
  split
  · refine .bind (ends_require hphase (.bind (Step.ends_modify.mpr (.bind ?_))))
    exact Step.ends_log.mpr (((hrefs _).bind fun _ => (hown _).bind fun _ =>
      (hrefs _).ite (Step.keeps_pure _)) _ ⟨rfl, rfl⟩)
  · exact .bind (ends_require hphase (.bind (Step.ends_modify.mpr
      (Step.ends_throw.mpr ⟨rfl, rfl⟩))))

/-- An observation is taken as a whole or not at all. -/
lemma metadataAddedOf_moves (key data : Value) : (metadataAddedOf key data).Ends b
    (fun _ c => c.phase = b.phase ∧ c.index = b.index) fun _ c => c = b := by
  have hrequire : (require .metadataAdded).Ends b (fun _ c => c = b) fun _ c => c = b :=
    keeps_require .metadataAdded b rfl
  have htake : ∀ {α : Type} (a : Answer α) (f : α → Build → Build),
      (∀ x, (f x b).phase = b.phase ∧ (f x b).index = b.index) →
      (Step.ofAnswer a >>= fun x => modify (f x)).Ends b
        (fun _ c => c.phase = b.phase ∧ c.index = b.index) fun _ c => c = b := fun a f hf =>
    .bind (Step.ends_ofAnswer.mpr ⟨fun x _ => Step.ends_modify.mpr (hf x), fun _ _ => rfl⟩)
  rw [metadataAddedOf.eq_def]
  split
  · refine .bind (hrequire.imp ?_ fun _ _ => id)
    rintro _ c rfl
    split_ifs
    · exact htake _ _ fun _ => ⟨rfl, rfl⟩
    · exact htake _ _ fun _ => ⟨rfl, rfl⟩
    · exact htake _ _ fun _ => ⟨rfl, rfl⟩
    · exact htake _ _ fun _ => ⟨rfl, rfl⟩
    · exact Step.ends_pure.mpr ⟨rfl, rfl⟩
  · exact hrequire.imp (fun _ c hc => hc ▸ ⟨rfl, rfl⟩) fun _ _ => id

/-- The call that ends the reading moves the build on, and files what it can. -/
lemma completeOf_moves (v : Value) (hphase : b.phase = .building) : (completeOf v).Ends b
    (fun _ c => Leftover { b with phase := .compiled } c)
    fun _ c => Leftover { b with phase := .compiled } c := by
  rw [completeOf]
  split
  · exact complete_leftover hphase
  · refine .bind (ends_require hphase (.bind (Step.ends_modify.mpr (.bind ?_))))
    exact (filing_leftover.visitItems _ (.refl _)).imp (fun _ _ hc => Step.ends_throw.mpr hc)
      fun _ _ => id

/-- The last call moves the build on if it closes it, which it may do before it fails. -/
lemma buildCompleteOf_moves (v : Value) (hphase : b.phase = .compiled) : (buildCompleteOf v).Ends b
    (fun a c => (∃ d p, c = closed d p) ∧ c.index = a)
    fun _ c => Leftover b c ∨ ∃ d p, c = closed d p := by
  rw [buildCompleteOf]
  split
  · rw [map_eq_pure_bind]
    refine .bind ((buildComplete_closes hphase).imp ?_ ?_)
    · rintro i c ⟨d, -, hc, hi⟩
      exact Step.ends_pure.mpr ⟨⟨d, _, hc⟩, hi⟩
    · rintro e c (hc | ⟨d, -, hc, -⟩)
      · exact .inl hc
      · exact .inr ⟨d, _, hc⟩
  · refine .bind (ends_require hphase (.bind ((leftover_visitHeard _ b (.refl b)).imp ?_ ?_)))
    · exact fun _ c hc => Step.ends_throw.mpr (.inl hc)
    · exact fun _ c hc => .inl hc
  · exact .bind (ends_require hphase (Step.ends_throw.mpr (.inl (.refl b))))

end Moves

end Build

/-- **One call**: it moves the build by at most one step; if it returns an index it is the last one,
and has just brought that index; an observation that fails leaves the build as it is. -/
lemma Event.moves (e : Event) (b : Build) : e.step.Ends b
    (fun a c => b.Moves e.callback c ∧
      (a.isSome → b.phase = .compiled ∧ c.phase = .completed ∧ c.index = a))
    fun _ c => b.Moves e.callback c ∧ (e.callback = .metadataAdded → c = b) := by
  by_cases hphase : b.phase = e.callback.admits
  swap
  · obtain ⟨next, hnext⟩ := e.guarded
    rw [hnext]
    refine (Build.refused_ends (Q := fun _ _ => False) hphase).imp (fun _ _ => False.elim) ?_
    rintro _ c rfl
    exact ⟨.stays rfl rfl, fun _ => rfl⟩
  have hlast : ∀ {x : Step Build Unit} {P : Build → Prop} {E : Fault → Build → Prop},
      x.Ends b (fun _ c => P c) E → (x >>= fun _ => pure (none : Option Index)).Ends b
        (fun a c => a = none ∧ P c) E := fun hx =>
    .bind (hx.imp (fun _ _ hc => Step.ends_pure.mpr ⟨rfl, hc⟩) fun _ _ => id)
  cases e with
  | processAdded v =>
      refine (hlast (Build.processAddedOf_moves v hphase)).imp ?_ ?_
      · rintro a c ⟨rfl, hafter, hindex⟩
        exact ⟨.opens rfl hphase hafter hindex, nofun⟩
      · exact fun _ c hc => ⟨.opens rfl hphase hc.1 hc.2, nofun⟩
  | nodeAdded v =>
      refine (hlast (Build.leftover_nodeAdded v b (.refl b))).imp ?_ ?_
      · rintro a c ⟨rfl, hc⟩
        exact ⟨hc.stays, nofun⟩
      · exact fun _ c hc => ⟨hc.stays, nofun⟩
  | metadataAdded key data =>
      refine (hlast (Build.metadataAddedOf_moves key data)).imp ?_ ?_
      · rintro a c ⟨rfl, hafter, hindex⟩
        exact ⟨.stays hafter hindex, nofun⟩
      · rintro _ c rfl
        exact ⟨.stays rfl rfl, fun _ => rfl⟩
  | complete v =>
      have hread : ∀ c, Build.Leftover { b with phase := .compiled } c → b.Moves .complete c :=
        fun c hc => .reads rfl hphase hc.phase_eq hc.index_eq
      refine (hlast (Build.completeOf_moves v hphase)).imp ?_ ?_
      · rintro a c ⟨rfl, hc⟩
        exact ⟨hread c hc, nofun⟩
      · exact fun _ c hc => ⟨hread c hc, nofun⟩
  | buildComplete v =>
      refine (Build.buildCompleteOf_moves v hphase).imp ?_ ?_
      · rintro a c ⟨⟨d, p, rfl⟩, hindex⟩
        exact ⟨.closes rfl hphase rfl rfl, fun _ => ⟨hphase, rfl, hindex⟩⟩
      · rintro _ c (hc | ⟨d, p, rfl⟩)
        · exact ⟨hc.stays, nofun⟩
        · exact ⟨.closes rfl hphase rfl rfl, nofun⟩

/-! ### Any calls -/

namespace Build

/-- The build after several calls, whether it accepted each of them or refused it. -/
def heard (b : Build) (es : List Event) : Build := es.foldl (fun b e => e.step.after b) b

/-- The indexes that were returned by the calls, in order. -/
def returned (b : Build) : List Event → List Index
  | [] => []
  | e :: es =>
    match (e.step.outcome b).1 with
    | .ok (some i) => i :: (e.step.after b).returned es
    | _ => (e.step.after b).returned es

variable {b : Build}

lemma moves_after (b : Build) (e : Event) : b.Moves e.callback (e.step.after b) :=
  ((e.moves b).imp (fun _ _ hc => hc.1) fun _ _ hc => hc.1).after

/-- After any calls a sound build is sound. -/
lemma Sound.heard (es : List Event) : ∀ {b : Build}, b.Sound → (b.heard es).Sound := by
  induction es with
  | nil => exact id
  | cons e es ih => exact fun hb => ih ((moves_after _ e).sound hb)

/-- After any calls a completed build is completed, with the same index. -/
lemma heard_over (es : List Event) : ∀ {b : Build}, b.phase = .completed →
    (b.heard es).phase = .completed ∧ (b.heard es).index = b.index := by
  induction es with
  | nil => exact fun hb => ⟨hb, rfl⟩
  | cons e es ih =>
      intro b hb
      obtain ⟨hphase, hindex⟩ := (moves_after b e).over hb
      obtain ⟨hlast, hsame⟩ := ih hphase
      exact ⟨hlast, hsame.trans hindex⟩

/-- A call that returns an index completes the build with it. -/
lemma returned_some {e : Event} {i : Index} (h : (e.step.outcome b).1 = .ok (some i)) :
    b.phase = .compiled ∧ (e.step.after b).phase = .completed ∧
      (e.step.after b).index = some i :=
  ((e.moves b).of_outcome_ok h).2 rfl

/-- A completed build returns no index any more. -/
lemma returned_over (es : List Event) : ∀ {b : Build}, b.phase = .completed →
    b.returned es = [] := by
  induction es with
  | nil => exact fun _ => rfl
  | cons e es ih =>
      intro b hb
      have hrest := ih ((moves_after b e).over hb).1
      rw [returned]
      split
      · rename_i i hi
        rw [(returned_some hi).1] at hb
        cases hb
      · exact hrest

/-- At most one index is returned, and it is the one that the build has in the end. -/
lemma returned_le_one (es : List Event) : ∀ b : Build,
    b.returned es = [] ∨ ∃ i, b.returned es = [i] ∧ (b.heard es).index = some i := by
  induction es with
  | nil => exact fun _ => .inl rfl
  | cons e es ih =>
      intro b
      rw [returned]
      split
      · rename_i i hi
        obtain ⟨-, hphase, hindex⟩ := returned_some hi
        rw [returned_over es hphase]
        exact .inr ⟨i, rfl, (heard_over es hphase).2.trans hindex⟩
      · exact ih _

/-- **The law of the phases.** After any calls with any arguments on a fresh build, the next call
moves the phase by at most one step, and only the call to which that step belongs; it fails as one
outside its phase exactly if the build is not in its phase, and then changes nothing; an
observation that is refused changes nothing either. There is an index exactly if the build is
completed, at most one call returned it, and no call changes it. -/
theorem phases_advance (r : Resolver) (d : DialectRegistry) (w : Value) (es : List Event) :
    let b := (start r d w).heard es
    (∀ e : Event, b.Moves e.callback (e.step.after b) ∧
      ((∃ call phase, (e.step.outcome b).1 = .error (.lifecycle call phase)) ↔
        b.phase ≠ e.callback.admits) ∧
      (b.phase ≠ e.callback.admits →
        e.step.outcome b = (.error (.lifecycle e.callback b.phase), b)) ∧
      (∀ key expected actual, e.callback = .metadataAdded →
        (e.step.outcome b).1 = .error (.metadata key expected actual) → e.step.after b = b)) ∧
    (b.index.isSome ↔ b.phase = .completed) ∧
    ((start r d w).returned es).length ≤ 1 ∧
    ∀ i, b.index = some i → ∀ fs, (b.heard fs).index = some i := by
  intro b
  have hsound : b.Sound := Sound.heard es ⟨nofun, nofun⟩
  refine ⟨fun e => ⟨moves_after b e, ⟨?_, fun hphase => ?_⟩, e.guarded.refused, ?_⟩, hsound, ?_,
    fun i hi fs => ?_⟩
  · rintro ⟨call, phase, hlifecycle⟩ hphase
    have huntimely := (e.failsTimely hphase).of_outcome_error (Prod.ext hlifecycle rfl)
    cases huntimely
  · rw [e.guarded.refused hphase]
    exact ⟨_, _, rfl⟩
  · intro key expected actual hcall hmetadata
    exact ((e.moves b).of_outcome_error (Prod.ext hmetadata rfl)).2 hcall
  · rcases returned_le_one es (start r d w) with hnone | ⟨i, hone, -⟩
    · rw [hnone]
      exact Nat.zero_le 1
    · rw [hone]
      exact le_refl 1
  · have hover : b.phase = .completed := hsound.mp (by rw [hi]; rfl)
    exact (heard_over fs hover).2.trans hi

/-- The calls of a compiler for a process that declares nothing, with one that comes too early. -/
def bareEvents : List Event :=
  let p := (ProcessDefinition.bare "P" "n").toValue
  [.complete p, .processAdded p, .nodeAdded .null, .complete p, .buildComplete p]

theorem phases_advance_bare :
    let b := (start {} {} (.text "*")).heard bareEvents
    (∃ i, b.index = some i ∧ ∀ fs, (b.heard fs).index = some i) ∧
    ((Event.nodeAdded .null).step.outcome b) = (.error (.lifecycle .nodeAdded .completed), b) := by
  intro b
  obtain ⟨hnext, hindex, -, hkeeps⟩ := phases_advance {} {} (.text "*") bareEvents
  have hphase : ((start {} {} (.text "*")).heard bareEvents).phase = .completed := by cbv
  obtain ⟨i, hi⟩ := Option.isSome_iff_exists.mp (hindex.mpr hphase)
  obtain ⟨-, -, hrefused, -⟩ := hnext (.nodeAdded .null)
  refine ⟨⟨i, hi, hkeeps i hi⟩, ?_⟩
  rw [hrefused (by rw [hphase]; decide), hphase]
  rfl

end Build

end Concordance
