import Concordance.Proofs.Findings

/-!
What a build makes of the calls that reach it while a process is read, in any order.

* `Observation` : a node or a piece of metadata; `Build.hear` : the build after a list of
  observations, whether it accepted each of them or refused it.
* `Observation.var?`, `items?`, `signals?`, `messages?` : what one observation delivers, if it
  can be decoded; `Build.noting` : the build with what a list of observations delivers, where every
  variable is kept and the last items, signals and messages are.
* `Build.hear_gathered` : observations add what their nodes carry, and are otherwise noted. The
  induction is on the list, `Build.metadataAdded_ends` and `Build.adds_nodeAdded` are its steps.
-/

namespace Concordance

/-- What a build is told while a process is read. -/
inductive Observation where
  | node (v : Value)
  | metadata (key : String) (data : Value)

/-- The keys of a build are four different ones. -/
@[simp] lemma Build.keys_ne : (variableKey ≠ itemsKey ∧ variableKey ≠ signalsKey ∧
    variableKey ≠ messagesKey) ∧ (itemsKey ≠ variableKey ∧ itemsKey ≠ signalsKey ∧
    itemsKey ≠ messagesKey) ∧ (signalsKey ≠ variableKey ∧ signalsKey ≠ itemsKey ∧
    signalsKey ≠ messagesKey) ∧ messagesKey ≠ variableKey ∧ messagesKey ≠ itemsKey ∧
    messagesKey ≠ signalsKey := by
  decide

namespace Observation

/-- The call that an observation is. -/
def call : Observation → Step Build Unit
  | node v => Build.nodeAdded v
  | metadata key data => Build.metadataAdded key data

/-! ### What an observation delivers -/

/-- The node of an observation. -/
def node? : Observation → Option Value
  | node v => some v
  | metadata .. => none

@[simp] lemma node?_node (v : Value) : (node v).node? = some v := rfl

@[simp] lemma node?_metadata (key : String) (data : Value) : (metadata key data).node? = none := rfl

/-- The variable that an observation delivers. -/
def var? : Observation → Option Variable
  | node _ => none
  | metadata key data => if key = Build.variableKey then Variable.ofValue? data else none

/-- The items that an observation delivers. -/
def items? : Observation → Option (List (Value × Value))
  | node _ => none
  | metadata key data => if key = Build.itemsKey
      then (decodeMapping key data (some .item)).toOption.map (·.getD []) else none

/-- The signals that an observation delivers. -/
def signals? : Observation → Option (List String)
  | node _ => none
  | metadata key data => if key = Build.signalsKey
      then (decodeStrings key data).toOption.map (·.getD []) else none

/-- The messages that an observation delivers. -/
def messages? : Observation → Option (List String)
  | node _ => none
  | metadata key data => if key = Build.messagesKey
      then (decodeMapping key data none).toOption.map fun es => Build.keyTexts (es.getD [])
      else none

/-- What an observation delivers can be decoded, if its key is known. -/
def Decodes : Observation → Prop
  | node _ => True
  | metadata key data =>
    (key = Build.variableKey → (var? (metadata key data)).isSome) ∧
    (key = Build.itemsKey → (items? (metadata key data)).isSome) ∧
    (key = Build.signalsKey → (signals? (metadata key data)).isSome) ∧
    (key = Build.messagesKey → (messages? (metadata key data)).isSome)

/-- The last of what several observations deliver, or what was there before. -/
def lastOf {α : Type} (read : Observation → Option α) (obs : List Observation) (before : α) : α :=
  (obs.filterMap read).getLast?.getD before

lemma lastOf_cons {α : Type} (read : Observation → Option α) (o : Observation)
    (obs : List Observation) (before : α) :
    lastOf read (o :: obs) before = lastOf read obs (lastOf read [o] before) := by
  unfold lastOf
  rcases ho : read o with _ | a
  · simp [ho]
  · simp only [List.filterMap_cons, ho, List.filterMap_nil, List.getLast?_cons, List.getLast?_nil,
      Option.getD_none, Option.getD_some]

end Observation

namespace Build

/-- The build with what several observations deliver. -/
def noting (b : Build) (obs : List Observation) : Build :=
  { b with
    vars := b.vars ++ obs.filterMap Observation.var?
    items := Observation.lastOf Observation.items? obs b.items
    signals := Observation.lastOf Observation.signals? obs b.signals
    messages := Observation.lastOf Observation.messages? obs b.messages }

/-- The build after several observations, whether it accepted each of them or refused it. -/
def hear (b : Build) (obs : List Observation) : Build := obs.foldl (fun b o => o.call.after b) b

/-- The build with what one observation delivers. -/
lemma noting_singleton (b : Build) (o : Observation) : b.noting [o] =
    { b with
      vars := b.vars ++ o.var?.toList
      items := o.items?.getD b.items
      signals := o.signals?.getD b.signals
      messages := o.messages?.getD b.messages } := by
  have hlast : ∀ {α : Type} (read : Observation → Option α) (before : α),
      Observation.lastOf read [o] before = (read o).getD before := fun read before => by
    unfold Observation.lastOf
    rcases hr : read o <;> simp [hr]
  unfold noting
  rw [hlast, hlast, hlast]
  rcases hv : o.var? <;> simp [hv]

lemma noting_nil (b : Build) : b.noting [] = b := by simp [noting, Observation.lastOf]

lemma noting_cons (b : Build) (o : Observation) (obs : List Observation) :
    b.noting (o :: obs) = (b.noting [o]).noting obs := by
  simp only [noting, Observation.lastOf_cons _ o obs]
  rcases ho : o.var? <;> simp [ho]

/-- A call is admitted in its phase. -/
lemma ends_require {b : Build} {call : Callback} {Q : Unit → Build → Prop}
    {E : Fault → Build → Prop} (h : b.phase = call.admits) (hQ : Q () b) :
    (require call).Ends b Q E :=
  .bind (Step.ends_get.mpr (by simpa [h] using hQ))

/-! ### Metadata -/

section Decoding

variable {α β : Type} {key : String} {v : Value} {e : Fault}

/-- A list is refused by one of its members. -/
lemma exists_of_mapM_error {f : α → Answer β} : ∀ {xs : List α}, xs.mapM f = .error e →
    ∃ x ∈ xs, f x = .error e
  | [], h => by cases h
  | x :: xs, h => by
      rcases hx : f x with e' | y
      · simp only [List.mapM_cons, hx, bind, Except.bind] at h
        cases h
        exact ⟨x, by simp, hx⟩
      · rcases hxs : xs.mapM f with e' | ys
        · simp only [List.mapM_cons, hx, hxs, bind, Except.bind] at h
          obtain ⟨z, hz, hfz⟩ := exists_of_mapM_error (hxs.trans h)
          exact ⟨z, by simp [hz], hfz⟩
        · simp [List.mapM_cons, hx, hxs, bind, Except.bind, pure, Except.pure] at h

/-- A list is refused by one of its members. -/
lemma exists_of_forM_error {f : α → Answer PUnit} : ∀ {xs : List α}, xs.forM f = .error e →
    ∃ x ∈ xs, f x = .error e
  | [], h => by cases h
  | x :: xs, h => by
      change (f x >>= fun _ => xs.forM f) = _ at h
      rcases hx : f x with e' | y
      · rw [hx] at h
        exact ⟨x, by simp, hx.trans h⟩
      · rw [hx] at h
        obtain ⟨z, hz, hfz⟩ := exists_of_forM_error h
        exact ⟨z, by simp [hz], hfz⟩

/-- A refusal names the key that was read. -/
def RefusesKey (key : String) (e : Fault) : Prop := ∃ expected met, e = .metadata key expected met

lemma refusesKey_decodeInstance {shape : Shape} (h : decodeInstance key v shape = .error e) :
    RefusesKey key e := by
  unfold decodeInstance at h
  split at h <;> cases h
  exact ⟨_, _, rfl⟩

/-- A variable is decoded as itself, and nothing else is a variable. -/
lemma decodeInstance_var (key : String) (v : Value) :
    (∃ x, Variable.ofValue? v = some x ∧ decodeInstance key v .var = .ok v) ∨
      ∃ e, Variable.ofValue? v = none ∧ decodeInstance key v .var = .error e := by
  cases v with
  | var n t m => exact .inl ⟨_, rfl, rfl⟩
  | _ => exact .inr ⟨_, rfl, rfl⟩

lemma refusesKey_decodeStrings (h : decodeStrings key v = .error e) : RefusesKey key e := by
  unfold decodeStrings at h
  split at h <;> try cases h
  · exact ⟨_, _, rfl⟩
  · exact ⟨_, _, rfl⟩
  · split at h <;> try cases h
    · exact ⟨_, _, rfl⟩
    · rename_i xs _
      rcases hxs : xs.mapM (decodeString key) with e' | names
      · rw [hxs] at h
        cases h
        obtain ⟨x, -, hx⟩ := exists_of_mapM_error hxs
        cases x <;> cases hx <;> exact ⟨_, _, rfl⟩
      · rw [hxs] at h
        cases h

lemma refusesKey_checkEntry {shape : Option Shape} {entry : Value × Value}
    (h : checkEntry key shape entry = .error e) : RefusesKey key e := by
  unfold checkEntry at h
  split at h
  · cases h
    exact ⟨_, _, rfl⟩
  · split at h
    · split at h <;> cases h
      exact ⟨_, _, rfl⟩
    · cases h

lemma refusesKey_decodeMapping {shape : Option Shape} (h : decodeMapping key v shape = .error e) :
    RefusesKey key e := by
  unfold decodeMapping at h
  split at h
  · cases h
  · rename_i es _
    rcases hes : es.forM (checkEntry key shape) with e' | ⟨⟩
    · rw [hes] at h
      cases h
      obtain ⟨entry, -, hentry⟩ := exists_of_forM_error hes
      exact refusesKey_checkEntry hentry
    · rw [hes] at h
      cases h
  · cases h
    exact ⟨_, _, rfl⟩

/-- A list of texts that can be decoded is decoded as it is. -/
lemma mapM_decodeString_eq : ∀ {xs : List Value} {names : List String},
    xs.mapM (decodeString key) = .ok names → xs = names.map .text
  | [], names, h => by
      obtain rfl : [] = names := by simpa [pure, Except.pure] using h
      rfl
  | x :: xs, names, h => by
      rw [List.mapM_cons] at h
      cases x with
      | text s =>
          rcases hxs : xs.mapM (decodeString key) with e | more
          · simp [decodeString, hxs, bind, Except.bind] at h
          · simp only [decodeString, hxs, bind, Except.bind, pure, Except.pure,
              Except.ok.injEq] at h
            rw [← h, mapM_decodeString_eq hxs, List.map_cons]
      | _ => cases h

end Decoding

/-- Metadata are noted if they can be decoded, and otherwise refused, which changes nothing. -/
lemma metadataAdded_ends {b : Build} (hphase : b.phase = .building) (key : String) (data : Value) :
    (metadataAdded key data).Ends b
      (fun _ b' => b' = b.noting [.metadata key data] ∧ (Observation.metadata key data).Decodes)
      fun e b' => b' = b.noting [.metadata key data] ∧
        ¬(Observation.metadata key data).Decodes ∧ RefusesKey key e := by
  refine .bind (ends_require hphase ?_)
  clear hphase
  by_cases hvar : key = variableKey
  · subst hvar
    rw [if_pos rfl]
    rcases decodeInstance_var variableKey data with ⟨x, hx, hok⟩ | ⟨e, hnone, he⟩
    · rw [hok]
      refine .bind (Step.ends_ofAnswer_ok.mpr (Step.ends_modify.mpr ?_))
      simp [noting_singleton, Observation.Decodes, Observation.var?, Observation.items?,
        Observation.signals?, Observation.messages?, hx]
    · rw [he]
      refine .bind (Step.ends_ofAnswer_error.mpr ⟨?_, ?_, refusesKey_decodeInstance he⟩) <;>
        simp [noting_singleton, Observation.Decodes, Observation.var?, Observation.items?,
          Observation.signals?, Observation.messages?, hnone]
  rw [if_neg hvar]
  by_cases hitems : key = itemsKey
  · subst hitems
    rw [if_pos rfl]
    refine .bind (Step.ends_ofAnswer.mpr ⟨fun es hes => Step.ends_modify.mpr ?_, fun e he =>
      ⟨?_, ?_, refusesKey_decodeMapping he⟩⟩) <;>
      simp [noting_singleton, Observation.Decodes, Observation.var?, Observation.items?,
        Observation.signals?, Observation.messages?, Except.toOption, *]
  rw [if_neg hitems]
  by_cases hsignals : key = signalsKey
  · subst hsignals
    rw [if_pos rfl]
    refine .bind (Step.ends_ofAnswer.mpr ⟨fun names hnames => Step.ends_modify.mpr ?_, fun e he =>
      ⟨?_, ?_, refusesKey_decodeStrings he⟩⟩) <;>
      simp [noting_singleton, Observation.Decodes, Observation.var?, Observation.items?,
        Observation.signals?, Observation.messages?, Except.toOption, *]
  rw [if_neg hsignals]
  by_cases hmessages : key = messagesKey
  · subst hmessages
    rw [if_pos rfl]
    refine .bind (Step.ends_ofAnswer.mpr ⟨fun es hes => Step.ends_modify.mpr ?_, fun e he =>
      ⟨?_, ?_, refusesKey_decodeMapping he⟩⟩) <;>
      simp [noting_singleton, Observation.Decodes, Observation.var?, Observation.items?,
        Observation.signals?, Observation.messages?, Except.toOption, *]
  · rw [if_neg hmessages]
    simp [noting_singleton, Observation.Decodes, Observation.var?, Observation.items?,
      Observation.signals?, Observation.messages?, hvar, hitems, hsignals, hmessages]

/-! ### Nodes -/

/-- What the names of a node add: a rule-flow group even if it is empty, any other name only if it
is not. -/
def nodeFindings : Value → Set Finding
  | .ruleSet _ _ group => {f | ∃ n, group = .text n ∧ f = .shared n .ruleflowGroup}
  | .workItem _ _ work => {f | ∃ n, work.name? = some n ∧ f = .shared n .taskName}
  | .subProcess _ _ processId processName =>
    {f | ∃ n, processName.name? = some n ∧ f = .reference n .processName} ∪
      {f | ∃ n, processId.name? = some n ∧ f = .reference n .processId}
  | _ => ∅

/-- The names that a node carries are texts or absent. -/
def NodeNameable : Value → Prop
  | .ruleSet _ _ group => group.Nameable
  | .workItem _ _ work => work.Nameable
  | .subProcess _ _ processId processName => processId.Nameable ∧ processName.Nameable
  | _ => True

section Nodes

variable {p : ProcessDefinition} {b₀ : Build}

/-- A reference under a name that may be absent. -/
lemma adds_reference {v : Value} (hv : v.Nameable) (t : ResourceType) :
    Adds p b₀ (if v.truthy then onRefs (·.addResourceRef v t) else Pure.pure ⟨⟩) True
      {f | ∃ n, v.name? = some n ∧ f = .reference n t} := by
  obtain ⟨ht, hn⟩ | ⟨n, rfl, hne, hn⟩ := hv.cases
  · simpa [ht, hn] using Adds.pure
  · rw [if_pos (Value.truthy_text.mpr hne)]
    exact (adds_addResourceRef n t).congr Iff.rfl (by ext; simp [hn])

lemma adds_nodeAdded (hphase : b₀.phase = .building) {v : Value} (hv : NodeNameable v) :
    Adds p b₀ (nodeAdded v) True (nodeFindings v) := fun F b hF hb => by
  refine .bind (ends_require ((show b.phase = b₀.phase by rw [hb]).trans hphase) ?_)
  cases v with
  | ruleSet a c group =>
      obtain rfl | ⟨n, rfl⟩ := hv
      · exact Adds.pure.congr Iff.rfl (by ext; simp [nodeFindings]) F b hF hb
      · exact (adds_addShared n .ruleflowGroup).congr Iff.rfl
          (by ext; simp [nodeFindings]) F b hF hb
  | workItem a c work =>
      obtain ⟨ht, hn⟩ | ⟨n, rfl, hne, hn⟩ := Value.Nameable.cases hv
      · simp only [ht, Bool.false_eq_true, if_false]
        exact Adds.pure.congr Iff.rfl (by ext; simp [nodeFindings, hn]) F b hF hb
      · simp only [Value.truthy_text.mpr hne, if_true]
        exact (adds_addShared n .taskName).congr Iff.rfl (by ext; simp [nodeFindings, hn]) F b hF hb
  | subProcess a c processId processName =>
      obtain ⟨hid, hname⟩ := hv
      change Step.Ends (if processName.truthy
        then onRefs (·.addResourceRef processName .processName) >>= fun _ =>
          if processId.truthy then onRefs (·.addResourceRef processId .processId) else Pure.pure ⟨⟩
        else if processId.truthy then onRefs (·.addResourceRef processId .processId)
          else Pure.pure ⟨⟩) b _ _
      rw [Step.ite_bind _ fun _ =>
        if processId.truthy then onRefs (·.addResourceRef processId .processId) else Pure.pure ⟨⟩]
      exact ((adds_reference hname .processName).seq (adds_reference hid .processId)).congr
        (and_self_iff) rfl F b hF hb
  | _ => exact Adds.pure.congr Iff.rfl rfl F b hF hb

end Nodes

end Build

/-- The names that an observation carries are texts or absent, if it is a node. -/
def Observation.Nameable (o : Observation) : Prop := ∀ v, o.node? = some v → Build.NodeNameable v

namespace Build

/-! ### Any order -/

section Hear

variable {p : ProcessDefinition}

/-- What the nodes among several observations add. -/
def heardFindings (obs : List Observation) : Set Finding :=
  {f | ∃ v ∈ obs.filterMap Observation.node?, f ∈ nodeFindings v}

lemma heardFindings_cons (o : Observation) (obs : List Observation) :
    heardFindings (o :: obs) = heardFindings [o] ∪ heardFindings obs := by
  ext f
  rcases ho : o.node? <;> simp [heardFindings, ho]

lemma Beside.noting {b b' : Build} (h : b.Beside b') (obs : List Observation) :
    (b.noting obs).Beside (b'.noting obs) := by
  rw [h]
  rfl

lemma Beside.trans {b b' b'' : Build} (h : b.Beside b') (h' : b'.Beside b'') : b.Beside b'' := by
  rw [Beside, h', h]

/-- One observation. -/
lemma after_call {F : Set Finding} {b : Build} (hphase : b.phase = .building)
    (hF : Gathered p F b) {o : Observation} (ho : o.Nameable) :
    Gathered p (F ∪ heardFindings [o]) (o.call.after b) ∧
      (b.noting [o]).Beside (o.call.after b) := by
  cases o with
  | node v =>
      have hends := adds_nodeAdded hphase (ho v rfl) F b hF (Beside.refl b)
      have hnote : b.noting [.node v] = b := by
        rw [noting_singleton]
        simp [Observation.var?, Observation.items?, Observation.signals?, Observation.messages?]
      obtain ⟨hG, hbeside⟩ :=
        Step.Ends.after (hends.imp (fun _ _ h => h.2) fun _ _ hno => absurd trivial hno)
      rw [hnote]
      refine ⟨?_, hbeside⟩
      have hnodes : heardFindings [.node v] = nodeFindings v := by
        simp [heardFindings, Observation.node?]
      exact hnodes ▸ hG
  | metadata key data =>
      have hends := metadataAdded_ends hphase key data
      have hafter := Step.Ends.after (hends.imp (fun _ _ h => h.1) fun _ _ h => h.1)
      change (metadataAdded key data).after b = _ at hafter
      refine ⟨?_, hafter ▸ Beside.refl _⟩
      change Gathered p _ ((metadataAdded key data).after b)
      rw [hafter]
      have hnodes : heardFindings [.metadata key data] = ∅ := by
        simp [heardFindings, Observation.node?]
      rw [hnodes, Set.union_empty]
      exact hF.congr rfl rfl rfl rfl

/-- **Observations in any order**: they add what their nodes carry, and are otherwise noted. -/
lemma hear_gathered : ∀ (obs : List Observation) {F : Set Finding} {b : Build},
    b.phase = .building → Gathered p F b → (∀ o ∈ obs, o.Nameable) →
      Gathered p (F ∪ heardFindings obs) (b.hear obs) ∧ (b.noting obs).Beside (b.hear obs)
  | [], F, b, _, hF, _ => by
      rw [noting_nil]
      simpa [heardFindings, hear] using ⟨hF, Beside.refl b⟩
  | o :: obs, F, b, hphase, hF, hobs => by
      obtain ⟨hF', hb'⟩ := after_call hphase hF (hobs o (by simp))
      have hphase' : (o.call.after b).phase = .building := by
        rw [hb']
        exact hphase
      obtain ⟨hF'', hb''⟩ := hear_gathered obs hphase' hF' fun o ho => hobs o (by simp [ho])
      rw [heardFindings_cons, ← Set.union_assoc, noting_cons]
      exact ⟨hF'', (hb'.noting obs).trans hb''⟩

end Hear

end Build
end Concordance
