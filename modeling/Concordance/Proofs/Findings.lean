import Concordance.Build
import Concordance.Proofs.Names
import Concordance.Proofs.Step

/-!
What the steps of a build find out, as sets.

* `Finding` : a part, a shared reference, a reference to a resource, a qualified or a bare type
  name.
* `Gathered p F b` : the build `b` of the process `p` holds the findings `F`, each once, and nothing
  else: the lists of its references and type names enumerate the findings of each kind.
* `Adds p b₀ step ok new` : beside a build `b₀` with the same settings and observations, the step
  succeeds exactly if `ok`, and then adds the findings `new` and leaves all else as it was.
* `Adds.seq`, `Adds.forM`, `Adds.ite` : steps one after another add what each of them adds.
* `adds_addShared`, `adds_addResourceRef`, `adds_addOwnPart`, `adds_addTypeName`, … : what the basic
  steps of a build add.
-/

namespace Concordance

/-- What a build can find out about a process. -/
inductive Finding where
  | part (name : String)
  | shared (name : String) (type : PartType)
  | reference (name : String) (type : ResourceType)
  | qualified (name : String)
  | bare (name : String)

/-- The finding that a type name is: qualified if it holds the separator. -/
def Finding.ofTypeName (separator : Value) (name : String) : Finding :=
  match separator with
  | .text sep => if Text.occursIn sep.toList name.toList then .qualified name else .bare name
  | _ => .bare name

/-- The part that a variable is. -/
def Part.ofName (name : String) : Part := { name := .text name, type := .var }

/-- The shared reference with a name and a kind. -/
def SharedReference.ofPair (x : String × PartType) : SharedReference :=
  { name := .text x.1, type := x.2 }

/-- The reference to a resource with a name and a kind. -/
def ResourceReference.ofPair (x : String × ResourceType) : ResourceReference :=
  { name := .text x.1, type := x.2 }

lemma Part.same_ofName (m n : String) : Part.same (ofName m) (ofName n) = true ↔ m = n := by
  simp [Part.same, ofName]

lemma SharedReference.same_ofPair (x y : String × PartType) :
    SharedReference.same (ofPair x) (ofPair y) = true ↔ x = y := by
  simp [SharedReference.same, ofPair, Prod.ext_iff, and_comm]

lemma ResourceReference.same_ofPair (x y : String × ResourceType) :
    ResourceReference.same (ofPair x) (ofPair y) = true ↔ x = y := by
  simp [ResourceReference.same, ofPair, Prod.ext_iff, and_comm]

lemma Part.ofName_injective : Function.Injective ofName := fun m n h =>
  (same_ofName m n).mp (h ▸ (same_ofName m m).mpr rfl)

lemma SharedReference.ofPair_injective : Function.Injective ofPair := fun x y h =>
  (same_ofPair x y).mp (h ▸ (same_ofPair x x).mpr rfl)

lemma ResourceReference.ofPair_injective : Function.Injective ofPair := fun x y h =>
  (same_ofPair x y).mp (h ▸ (same_ofPair x x).mpr rfl)

/-- The resources of a process: under its id, with its parts, and under its name if it has one. -/
def ProcessDefinition.resources (p : ProcessDefinition) (parts : List Part) (frozen : Bool) :
    List Resource :=
  { id := p.id, type := .processId, parts, frozen } ::
    if p.name.truthy then [{ id := p.name, type := .processName, frozen }] else []

/-! ### The collector of a build -/

namespace Collector

variable {c : Collector} {p : ProcessDefinition} {parts : List Part} {frozen : Bool} {s : String}

/-- The resource under the id of the process is the first, and the only one of its kind. -/
lemma demand_own (hres : c.resources = p.resources parts frozen) (hid : p.id = .text s) :
    c.demand p.id .processId = .ok { id := p.id, type := .processId, parts, frozen } := by
  simp [demand, getResource, find?, hres, hid, ProcessDefinition.resources]
  rfl

/-- A collector that was given a shared reference. -/
lemma addShared_eq_ok {c' : Collector} {v : Value} {t : PartType}
    (h : c.addShared v t = .ok c') :
    c' = { c with shared := addNew SharedReference.same c.shared { name := v, type := t } } := by
  rw [addShared] at h
  split at h
  · exact (Except.ok.inj h).symm
  · cases h

/-- A collector that was given a reference to a resource. -/
lemma addResourceRef_eq_ok {c' : Collector} {v : Value} {t : ResourceType}
    (h : c.addResourceRef v t = .ok c') : c' = { c with
      resourceRefs := addNew ResourceReference.same c.resourceRefs { name := v, type := t } } := by
  rw [addResourceRef] at h
  split at h
  · exact (Except.ok.inj h).symm
  · cases h

/-- A name that can be a member of a set becomes a part. -/
lemma addPart_own (hres : c.resources = p.resources parts false) (hid : p.id = .text s)
    (v : Value) : c.addPart p.id .processId v .var = if v.hashable then
      .ok { c with
        resources := p.resources (addNew Part.same parts { name := v, type := .var }) false }
      else .error .illTyped := by
  rw [addPart, demand_own hres hid]
  by_cases hv : v.hashable
  · simp [Resource.addPart?, hv, bind, Except.bind, pure, Except.pure, update, hres,
      ProcessDefinition.resources, hid]
    split <;> simp
  · simp [Resource.addPart?, hv, bind, Except.bind]

lemma freeze_own (hres : c.resources = p.resources parts false) :
    c.freeze.resources = p.resources parts true := by
  change c.resources.map Resource.freeze = _
  rw [hres, ProcessDefinition.resources, ProcessDefinition.resources]
  split <;> rfl

end Collector

/-! ### Names that are taken as they are -/

namespace TypeNames

variable {t : TypeNames} {n : String} {Q : Unit → TypeNames → Prop} {E : Fault → TypeNames → Prop}

lemma takeReferenced_ends
    (h : Q () { t with referenced := Value.insertNew t.referenced (.text n) }) :
    (takeReferenced (.text n)).Ends t Q E := by
  refine .bind (Step.ends_get.mpr (.bind ?_))
  rw [Value.insert?, if_pos (Value.hashable_text n), Step.ends_ofAnswer_ok, Step.ends_set]
  exact h

lemma takeUnqualified_ends
    (h : Q () { t with unqualified := Value.insertNew t.unqualified (.text n) }) :
    (takeUnqualified (.text n)).Ends t Q E := by
  refine .bind (Step.ends_get.mpr (.bind ?_))
  rw [Value.insert?, if_pos (Value.hashable_text n), Step.ends_ofAnswer_ok, Step.ends_set]
  exact h

end TypeNames

namespace Build

/-- The build of a process holds the findings, each once, and nothing else. -/
structure Gathered (p : ProcessDefinition) (F : Set Finding) (b : Build) : Prop where
  own : b.own = some p.id
  resources : ∃ parts, b.refs.resources = p.resources parts false ∧
    Enumerates Part.ofName parts {n | .part n ∈ F}
  shared : Enumerates SharedReference.ofPair b.refs.shared {x | .shared x.1 x.2 ∈ F}
  references : Enumerates ResourceReference.ofPair b.refs.resourceRefs {x | .reference x.1 x.2 ∈ F}
  separator : b.types.separator = b.resolver.separator
  qualified : Enumerates .text b.types.referenced {n | .qualified n ∈ F}
  bare : Enumerates .text b.types.unqualified {n | .bare n ∈ F}

lemma Gathered.congr {p : ProcessDefinition} {F : Set Finding} {b b' : Build}
    (h : Gathered p F b) (hown : b'.own = b.own) (hrefs : b'.refs = b.refs)
    (htypes : b'.types = b.types) (hres : b'.resolver = b.resolver) : Gathered p F b' where
  own := hown ▸ h.own
  resources := hrefs ▸ h.resources
  shared := hrefs ▸ h.shared
  references := hrefs ▸ h.references
  separator := htypes ▸ hres ▸ h.separator
  qualified := htypes ▸ h.qualified
  bare := htypes ▸ h.bare

/-- Two builds that differ in their references and type names at most. -/
def Beside (b₀ b : Build) : Prop := b = { b₀ with refs := b.refs, types := b.types }

lemma Beside.refl (b : Build) : Beside b b := rfl

/-- Beside `b₀`, the step succeeds exactly if `ok`, and then adds the findings `new`. -/
def Adds (p : ProcessDefinition) (b₀ : Build) (step : Step Build PUnit) (ok : Prop)
    (new : Set Finding) : Prop :=
  ∀ F b, Gathered p F b → b₀.Beside b →
    step.Ends b (fun _ b' => ok ∧ Gathered p (F ∪ new) b' ∧ b₀.Beside b') fun _ _ => ¬ok

section Rules

variable {p : ProcessDefinition} {b₀ : Build} {step next : Step Build PUnit} {ok ok' : Prop}
  {new new' : Set Finding}

/-- What is added matters only where the step succeeds. -/
lemma Adds.congr_of_ok (h : Adds p b₀ step ok new) (hok : ok ↔ ok') (hnew : ok' → new = new') :
    Adds p b₀ step ok' new' := fun F b hF hb =>
  (h F b hF hb).imp (fun _ _ ⟨h1, hF', hb'⟩ => ⟨hok.mp h1, hnew (hok.mp h1) ▸ hF', hb'⟩)
    fun _ _ h => h ∘ hok.mpr

lemma Adds.congr (h : Adds p b₀ step ok new) (hok : ok ↔ ok') (hnew : new = new') :
    Adds p b₀ step ok' new' := h.congr_of_ok hok fun _ => hnew

lemma Adds.pure : Adds p b₀ (pure ⟨⟩) True ∅ := fun F b hF hb => by
  simpa using ⟨hF, hb⟩

/-- Steps one after another add what each of them adds. -/
lemma Adds.seq (h : Adds p b₀ step ok new) (h' : Adds p b₀ next ok' new') :
    Adds p b₀ (step >>= fun _ => next) (ok ∧ ok') (new ∪ new') := fun F b hF hb =>
  .bind <| (h F b hF hb).imp
    (fun _ t ⟨hok, hF', hb'⟩ => (h' _ t hF' hb').imp
      (fun _ _ ⟨hok', hF'', hb''⟩ => ⟨⟨hok, hok'⟩, Set.union_assoc F new new' ▸ hF'', hb''⟩)
      fun _ _ hno => fun hboth => hno hboth.2)
    fun _ _ hno => fun hboth => hno hboth.1

/-- A loop adds what is added for each member. -/
lemma Adds.forM {β : Type} {f : β → Step Build PUnit} {ok : β → Prop} {new : β → Set Finding} :
    ∀ {xs : List β}, (∀ x ∈ xs, Adds p b₀ (f x) (ok x) (new x)) →
      Adds p b₀ (xs.forM f) (∀ x ∈ xs, ok x) {a | ∃ x ∈ xs, a ∈ new x}
  | [], _ => Adds.pure.congr (by simp) (by ext; simp)
  | x :: xs, h =>
      ((h x (by simp)).seq (Adds.forM fun y hy => h y (by simp [hy]))).congr (by simp)
        (by ext; simp)

/-- A step that is taken only under a condition. -/
lemma Adds.ite {c : Prop} [Decidable c] (h : c → Adds p b₀ step ok new) :
    Adds p b₀ (if c then step else Pure.pure ⟨⟩) (c → ok) {a | c ∧ a ∈ new} := by
  by_cases hc : c
  · rw [if_pos hc]
    exact (h hc).congr (by simp [hc]) (by simp [hc])
  · rw [if_neg hc]
    exact Adds.pure.congr (by simp [hc]) (by simp [hc])

/-- A step after an answer that is a failure or leads on. -/
lemma Adds.ofAnswer_bind {α : Type} {a : Answer α} {f : α → Step Build PUnit} {ok : α → Prop}
    {new : α → Set Finding} (h : ∀ x, a = .ok x → Adds p b₀ (f x) (ok x) (new x)) :
    Adds p b₀ (Step.ofAnswer a >>= f) (∃ x, a = .ok x ∧ ok x) {y | ∃ x, a = .ok x ∧ y ∈ new x} := by
  cases a with
  | error e => exact fun F b hF hb => .bind (by simp)
  | ok x =>
      refine fun F b hF hb => .bind ?_
      simpa using (h x rfl).congr (by simp) (by simp) F b hF hb

end Rules

/-! ### One more finding -/

section One

variable {p : ProcessDefinition} {F : Set Finding} {b : Build}

lemma Gathered.addShared (h : Gathered p F b) (x : String × PartType) :
    Gathered p (F ∪ {.shared x.1 x.2})
      { b with refs := { b.refs with
        shared := addNew SharedReference.same b.refs.shared (.ofPair x) } } where
  own := h.own
  resources := by simpa using h.resources
  shared := (h.shared.addNew SharedReference.same_ofPair x).congr
    (by ext; simp [Prod.ext_iff])
  references := by simpa using h.references
  separator := h.separator
  qualified := by simpa using h.qualified
  bare := by simpa using h.bare

lemma Gathered.addReference (h : Gathered p F b) (x : String × ResourceType) :
    Gathered p (F ∪ {.reference x.1 x.2})
      { b with refs := { b.refs with
        resourceRefs := addNew ResourceReference.same b.refs.resourceRefs (.ofPair x) } } where
  own := h.own
  resources := by simpa using h.resources
  shared := by simpa using h.shared
  references := (h.references.addNew ResourceReference.same_ofPair x).congr
    (by ext; simp [Prod.ext_iff])
  separator := h.separator
  qualified := by simpa using h.qualified
  bare := by simpa using h.bare

lemma Gathered.addQualified (h : Gathered p F b) (n : String) :
    Gathered p (F ∪ {.qualified n})
      { b with types := { b.types with
        referenced := Value.insertNew b.types.referenced (.text n) } } where
  own := h.own
  resources := by simpa using h.resources
  shared := by simpa using h.shared
  references := by simpa using h.references
  separator := h.separator
  qualified := (h.qualified.insertNew n).congr (by ext; simp)
  bare := by simpa using h.bare

lemma Gathered.addBare (h : Gathered p F b) (n : String) :
    Gathered p (F ∪ {.bare n})
      { b with types := { b.types with
        unqualified := Value.insertNew b.types.unqualified (.text n) } } where
  own := h.own
  resources := by simpa using h.resources
  shared := by simpa using h.shared
  references := by simpa using h.references
  separator := h.separator
  qualified := by simpa using h.qualified
  bare := (h.bare.insertNew n).congr (by ext; simp)

lemma Gathered.addPart (h : Gathered p F b) {s : String} (hid : p.id = .text s) (n : String) :
    ∃ refs, b.refs.addPart p.id .processId (.text n) .var = .ok refs ∧
      Gathered p (F ∪ {.part n}) { b with refs } := by
  obtain ⟨parts, hres, hparts⟩ := h.resources
  refine ⟨_, (Collector.addPart_own hres hid (.text n)).trans (if_pos (Value.hashable_text n)), ?_⟩
  refine ⟨h.own, ⟨addNew Part.same parts (.ofName n), rfl, ?_⟩, ?_, ?_, h.separator, ?_, ?_⟩
  · exact (hparts.addNew Part.same_ofName n).congr (by ext; simp)
  · simpa using h.shared
  · simpa using h.references
  · simpa using h.qualified
  · simpa using h.bare

end One

/-! ### Basic steps -/

section Basic

variable {p : ProcessDefinition} {b₀ : Build}

/-- A change of the references that cannot be refused. -/
lemma Adds.onRefs {change : Collector → Answer Collector} {new : Set Finding}
    (h : ∀ F b, Gathered p F b → b₀.Beside b →
      ∃ refs, change b.refs = .ok refs ∧ Gathered p (F ∪ new) { b with refs }) :
    Adds p b₀ (Build.onRefs change) True new := fun F b hF hb => by
  obtain ⟨refs, hrefs, hG⟩ := h F b hF hb
  refine .bind (Step.ends_get.mpr (.bind ?_))
  rw [hrefs, Step.ends_ofAnswer_ok, Step.ends_set]
  exact ⟨trivial, hG, by rw [hb]; rfl⟩

lemma adds_addShared (n : String) (t : PartType) :
    Adds p b₀ (onRefs (·.addShared (.text n) t)) True {.shared n t} :=
  .onRefs fun _ _ hF _ => ⟨_, by simp [Collector.addShared]; rfl, hF.addShared (n, t)⟩

lemma adds_addResourceRef (n : String) (t : ResourceType) :
    Adds p b₀ (onRefs (·.addResourceRef (.text n) t)) True {.reference n t} :=
  .onRefs fun _ _ hF _ => ⟨_, by simp [Collector.addResourceRef]; rfl, hF.addReference (n, t)⟩

lemma adds_addOwnPart (n : String) {s : String} (hid : p.id = .text s) :
    Adds p b₀ (addOwnPart (.text n)) True {.part n} := fun F b hF hb => by
  refine .bind (Step.ends_get.mpr ?_)
  rw [hF.own]
  exact Adds.onRefs (fun _ _ hF _ => hF.addPart hid n) F b hF hb

lemma ends_onTypes {α : Type} {step : Step TypeNames α} {b : Build} {Q : α → Build → Prop}
    {E : Fault → Build → Prop} : (onTypes step).Ends b Q E ↔
      step.Ends b.types (fun a t => Q a { b with types := t })
        fun e t => E e { b with types := t } :=
  Step.ends_focus

lemma adds_takeReferenced (n : String) :
    Adds p b₀ (onTypes (TypeNames.takeReferenced (.text n))) True {.qualified n} := by
  intro F b hF hb
  refine ends_onTypes.mpr (TypeNames.takeReferenced_ends ?_)
  exact ⟨trivial, hF.addQualified n, by rw [hb]; rfl⟩

lemma adds_takeUnqualified (n : String) :
    Adds p b₀ (onTypes (TypeNames.takeUnqualified (.text n))) True {.bare n} := by
  intro F b hF hb
  refine ends_onTypes.mpr (TypeNames.takeUnqualified_ends ?_)
  exact ⟨trivial, hF.addBare n, by rw [hb]; rfl⟩

/-- A name is filed by the separator. -/
lemma add_text {t : TypeNames} {n sep : String} (hn : n ≠ "") (hs : t.separator = .text sep) :
    t.add (.text n) = .ok (if Text.occursIn sep.toList n.toList
      then { t with referenced := Value.insertNew t.referenced (.text n) }
      else { t with unqualified := Value.insertNew t.unqualified (.text n) }) := by
  have ht : Value.truthy (.text n) = true := Value.truthy_text.mpr hn
  by_cases h : Text.occursIn sep.toList n.toList <;>
    simp [TypeNames.add, ht, hs, Value.contains?, h, Value.insert?, bind, Except.bind, pure,
      Except.pure]

/-- A separator that is no text refuses every name. -/
lemma add_text_error {t : TypeNames} {n : String} (hn : n ≠ "") (hs : ¬t.separator.isText) :
    t.add (.text n) = .error .illTyped := by
  have ht : Value.truthy (.text n) = true := Value.truthy_text.mpr hn
  cases h : t.separator with
  | text sep => exact absurd (Value.isText_iff.mpr ⟨sep, h⟩) hs
  | _ => simp [TypeNames.add, ht, h, Value.contains?, bind, Except.bind]

/-- A name that may be absent is filed if it is present; then the separator has to be a text. -/
lemma adds_addTypeName {v : Value} (hv : v.Nameable) :
    Adds p b₀ (onTypes (TypeNames.addOne v)) (v.name?.isSome → b₀.resolver.separator.isText)
      {f | ∃ n, v.name? = some n ∧ f = .ofTypeName b₀.resolver.separator n} := fun F b hF hb => by
  refine ends_onTypes.mpr (.bind (Step.ends_get.mpr (.bind ?_)))
  obtain ⟨ht, hn⟩ | ⟨n, rfl, hne, hn⟩ := hv.cases
  · have hadd : b.types.add v = .ok b.types := by simp [TypeNames.add, ht]
    rw [hadd, Step.ends_ofAnswer_ok, Step.ends_set]
    simpa [hn] using ⟨hF, hb⟩
  · have hsep : b.types.separator = b₀.resolver.separator := hF.separator.trans (by rw [hb])
    by_cases htext : b₀.resolver.separator.isText
    · obtain ⟨sep, hs⟩ := Value.isText_iff.mp htext
      rw [add_text hne (hsep.trans hs), Step.ends_ofAnswer_ok, Step.ends_set]
      refine ⟨fun _ => htext, ?_, by rw [hb]; rfl⟩
      by_cases h : Text.occursIn sep.toList n.toList
      · simpa [hn, hs, Finding.ofTypeName, h] using hF.addQualified n
      · simpa [hn, hs, Finding.ofTypeName, h] using hF.addBare n
    · rw [add_text_error hne (hsep ▸ htext), Step.ends_ofAnswer_error, hn]
      exact fun h => htext (h rfl)

end Basic

end Build
end Concordance
