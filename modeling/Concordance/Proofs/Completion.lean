import Concordance.Proofs.Resolution

/-!
What the visits that complete a build add.

* `Adds.forElements`, `Adds.forFields` : a visit to every member of a collection, or every entry of
  a mapping, that may be absent.
* `Variable.typeName?` : the type of a variable, which its item decides if that states a class.
* `Build.itemFindings`, `Build.globalFindings`, `Build.importFindings` : what is found when the
  process has been read. `Build.dialectFindings`, `Build.variableFindings`,
  `Build.signalFindings`, `Build.functionFindings` : what is found when the build is over.
* `Build.adds_visitItems`, `Build.adds_visitVariables`, … : each visit adds these findings, and
  succeeds exactly under a condition on what it visits.
-/

namespace Concordance

/-- The findings that type names are. -/
def Finding.ofTypeNames (separator : Value) (S : Set String) : Set Finding :=
  Finding.ofTypeName separator '' S

/-- The class that structures an item, if it states one. -/
def Value.itemName? : Value → Option String
  | .item _ s => s.name?
  | _ => none

/-- The names that a process itself holds are texts; the types of its globals may be null. -/
structure ProcessDefinition.Named (p : ProcessDefinition) : Prop where
  id : p.id.isText
  name : p.name.isText
  globals : ∀ e ∈ p.globals.fields, e.1.isText ∧ e.2.Nameable
  imports : ∀ v ∈ p.imports.elements, v.Nameable
  functions : ∀ v ∈ p.functionImports.elements, v.isText

/-- The class that the item of a variable states, if the variable names an item, that item is
known, and it states one. -/
def Variable.itemName? (items : List (Value × Value)) (v : Variable) : Option String :=
  match v.itemSubject? with
  | .error _ | .ok .null => none
  | .ok subject => (Value.lookup? items subject).bind Value.itemName?

/-- The type of a variable: the class of its item if that states one, else the declared type. -/
def Variable.typeName? (items : List (Value × Value)) (v : Variable) : Option String :=
  (v.itemName? items).or v.type.name?

namespace Build

section Visits

variable {p : ProcessDefinition} {b₀ : Build}

/-! ### Collections -/

/-- A visit to every member of a list that is asked for only if it is present. -/
lemma Adds.forFound {β : Type} {present : Bool} {found : Option (List β)} {ask : Answer (List β)}
    {f : β → Step Build PUnit} {ok : β → Prop} {new : β → Set Finding}
    (hask : ∀ xs, ask = .ok xs ↔ found = some xs)
    (hpresent : ∀ xs, found = some xs → (present = true ↔ xs ≠ []))
    (h : ∀ x ∈ found.getD [], Adds p b₀ (f x) (ok x) (new x)) :
    Adds p b₀ (if present then Step.ofAnswer ask >>= fun xs => xs.forM f else Pure.pure ⟨⟩)
      ((present → found.isSome) ∧ ∀ x ∈ found.getD [], ok x)
      {a | ∃ x ∈ found.getD [], a ∈ new x} := by
  have hall : ∀ xs, ask = .ok xs →
      Adds p b₀ (xs.forM f) (∀ x ∈ xs, ok x) {a | ∃ x ∈ xs, a ∈ new x} := fun xs hxs => by
    rw [(hask xs).mp hxs] at h
    exact Adds.forM h
  refine (Adds.ite fun _ => Adds.ofAnswer_bind hall).congr ?_ ?_
  · cases found with
    | none => simp [hask]
    | some xs =>
        have hp := hpresent xs rfl
        cases xs <;> simp_all
  · ext a
    cases found with
    | none => simp [hask]
    | some xs =>
        have hp := hpresent xs rfl
        cases xs <;> simp_all

/-- A visit to every member of a collection that may be absent. -/
lemma Adds.forElements {v : Value} {f : Value → Step Build PUnit} {ok : Value → Prop}
    {new : Value → Set Finding} (h : ∀ x ∈ v.elements, Adds p b₀ (f x) (ok x) (new x)) :
    Adds p b₀ (if v.truthy then Step.ofAnswer v.items? >>= fun xs => xs.forM f else Pure.pure ⟨⟩)
      (v.Iterable ∧ ∀ x ∈ v.elements, ok x) {a | ∃ x ∈ v.elements, a ∈ new x} := by
  refine Adds.forFound (fun xs => ?_) (fun _ => Value.truthy_iff_of_members?) h
  cases hm : v.members? <;> simp [Value.items?, hm]

/-- A visit to every entry of a mapping that may be absent. -/
lemma Adds.forFields {v : Value} {f : Value × Value → Step Build PUnit} {ok : Value × Value → Prop}
    {new : Value × Value → Set Finding} (h : ∀ e ∈ v.fields, Adds p b₀ (f e) (ok e) (new e)) :
    Adds p b₀ (if v.truthy then Step.ofAnswer v.mapping? >>= fun es => es.forM f else Pure.pure ⟨⟩)
      (v.Mappable ∧ ∀ e ∈ v.fields, ok e) {a | ∃ e ∈ v.fields, a ∈ new e} := by
  refine Adds.forFound (fun es => ?_) (fun _ => Value.truthy_iff_of_entries?) h
  cases hm : v.entries? <;> simp [Value.mapping?, hm]

/-- A step on the type names is one on the build, part by part. -/
lemma onTypes_bind {α β : Type} (x : Step TypeNames α) (f : α → Step TypeNames β) :
    onTypes (x >>= f) = onTypes x >>= fun a => onTypes (f a) := by
  funext b lines
  change ExceptT.run (onTypes (x >>= f)) b lines = ExceptT.run (onTypes x >>= _) b lines
  rw [Step.run_bind_apply]
  have hfocus : ∀ {γ : Type} (y : Step TypeNames γ) (b : Build) (lines : List LogLine),
      ExceptT.run (onTypes y) b lines = (((ExceptT.run y b.types lines).1.1,
        { b with types := (ExceptT.run y b.types lines).1.2 }), (ExceptT.run y b.types lines).2) :=
    fun _ _ _ => rfl
  rw [hfocus, hfocus, Step.run_bind_apply]
  rcases ExceptT.run x b.types lines with ⟨⟨_ | _, t⟩, more⟩
  · rfl
  · rfl

lemma onTypes_ofAnswer {α : Type} (a : Answer α) :
    onTypes (Step.ofAnswer a) = Step.ofAnswer a := rfl

lemma onTypes_forM {β : Type} (f : β → Step TypeNames PUnit) :
    ∀ xs : List β, onTypes (xs.forM f) = xs.forM fun x => onTypes (f x)
  | [] => rfl
  | x :: xs => by
      change onTypes (f x >>= fun _ => xs.forM f) = onTypes (f x) >>= fun _ => xs.forM _
      rw [onTypes_bind, onTypes_forM f xs]

end Visits

/-! ### What is found -/

/-- The types that the items of a build state. -/
def itemNames (b : Build) : Set String := {n | ∃ e ∈ b.items, e.2.itemName? = some n}

/-- The types that the variables of a build have. -/
def variableNames (b : Build) : Set String := {n | ∃ v ∈ b.vars, v.typeName? b.items = some n}

/-- What the items of a build add. -/
def itemFindings (b : Build) : Set Finding := Finding.ofTypeNames b.resolver.separator b.itemNames

/-- What the globals of a process add: their types and their names. -/
def globalFindings (b : Build) (p : ProcessDefinition) : Set Finding :=
  Finding.ofTypeNames b.resolver.separator {n | ∃ e ∈ p.globals.fields, e.2.name? = some n} ∪
    {f | ∃ n, (∃ e ∈ p.globals.fields, e.1 = .text n) ∧ f = .shared n .global}

/-- What the imports of a process add. -/
def importFindings (b : Build) (p : ProcessDefinition) : Set Finding :=
  Finding.ofTypeNames b.resolver.separator {n | ∃ v ∈ p.imports.elements, v.name? = some n}

/-- What the dialects of a build read from the bag of a process. -/
def dialectFindings (b : Build) (p : ProcessDefinition) : Set Finding :=
  {f | ∃ c ∈ b.dialects.contributors, ∃ pair, c.contribute p.metadata = .ok pair ∧
    ((∃ n ∈ pair.referenced, f = .qualified n) ∨ ∃ n ∈ pair.unqualified, f = .bare n)}

/-- What the variables of a build add: parts and types. -/
def variableFindings (b : Build) : Set Finding :=
  {f | ∃ n, (∃ v ∈ b.vars, v.name = .text n) ∧ f = .part n} ∪
    Finding.ofTypeNames b.resolver.separator b.variableNames

/-- What names add that are indexed as signals. -/
def signalFindings (names : List String) : Set Finding := {f | ∃ n ∈ names, f = .shared n .signal}

/-- What the function imports of a process add: those that do not end in the wildcard marker. -/
def functionFindings (b : Build) (p : ProcessDefinition) : Set Finding :=
  {f | ∃ n, .text n ∈ p.functionImports.elements ∧ isWildcard b.wildcard (.text n) = .ok false ∧
    f = .reference n .function}

/-- The names that a build and its process hold are texts, or absent where they may be. -/
structure Nameable (p : ProcessDefinition) (b : Build) : Prop where
  process : p.Named
  items : ∀ e ∈ b.items, ∀ s, structureRef? e.2 = .ok s → s.Nameable
  vars : ∀ v ∈ b.vars, v.name.isText ∧ v.type.Nameable

lemma Nameable.congr {p : ProcessDefinition} {b b' : Build} (h : Nameable p b)
    (hitems : b'.items = b.items) (hvars : b'.vars = b.vars) : Nameable p b' where
  process := h.process
  items := hitems ▸ h.items
  vars := hvars ▸ h.vars

section Visits

variable {p : ProcessDefinition} {b₀ : Build}

lemma itemName?_eq_some {v : Value} {n : String} :
    v.itemName? = some n ↔ ∃ s, structureRef? v = .ok s ∧ s.name? = some n := by
  cases v <;> simp [Value.itemName?, structureRef?]

lemma mem_ofTypeNames {sep : Value} {S : Set String} {f : Finding} :
    f ∈ Finding.ofTypeNames sep S ↔ ∃ n, n ∈ S ∧ f = .ofTypeName sep n := by
  simp [Finding.ofTypeNames, eq_comm]

lemma adds_visitItems (h : Nameable p b₀) : Adds p b₀ visitItems
    (∀ e ∈ b₀.items, ∃ s, structureRef? e.2 = .ok s ∧
      (s.name?.isSome → b₀.resolver.separator.isText)) b₀.itemFindings := fun F b hF hb => by
  refine .bind (Step.ends_get.mpr ?_)
  have hitems : b.items = b₀.items := by rw [hb]
  rw [hitems]
  refine (Adds.forM fun e he => Adds.ofAnswer_bind fun s hs =>
    adds_addTypeName (h.items e he s hs)).congr Iff.rfl ?_ F b hF hb
  ext f
  simp only [itemFindings, itemNames, mem_ofTypeNames, itemName?_eq_some, Set.mem_ofPred_eq]
  tauto

lemma adds_visitGlobals (h : Nameable p b₀) : Adds p b₀ (visitGlobals p.globals)
    (p.globals.Mappable ∧ ∀ e ∈ p.globals.fields,
      e.2.name?.isSome → b₀.resolver.separator.isText) (b₀.globalFindings p) := by
  have hone : ∀ e ∈ p.globals.fields, Adds p b₀
      (onTypes (TypeNames.addOne e.2) >>= fun _ => onRefs (·.addShared e.1 .global))
      (e.2.name?.isSome → b₀.resolver.separator.isText)
      ({f | ∃ n, e.2.name? = some n ∧ f = .ofTypeName b₀.resolver.separator n} ∪
        {f | ∃ n, e.1 = .text n ∧ f = .shared n .global}) := fun e he => by
    obtain ⟨hk, hv⟩ := h.process.globals e he
    obtain ⟨k, hk⟩ := Value.isText_iff.mp hk
    rw [hk]
    exact ((adds_addTypeName hv).seq (adds_addShared k .global)).congr (by simp) (by ext; simp)
  refine (Adds.forFields hone).congr Iff.rfl ?_
  ext f
  simp only [globalFindings, mem_ofTypeNames, Set.mem_union, Set.mem_ofPred_eq]
  constructor
  · rintro ⟨e, he, ⟨n, hn, rfl⟩ | ⟨n, hn, rfl⟩⟩
    · exact .inl ⟨n, ⟨e, he, hn⟩, rfl⟩
    · exact .inr ⟨n, ⟨e, he, hn⟩, rfl⟩
  · rintro (⟨n, ⟨e, he, hn⟩, rfl⟩ | ⟨n, ⟨e, he, hn⟩, rfl⟩)
    · exact ⟨e, he, .inl ⟨n, hn, rfl⟩⟩
    · exact ⟨e, he, .inr ⟨n, hn, rfl⟩⟩

lemma adds_visitImports (h : Nameable p b₀) : Adds p b₀ (visitImports p.imports)
    (p.imports.Iterable ∧ ∀ v ∈ p.imports.elements,
      v.name?.isSome → b₀.resolver.separator.isText) (b₀.importFindings p) := by
  have hsteps : onTypes (TypeNames.addAll p.imports) =
      Step.ofAnswer p.imports.items? >>= fun xs =>
        xs.forM fun v => onTypes (TypeNames.addOne v) := by
    simp only [TypeNames.addAll, onTypes_bind, onTypes_ofAnswer, onTypes_forM]
  rw [visitImports, hsteps]
  refine (Adds.forElements fun v hv => adds_addTypeName (h.process.imports v hv)).congr Iff.rfl ?_
  ext f
  simp only [importFindings, mem_ofTypeNames, Set.mem_ofPred_eq]
  tauto

lemma adds_visitDialect (c : Contributor) : Adds p b₀ (visitDialect p.metadata c)
    (∃ pair, c.contribute p.metadata = .ok pair)
    {f | ∃ pair, c.contribute p.metadata = .ok pair ∧
      ((∃ n ∈ pair.referenced, f = .qualified n) ∨ ∃ n ∈ pair.unqualified, f = .bare n)} := by
  have hpair : ∀ pair : Contribution, Adds p b₀ (do
      onTypes (pair.referenced.forM fun s => TypeNames.takeReferenced (.text s))
      onTypes (pair.unqualified.forM fun s => TypeNames.takeUnqualified (.text s))) True
      {f | (∃ n ∈ pair.referenced, f = .qualified n) ∨ ∃ n ∈ pair.unqualified, f = .bare n} :=
    fun pair => by
      rw [onTypes_forM, onTypes_forM]
      exact ((Adds.forM fun n _ => adds_takeReferenced n).seq
        (Adds.forM fun n _ => adds_takeUnqualified n)).congr (by simp) (by ext; simp)
  exact (Adds.ofAnswer_bind fun pair _ => hpair pair).congr (by simp) rfl

lemma adds_visitDialects : Adds p b₀ (b₀.dialects.contributors.forM (visitDialect p.metadata))
    (∀ c ∈ b₀.dialects.contributors, ∃ pair, c.contribute p.metadata = .ok pair)
    (b₀.dialectFindings p) :=
  (Adds.forM fun c _ => adds_visitDialect c).congr Iff.rfl (by ext; simp [dialectFindings])

/-- What an item adds to the type of a variable that it declares. -/
lemma orElse_nameable {s v : Value} (hs : s.Nameable) (hv : v.Nameable) :
    (s.orElse v).Nameable ∧ (s.orElse v).name? = s.name?.or v.name? := by
  obtain ⟨ht, hn⟩ | ⟨n, rfl, hne, hn⟩ := hs.cases
  · simp [Value.orElse, ht, hn, hv]
  · have ht : Value.truthy (.text n) = true := Value.truthy_text.mpr hne
    simp [Value.orElse, ht, hn, hs]

/-- The type of a variable that names an item. -/
lemma variableType_eq {b : Build} {v : Variable} {subject : Value}
    (hsub : v.itemSubject? = .ok subject) (hnull : subject ≠ .null) :
    b.variableType v = if !subject.hashable then .error .illTyped else
      match Value.lookup? b.items subject with
      | none => .ok v.type
      | some .null => .ok v.type
      | some item => (structureRef? item).map (·.orElse v.type) := by
  unfold variableType
  rw [hsub]
  cases subject with
  | null => exact absurd rfl hnull
  | _ =>
    simp only [bind, Except.bind, throw, throwThe, MonadExceptOf.throw, pure, Except.pure]
    congr 1

lemma itemName?_eq {items : List (Value × Value)} {v : Variable} {subject : Value}
    (hsub : v.itemSubject? = .ok subject) (hnull : subject ≠ .null) :
    v.itemName? items = (Value.lookup? items subject).bind Value.itemName? := by
  unfold Variable.itemName?
  rw [hsub]
  cases subject with
  | null => exact absurd rfl hnull
  | _ => rfl

/-- The type of a variable is a text or absent, and states the class of its item if there is one. -/
lemma variableType_ok {b : Build} {v : Variable} (hown : v.type.Nameable)
    (hitems : ∀ e ∈ b.items, ∀ s, structureRef? e.2 = .ok s → s.Nameable) {t : Value}
    (ht : b.variableType v = .ok t) : t.Nameable ∧ t.name? = v.typeName? b.items := by
  rcases hsub : v.itemSubject? with e | subject
  · simp [variableType, hsub, bind, Except.bind] at ht
  by_cases hnull : subject = .null
  · subst hnull
    simp only [variableType, hsub, bind, Except.bind, pure, Except.pure, Except.ok.injEq] at ht
    exact ht ▸ ⟨hown, by simp [Variable.typeName?, Variable.itemName?, hsub]⟩
  rw [variableType_eq hsub hnull] at ht
  split at ht
  · cases ht
  rw [Variable.typeName?, itemName?_eq hsub hnull]
  rcases hl : Value.lookup? b.items subject with _ | item
  · rw [hl] at ht
    cases ht
    exact ⟨hown, by simp⟩
  · rw [hl] at ht
    obtain ⟨e, he, rfl⟩ : ∃ e ∈ b.items, e.2 = item := by
      obtain ⟨e, he, hitem⟩ := Option.map_eq_some_iff.mp hl
      exact ⟨e, List.mem_of_find?_eq_some he, hitem⟩
    rcases he2 : e.2 <;> rw [he2] at ht <;> try cases ht
    · exact ⟨hown, by simp [Value.itemName?]⟩
    · exact orElse_nameable (hitems e he _ (by rw [he2]; rfl)) hown

/-- What one variable adds: a part, and its type if it has one. -/
lemma adds_visitVariable (h : Nameable p b₀) {v : Variable} (hv : v ∈ b₀.vars) :
    Adds p b₀ (visitVariable v)
      (∃ t, b₀.variableType v = .ok t ∧ (t.name?.isSome → b₀.resolver.separator.isText))
      ({f | ∃ n, v.name = .text n ∧ f = .part n} ∪
        {f | ∃ n, v.typeName? b₀.items = some n ∧
          f = .ofTypeName b₀.resolver.separator n}) := by
  obtain ⟨hname, htype⟩ := h.vars v hv
  obtain ⟨n, hn⟩ := Value.isText_iff.mp hname
  obtain ⟨id, hid⟩ := Value.isText_iff.mp h.process.id
  have hfile : Adds p b₀ (do
      let b ← get
      let name ← Step.ofAnswer (b.variableType v)
      onTypes (TypeNames.addOne name))
      (∃ t, b₀.variableType v = .ok t ∧ (t.name?.isSome → b₀.resolver.separator.isText))
      {f | ∃ t, b₀.variableType v = .ok t ∧ ∃ n, t.name? = some n ∧
        f = .ofTypeName b₀.resolver.separator n} := fun F b hF hb => by
    refine .bind (Step.ends_get.mpr ?_)
    have hsame : b.variableType v = b₀.variableType v := by rw [hb]; rfl
    rw [hsame]
    exact Adds.ofAnswer_bind (fun t ht =>
      adds_addTypeName (variableType_ok htype h.items ht).1) F b hF hb
  rw [visitVariable, hn]
  refine ((adds_addOwnPart n hid).seq hfile).congr_of_ok (by simp) fun ⟨t, ht, _⟩ => ?_
  rw [← (variableType_ok htype h.items ht).2]
  ext f
  simp [ht]

lemma adds_visitVariables (h : Nameable p b₀) : Adds p b₀ (b₀.vars.forM visitVariable)
    (∀ v ∈ b₀.vars, ∃ t, b₀.variableType v = .ok t ∧
      (t.name?.isSome → b₀.resolver.separator.isText)) b₀.variableFindings := by
  refine (Adds.forM fun v hv => adds_visitVariable h hv).congr Iff.rfl ?_
  ext f
  simp only [variableFindings, variableNames, mem_ofTypeNames, Set.mem_union, Set.mem_ofPred_eq]
  constructor
  · rintro ⟨v, hv, ⟨n, hn, rfl⟩ | ⟨n, hn, rfl⟩⟩
    · exact .inl ⟨n, ⟨v, hv, hn⟩, rfl⟩
    · exact .inr ⟨n, ⟨v, hv, hn⟩, rfl⟩
  · rintro (⟨n, ⟨v, hv, hn⟩, rfl⟩ | ⟨n, ⟨v, hv, hn⟩, rfl⟩)
    · exact ⟨v, hv, .inl ⟨n, hn, rfl⟩⟩
    · exact ⟨v, hv, .inr ⟨n, hn, rfl⟩⟩

lemma adds_visitSignals (names : List String) :
    Adds p b₀ (visitSignals names) True (signalFindings names) :=
  (Adds.forM fun n _ => adds_addShared n .signal).congr (by simp) (by ext; simp [signalFindings])

lemma adds_visitFunctionImports (h : Nameable p b₀) :
    Adds p b₀ (visitFunctionImports p.functionImports)
      (p.functionImports.Iterable ∧
        ∀ v ∈ p.functionImports.elements, ∃ wild, isWildcard b₀.wildcard v = .ok wild)
      (b₀.functionFindings p) := by
  have hone : ∀ v ∈ p.functionImports.elements, Adds p b₀ (do
      let b ← get
      if !(← Step.ofAnswer (isWildcard b.wildcard v)) then onRefs (·.addResourceRef v .function))
      (∃ wild, isWildcard b₀.wildcard v = .ok wild)
      {f | ∃ n, v = .text n ∧ isWildcard b₀.wildcard (.text n) = .ok false ∧
        f = .reference n .function} := fun v hv F b hF hb => by
    obtain ⟨n, rfl⟩ := Value.isText_iff.mp (h.process.functions v hv)
    refine .bind (Step.ends_get.mpr ?_)
    have hwild : b.wildcard = b₀.wildcard := by rw [hb]
    rw [hwild]
    exact (Adds.ofAnswer_bind fun wild _ =>
      Adds.ite fun _ => adds_addResourceRef n .function).congr (by simp) (by ext; simp) F b hF hb
  refine (Adds.forElements hone).congr Iff.rfl ?_
  ext f
  simp only [functionFindings, Set.mem_ofPred_eq]
  constructor
  · rintro ⟨v, hv, n, rfl, hn⟩
    exact ⟨n, hv, hn⟩
  · rintro ⟨n, hv, hn⟩
    exact ⟨_, hv, n, rfl, hn⟩

end Visits

end Build
end Concordance
