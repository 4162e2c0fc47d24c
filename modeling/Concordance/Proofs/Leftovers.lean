import Mathlib
import Concordance.Proofs.Calls

/-!
What a call that ends a build leaves behind when it fails.

* `Build.Leftover b c` : the build `c` is `b` with more names, references and parts in it, and no
  other change. `Build.complete_leftover`, `Build.buildComplete_leftover` : what a failing call
  leaves.
* `Build.closed` : the build with its index; `Build.buildComplete_closes` : how the last call ends.
* `Build.RefusedAtOnce` : the first dialect that refuses its bag is reached before anything new was
  found. `Build.Harmless` : a call that comes outside its phase, or is refused at once.
* `Build.calledFor` : the build after calls, each for a process of its own;
  `Build.withoutFailing` : the calls without those that end a build and fail.
* `Build.failed_completion` : a failing call leaves no trace if it is harmless, and calls of that
  kind can be left out of every sequence; the first of the two calls is never harmless in its phase.
-/

namespace Concordance
namespace Build

variable {b c : Build} {p : ProcessDefinition}

/-! ### Leftovers -/

/-- Every resource is one of the given ones, with parts behind its own. -/
def Extended (rs ss : List Resource) : Prop :=
  ∀ s ∈ ss, ∃ r ∈ rs, s = { r with parts := s.parts } ∧ r.parts <+: s.parts

lemma Extended.refl (rs : List Resource) : Extended rs rs :=
  fun r hr => ⟨r, hr, rfl, List.prefix_refl _⟩

lemma Extended.trans {rs ss ts : List Resource} (h : Extended rs ss) (h' : Extended ss ts) :
    Extended rs ts := by
  intro t ht
  obtain ⟨s, hs, hst, hparts⟩ := h' t ht
  obtain ⟨r, hr, hrs, hparts'⟩ := h s hs
  refine ⟨r, hr, ?_, hparts'.trans hparts⟩
  rw [hst, hrs]

/-- The build with more names, references and parts in it, and no other change: bare names may be
resolved, and what was found unresolved is replaced. -/
structure Leftover (b c : Build) : Prop where
  rest : c = { b with types := c.types, refs := c.refs, unresolved := c.unresolved }
  separator : c.types.separator = b.types.separator
  referenced : b.types.referenced <+: c.types.referenced
  resources : Extended b.refs.resources c.refs.resources
  shared : b.refs.shared <+: c.refs.shared
  resourceRefs : b.refs.resourceRefs <+: c.refs.resourceRefs

lemma Leftover.refl (b : Build) : Leftover b b where
  rest := rfl
  separator := rfl
  referenced := List.prefix_refl _
  resources := .refl _
  shared := List.prefix_refl _
  resourceRefs := List.prefix_refl _

lemma prefix_addNew {α : Type} {same : α → α → Bool} {xs ys : List α} (h : xs <+: ys) (x : α) :
    xs <+: addNew same ys x := by
  unfold addNew
  split
  · exact h
  · exact h.trans (List.prefix_append _ _)

/-- The properties of type names that are left over stay. -/
lemma stable_leftover (names : List Value) (separator : Value) : TypeNames.Stable fun t =>
    t.separator = separator ∧ names <+: t.referenced where
  insert h hxs := by
    obtain rfl := Value.insert?_eq_ok hxs
    exact ⟨h.1, prefix_addNew h.2 _⟩
  bare _ h := h

lemma Leftover.types (h : Leftover b c) {t : TypeNames}
    (ht : t.separator = b.types.separator ∧ b.types.referenced <+: t.referenced) :
    Leftover b { c with types := t } where
  rest := by rw [h.rest]
  separator := ht.1
  referenced := ht.2
  resources := h.resources
  shared := h.shared
  resourceRefs := h.resourceRefs

lemma Leftover.refs (h : Leftover b c) {refs : Collector}
    (hresources : Extended c.refs.resources refs.resources)
    (hshared : b.refs.shared <+: refs.shared)
    (hrefs : b.refs.resourceRefs <+: refs.resourceRefs) : Leftover b { c with refs } where
  rest := by rw [h.rest]
  separator := h.separator
  referenced := h.referenced
  resources := h.resources.trans hresources
  shared := hshared
  resourceRefs := hrefs

lemma filing_leftover : Filing (Leftover b) where
  types hstep c hc := ends_onTypes.mpr
    ((hstep _ (stable_leftover _ _) c.types ⟨hc.separator, hc.referenced⟩).imp
      (fun _ _ ht => hc.types ht) fun _ _ ht => hc.types ht)
  shared v t := keeps_onRefs fun c refs hc hrefs => by
    obtain rfl := Collector.addShared_eq_ok hrefs
    exact hc.refs (.refl _) (prefix_addNew hc.shared _) hc.resourceRefs

lemma leftover_addResourceRef (v : Value) (t : ResourceType) :
    (onRefs (·.addResourceRef v t)).Keeps (Leftover b) := keeps_onRefs fun c refs hc hrefs => by
  obtain rfl := Collector.addResourceRef_eq_ok hrefs
  exact hc.refs (.refl _) hc.shared (prefix_addNew hc.resourceRefs _)

lemma addPart?_eq_ok {r r' : Resource} {name : Value} {part : PartType}
    (h : r.addPart? name part = .ok r') :
    r' = { r with parts := addNew Part.same r.parts { name, type := part } } := by
  unfold Resource.addPart? at h
  split_ifs at h
  exact (Except.ok.inj h).symm

lemma mem_of_demand {c : Collector} {id : Value} {type : ResourceType} {r : Resource}
    (h : c.demand id type = .ok r) : r ∈ c.resources := by
  rw [Collector.demand, Collector.getResource] at h
  split_ifs at h
  · rcases hfound : c.find? id type with _ | r'
    · rw [hfound] at h
      cases h
    · rw [hfound] at h
      cases h
      exact List.mem_of_find?_eq_some hfound
  · cases h

/-- A part goes into a resource, and nowhere else. -/
lemma addPart_frame {c c' : Collector} {id name : Value} {type : ResourceType} {part : PartType}
    (h : c.addPart id type name part = .ok c') : Extended c.resources c'.resources ∧
      c'.shared = c.shared ∧ c'.resourceRefs = c.resourceRefs := by
  unfold Collector.addPart at h
  rcases hr : c.demand id type with e | r
  · simp [hr, bind, Except.bind] at h
  rcases hpart : r.addPart? name part with e | r'
  · simp [hr, hpart, bind, Except.bind] at h
  simp only [hr, hpart, bind, Except.bind, pure, Except.pure, Except.ok.injEq] at h
  subst h
  refine ⟨fun s hs => ?_, rfl, rfl⟩
  obtain ⟨t, ht, rfl⟩ := List.mem_map.mp hs
  split
  · rw [addPart?_eq_ok hpart]
    exact ⟨r, mem_of_demand hr, rfl, prefix_addNew (List.prefix_refl _) _⟩
  · exact Extended.refl _ t ht

lemma leftover_addOwnPart (name : Value) : (addOwnPart name).Keeps (Leftover b) := by
  refine Step.keeps_get.bind fun d => ?_
  split
  · exact fun _ hc => Step.ends_throw.mpr hc
  · refine keeps_onRefs fun c refs hc hrefs => ?_
    obtain ⟨hresources, hshared, hreferences⟩ := addPart_frame hrefs
    exact hc.refs hresources (hshared ▸ hc.shared) (hreferences ▸ hc.resourceRefs)

lemma leftover_visitVariable (v : Variable) : (visitVariable v).Keeps (Leftover b) :=
  (leftover_addOwnPart _).bind fun _ => Step.keeps_get.bind fun _ =>
    (Step.keeps_ofAnswer _).bind fun _ => filing_leftover.types (TypeNames.files_addOne _)

lemma leftover_resolveTypes : resolveTypes.Keeps (Leftover b) := by
  refine Step.keeps_get.bind fun d => ?_
  refine (filing_leftover.types d.resolver.files_resolve).bind fun unresolved => ?_
  refine (Step.keeps_modify fun c hc => ?_).bind fun _ => Step.keeps_get.bind fun _ =>
    .forM (fun _ => leftover_addResourceRef _ _) _
  exact ⟨by rw [hc.rest], hc.separator, hc.referenced, hc.resources, hc.shared, hc.resourceRefs⟩

lemma leftover_visitFunctionImports (imports : Value) :
    (visitFunctionImports imports).Keeps (Leftover b) := by
  refine .ite ((Step.keeps_ofAnswer _).bind fun xs => .forM (fun name => ?_) xs)
    (Step.keeps_pure _)
  exact Step.keeps_get.bind fun _ => (Step.keeps_ofAnswer _).bind fun _ =>
    (leftover_addResourceRef _ _).ite (Step.keeps_pure _)

/-! ### A call that fails -/

/-- In its phase the first of the two calls enters the next one, whether it fails or not. -/
lemma complete_leftover (hphase : b.phase = .building) : (complete p).Ends b
    (fun _ c => Leftover { b with phase := .compiled } c)
    fun _ c => Leftover { b with phase := .compiled } c := by
  refine .bind (ends_require hphase (.bind (Step.ends_modify.mpr ?_)))
  have hvisits : Step.Keeps (do
      visitItems
      visitGlobals p.globals
      visitImports p.imports) (Leftover { b with phase := .compiled }) :=
    filing_leftover.visitItems.bind fun _ => (filing_leftover.visitGlobals _).bind fun _ =>
      filing_leftover.visitImports _
  exact hvisits _ (.refl _)

/-- The build with its references closed to changes and its index in place. -/
def closed (b : Build) (p : ProcessDefinition) : Build :=
  let c := { b with refs := b.refs.freeze }
  { c with index := some (c.indexOf p), phase := .completed }

/-- **The second call in its phase**: it closes the build, after more names, references and parts;
or it fails before that, or after that because there is no resource that the last line tells of. -/
lemma buildComplete_closes (hphase : b.phase = .compiled) : (buildComplete p).Ends b
    (fun i c => ∃ d, Leftover b d ∧ c = d.closed p ∧ c.index = some i)
    fun _ c => Leftover b c ∨
      ∃ d, Leftover b d ∧ c = d.closed p ∧ ∃ e, c.ownResource? = .error e := by
  have hkeep : ∀ {α β : Type} {x : Step Build β} {f : β → Step Build α} {c : Build}
      {Q : α → Build → Prop} {E : Build → Prop},
      x.Keeps (Leftover b) → Leftover b c →
      (∀ a d, Leftover b d → (f a).Ends d Q fun _ d => Leftover b d ∨ E d) →
      (x >>= f).Ends c Q fun _ d => Leftover b d ∨ E d := fun hx hc hf =>
    .bind ((hx _ hc).imp (fun a d hd => hf a d hd) fun _ _ hd => .inl hd)
  refine .bind (ends_require hphase (.bind (Step.ends_get.mpr ?_)))
  refine hkeep (.forM (fun x => filing_leftover.visitDialect p.metadata x) _) (.refl b)
    fun _ c hc => ?_
  refine hkeep (.forM leftover_visitVariable _) hc fun _ c hc => ?_
  refine hkeep leftover_resolveTypes hc fun _ c hc => ?_
  refine hkeep (filing_leftover.visitSignals _) hc fun _ c hc => ?_
  refine hkeep (filing_leftover.visitSignals _) hc fun _ c hc => ?_
  refine hkeep (leftover_visitFunctionImports _) hc fun _ c hc => ?_
  refine .bind (Step.ends_modify.mpr (.bind (Step.ends_get.mpr (.bind (Step.ends_set.mpr ?_)))))
  refine .bind (Step.ends_ofAnswer.mpr ⟨fun own _ => ?_, fun e he => .inr ⟨c, hc, rfl, e, he⟩⟩)
  exact .bind (Step.ends_log.mpr (Step.ends_pure.mpr ⟨c, hc, rfl, rfl⟩))

/-- In its phase the second call keeps the phase when it fails, unless it has no resource to close.
-/
lemma buildComplete_leftover (hphase : b.phase = .compiled) : (buildComplete p).Ends b
    (fun _ _ => True)
    fun _ c => Leftover b c ∨ c.phase = .completed ∧ ∃ e, c.ownResource? = .error e := by
  refine (buildComplete_closes hphase).imp (fun _ _ _ => trivial) fun _ c hc => ?_
  rcases hc with hc | ⟨d, -, rfl, hno⟩
  · exact .inl hc
  · exact .inr ⟨rfl, hno⟩

/-! ### A call that is refused at once -/

/-- The bag is refused by a dialect, and those before it have found nothing new. -/
def RefusedAtOnce (p : ProcessDefinition) (b : Build) : Prop :=
  ∃ before x behind e, b.dialects.contributors = before ++ x :: behind ∧
    x.contribute p.metadata = .error e ∧
    ∀ d ∈ before, ∃ pair, d.contribute p.metadata = .ok pair ∧
      (∀ n ∈ pair.referenced, .text n ∈ b.types.referenced) ∧
      ∀ n ∈ pair.unqualified, .text n ∈ b.types.unqualified

lemma insert?_known {xs : List Value} {n : String} (h : .text n ∈ xs) :
    Value.insert? xs (.text n) = .ok xs := by
  rw [Value.insert?, if_pos (Value.hashable_text n), Value.insertNew,
    if_pos (Value.memberOf_text.mpr h)]

/-- A dialect that finds nothing new changes nothing. -/
lemma visitDialect_known {metadata : Value} {x : Contributor} {pair : Contribution}
    (hpair : x.contribute metadata = .ok pair)
    (hreferenced : ∀ n ∈ pair.referenced, .text n ∈ b.types.referenced)
    (hunqualified : ∀ n ∈ pair.unqualified, .text n ∈ b.types.unqualified)
    {E : Fault → Build → Prop} : (visitDialect metadata x).Ends b (fun _ c => c = b) E := by
  have htake : ∀ {take : Value → Step TypeNames Unit} (ns : List String),
      (∀ n ∈ ns, ∀ {E' : Fault → TypeNames → Prop}, (take (.text n)).Ends b.types
        (fun _ t => t = b.types) E') →
      ∀ {E' : Fault → Build → Prop},
        (onTypes (ns.forM fun n => take (.text n))).Ends b (fun _ c => c = b) E' := by
    intro take ns hns E'
    refine ends_onTypes.mpr (Step.Ends.forM
      (fun ms t => t = b.types ∧ ∀ n ∈ ms, n ∈ ns) ?_ ?_ ns b.types ⟨rfl, fun _ => id⟩)
    · rintro n ms t ⟨rfl, hmem⟩
      exact (hns n (hmem n (by simp))).imp
        (fun _ t ht => ⟨ht, fun m hm => hmem m (by simp [hm])⟩) fun _ _ => id
    · rintro t ⟨rfl, -⟩
      rfl
  rw [visitDialect, hpair]
  refine .bind (Step.ends_ofAnswer_ok.mpr (.bind ?_))
  refine (htake pair.referenced fun n hn => ?_).imp (fun _ c hc => ?_) fun _ _ => id
  · refine .bind (Step.ends_get.mpr ?_)
    rw [insert?_known (hreferenced n hn)]
    exact .bind (Step.ends_ofAnswer_ok.mpr (Step.ends_set.mpr rfl))
  · subst hc
    refine htake pair.unqualified fun n hn => .bind (Step.ends_get.mpr ?_)
    rw [insert?_known (hunqualified n hn)]
    exact .bind (Step.ends_ofAnswer_ok.mpr (Step.ends_set.mpr rfl))

lemma RefusedAtOnce.ends (h : RefusedAtOnce p b) (hphase : b.phase = .compiled) :
    (buildComplete p).Ends b (fun _ _ => False) fun _ c => c = b := by
  obtain ⟨before, x, behind, e, hcontributors, hrefused, hknown⟩ := h
  refine .bind (ends_require hphase (.bind (Step.ends_get.mpr (.bind ?_))))
  -- the loop never gets past the dialect that refuses
  refine Step.Ends.forM (fun xs c => c = b ∧ ∃ known, xs = known ++ x :: behind ∧
    ∀ d ∈ known, d ∈ before) ?_ ?_ _ b ⟨rfl, before, hcontributors, fun _ => id⟩
  · rintro d xs c ⟨rfl, known, hxs, hmem⟩
    rcases known with _ | ⟨d', known⟩
    · obtain ⟨rfl, rfl⟩ := List.cons.inj hxs
      refine .bind ?_
      rw [hrefused]
      exact Step.ends_ofAnswer_error.mpr rfl
    · obtain ⟨rfl, rfl⟩ := List.cons.inj hxs
      obtain ⟨pair, hpair, hreferenced, hunqualified⟩ := hknown d (hmem d (by simp))
      exact (visitDialect_known hpair hreferenced hunqualified).imp
        (fun _ t ht => ⟨ht, known, rfl, fun y hy => hmem y (by simp [hy])⟩) fun _ _ => id
  · rintro c ⟨-, known, hnil, -⟩
    simp at hnil

/-! ### Calls without those that fail -/

/-- The second call fails and leaves no trace outside its phase, or refused at once. -/
lemma buildComplete_harmless (h : b.phase ≠ .compiled ∨ RefusedAtOnce p b) :
    (buildComplete p).Ends b (fun _ _ => False) fun _ c => c = b := by
  by_cases hphase : b.phase = .compiled
  · exact (h.resolve_left (not_not.mpr hphase)).ends hphase
  · exact refused_ends hphase

/-- A call that ends a build, and comes outside its phase or is refused at once. -/
def Harmless (p : ProcessDefinition) (b : Build) : Call → Prop
  | .complete => b.phase ≠ .building
  | .buildComplete => b.phase ≠ .compiled ∨ RefusedAtOnce p b
  | _ => False

/-- **A harmless call** fails and leaves the build as it is. -/
lemma Harmless.ends {call : Call} (h : Harmless p b call) :
    (call.step p).Ends b (fun _ _ => False) fun _ c => c = b := by
  cases call with
  | processAdded => exact h.elim
  | observed _ => exact h.elim
  | complete => exact refused_ends h
  | buildComplete =>
      exact .bind ((buildComplete_harmless h).imp (fun _ _ hno => hno.elim) fun _ _ => id)

/-- The build after several calls, each for a process of its own. -/
def calledFor (b : Build) (calls : List (ProcessDefinition × Call)) : Build :=
  calls.foldl (fun b x => (x.2.step x.1).after b) b

/-- The call ends a build, and fails. -/
def failing (b : Build) (x : ProcessDefinition × Call) : Bool :=
  match x.2 with
  | .complete | .buildComplete => !((x.2.step x.1).outcome b).1.isOk
  | _ => false

/-- The calls without those that end a build and fail. -/
def withoutFailing : Build → List (ProcessDefinition × Call) → List (ProcessDefinition × Call)
  | _, [] => []
  | b, x :: xs =>
    let rest := withoutFailing ((x.2.step x.1).after b) xs
    if b.failing x then rest else x :: rest

/-- Every call that ends a build and fails is harmless. -/
def FailsHarmlessly : Build → List (ProcessDefinition × Call) → Prop
  | _, [] => True
  | b, x :: xs =>
    (b.failing x → Harmless x.1 b x.2) ∧ FailsHarmlessly ((x.2.step x.1).after b) xs

/-- Harmless calls that fail can be left out. -/
lemma calledFor_withoutFailing (xs : List (ProcessDefinition × Call)) : ∀ b : Build,
    FailsHarmlessly b xs → b.calledFor (b.withoutFailing xs) = b.calledFor xs := by
  induction xs with
  | nil => exact fun _ _ => rfl
  | cons x xs ih =>
      rintro b ⟨hx, hxs⟩
      have hrest := ih _ hxs
      rw [withoutFailing]
      by_cases hfails : b.failing x = true
      · have hsame : (x.2.step x.1).after b = b :=
          ((hx hfails).ends.imp (fun _ _ hno => hno.elim) fun _ _ => id).after
        rw [hsame] at hrest
        rw [if_pos hfails, hsame, hrest, calledFor, calledFor, List.foldl_cons, hsame]
      · rw [if_neg hfails, calledFor, calledFor, List.foldl_cons, List.foldl_cons]
        exact hrest

/-- **What a failing completion leaves.** The first call that ends a build leaves no trace exactly
if it came outside its phase; in its phase it moves the build on and may leave names behind. The
second one leaves no trace if it came outside its phase or was refused at once; else it may leave
names, references and parts behind, but keeps phase and index, if there is a resource to close. So
if all failing calls are harmless they can be left out, and whatever is called next ends the same.
-/
theorem failed_completion (p : ProcessDefinition) (b : Build) :
    (∀ e c, (complete p).outcome b = (.error e, c) → (c = b ↔ b.phase ≠ .building) ∧
      (b.phase = .building → Leftover { b with phase := .compiled } c)) ∧
    (∀ e c, (buildComplete p).outcome b = (.error e, c) →
      (b.phase ≠ .compiled ∨ RefusedAtOnce p b → c = b) ∧
      (b.phase = .compiled →
        Leftover b c ∨ c.phase = .completed ∧ ∃ e, c.ownResource? = .error e)) ∧
    ∀ xs, FailsHarmlessly b xs → b.calledFor (b.withoutFailing xs) = b.calledFor xs ∧
      (buildComplete p).outcome (b.calledFor (b.withoutFailing xs)) =
        (buildComplete p).outcome (b.calledFor xs) := by
  refine ⟨fun e c h => ⟨⟨?_, fun hphase => ?_⟩, fun hphase => ?_⟩,
    fun e c h => ⟨fun hharmless => ?_, fun hphase => ?_⟩, fun xs hxs => ?_⟩
  · rintro rfl hphase
    have hentered := (complete_leftover hphase).of_outcome_error h
    have hcompiled : c.phase = .compiled := congrArg Build.phase hentered.rest
    rw [hphase] at hcompiled
    cases hcompiled
  · have hends : (complete p).Ends b (fun _ _ => False) fun _ c => c = b := refused_ends hphase
    exact hends.of_outcome_error h
  · exact (complete_leftover hphase).of_outcome_error h
  · exact (buildComplete_harmless hharmless).of_outcome_error h
  · exact (buildComplete_leftover hphase).of_outcome_error h
  · have hsame := calledFor_withoutFailing xs b hxs
    exact ⟨hsame, by rw [hsame]⟩

/-- The build of a process that has been added. -/
def added (p : ProcessDefinition) : Build :=
  (start {} {} (.text "*")).calledFor [(p, .processAdded)]

theorem failed_completion_sample :
    let p := ProcessDefinition.bare "P" "n"
    (∃ e, (buildComplete p).outcome (added p) = (.error e, added p)) ∧
    FailsHarmlessly (added p) [(p, .buildComplete), (p, .complete)] ∧
    (added p).calledFor ((added p).withoutFailing [(p, .buildComplete), (p, .complete)]) =
      (added p).calledFor [(p, .buildComplete), (p, .complete)] := by
  intro p
  obtain ⟨-, hlast, hruns⟩ := failed_completion p (added p)
  have hphase : (added p).phase = .building := by cbv
  have hharmless : Harmless p (added p) .buildComplete := .inl (by rw [hphase]; decide)
  have hafter : ((Call.step p .buildComplete).after (added p)) = added p :=
    (hharmless.ends.imp (fun _ _ hno => hno.elim) fun _ _ => id).after
  have hcompletes : (added p).failing (p, .complete) = false := by cbv
  have hfails : FailsHarmlessly (added p) [(p, .buildComplete), (p, .complete)] := by
    refine ⟨fun _ => hharmless, ?_, trivial⟩
    rw [hafter, hcompletes]
    intro hno
    cases hno
  have hanswer : ((buildComplete p).outcome (added p)).1 =
      .error (.lifecycle .buildComplete .building) := by cbv
  rcases hend : (buildComplete p).outcome (added p) with ⟨a, c⟩
  obtain rfl : a = .error (.lifecycle .buildComplete .building) := by rw [← hanswer, hend]
  obtain rfl := (hlast _ _ hend).1 hharmless
  exact ⟨⟨_, rfl⟩, hfails, (hruns _ hfails).1⟩

/-- A process with a global whose type is no text. -/
def half : ProcessDefinition where
  id := .text "P"
  globals := .dict [(.text "a", .text "x.Y"), (.text "g", .int 5)]

/-- **A failed completion is taken for a finished one**: the build goes on to the next phase, and
returns an index with the globals that were visited before the failure. Without the failing call
there is no index. -/
theorem completion_takes_half :
    ((complete half).outcome (added half)).1.isOk = false ∧
    (added half).phase = .building ∧ ((complete half).after (added half)).phase = .compiled ∧
    ((buildComplete half).outcome ((added half).calledFor [(half, .complete)])).1.map (·.shared) =
      .ok [{ name := .text "a", type := .global }] ∧
    ((buildComplete half).outcome
      ((added half).calledFor ((added half).withoutFailing [(half, .complete)]))).1.isOk = false :=
  ⟨by cbv, by cbv, by cbv, by cbv, by cbv⟩

end Build
end Concordance
