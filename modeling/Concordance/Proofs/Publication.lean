import Concordance.Pipeline
import Concordance.Proofs.Fingerprint

/-!
What a build leaves behind: the two stores that take its index, and what a failing build does to
them.

* `Entered k a es fs` : the entries `fs` are `es` with `a` entered under the key `k`, at the place
  of the first entry of an equal key or at the end. `Registry.place_entered`, `Value.put_entered`.
* `Registry.Filed r i r'` : publishing the index `i` turned the registry `r` into `r'`.
  `Registry.publish_filed`, and `Registry.publish_refused_iff` : it is refused exactly if two
  fingerprints are to be compared of which one cannot be computed.
* `Pipeline.made`, `Pipeline.bagged`, `Pipeline.settle` : a build in three parts, which do not read
  the log. `Pipeline.build_outcome` : this is how a build ends; `Pipeline.settles` : by cases.
* `Pipeline.build_changes` : a build that answers has changed one entry of the bag and one of the
  registry; one that fails has changed nothing, unless it is `Pipeline.Stranded` between the two.
-/

namespace Concordance

/-! ### One entry is new -/

/-- Entries in which a value is entered under a key: at the place of the first entry of an equal
key, or at the end if there is none. -/
inductive Entered {α : Type} (k : Value) (a : α) (es : List (Value × α)) :
    List (Value × α) → Prop
  | replaced {before behind : List (Value × α)} {l : Value} {old : α}
      (hes : es = before ++ (l, old) :: behind) (hbefore : ∀ e ∈ before, e.1.same k = false)
      (hl : l.same k = true) : Entered k a es (before ++ (l, a) :: behind)
  | added (hes : ∀ e ∈ es, e.1.same k = false) : Entered k a es (es ++ [(k, a)])

namespace Entered

variable {α : Type} {k : Value} {a : α} {es fs : List (Value × α)}

lemma cons (h : Entered k a es fs) {e : Value × α} (he : e.1.same k = false) :
    Entered k a (e :: es) (e :: fs) := by
  cases h with
  | replaced hes hbefore hl =>
      rw [hes, ← List.cons_append, ← List.cons_append]
      exact .replaced rfl (List.forall_mem_cons.mpr ⟨he, hbefore⟩) hl
  | added hes =>
      rw [← List.cons_append]
      exact .added (List.forall_mem_cons.mpr ⟨he, hes⟩)

/-- The first entry is of an equal key. -/
lemma head {l : Value} {old : α} (hl : l.same k = true) :
    Entered k a ((l, old) :: es) ((l, a) :: es) := by
  rw [← List.nil_append ((l, old) :: es), ← List.nil_append ((l, a) :: es)]
  exact .replaced rfl (List.forall_mem_nil _) hl

/-- No entry before the new one is found under its key. -/
lemma find?_eq_none (h : ∀ e ∈ es, e.1.same k = false) :
    es.find? (fun e => e.1.same k) = none :=
  List.find?_eq_none.mpr fun e he => by simp [h e he]

/-- Under a textual key the value is found. -/
lemma find?_text {s : String} (h : Entered (.text s) a es fs) :
    (fs.find? fun e => e.1.same (.text s)).map (·.2) = some a := by
  cases h with
  | replaced hes hbefore hl =>
      simp [List.find?_append, find?_eq_none hbefore, hl]
  | added hes =>
      simp [List.find?_append, find?_eq_none hes]

/-- Under any other key everything is found as before. -/
lemma find?_other {s : String} {m : Value} (h : Entered (.text s) a es fs) (hm : m ≠ .text s) :
    (fs.find? fun e => e.1.same m).map (·.2) = (es.find? fun e => e.1.same m).map (·.2) := by
  have hne : (.text s : Value).same m = false :=
    Bool.eq_false_iff.mpr fun hs => hm (Value.same_text_left.mp hs).symm
  cases h with
  | replaced hes hbefore hl =>
      obtain rfl := Value.same_text_right.mp hl
      simp only [hes, List.find?_append, List.find?_cons, hne]
  | added hes =>
      simp [List.find?_append, hne]

/-- No other key comes in, and none goes. -/
lemma keys {s : String} (h : Entered (.text s) a es fs) : fs.map (·.1) = es.map (·.1) ∨
    .text s ∉ es.map (·.1) ∧ fs.map (·.1) = es.map (·.1) ++ [.text s] := by
  cases h with
  | replaced hes _ _ =>
      left
      rw [hes, List.map_append, List.map_append, List.map_cons, List.map_cons]
  | added hes =>
      right
      refine ⟨fun hmem => ?_, by rw [List.map_append, List.map_cons, List.map_nil]⟩
      obtain ⟨e, he, hkey⟩ := List.mem_map.mp hmem
      exact absurd (hes e he) (by simp [hkey])

/-- What holds of all keys and of all that stands under them. -/
lemma forall_mem {P : Value → Prop} {Q : α → Prop} (h : Entered k a es fs) (hk : P k) (ha : Q a)
    (hes : ∀ e ∈ es, P e.1 ∧ Q e.2) : ∀ e ∈ fs, P e.1 ∧ Q e.2 := by
  cases h with
  | replaced heq _ _ =>
      simp only [heq, List.forall_mem_append, List.forall_mem_cons] at hes ⊢
      exact ⟨hes.1, ⟨hes.2.1.1, ha⟩, hes.2.2⟩
  | added _ =>
      simp only [List.forall_mem_append, List.forall_mem_singleton]
      exact ⟨hes, hk, ha⟩

end Entered

lemma Value.put_entered (k v : Value) : ∀ es, Entered k v es (Value.put es k v)
  | [] => .added (List.forall_mem_nil _)
  | (l, w) :: es => by
      rw [Value.put]
      split
      · next hl => exact .head hl
      · next hl => exact (put_entered k v es).cons (Bool.eq_false_iff.mpr hl)

/-! ### The registry -/

/-- The index has a fingerprint: its names can be ordered and encoded. -/
def Index.Fingerprinted (i : Index) : Prop := ∃ f, i.fingerprint? = .ok f

lemma Index.Legible.fingerprinted {i : Index} (h : i.Legible) : i.Fingerprinted := by
  rw [Index.Fingerprinted, Index.fingerprint?, h.contentBytes?_eq]
  exact ⟨_, rfl⟩

namespace Registry

variable {r r' : Registry} {i old : Index}

lemma place_entered (id : Value) (i : Index) : ∀ es, Entered id i es (place id i es)
  | [] => .added (List.forall_mem_nil _)
  | (k, j) :: es => by
      rw [place]
      split
      · next hk => exact .head hk
      · next hk => exact (place_entered id i es).cons (Bool.eq_false_iff.mpr hk)

/-- How publishing an index ends, by what is stored under its id. -/
inductive Publishes (r : Registry) (i : Index) : Answer (Registry × Bool) → Prop
  | unhashable (h : i.processId.hashable = false) : Publishes r i (.error .illTyped)
  | added (hold : r.get? i.processId = none) : Publishes r i (.ok (r.insert i, true))
  | oldUnprinted {old : Index} {e : Fault} (hold : r.get? i.processId = some old)
      (hbefore : old.fingerprint? = .error e) : Publishes r i (.error e)
  | newUnprinted {old : Index} {e : Fault} {f : String} (hold : r.get? i.processId = some old)
      (hbefore : old.fingerprint? = .ok f) (hafter : i.fingerprint? = .error e) :
      Publishes r i (.error e)
  | unchanged {old : Index} {f : String} (hold : r.get? i.processId = some old)
      (hbefore : old.fingerprint? = .ok f) (hafter : i.fingerprint? = .ok f) :
      Publishes r i (.ok (r, false))
  | replaced {old : Index} {f g : String} (hold : r.get? i.processId = some old)
      (hbefore : old.fingerprint? = .ok f) (hafter : i.fingerprint? = .ok g) (hne : f ≠ g) :
      Publishes r i (.ok (r.insert i, true))

/-- **Everything publishing can do**; what is said of it below goes through these cases. -/
lemma publishes (r : Registry) (i : Index) : Publishes r i (r.publish i) := by
  rw [publish]
  by_cases hhash : i.processId.hashable = true
  · rw [hhash, Bool.not_true, if_neg Bool.false_ne_true]
    rcases hold : r.get? i.processId with _ | old
    · exact .added hold
    simp only [bind, Except.bind]
    rcases hbefore : old.fingerprint? with e | f
    · exact .oldUnprinted hold hbefore
    rcases hafter : i.fingerprint? with e | g
    · exact .newUnprinted hold hbefore hafter
    by_cases heq : f = g
    · subst heq
      simp only [if_true]
      exact .unchanged hold hbefore hafter
    · simp only [if_neg heq]
      exact .replaced hold hbefore hafter heq
  · rw [Bool.eq_false_iff.mpr hhash]
    exact .unhashable (Bool.eq_false_iff.mpr hhash)

/-- A registry after an index was published: it is kept if the stored index has the same
fingerprint, else the index is entered under its id. -/
inductive Filed (r : Registry) (i : Index) : Registry → Prop
  | kept {old : Index} (hold : r.get? i.processId = some old)
      (hprint : old.fingerprint? = i.fingerprint?) : Filed r i r
  | entered {r' : Registry}
      (hold : ∀ old, r.get? i.processId = some old → old.fingerprint? ≠ i.fingerprint?)
      (h : Entered i.processId i r.entries r'.entries) : Filed r i r'

lemma publish_filed {changed : Bool} (h : r.publish i = .ok (r', changed)) : Filed r i r' := by
  have hinsert : Entered i.processId i r.entries (r.insert i).entries := place_entered _ _ _
  have hpublishes := publishes r i
  rw [h] at hpublishes
  cases hpublishes with
  | added hold => exact .entered (by simp [hold]) hinsert
  | unchanged hold hbefore hafter => exact .kept hold (by rw [hbefore, hafter])
  | replaced hold hbefore hafter hne =>
      refine .entered (fun old hold' hprint => hne ?_) hinsert
      obtain rfl := Option.some.inj (hold.symm.trans hold')
      rw [hbefore, hafter] at hprint
      exact Except.ok.inj hprint

/-- **When an index is refused**: another one is stored under its id, and one of both has no
fingerprint. -/
lemma publish_refused_iff (hid : i.processId.hashable = true) :
    (∃ e, r.publish i = .error e) ↔
      ∃ old, r.get? i.processId = some old ∧ ¬(old.Fingerprinted ∧ i.Fingerprinted) := by
  have hpublishes := publishes r i
  generalize r.publish i = answer at hpublishes
  unfold Index.Fingerprinted
  cases hpublishes with
  | unhashable hno => simp [hid] at hno
  | added hold => simp [hold]
  | oldUnprinted hold hbefore => simp [hold, hbefore]
  | newUnprinted hold hbefore hafter => simp [hold, hafter]
  | unchanged hold hbefore hafter => simp [hold, hbefore, hafter]
  | replaced hold hbefore hafter hne => simp [hold, hbefore, hafter]

end Registry

/-! ### The bag -/

lemma Value.get?_dict (es : List (Value × Value)) (mark : Option Mark) (k : Value) :
    (Value.dict es mark).get? k =
      if k.hashable then .ok ((Value.lookup? es k).getD .null) else .error .illTyped := rfl

/-- A metadata bag after an index went into it: everything else in it is as before. -/
structure Index.InBag (i : Index) (bag bag' : Value) : Prop where
  entries : ∃ es mark fs, bag = .dict es mark ∧ bag' = .dict fs ∧
    Entered (.text metadataKey) i.toValue es fs
  index : bag'.get? (.text metadataKey) = .ok i.toValue
  others : ∀ k, k ≠ .text metadataKey → bag'.get? k = bag.get? k

lemma Index.publishTo?_inBag {i : Index} {bag bag' : Value} (h : i.publishTo? bag = .ok bag') :
    i.InBag bag bag' := by
  unfold publishTo? at h
  split at h
  · next es mark =>
      cases h
      have hentered := Value.put_entered (.text metadataKey) i.toValue es
      refine ⟨⟨es, mark, _, rfl, rfl, hentered⟩, ?_, fun k hk => ?_⟩
      · have hfound : Value.lookup? (Value.put es (.text metadataKey) i.toValue)
            (.text metadataKey) = some i.toValue := hentered.find?_text
        rw [Value.get?_dict, hfound, if_pos (Value.hashable_text _), Option.getD_some]
      · have hfound : Value.lookup? (Value.put es (.text metadataKey) i.toValue) k =
            Value.lookup? es k := hentered.find?_other hk
        rw [Value.get?_dict, Value.get?_dict, hfound]
  · cases h

/-! ### A build in three parts -/

namespace Pipeline

variable {s : Settings} {p q : ProcessDefinition} {r : Registry} {i : Index}

/-- The index of a process, before it is published. -/
def made (s : Settings) (p : ProcessDefinition) : Answer Index := do
  let start ← createBuild s
  ((collect p).outcome start).1

/-- The process with an index in its bag, if indexes go there. -/
def bagged (s : Settings) (i : Index) (p : ProcessDefinition) : Answer ProcessDefinition :=
  if s.pipeline.publishToMetadata then do
    let metadata ← i.publishTo? p.metadata
    pure { p with metadata }
  else pure p

/-- A finished index is put into the bag and filed in the registry. -/
def conclude (s : Settings) (i : Index) (site : Site) : Answer Index × Site :=
  match bagged s i site.process with
  | .error e => (.error e, site)
  | .ok process => match site.registry.publish i with
    | .error e => (.error e, { site with process })
    | .ok (registry, _) => (.ok i, { process, registry })

/-- A build in three parts: the index is made, put into the bag and filed in the registry. -/
def settle (s : Settings) (site : Site) : Answer Index × Site :=
  match made s site.process with
  | .error e => (.error e, site)
  | .ok i => conclude s i site

/-- How a build ends, by the part that fails if one does. -/
inductive Settles (s : Settings) (site : Site) : Answer Index × Site → Prop
  | unmade {e : Fault} (hmade : made s site.process = .error e) : Settles s site (.error e, site)
  | unbagged {i : Index} {e : Fault} (hmade : made s site.process = .ok i)
      (hbag : bagged s i site.process = .error e) : Settles s site (.error e, site)
  | refused {i : Index} {process : ProcessDefinition} {e : Fault}
      (hmade : made s site.process = .ok i) (hbag : bagged s i site.process = .ok process)
      (hpublish : site.registry.publish i = .error e) :
      Settles s site (.error e, { site with process })
  | filed {i : Index} {process : ProcessDefinition} {registry : Registry} {changed : Bool}
      (hmade : made s site.process = .ok i) (hbag : bagged s i site.process = .ok process)
      (hpublish : site.registry.publish i = .ok (registry, changed)) :
      Settles s site (.ok i, { process, registry })

/-- **Everything a build can do**; what is said of it below goes through these cases. -/
lemma settles (s : Settings) (site : Site) : Settles s site (settle s site) := by
  unfold settle conclude
  rcases hmade : made s site.process with e | i
  · exact .unmade hmade
  rcases hbag : bagged s i site.process with e | process
  · simp only [hbag]
    exact .unbagged hmade hbag
  rcases hpublish : site.registry.publish i with e | ⟨registry, changed⟩ <;>
    simp only [hbag, hpublish]
  · exact .refused hmade hbag hpublish
  · exact .filed hmade hbag hpublish

/-- Files an index in the registry, and tells whether that changed it. -/
def file (i : Index) : Step Site Bool := do
  let site ← get
  let (registry, changed) ← Step.ofAnswer (site.registry.publish i)
  set { site with registry }
  if !changed then
    Step.log { level := .debug, speaker,
               message := "Index of process " ++ site.process.id.display ++ " unchanged" }
  pure changed

/-- Once the index is in the bag it is filed. -/
lemma file_ends {site : Site} {process : ProcessDefinition}
    (hbag : bagged s i site.process = .ok process) : (file i).Ends { site with process }
      (fun _ t => conclude s i site = (.ok i, t)) fun e t => conclude s i site = (.error e, t) := by
  refine .bind (Step.ends_get.mpr (.bind (Step.ends_ofAnswer.mpr ⟨?_, ?_⟩)))
  · rintro ⟨registry, changed⟩ hpublish
    have hend : conclude s i site = (.ok i, { process, registry }) := by
      simp only [conclude, hbag, show site.registry.publish i = _ from hpublish]
    refine .bind (Step.ends_set.mpr ?_)
    cases changed
    · exact .bind (Step.ends_log.mpr (Step.ends_pure.mpr hend))
    · exact Step.ends_pure.mpr hend
  · intro e hpublish
    simp only [conclude, hbag, show site.registry.publish i = _ from hpublish]

lemma publish_ends (s : Settings) (i : Index) (site : Site) : (publish s i).Ends site
    (fun _ t => conclude s i site = (.ok i, t)) fun e t => conclude s i site = (.error e, t) := by
  refine .bind (Step.ends_get.mpr ?_)
  by_cases hmeta : s.pipeline.publishToMetadata = true
  · rw [if_pos hmeta]
    refine .bind (Step.ends_ofAnswer.mpr ⟨fun metadata hmetadata => ?_, fun e he => ?_⟩)
    · have hbag : bagged s i site.process = .ok { site.process with metadata } := by
        rw [bagged, if_pos hmeta, hmetadata]
        rfl
      exact .bind (Step.ends_set.mpr (file_ends hbag))
    · rw [conclude, bagged, if_pos hmeta, he]
      rfl
  · rw [if_neg hmeta]
    have hbag : bagged s i site.process = .ok site.process := by
      rw [bagged, if_neg hmeta]
      rfl
    exact file_ends hbag

/-- **How a build ends**: the index is made, then put into the bag, then filed. -/
lemma build_outcome (s : Settings) (site : Site) : (build s).outcome site = settle s site := by
  refine Step.Ends.outcome_eq (.bind (Step.ends_get.mpr (.bind (Step.ends_ofAnswer.mpr ?_))))
  refine ⟨fun start hstart => ?_, fun e he => ?_⟩
  · have hmade : made s site.process = ((collect site.process).run start).1 := by
      rw [made, hstart]
      rfl
    -- of the run that collects, only the answer and the lines it logged are looked at
    generalize (collect site.process).run start = collected at hmade
    obtain ⟨answer, b, lines⟩ := collected
    refine .bind (Step.ends_logs lines ?_)
    rcases answer with e | i
    · exact .bind (Step.ends_ofAnswer_error.mpr (by rw [settle, hmade]))
    · refine .bind (Step.ends_ofAnswer_ok.mpr (.bind ?_))
      have hsettle : settle s site = conclude s i site := by rw [settle, hmade]
      rw [hsettle]
      exact (publish_ends s i site).imp (fun _ _ h => Step.ends_pure.mpr h) fun _ _ => id
  · rw [settle, made, he]
    rfl

/-- What a build leaves. -/
lemma build_after (s : Settings) (site : Site) : (build s).after site = (settle s site).2 :=
  congrArg (·.2) (build_outcome s site)

/-! ### What a build changes -/

/-- The process after an index went into its bag, if indexes go there; its other fields are as
before. -/
structure Carries (s : Settings) (i : Index) (p q : ProcessDefinition) : Prop where
  fields : q = { p with metadata := q.metadata }
  bag : s.pipeline.publishToMetadata = true → i.InBag p.metadata q.metadata
  noBag : s.pipeline.publishToMetadata = false → q = p

lemma bagged_carries (h : bagged s i p = .ok q) : Carries s i p q := by
  unfold bagged at h
  split at h
  · next hmeta =>
      rcases hbag : i.publishTo? p.metadata with e | metadata
      · simp [hbag, bind, Except.bind] at h
      simp only [hbag, bind, Except.bind, pure, Except.pure, Except.ok.injEq] at h
      subst h
      exact ⟨rfl, fun _ => Index.publishTo?_inBag hbag, fun hno => by simp [hmeta] at hno⟩
  · next hmeta =>
      cases h
      exact ⟨rfl, fun hyes => absurd hyes hmeta, fun _ => rfl⟩

/-- An index carries the id of its process, which can be the key of a registry. -/
lemma made_id (h : made s p = .ok i) : i.processId = p.id ∧ p.id.hashable = true := by
  rcases hstart : createBuild s with e | start
  · simp [made, hstart, bind, Except.bind] at h
  have hadded : (Build.processAdded p).Ends start (fun _ _ => p.id.hashable = true)
      fun _ _ => True := by
    refine .bind_any fun _ b => .bind_any fun _ b => .bind_any fun _ b => ?_
    have hid : (Build.onRefs (·.addResource p.id .processId)).Ends b
        (fun _ _ => p.id.hashable = true) fun _ _ => True := by
      refine .bind (Step.ends_get.mpr (.bind (Step.ends_ofAnswer.mpr
        ⟨fun refs hrefs => Step.ends_set.mpr ?_, fun _ _ => trivial⟩)))
      by_contra hno
      have hrefused : Collector.addResource b.refs p.id .processId = .error .illTyped := by
        unfold Collector.addResource
        rw [if_pos (by simpa using hno)]
      exact absurd (hrefused.symm.trans hrefs) nofun
    refine .bind (hid.imp (fun _ c hok => .bind_any fun _ c => ?_) fun _ _ => id)
    exact (Step.ends_any _ c).imp (fun _ _ _ => hok) fun _ _ => id
  have hends : (collect p).Ends start (fun i _ => i.processId = p.id ∧ p.id.hashable = true)
      fun _ _ => True := by
    refine .bind (.bind (hadded.imp (fun _ b hok => ?_) fun _ _ => id))
    refine (Step.ends_any _ b).imp (fun _ c _ => .bind_any fun _ c => ?_) fun _ _ => id
    exact (Build.buildComplete_names c).imp (fun _ _ hnames => ⟨hnames.1, hok⟩) fun _ _ => id
  simp only [made, hstart, bind, Except.bind] at h
  exact hends.of_outcome_ok h

/-- A build ends between its two stores: the index is in the bag, and the registry refuses it. -/
structure Stranded (s : Settings) (p : ProcessDefinition) (r : Registry) (i : Index) : Prop where
  made : made s p = .ok i
  publishes : s.pipeline.publishToMetadata = true
  mapping : p.metadata.isMapping = true
  refused : ∃ old, r.get? p.id = some old ∧ ¬(old.Fingerprinted ∧ i.Fingerprinted)

/-- An index goes into every bag that is a mapping. -/
lemma exists_bagged (s : Settings) (i : Index) (hmapping : p.metadata.isMapping = true) :
    ∃ q, bagged s i p = .ok q := by
  obtain ⟨es, mark, hbag⟩ : ∃ es mark, p.metadata = .dict es mark := by
    cases hbag : p.metadata <;> simp [hbag, Value.isMapping, Value.entries?] at hmapping ⊢
  unfold bagged
  split
  · exact ⟨_, by rw [hbag]; rfl⟩
  · exact ⟨p, rfl⟩

lemma Carries.isMapping (h : Carries s i p q) (hmeta : s.pipeline.publishToMetadata = true) :
    p.metadata.isMapping = true := by
  obtain ⟨es, mark, fs, hbag, -, -⟩ := (h.bag hmeta).entries
  rw [hbag]
  rfl

/-- **What a build changes.** A build that answers has put its index into the bag, if indexes go
there, and has filed it in the registry; all else is as before. A build that fails has changed
nothing, or it is stranded: then the index is in the bag and the registry is as before. It is not
stranded if the names in the index, and in the one that is stored, are texts that can be encoded. -/
theorem build_changes (s : Settings) (p : ProcessDefinition) (r : Registry) :
    (∀ i t, (build s).outcome { process := p, registry := r } = (.ok i, t) →
      i.processId = p.id ∧ Carries s i p t.process ∧ r.Filed i t.registry) ∧
    (∀ e t, (build s).outcome { process := p, registry := r } = (.error e, t) →
      (t = { process := p, registry := r } ∧ ¬∃ i, Stranded s p r i) ∨
      ∃ i, Stranded s p r i ∧ Carries s i p t.process ∧ t.registry = r) ∧
    ((∀ i, made s p = .ok i → i.Legible) → (∀ old, r.get? p.id = some old → old.Legible) →
      ¬∃ i, Stranded s p r i) := by
  simp only [build_outcome]
  refine ⟨fun i t h => ?_, fun e t h => ?_, fun hmade hstored ⟨i, hi⟩ => ?_⟩
  · have hsettles := settles s { process := p, registry := r }
    rw [h] at hsettles
    cases hsettles with
    | filed hmade hbag hpublish =>
        exact ⟨(made_id hmade).1, bagged_carries hbag, Registry.publish_filed hpublish⟩
  · have hsettles := settles s { process := p, registry := r }
    rw [h] at hsettles
    cases hsettles with
    | unmade hmade =>
        refine .inl ⟨rfl, fun ⟨i, hi⟩ => ?_⟩
        cases hmade.symm.trans hi.made
    | unbagged hmade hbag =>
        refine .inl ⟨rfl, fun ⟨i, hi⟩ => ?_⟩
        obtain rfl := Except.ok.inj (hmade.symm.trans hi.made)
        obtain ⟨q, hq⟩ := exists_bagged s _ hi.mapping
        cases hbag.symm.trans hq
    | @refused i q _ hmade hbag hpublish =>
        have hcarries : Carries s i p q := bagged_carries hbag
        by_cases hmeta : s.pipeline.publishToMetadata = true
        · obtain ⟨hid, hhash⟩ := made_id hmade
          have hrefused := (Registry.publish_refused_iff (hid ▸ hhash)).mp ⟨e, hpublish⟩
          rw [hid] at hrefused
          exact .inr ⟨i, ⟨hmade, hmeta, hcarries.isMapping hmeta, hrefused⟩, hcarries, rfl⟩
        · obtain rfl := hcarries.noBag (Bool.eq_false_iff.mpr hmeta)
          exact .inl ⟨rfl, fun ⟨i, hi⟩ => hmeta hi.publishes⟩
  · obtain ⟨old, hold, hno⟩ := hi.refused
    exact hno ⟨(hstored old hold).fingerprinted, (hmade i hi.made).fingerprinted⟩

/-- Settings without dialects and built-in names. -/
def plain : Settings where
  resolver := { builtinTypes := [] }
  dialects := { enabled := [] }

/-- The process without declarations has an index without references. -/
lemma made_bare : made plain (.bare "P" "n") = .ok (.ofParts "P" "n" []) := by cbv

lemma legible_bare : (Index.ofParts "P" "n" []).Legible :=
  Index.legible_ofParts (by decide) (by decide)

theorem build_changes_bare :
    (∃ t, (build plain).outcome { process := .bare "P" "n", registry := {} } =
        (.ok (.ofParts "P" "n" []), t) ∧
      Carries plain (.ofParts "P" "n" []) (.bare "P" "n") t.process ∧
      Registry.Filed {} (.ofParts "P" "n" []) t.registry) ∧
    (∃ e, (build plain).outcome { process := { id := .list [] }, registry := {} } =
      (.error e, { process := { id := .list [] }, registry := {} })) ∧
    ¬∃ i, Stranded plain (.bare "P" "n") {} i := by
  obtain ⟨hok, -, hlegible⟩ := build_changes plain (.bare "P" "n") {}
  obtain ⟨-, herror, hno⟩ := build_changes plain { id := .list [] } {}
  have hempty : ∀ {id : Value} {old : Index}, ({} : Registry).get? id = some old → old.Legible :=
    fun h => by cases h
  refine ⟨?_, ?_, hlegible (fun i hi => ?_) fun _ => hempty⟩
  · have hanswer : ((build plain).outcome { process := .bare "P" "n", registry := {} }).1 =
        .ok (.ofParts "P" "n" []) := by cbv
    rcases hend : (build plain).outcome { process := .bare "P" "n", registry := {} } with ⟨a, t⟩
    obtain rfl : a = .ok (.ofParts "P" "n" []) := by rw [← hanswer, hend]
    obtain ⟨-, hcarries, hfiled⟩ := hok _ _ hend
    exact ⟨t, rfl, hcarries, hfiled⟩
  · have hmade : made plain { id := .list [] } = .error .illTyped := by cbv
    have hanswer : ((build plain).outcome { process := { id := .list [] }, registry := {} }).1 =
        .error .illTyped := by cbv
    rcases hend : (build plain).outcome { process := { id := .list [] }, registry := {} } with
      ⟨a, t⟩
    obtain rfl : a = .error .illTyped := by rw [← hanswer, hend]
    rcases herror _ _ hend with ⟨rfl, -⟩ | ⟨i, hi, -⟩
    · exact ⟨_, rfl⟩
    · exact absurd ⟨i, hi⟩ (hno (fun i hi => by simp [hmade] at hi) fun _ => hempty)
  · rw [made_bare] at hi
    exact Except.ok.inj hi ▸ legible_bare

/-- A process with two variables whose names have no order. -/
def unordered : ProcessDefinition where
  id := .text "P"
  name := .text "n"
  vars := .list [.var (.int 1) (.text "Object") (.dict []),
    .var (.text "a") (.text "Object") (.dict [])]

/-- **A build that fails can leave its index in the bag**: where a process has been built before,
its new index is refused by the registry if its fingerprint cannot be computed. -/
theorem build_strands_unordered :
    ∃ r e t, ((build plain).after { process := .bare "P" "n", registry := {} }).registry = r ∧
      (build plain).outcome { process := unordered, registry := r } = (.error e, t) ∧
      t.registry = r ∧ t.process.metadata ≠ unordered.metadata := by
  have hstored : (((build plain).after { process := .bare "P" "n", registry := {} }).registry.get?
      (.text "P")).isSome = true := by cbv
  obtain ⟨old, hold⟩ := Option.isSome_iff_exists.mp hstored
  have hmade : (made plain unordered).isOk = true := by cbv
  obtain ⟨i, hi⟩ := Step.exists_of_isOk hmade
  have hprint : (made plain unordered >>= Index.fingerprint?).isOk = false := by cbv
  have hno : ¬(old.Fingerprinted ∧ i.Fingerprinted) := by
    rintro ⟨-, f, hf⟩
    simp [hi, hf, bind, Except.bind, Except.isOk, Except.toBool] at hprint
  have hid : i.processId = .text "P" := (made_id hi).1
  obtain ⟨e, hrefused⟩ := (Registry.publish_refused_iff (by rw [hid, Value.hashable_text])).mpr
    ⟨old, by rw [hid, hold], hno⟩
  obtain ⟨q, hq⟩ : ∃ q, bagged plain i unordered = .ok q := exists_bagged plain i rfl
  refine ⟨_, e, ⟨q, _⟩, rfl, ?_, rfl, fun hbag => ?_⟩
  · simp only [build_outcome plain { process := unordered, registry := _ }, settle, conclude, hi,
      hq, hrefused]
  · have hindex := ((bagged_carries hq).bag rfl).index
    rw [hbag] at hindex
    cases hindex

end Pipeline

end Concordance
