import Concordance.Proofs.Publication

/-!
Several builds at once on one registry, in any interleaving of their steps.

* `Registry.filedOver` : what is stored under an id after an index was published over what was
  stored; `Registry.publish_ok_get?`, `Registry.publish_get?_other` : publishing depends on what is
  stored under the id of the index alone, and leaves the other ids alone.
* `Pipeline.verdict` : how the build of a process ends, and what is stored under its id then.
* `Task`, `Pool` : builds that take their steps on one registry. A task makes its index, puts it
  into the bag of its process, and publishes it; `Task.alone_eq` : this is the build.
* `Reached` : how far a task has come, which no other task has an influence on. `Reached.step` is
  the step of the task itself, `Pool.Tracks.step` one of the pool, `Pool.Tracks.run` a whole run.
* `Pipeline.builds_do_not_interfere` : every interleaving ends as the builds one after the other do,
  each of them as if it were alone.
-/

namespace Concordance

/-! ### What is stored under one id -/

namespace Registry

variable {r r' : Registry} {i j old : Index}

/-- What is stored under an id after an index was published over what was stored there. -/
def filedOver (stored : Option Index) (i : Index) : Answer Index :=
  match stored with
  | none => .ok i
  | some old => do
    let before ← old.fingerprint?
    let after ← i.fingerprint?
    pure (if before = after then old else i)

/-- The stored index stays exactly if its fingerprint is that of the new one, which it then stands
for. -/
lemma filedOver_ok {stored : Option Index} (h : filedOver stored i = .ok j) :
    j.fingerprint? = i.fingerprint? ∧ (stored = some j ∨ j = i) ∧
      ∀ old, stored = some old → (j = old ↔ old.fingerprint? = i.fingerprint?) := by
  rcases stored with _ | old
  · cases h
    exact ⟨rfl, .inr rfl, nofun⟩
  rcases hbefore : old.fingerprint? with e | before
  · simp [filedOver, hbefore, bind, Except.bind] at h
  rcases hafter : i.fingerprint? with e | after
  · simp [filedOver, hbefore, hafter, bind, Except.bind] at h
  simp only [filedOver, hbefore, hafter, bind, Except.bind, pure, Except.pure, Except.ok.injEq] at h
  by_cases heq : before = after
  · rw [if_pos heq] at h
    subst h
    refine ⟨by rw [hbefore, heq], .inl rfl, fun old' hold' => ?_⟩
    obtain rfl := Option.some.inj hold'
    simp [hbefore, heq]
  · rw [if_neg heq] at h
    subst h
    refine ⟨hafter, .inr rfl, fun old' hold' => ?_⟩
    obtain rfl := Option.some.inj hold'
    rw [hbefore]
    constructor
    · rintro rfl
      exact absurd (Except.ok.inj (hbefore.symm.trans hafter)) heq
    · exact fun hprint => absurd (Except.ok.inj hprint) heq

/-- It fails only over a stored index, if one of both has no fingerprint. -/
lemma filedOver_error {stored : Option Index} {e : Fault} (h : filedOver stored i = .error e) :
    ∃ old, stored = some old ∧ ¬(old.Fingerprinted ∧ i.Fingerprinted) := by
  rcases stored with _ | old
  · cases h
  refine ⟨old, rfl, ?_⟩
  rintro ⟨⟨before, hbefore⟩, after, hafter⟩
  simp [filedOver, hbefore, hafter, bind, Except.bind, pure, Except.pure] at h

lemma get?_insert (hid : i.processId.isText) : (r.insert i).get? i.processId = some i := by
  obtain ⟨s, hs⟩ := Value.isText_iff.mp hid
  have hentered : Entered i.processId i r.entries (r.insert i).entries := place_entered _ _ _
  rw [hs] at hentered ⊢
  exact hentered.find?_text

/-- **Publishing looks at one id**: what is stored there decides how it ends and what is stored. -/
lemma publish_ok_get? (hid : i.processId.isText) {changed : Bool}
    (h : r.publish i = .ok (r', changed)) :
    ∃ j, filedOver (r.get? i.processId) i = .ok j ∧ r'.get? i.processId = some j := by
  have hpublishes := publishes r i
  rw [h] at hpublishes
  cases hpublishes with
  | added hold => exact ⟨i, by rw [hold, filedOver], get?_insert hid⟩
  | @unchanged old f hold hbefore hafter =>
      refine ⟨old, ?_, hold⟩
      simp [hold, filedOver, hbefore, hafter, bind, Except.bind, pure, Except.pure]
  | replaced hold hbefore hafter hne =>
      refine ⟨i, ?_, get?_insert hid⟩
      simp [hold, filedOver, hbefore, hafter, hne, bind, Except.bind, pure, Except.pure]

lemma publish_error (hid : i.processId.isText) {e : Fault} (h : r.publish i = .error e) :
    filedOver (r.get? i.processId) i = .error e := by
  have hpublishes := publishes r i
  rw [h] at hpublishes
  cases hpublishes with
  | unhashable hno =>
      obtain ⟨s, hs⟩ := Value.isText_iff.mp hid
      rw [hs, Value.hashable_text] at hno
      cases hno
  | oldUnprinted hold hbefore => simp [hold, filedOver, hbefore, bind, Except.bind]
  | newUnprinted hold hbefore hafter => simp [hold, filedOver, hbefore, hafter, bind, Except.bind]

/-- Publishing leaves every other id alone. -/
lemma publish_get?_other (hid : i.processId.isText) {changed : Bool}
    (h : r.publish i = .ok (r', changed)) {k : Value} (hk : k ≠ i.processId) :
    r'.get? k = r.get? k := by
  obtain ⟨s, hs⟩ := Value.isText_iff.mp hid
  rw [hs] at hk
  cases publish_filed h with
  | kept _ _ => rfl
  | entered _ hentered =>
      rw [hs] at hentered
      exact hentered.find?_other hk

/-! ### Registries of textual ids -/

/-- The ids in the registry are texts, each there once. -/
structure Keyed (r : Registry) : Prop where
  isText : ∀ k ∈ r.entries.map (·.1), k.isText
  distinct : (r.entries.map (·.1)).Nodup

lemma Keyed.publish (h : r.Keyed) (hid : i.processId.isText) {changed : Bool}
    (hpublish : r.publish i = .ok (r', changed)) : r'.Keyed := by
  obtain ⟨s, hs⟩ := Value.isText_iff.mp hid
  cases publish_filed hpublish with
  | kept _ _ => exact h
  | entered _ hentered =>
      rw [hs] at hentered
      rcases hentered.keys with hkeys | ⟨hnew, hkeys⟩
      · exact ⟨hkeys ▸ h.isText, hkeys ▸ h.distinct⟩
      · refine ⟨fun k hk => ?_, ?_⟩
        · rw [hkeys, List.mem_append, List.mem_singleton] at hk
          rcases hk with hk | rfl
          · exact h.isText k hk
          · rfl
        · rw [hkeys, ← List.concat_eq_append, List.nodup_concat]
          exact ⟨hnew, h.distinct⟩

lemma Keyed.mem_iff (h : r.Keyed) {k : Value} {j : Index} :
    (k, j) ∈ r.entries ↔ k.isText ∧ r.get? k = some j := by
  have hkey : ∀ {s e}, r.entries.find? (fun e => e.1.same (.text s)) = some e →
      e ∈ r.entries ∧ e.1 = .text s := fun hfind =>
    ⟨List.mem_of_find?_eq_some hfind, Value.same_text_right.mp (List.find?_some hfind :)⟩
  constructor
  · intro hmem
    have htext : k.isText := h.isText k (List.mem_map.mpr ⟨_, hmem, rfl⟩)
    obtain ⟨s, rfl⟩ := Value.isText_iff.mp htext
    refine ⟨rfl, ?_⟩
    rcases hfind : r.entries.find? (fun e => e.1.same (.text s)) with _ | e
    · exact absurd (List.find?_eq_none.mp hfind _ hmem) (by simp)
    · obtain ⟨he, hes⟩ := hkey hfind
      obtain rfl : e = (.text s, j) := List.inj_on_of_nodup_map h.distinct he hmem hes
      rw [get?, hfind]
      rfl
  · rintro ⟨hk, hj⟩
    obtain ⟨s, rfl⟩ := Value.isText_iff.mp hk
    rw [get?, Option.map_eq_some_iff] at hj
    obtain ⟨e, hfind, rfl⟩ := hj
    obtain ⟨he, hes⟩ := hkey hfind
    rwa [← hes]

/-- Registries of textual ids that hold the same are the same up to the order of their entries. -/
lemma Keyed.perm (h : r.Keyed) (h' : r'.Keyed) (hget : ∀ id, r.get? id = r'.get? id) :
    r.entries.Perm r'.entries := by
  rw [List.perm_ext_iff_of_nodup h.distinct.of_map h'.distinct.of_map]
  rintro ⟨k, j⟩
  rw [h.mem_iff, h'.mem_iff, hget]

end Registry

namespace Pipeline

/-! ### How a build ends -/

/-- How the build of a process ends: with its answer, the process, and what is stored under its id.
-/
structure Verdict where
  answer : Answer Index
  process : ProcessDefinition
  stored : Option Index

/-- How the build of a process ends under whose id an index is stored, or none. -/
def verdict (s : Settings) (p : ProcessDefinition) (stored : Option Index) : Verdict :=
  match made s p with
  | .error e => ⟨.error e, p, stored⟩
  | .ok i => match bagged s i p with
    | .error e => ⟨.error e, p, stored⟩
    | .ok q => match Registry.filedOver stored i with
      | .error e => ⟨.error e, q, stored⟩
      | .ok j => ⟨.ok i, q, some j⟩

section Verdict

variable {s : Settings} {p : ProcessDefinition} {r : Registry} {i : Index}

/-- **A build looks at its own id**: what is stored there decides how it ends, and it leaves the
others alone. -/
lemma settle_verdict (hid : p.id.isText) {a : Answer Index} {t : Site}
    (h : settle s { process := p, registry := r } = (a, t)) :
    verdict s p (r.get? p.id) = ⟨a, t.process, t.registry.get? p.id⟩ ∧
      ∀ k, k ≠ p.id → t.registry.get? k = r.get? k := by
  have hsettles := settles s { process := p, registry := r }
  rw [h] at hsettles
  cases hsettles with
  | unmade hmade => exact ⟨by simp only [verdict, hmade], fun _ _ => rfl⟩
  | unbagged hmade hbag => exact ⟨by simp only [verdict, hmade, hbag], fun _ _ => rfl⟩
  | refused hmade hbag hpublish =>
      have hname := (made_id hmade).1
      rw [← hname] at hid
      have hover := Registry.publish_error hid hpublish
      rw [hname] at hover
      exact ⟨by simp only [verdict, hmade, hbag, hover], fun _ _ => rfl⟩
  | filed hmade hbag hpublish =>
      have hname := (made_id hmade).1
      rw [← hname] at hid
      obtain ⟨j, hover, hj⟩ := Registry.publish_ok_get? hid hpublish
      have hother := fun k => Registry.publish_get?_other hid hpublish (k := k)
      rw [hname] at hover hj hother
      exact ⟨by simp only [verdict, hmade, hbag, hover, hj], hother⟩

lemma settle_keyed (hid : p.id.isText) (hr : r.Keyed) {a : Answer Index} {t : Site}
    (h : settle s { process := p, registry := r } = (a, t)) : t.registry.Keyed := by
  have hsettles := settles s { process := p, registry := r }
  rw [h] at hsettles
  cases hsettles with
  | unmade _ => exact hr
  | unbagged _ _ => exact hr
  | refused _ _ _ => exact hr
  | filed hmade _ hpublish => exact hr.publish ((made_id hmade).1 ▸ hid) hpublish

/-- How a build ends in a fresh pipeline. -/
lemma verdict_none (hid : p.id.isText) :
    ((build s).outcome { process := p, registry := {} }).1 = (verdict s p none).answer ∧
      ((build s).after { process := p, registry := {} }).process = (verdict s p none).process := by
  have hafter : (build s).after { process := p, registry := {} } =
      ((build s).outcome { process := p, registry := {} }).2 := rfl
  rcases h : settle s { process := p, registry := {} } with ⟨a, t⟩
  have hv := (settle_verdict hid h).1
  rw [show ({} : Registry).get? p.id = none from rfl] at hv
  rw [hafter, build_outcome, h, hv]
  exact ⟨rfl, rfl⟩

end Verdict

/-! ### Steps of several builds -/

/-- How far a build has come. -/
inductive Progress where
  | waiting
  | made (i : Index)
  | bagged (i : Index)
  | ended (answer : Answer Index)

/-- The answer of a build that has ended. -/
def Progress.answer? : Progress → Option (Answer Index)
  | ended answer => some answer
  | _ => none

/-- The steps that are left. -/
def Progress.left : Progress → Nat
  | waiting => 3
  | made _ => 2
  | bagged _ => 1
  | ended _ => 0

/-- One of several builds. -/
structure Task where
  process : ProcessDefinition
  progress : Progress := .waiting

/-- One step of a build: it makes its index, puts it into the bag of its process, or publishes it.
Of the registry only the last step knows, which is one operation of it. -/
def Task.step (s : Settings) (r : Registry) (t : Task) : Task × Registry :=
  match t.progress with
  | .waiting => match made s t.process with
    | .error e => ({ t with progress := .ended (.error e) }, r)
    | .ok i => ({ t with progress := .made i }, r)
  | .made i => match bagged s i t.process with
    | .error e => ({ t with progress := .ended (.error e) }, r)
    | .ok process => ({ process, progress := .bagged i }, r)
  | .bagged i => match r.publish i with
    | .error e => ({ t with progress := .ended (.error e) }, r)
    | .ok (r', _) => ({ t with progress := .ended (.ok i) }, r')
  | .ended _ => (t, r)

/-- The steps of one build, with none of another build between them. -/
def Task.alone (s : Settings) (r : Registry) (p : ProcessDefinition) : Task × Registry :=
  let first := Task.step s r { process := p }
  let second := first.1.step s first.2
  second.1.step s second.2

/-- **The steps of one build are the build.** -/
theorem Task.alone_eq (s : Settings) (r : Registry) (p : ProcessDefinition) {a : Answer Index}
    {t : Site} (h : (build s).outcome { process := p, registry := r } = (a, t)) :
    Task.alone s r p = ({ process := t.process, progress := .ended a }, t.registry) := by
  rw [build_outcome] at h
  have hsettles := settles s { process := p, registry := r }
  rw [h] at hsettles
  cases hsettles with
  | unmade hmade => simp [Task.alone, Task.step, hmade]
  | unbagged hmade hbag => simp [Task.alone, Task.step, hmade, hbag]
  | refused hmade hbag hpublish => simp [Task.alone, Task.step, hmade, hbag, hpublish]
  | filed hmade hbag hpublish => simp [Task.alone, Task.step, hmade, hbag, hpublish]

/-- How far the build of a process has come, and what is stored under its id: `before` until it
publishes its index, and what its verdict says from then on. -/
inductive Reached (s : Settings) (p : ProcessDefinition) (before : Option Index) :
    Task → Option Index → Prop
  | waiting : Reached s p before { process := p } before
  | made {i : Index} (hmade : made s p = .ok i) :
      Reached s p before { process := p, progress := .made i } before
  | bagged {i : Index} {q : ProcessDefinition} (hmade : Pipeline.made s p = .ok i)
      (hbag : bagged s i p = .ok q) :
      Reached s p before { process := q, progress := .bagged i } before
  | ended {v : Verdict} (h : verdict s p before = v) :
      Reached s p before { process := v.process, progress := .ended v.answer } v.stored

section Step

variable {s : Settings} {p : ProcessDefinition} {r : Registry} {t : Task}
  {before now : Option Index}

/-- **A step of the build itself** leads on, and leaves the other ids alone. -/
lemma Reached.step (hid : p.id.isText) (h : Reached s p before t now) (hnow : r.get? p.id = now) :
    Reached s p before (t.step s r).1 ((t.step s r).2.get? p.id) ∧
      ∀ k, k ≠ p.id → (t.step s r).2.get? k = r.get? k := by
  cases h with
  | waiting =>
      rcases hmade : Pipeline.made s p with e | i <;> simp only [Task.step, hmade, hnow]
      · have hv : verdict s p before = ⟨.error e, p, before⟩ := by simp only [verdict, hmade]
        exact ⟨.ended hv, fun _ _ => trivial⟩
      · exact ⟨.made hmade, fun _ _ => trivial⟩
  | @made i hmade =>
      rcases hbag : Pipeline.bagged s i p with e | q <;> simp only [Task.step, hbag, hnow]
      · have hv : verdict s p before = ⟨.error e, p, before⟩ := by
          simp only [verdict, hmade, hbag]
        exact ⟨.ended hv, fun _ _ => trivial⟩
      · exact ⟨.bagged hmade hbag, fun _ _ => trivial⟩
  | @bagged i q hmade hbag =>
      have hname : i.processId = p.id := (made_id hmade).1
      rw [← hname] at hid
      rcases hpublish : r.publish i with e | ⟨r', changed⟩ <;> simp only [Task.step, hpublish]
      · have hover := Registry.publish_error hid hpublish
        have hv : verdict s p before = ⟨.error e, q, before⟩ := by
          simp only [verdict, hmade, hbag, ← hnow, ← hname, hover]
        rw [hnow]
        exact ⟨.ended hv, fun _ _ => trivial⟩
      · obtain ⟨j, hover, hj⟩ := Registry.publish_ok_get? hid hpublish
        have hv : verdict s p before = ⟨.ok i, q, some j⟩ := by
          simp only [verdict, hmade, hbag, ← hnow, ← hname, hover]
        rw [← hname, hj]
        exact ⟨.ended hv, fun k hk => Registry.publish_get?_other hid hpublish hk⟩
  | ended hv =>
      rw [Task.step, hnow]
      exact ⟨.ended hv, fun _ _ => rfl⟩

lemma Reached.step_keyed (hid : p.id.isText) (h : Reached s p before t now) (hr : r.Keyed) :
    (t.step s r).2.Keyed := by
  cases h with
  | waiting => rcases hmade : Pipeline.made s p with e | i <;> simpa only [Task.step, hmade]
  | @made i _ => rcases hbag : Pipeline.bagged s i p with e | q <;> simpa only [Task.step, hbag]
  | @bagged i q hmade _ =>
      rcases hpublish : r.publish i with e | ⟨r', changed⟩ <;> simp only [Task.step, hpublish]
      · exact hr
      · exact hr.publish ((made_id hmade).1 ▸ hid) hpublish
  | ended _ => exact hr

/-- A step leaves one step less, if any was left. -/
lemma Task.left_step (s : Settings) (r : Registry) (t : Task) :
    (t.step s r).1.progress.left ≤ t.progress.left - 1 := by
  obtain ⟨p, progress⟩ := t
  cases progress with
  | waiting => rcases hmade : made s p with e | i <;> simp [Task.step, hmade, Progress.left]
  | made i => rcases hbag : bagged s i p with e | q <;> simp [Task.step, hbag, Progress.left]
  | bagged i =>
      rcases hpublish : r.publish i with e | ⟨r', changed⟩ <;>
        simp [Task.step, hpublish, Progress.left]
  | ended a => simp [Task.step, Progress.left]

end Step

/-! ### Runs of several builds -/

/-- Several builds on one registry. -/
structure Pool where
  tasks : List Task
  registry : Registry

namespace Pool

/-- Builds of several processes, none of which has taken a step. -/
def start (r : Registry) (ps : List ProcessDefinition) : Pool where
  tasks := ps.map fun p => { process := p }
  registry := r

/-- A step of the build at one position. -/
def step (s : Settings) (pool : Pool) (k : Nat) : Pool :=
  match pool.tasks[k]? with
  | none => pool
  | some t => { tasks := pool.tasks.set k (t.step s pool.registry).1
                registry := (t.step s pool.registry).2 }

/-- Steps of the builds at the positions of a schedule, in its order. -/
def run (s : Settings) (pool : Pool) (schedule : List Nat) : Pool := schedule.foldl (step s) pool

/-- Every build has ended. -/
def Over (pool : Pool) : Prop := ∀ t ∈ pool.tasks, t.progress.left = 0

/-- The answers of the builds that have ended, in order. -/
def answers (pool : Pool) : List (Answer Index) := pool.tasks.filterMap (·.progress.answer?)

/-- The processes as the builds left them. -/
def processes (pool : Pool) : List ProcessDefinition := pool.tasks.map (·.process)

/-- Every build has come as far as its own steps took it, and where no process has its id the
registry is as it was. -/
structure Tracks (s : Settings) (r : Registry) (ps : List ProcessDefinition) (pool : Pool) :
    Prop where
  length : pool.tasks.length = ps.length
  reached : ∀ (k : Nat) p t, ps[k]? = some p → pool.tasks[k]? = some t →
    Reached s p (r.get? p.id) t (pool.registry.get? p.id)
  others : ∀ id, (∀ p ∈ ps, p.id ≠ id) → pool.registry.get? id = r.get? id

section Run

variable {s : Settings} {r : Registry} {ps : List ProcessDefinition} {pool : Pool}

lemma tracks_start (s : Settings) (r : Registry) (ps : List ProcessDefinition) :
    Tracks s r ps (start r ps) where
  length := by rw [start, List.length_map]
  reached := by
    intro k p t hp ht
    rw [start, List.getElem?_map, hp, Option.map_some, Option.some_inj] at ht
    rw [← ht]
    exact .waiting
  others := fun _ _ => rfl

/-- Every task is the build of a process. -/
lemma Tracks.lt_length (h : Tracks s r ps pool) {k : Nat} {t : Task}
    (ht : pool.tasks[k]? = some t) : k < ps.length := by
  rw [← h.length]
  exact (List.getElem?_eq_some_iff.mp ht).1

/-- Processes at different positions have different ids. -/
lemma id_ne (hdistinct : (ps.map (·.id)).Nodup) {j k : Nat} {p q : ProcessDefinition}
    (hq : ps[j]? = some q) (hp : ps[k]? = some p) (hne : j ≠ k) : q.id ≠ p.id := by
  intro heq
  have hj : j < (ps.map (·.id)).length := by
    rw [List.length_map]
    exact (List.getElem?_eq_some_iff.mp hq).1
  refine hne ((List.getElem?_inj hj hdistinct).mp ?_)
  rw [List.getElem?_map, List.getElem?_map, hq, hp, Option.map_some, Option.map_some, heq]

/-- **A step of the pool**: the build that takes it comes on, and no other build notices. -/
lemma Tracks.step (hid : ∀ p ∈ ps, p.id.isText) (hdistinct : (ps.map (·.id)).Nodup)
    (h : Tracks s r ps pool) (k : Nat) : Tracks s r ps (pool.step s k) := by
  unfold Pool.step
  rcases ht : pool.tasks[k]? with _ | t
  · exact h
  have hk : k < ps.length := h.lt_length ht
  have hp : ps[k]? = some ps[k] := List.getElem?_eq_getElem hk
  have hmem : ps[k] ∈ ps := List.getElem_mem hk
  obtain ⟨hreached, hother⟩ := (h.reached k _ t hp ht).step (hid _ hmem) rfl
  refine ⟨by rw [List.length_set, h.length], fun j q u hq hu => ?_, fun id hno => ?_⟩
  · by_cases hjk : j = k
    · subst hjk
      obtain rfl := Option.some.inj (hp.symm.trans hq)
      rw [List.getElem?_set_self (h.length ▸ hk), Option.some_inj] at hu
      exact hu ▸ hreached
    · rw [List.getElem?_set_ne (Ne.symm hjk)] at hu
      have hsame := hother q.id (id_ne hdistinct hq hp hjk)
      exact hsame.symm ▸ h.reached j q u hq hu
  · rw [hother id (hno _ hmem).symm]
    exact h.others id hno

/-- **A run of the pool**, under any schedule. -/
lemma Tracks.run (hid : ∀ p ∈ ps, p.id.isText) (hdistinct : (ps.map (·.id)).Nodup)
    (h : Tracks s r ps pool) (schedule : List Nat) : Tracks s r ps (pool.run s schedule) := by
  induction schedule generalizing pool with
  | nil => exact h
  | cons k schedule ih => exact ih (h.step hid hdistinct k)

lemma Tracks.run_keyed (hid : ∀ p ∈ ps, p.id.isText) (hdistinct : (ps.map (·.id)).Nodup)
    (h : Tracks s r ps pool) (hpool : pool.registry.Keyed) (schedule : List Nat) :
    (pool.run s schedule).registry.Keyed := by
  induction schedule generalizing pool with
  | nil => exact hpool
  | cons k schedule ih =>
      refine ih (h.step hid hdistinct k) ?_
      unfold Pool.step
      rcases ht : pool.tasks[k]? with _ | t
      · exact hpool
      have hk : k < ps.length := h.lt_length ht
      exact (h.reached k _ t (List.getElem?_eq_getElem hk) ht).step_keyed
        (hid _ (List.getElem_mem hk)) hpool

/-- When every build has ended, each did so by its verdict. -/
lemma Tracks.ended (h : Tracks s r ps pool) (hover : pool.Over) {k : Nat} {p : ProcessDefinition}
    (hp : ps[k]? = some p) :
    pool.tasks[k]? = some { process := (verdict s p (r.get? p.id)).process,
                            progress := .ended (verdict s p (r.get? p.id)).answer } ∧
      pool.registry.get? p.id = (verdict s p (r.get? p.id)).stored := by
  have hk : k < pool.tasks.length := by
    rw [h.length]
    exact (List.getElem?_eq_some_iff.mp hp).1
  have ht : pool.tasks[k]? = some pool.tasks[k] := List.getElem?_eq_getElem hk
  have hreached := h.reached k p _ hp ht
  have hleft := hover _ (List.getElem_mem hk)
  rw [ht]
  generalize pool.tasks[k] = t at hreached hleft
  generalize pool.registry.get? p.id = now at hreached
  cases hreached with
  | waiting => cases hleft
  | made _ => cases hleft
  | bagged _ _ => cases hleft
  | ended hv => rw [hv]; exact ⟨rfl, rfl⟩

/-- Steps at other positions leave a build where it is, its own take it on. -/
lemma left_run (k : Nat) {t : Task} : ∀ (schedule : List Nat) (pool : Pool),
    (pool.run s schedule).tasks[k]? = some t →
      ∃ u, pool.tasks[k]? = some u ∧ t.progress.left ≤ u.progress.left - schedule.count k := by
  intro schedule
  induction schedule with
  | nil => exact fun pool ht => ⟨t, ht, by simp⟩
  | cons j schedule ih =>
      intro pool ht
      obtain ⟨u, hu, hleft⟩ := ih (pool.step s j) ht
      unfold Pool.step at hu
      rcases hj : pool.tasks[j]? with _ | w <;> simp only [hj] at hu
      · refine ⟨u, hu, ?_⟩
        have hne : j ≠ k := by
          rintro rfl
          rw [hj] at hu
          cases hu
        rwa [List.count_cons_of_ne hne]
      · by_cases hjk : j = k
        · subst hjk
          have hlt := (List.getElem?_eq_some_iff.mp hj).1
          rw [List.getElem?_set_self hlt, Option.some_inj] at hu
          have hstep := Task.left_step s pool.registry w
          refine ⟨w, hj, ?_⟩
          rw [List.count_cons_self]
          rw [hu] at hstep
          omega
        · rw [List.getElem?_set_ne hjk] at hu
          rw [List.count_cons_of_ne hjk]
          exact ⟨u, hu, hleft⟩

/-- **Every build ends** that is given three steps, whatever the others do meanwhile. -/
theorem over_of_count (s : Settings) (r : Registry) {ps : List ProcessDefinition}
    {schedule : List Nat} (h : ∀ k < ps.length, 3 ≤ schedule.count k) :
    ((start r ps).run s schedule).Over := by
  intro t ht
  obtain ⟨k, hk⟩ := List.getElem?_of_mem ht
  obtain ⟨u, hu, hleft⟩ := left_run k schedule _ hk
  have hlt : k < ps.length := by
    simpa [start] using (List.getElem?_eq_some_iff.mp hu).1
  have hstart : u.progress.left ≤ 3 := by
    cases u.progress <;> simp [Progress.left]
  have hcount := h k hlt
  omega

lemma Tracks.tasks_eq (h : Tracks s r ps pool) (hover : pool.Over) :
    pool.tasks = ps.map fun p => { process := (verdict s p (r.get? p.id)).process,
                                   progress := .ended (verdict s p (r.get? p.id)).answer } := by
  refine List.ext_getElem? fun k => ?_
  rw [List.getElem?_map]
  rcases hp : ps[k]? with _ | p
  · rw [List.getElem?_eq_none_iff] at hp
    rw [Option.map_none, List.getElem?_eq_none_iff, h.length]
    exact hp
  · exact (h.ended hover hp).1

lemma Tracks.answers_eq (h : Tracks s r ps pool) (hover : pool.Over) :
    pool.answers = ps.map fun p => (verdict s p (r.get? p.id)).answer := by
  rw [answers, h.tasks_eq hover, List.filterMap_map]
  exact (List.filterMap_eq_map (f := fun p => (verdict s p (r.get? p.id)).answer)) ▸ rfl

lemma Tracks.processes_eq (h : Tracks s r ps pool) (hover : pool.Over) :
    pool.processes = ps.map fun p => (verdict s p (r.get? p.id)).process := by
  rw [processes, h.tasks_eq hover, List.map_map]
  rfl

end Run

end Pool

/-! ### Builds one after the other -/

section RunAll

variable {s : Settings} {r : Registry} {p : ProcessDefinition} {ps : List ProcessDefinition}

/-- The run of a build, without a look at what it logs. -/
lemma exists_run {a : Answer Index} {t : Site}
    (h : settle s { process := p, registry := r } = (a, t)) :
    ∃ lines, (build s).run { process := p, registry := r } = (a, t, lines) := by
  rw [← build_outcome] at h
  exact ⟨_, Prod.ext (congrArg (·.1) h) (Prod.ext (congrArg (·.2) h) rfl)⟩

/-- The first of several builds, of which none ends the others. -/
lemma runAll_cons (ps : List ProcessDefinition) {a : Answer Index} {t : Site}
    (h : settle s { process := p, registry := r } = (a, t)) :
    (runAll s false r (p :: ps)).1 = ⟨a, t.process⟩ :: (runAll s false t.registry ps).1 ∧
      (runAll s false r (p :: ps)).2.1 = (runAll s false t.registry ps).2.1 := by
  obtain ⟨lines, hrun⟩ := exists_run h
  rw [runAll, hrun]
  rcases a with e | i <;> exact ⟨rfl, rfl⟩

/-- **Builds one after the other** end by their verdicts, and leave the other ids alone. -/
lemma runAll_verdict (hid : ∀ p ∈ ps, p.id.isText) (hdistinct : (ps.map (·.id)).Nodup) :
    (runAll s false r ps).1 = ps.map (fun p =>
        ⟨(verdict s p (r.get? p.id)).answer, (verdict s p (r.get? p.id)).process⟩) ∧
      (∀ p ∈ ps, (runAll s false r ps).2.1.get? p.id = (verdict s p (r.get? p.id)).stored) ∧
      ∀ id, (∀ p ∈ ps, p.id ≠ id) → (runAll s false r ps).2.1.get? id = r.get? id := by
  induction ps generalizing r with
  | nil => exact ⟨rfl, by simp, fun _ _ => rfl⟩
  | cons p ps ih =>
      rw [List.map_cons, List.nodup_cons] at hdistinct
      obtain ⟨hnew, hdistinct⟩ := hdistinct
      rcases hsettle : settle s { process := p, registry := r } with ⟨a, t⟩
      obtain ⟨hv, hother⟩ := settle_verdict (hid p (by simp)) hsettle
      obtain ⟨hended, hregistry⟩ := runAll_cons ps hsettle
      obtain ⟨hall, hstored, hrest⟩ := ih (r := t.registry) (fun q hq => hid q (by simp [hq]))
        hdistinct
      have hne : ∀ q ∈ ps, q.id ≠ p.id := fun q hq heq =>
        hnew (List.mem_map.mpr ⟨q, hq, heq⟩)
      have hsame : ∀ q ∈ ps, t.registry.get? q.id = r.get? q.id := fun q hq =>
        hother q.id (hne q hq)
      rw [hended, hregistry]
      refine ⟨?_, fun q hq => ?_, fun id hno => ?_⟩
      · rw [List.map_cons, hv, hall]
        refine congrArg _ (List.map_congr_left fun q hq => ?_)
        rw [hsame q hq]
      · rcases List.mem_cons.mp hq with rfl | hq
        · rw [hrest _ hne, hv]
        · rw [hstored q hq, hsame q hq]
      · rw [hrest id fun q hq => hno q (by simp [hq])]
        exact hother id (hno p (by simp)).symm

lemma runAll_keyed (hid : ∀ p ∈ ps, p.id.isText) (hr : r.Keyed) :
    (runAll s false r ps).2.1.Keyed := by
  induction ps generalizing r with
  | nil => exact hr
  | cons p ps ih =>
      rcases hsettle : settle s { process := p, registry := r } with ⟨a, t⟩
      rw [(runAll_cons ps hsettle).2]
      exact ih (fun q hq => hid q (by simp [hq])) (settle_keyed (hid p (by simp)) hr hsettle)

/-- One build ends the others by its failure, where there are no others. -/
lemma runAll_singleton (halt : Bool) : runAll s halt r [p] = runAll s false r [p] := by
  rw [runAll, runAll]
  rcases (build s).run { process := p, registry := r } with ⟨e | i, site, lines⟩ <;> cases halt <;>
    simp [runAll]

/-- With two workers or more all builds are run. -/
lemma buildMany_eq (hworkers : 2 ≤ s.pipeline.workers) :
    buildMany s r ps = ((runAll s false r ps).1.mapM (·.answer),
      (runAll s false r ps).1.map (·.process), (runAll s false r ps).2) := by
  rcases ps with _ | ⟨p, _ | ⟨q, ps⟩⟩
  · rfl
  · have hleast : leastWorkers s.pipeline.workers [p].length = 1 := by
      rw [leastWorkers, if_neg (by simp; omega)]
      rfl
    simp only [buildMany, hleast, runAll_singleton]
    rfl
  · have hleast : 2 ≤ leastWorkers s.pipeline.workers (p :: q :: ps).length := by
      rw [leastWorkers]
      split
      · exact hworkers
      · simp only [List.length_cons]
        omega
    have hone : (leastWorkers s.pipeline.workers (p :: q :: ps).length == 1) = false := by
      rw [beq_eq_false_iff_ne]
      omega
    rw [buildMany, if_neg (by simp)]
    simp only [if_neg (show ¬leastWorkers s.pipeline.workers (p :: q :: ps).length < 1 by omega),
      hone]

end RunAll

/-! ### Every interleaving -/

/-- A pool whose builds have all ended has the registry that they leave one after the other. -/
lemma Pool.Tracks.get?_runAll {s : Settings} {r : Registry} {ps : List ProcessDefinition}
    {pool : Pool} (h : pool.Tracks s r ps) (hover : pool.Over) (hid : ∀ p ∈ ps, p.id.isText)
    (hdistinct : (ps.map (·.id)).Nodup) (id : Value) :
    pool.registry.get? id = (runAll s false r ps).2.1.get? id := by
  obtain ⟨-, hstored, hothers⟩ := runAll_verdict (s := s) (r := r) hid hdistinct
  by_cases hmem : ∃ p ∈ ps, p.id = id
  · obtain ⟨p, hp, rfl⟩ := hmem
    obtain ⟨k, hk⟩ := List.getElem?_of_mem hp
    rw [(h.ended hover hk).2, hstored p hp]
  · have hno : ∀ p ∈ ps, p.id ≠ id := fun p hp heq => hmem ⟨p, hp, heq⟩
    rw [h.others id hno, hothers id hno]

/-- A build has ended as it would have alone, in a fresh pipeline. If it answers, what is stored
under its id then has the fingerprint of its index, and is what was stored before exactly if that
had it. If it fails, alone or because a fingerprint is missing, what was stored stays. -/
structure EndedAlone (s : Settings) (p : ProcessDefinition) (before : Option Index) (v : Verdict) :
    Prop where
  process : v.process = ((build s).after { process := p, registry := {} }).process
  ok : ∀ i, v.answer = .ok i →
    ((build s).outcome { process := p, registry := {} }).1 = .ok i ∧
      ∃ j, v.stored = some j ∧ j.fingerprint? = i.fingerprint? ∧ (before = some j ∨ j = i) ∧
        ∀ old, before = some old → (j = old ↔ old.fingerprint? = i.fingerprint?)
  error : ∀ e, v.answer = .error e → v.stored = before ∧
    (((build s).outcome { process := p, registry := {} }).1 = .error e ∨
      ∃ i old, ((build s).outcome { process := p, registry := {} }).1 = .ok i ∧
        before = some old ∧ ¬(old.Fingerprinted ∧ i.Fingerprinted))

lemma endedAlone_verdict {s : Settings} {p : ProcessDefinition} (hid : p.id.isText)
    (before : Option Index) : EndedAlone s p before (verdict s p before) := by
  obtain ⟨hanswer, hprocess⟩ := verdict_none (s := s) hid
  -- up to its last step a build does not know what is stored
  rcases hmade : made s p with e | i
  · have hv : ∀ stored, verdict s p stored = ⟨.error e, p, stored⟩ := fun stored => by
      simp only [verdict, hmade]
    rw [hv] at hanswer hprocess ⊢
    exact ⟨hprocess.symm, nofun, fun e' he => ⟨rfl, .inl (he ▸ hanswer)⟩⟩
  rcases hbag : bagged s i p with e | q
  · have hv : ∀ stored, verdict s p stored = ⟨.error e, p, stored⟩ := fun stored => by
      simp only [verdict, hmade, hbag]
    rw [hv] at hanswer hprocess ⊢
    exact ⟨hprocess.symm, nofun, fun e' he => ⟨rfl, .inl (he ▸ hanswer)⟩⟩
  have hv : verdict s p none = ⟨.ok i, q, some i⟩ := by
    simp only [verdict, hmade, hbag, Registry.filedOver]
  rw [hv] at hanswer hprocess
  rcases hover : Registry.filedOver before i with e | j
  · have hbefore : verdict s p before = ⟨.error e, q, before⟩ := by
      simp only [verdict, hmade, hbag, hover]
    obtain ⟨old, hold, hprint⟩ := Registry.filedOver_error hover
    rw [hbefore]
    exact ⟨hprocess.symm, nofun, fun e' _ => ⟨rfl, .inr ⟨i, old, hanswer, hold, hprint⟩⟩⟩
  · have hbefore : verdict s p before = ⟨.ok i, q, some j⟩ := by
      simp only [verdict, hmade, hbag, hover]
    rw [hbefore]
    refine ⟨hprocess.symm, fun k hk => ?_, nofun⟩
    obtain rfl := Except.ok.inj hk
    exact ⟨hanswer, j, rfl, Registry.filedOver_ok hover⟩

/-- The first failure in order is the one that is raised. -/
lemma mapM_id_error {α : Type} {answers : List (Answer α)} {e : Fault}
    (h : answers.mapM id = .error e) : ∃ k : Nat, answers[k]? = some (.error e) ∧
      ∀ j < k, ∃ a, answers[j]? = some (.ok a) := by
  induction answers with
  | nil => cases h
  | cons answer answers ih =>
      rw [List.mapM_cons] at h
      rcases answer with e' | a
      · cases h
        exact ⟨0, rfl, fun j hj => absurd hj (Nat.not_lt_zero j)⟩
      · rcases hrest : answers.mapM id with e' | as
        · simp only [id, hrest, bind, Except.bind, Except.error.injEq] at h
          subst h
          obtain ⟨k, hk, hbefore⟩ := ih hrest
          refine ⟨k + 1, hk, fun j hj => ?_⟩
          cases j with
          | zero => exact ⟨a, rfl⟩
          | succ j => exact hbefore j (Nat.lt_of_succ_lt_succ hj)
        · simp [hrest, bind, Except.bind, pure, Except.pure] at h

/-- **Builds at once do not interfere.** Under every interleaving of their steps that ends them all,
several builds of processes with different ids end as one after the other: with the same answer, the
same bags and the same registry, up to the order of its entries. Each of them has ended as it would
have alone, the first failure in order is the one that is raised, and where no process has its id
the registry is as it was. -/
theorem builds_do_not_interfere {s : Settings} {r : Registry} {ps : List ProcessDefinition}
    (hworkers : 2 ≤ s.pipeline.workers) (hid : ∀ p ∈ ps, p.id.isText)
    (hdistinct : (ps.map (·.id)).Nodup) {schedule : List Nat}
    (hover : ((Pool.start r ps).run s schedule).Over) :
    let pool := (Pool.start r ps).run s schedule
    (∃ r' lines, buildMany s r ps = (pool.answers.mapM id, pool.processes, r', lines) ∧
      (∀ id, pool.registry.get? id = r'.get? id) ∧
      (r.Keyed → pool.registry.entries.Perm r'.entries)) ∧
    (∀ e, pool.answers.mapM id = .error e → ∃ k : Nat, pool.answers[k]? = some (.error e) ∧
      ∀ j < k, ∃ i, pool.answers[j]? = some (.ok i)) ∧
    (∀ (k : Nat) p, ps[k]? = some p → ∃ a q, pool.answers[k]? = some a ∧
      pool.processes[k]? = some q ∧
      EndedAlone s p (r.get? p.id) ⟨a, q, pool.registry.get? p.id⟩) ∧
    ∀ id, (∀ p ∈ ps, p.id ≠ id) → pool.registry.get? id = r.get? id := by
  intro pool
  have htracks : pool.Tracks s r ps := (Pool.tracks_start s r ps).run hid hdistinct schedule
  obtain ⟨hended, -⟩ := runAll_verdict (s := s) (r := r) hid hdistinct
  have hregistry := htracks.get?_runAll hover hid hdistinct
  refine ⟨⟨(runAll s false r ps).2.1, (runAll s false r ps).2.2, ?_, hregistry, fun hr => ?_⟩,
    fun e => mapM_id_error, fun k p hp => ?_, htracks.others⟩
  · rw [buildMany_eq hworkers, hended, List.mapM_map, List.map_map, htracks.answers_eq hover,
      htracks.processes_eq hover, List.mapM_map]
    rfl
  · have hpool : pool.registry.Keyed :=
      (Pool.tracks_start s r ps).run_keyed hid hdistinct hr schedule
    exact hpool.perm (runAll_keyed hid hr) hregistry
  · obtain ⟨-, hreg⟩ := htracks.ended hover hp
    refine ⟨(verdict s p (r.get? p.id)).answer, (verdict s p (r.get? p.id)).process, ?_, ?_, ?_⟩
    · rw [htracks.answers_eq hover, List.getElem?_map, hp, Option.map_some]
    · rw [htracks.processes_eq hover, List.getElem?_map, hp, Option.map_some]
    · rw [hreg]
      exact endedAlone_verdict (hid p (List.mem_of_getElem? hp)) _

/-- The registry that holds the index of another process. -/
def stocked : Registry := { entries := [(.text "R", .ofParts "R" "r" [])] }

theorem builds_do_not_interfere_sample :
    let ps := [.bare "P" "n", .bare "Q" "m"]
    let pool := (Pool.start stocked ps).run plain [1, 0, 0, 1, 1, 0]
    2 ≤ plain.pipeline.workers ∧ pool.Over ∧ stocked.Keyed ∧
    (∃ r' lines, buildMany plain stocked ps =
        (pool.answers.mapM id, pool.processes, r', lines) ∧
      pool.registry.entries.Perm r'.entries) ∧
    (∃ a q, EndedAlone plain (.bare "Q" "m") none ⟨a, q, pool.registry.get? (.text "Q")⟩) ∧
    pool.registry.get? (.text "R") = some (.ofParts "R" "r" []) := by
  intro ps pool
  have hworkers : 2 ≤ plain.pipeline.workers := by decide
  have hid : ∀ p ∈ ps, p.id.isText := by
    simp [ps, ProcessDefinition.bare, Value.isText, Value.text?]
  have hdistinct : (ps.map (·.id)).Nodup := by simp [ps, ProcessDefinition.bare]
  have hover : pool.Over := Pool.over_of_count plain stocked (by decide)
  have hkeyed : stocked.Keyed := ⟨by simp [stocked, Value.isText, Value.text?], by simp [stocked]⟩
  obtain ⟨⟨r', lines, hmany, -, hperm⟩, -, hposition, hothers⟩ :=
    builds_do_not_interfere hworkers hid hdistinct hover
  obtain ⟨a, q, -, -, halone⟩ := hposition 1 (.bare "Q" "m") rfl
  have hfresh : stocked.get? (ProcessDefinition.bare "Q" "m").id = none := by
    simp [stocked, Registry.get?, ProcessDefinition.bare]
  rw [hfresh] at halone
  refine ⟨hworkers, hover, hkeyed, ⟨r', lines, hmany, hperm hkeyed⟩, ⟨a, q, halone⟩, ?_⟩
  rw [hothers (.text "R") (by simp [ps, ProcessDefinition.bare])]
  simp [stocked, Registry.get?]

end Pipeline

end Concordance
