import Mathlib.Tactic
import Concordance.Log

/-!
How a step ends: what holds of its answer and of the state it leaves, or of its failure.

* `Step.Ends` : from a state, a step answers with one property or fails with another, whatever had
  been logged before. What a step logs never decides how it ends, so the log is left out of sight.
* `Step.Ends.bind`, `Step.Ends.imp` : one step after another, and weaker properties; the lemmas
  `ends_…` say the same of each basic step as an equivalence.
* `Step.Ends.forM` : a loop keeps a property of the members that are left and of the state.
* `Step.Ends.of_run_ok`, `Step.Ends.of_run_error` : from a property of the ends to one run.
* `Step.after` : the state that a step leaves, whether it answers or fails; `Step.outcome` : this
  and the answer. `Step.Keeps` : a property of the state that a step keeps either way.
* `Step.FailsWith` : the faults that a step can fail with, from any state.
* `Step.Yields` : the answer, the state and the lines of a step all together. `Step.Idle` : they are
  the same from every state, and the state stays.
* `Step.Logs` : what a step that answers has logged, with its answer; `Step.Silent` : nothing.
* `Step.Quiet` : the step does not read the log, so `Step.after` is how it ends under any log.
-/

namespace Concordance.Step

variable {σ τ α β : Type}

/-- From `s` the step answers and `Q` holds, or it fails and `E` holds, whatever the log. -/
def Ends (step : Step σ α) (s : σ) (Q : α → σ → Prop) (E : Fault → σ → Prop) : Prop :=
  ∀ lines, match (ExceptT.run step s lines).1 with
    | (.ok a, t) => Q a t
    | (.error e, t) => E e t

/-- A step after another starts where that one answered, and its failure passes through. -/
lemma run_bind_apply (x : Step σ β) (f : β → Step σ α) (s : σ) (lines : List LogLine) :
    ExceptT.run (x >>= f) s lines = match ExceptT.run x s lines with
      | ((.ok b, t), more) => ExceptT.run (f b) t more
      | ((.error e, t), more) => ((.error e, t), more) := by
  rcases h : ExceptT.run x s lines with ⟨⟨_ | _, t⟩, more⟩ <;>
    change x s lines = _ at h <;>
    change ExceptT.bind x f s lines = _ <;>
    simp [ExceptT.bind, ExceptT.mk, ExceptT.bindCont, bind, StateT.bind, h] <;> rfl

/-- A step that is taken only under a condition, and what comes after it. -/
lemma ite_bind {c : Prop} [Decidable c] (x : Step σ PUnit) (f : PUnit → Step σ α) :
    (if c then x >>= f else f ⟨⟩) = (if c then x else pure ⟨⟩) >>= f := by
  split
  · rfl
  · rw [pure_bind]

section Rules

variable {s : σ} {Q Q' : α → σ → Prop} {E E' : Fault → σ → Prop}

/-- Weaker properties hold where stronger ones do. -/
lemma Ends.imp {step : Step σ α} (h : step.Ends s Q E) (hQ : ∀ a t, Q a t → Q' a t)
    (hE : ∀ e t, E e t → E' e t) : step.Ends s Q' E' := by
  intro lines
  have h1 := h lines
  rcases hr : (ExceptT.run step s lines).1 with ⟨_ | _, t⟩ <;> rw [hr] at h1
  · exact hE _ _ h1
  · exact hQ _ _ h1

/-- One step after another. -/
lemma Ends.bind {x : Step σ β} {f : β → Step σ α}
    (h : x.Ends s (fun b t => (f b).Ends t Q E) E) : (x >>= f).Ends s Q E := by
  intro lines
  have h1 := h lines
  rw [run_bind_apply]
  rcases hr : ExceptT.run x s lines with ⟨⟨_ | _, t⟩, more⟩ <;> rw [hr] at h1
  · exact h1
  · exact h1 more

/-- What holds of a step and an answer in place of its own holds of the step. -/
lemma Ends.of_bind_pure {x : Step σ β} {a : α} {P : σ → Prop}
    (h : (x >>= fun _ => pure a).Ends s (fun _ t => P t) E) : x.Ends s (fun _ t => P t) E := by
  intro lines
  have h1 := h lines
  rw [run_bind_apply] at h1
  rcases hr : ExceptT.run x s lines with ⟨⟨_ | _, t⟩, more⟩ <;> rw [hr] at h1
  · exact h1
  · exact h1

/-- Two properties of the same ends. -/
lemma Ends.and {step : Step σ α} (h : step.Ends s Q E) (h' : step.Ends s Q' E') :
    step.Ends s (fun a t => Q a t ∧ Q' a t) (fun e t => E e t ∧ E' e t) := by
  intro lines
  have h1 := h lines
  have h2 := h' lines
  rcases hr : (ExceptT.run step s lines).1 with ⟨_ | _, t⟩ <;> rw [hr] at h1 h2
  · exact ⟨h1, h2⟩
  · exact ⟨h1, h2⟩

/-- After a step of which nothing is known, what holds of the next one from every state. -/
lemma Ends.bind_any {x : Step σ β} {f : β → Step σ α}
    (h : ∀ b t, (f b).Ends t Q fun _ _ => True) : (x >>= f).Ends s Q fun _ _ => True := by
  intro lines
  rw [run_bind_apply]
  rcases ExceptT.run x s lines with ⟨⟨_ | b, t⟩, more⟩
  · trivial
  · exact h b t more

/-- Every step ends somehow. -/
lemma ends_any (step : Step σ α) (s : σ) : step.Ends s (fun _ _ => True) fun _ _ => True :=
  fun lines => by rcases (ExceptT.run step s lines).1 with ⟨_ | _, _⟩ <;> trivial

/-! ### Basic steps -/

@[simp] lemma ends_pure {a : α} : (pure a : Step σ α).Ends s Q E ↔ Q a s :=
  ⟨fun h => h [], fun h _ => h⟩

@[simp] lemma ends_throw {e : Fault} : (throw e : Step σ α).Ends s Q E ↔ E e s :=
  ⟨fun h => h [], fun h _ => h⟩

@[simp] lemma ends_ofAnswer_ok {a : α} : (ofAnswer (.ok a) : Step σ α).Ends s Q E ↔ Q a s :=
  ⟨fun h => h [], fun h _ => h⟩

@[simp] lemma ends_ofAnswer_error {e : Fault} :
    (ofAnswer (.error e) : Step σ α).Ends s Q E ↔ E e s :=
  ⟨fun h => h [], fun h _ => h⟩

@[simp] lemma ends_get {Q : σ → σ → Prop} : (get : Step σ σ).Ends s Q E ↔ Q s s :=
  ⟨fun h => h [], fun h _ => h⟩

@[simp] lemma ends_set {t : σ} {Q : PUnit → σ → Prop} :
    (set t : Step σ PUnit).Ends s Q E ↔ Q ⟨⟩ t :=
  ⟨fun h => h [], fun h _ => h⟩

@[simp] lemma ends_modify {f : σ → σ} {Q : PUnit → σ → Prop} :
    (modify f : Step σ PUnit).Ends s Q E ↔ Q ⟨⟩ (f s) :=
  ⟨fun h => h [], fun h _ => h⟩

@[simp] lemma ends_log {line : LogLine} {Q : Unit → σ → Prop} :
    (log line : Step σ Unit).Ends s Q E ↔ Q () s :=
  ⟨fun h => h [], fun h _ => h⟩

/-- A step on a part of the state ends as the part says. -/
lemma ends_focus {get : σ → τ} {put : τ → σ → σ} {step : Step τ α} :
    (focus get put step).Ends s Q E ↔
      step.Ends (get s) (fun a t => Q a (put t s)) (fun e t => E e (put t s)) := by
  refine forall_congr' fun lines => ?_
  change (match ((ExceptT.run step (get s) lines).1.1, put (ExceptT.run step (get s) lines).1.2 s)
    with
    | (.ok a, t) => Q a t
    | (.error e, t) => E e t) ↔ _
  rcases (ExceptT.run step (get s) lines).1 with ⟨_ | _, t⟩ <;> rfl

/-- An answer that may be a failure. -/
lemma ends_ofAnswer {a : Answer α} :
    (ofAnswer a : Step σ α).Ends s Q E ↔ (∀ x, a = .ok x → Q x s) ∧ ∀ e, a = .error e → E e s := by
  cases a <;> simp

/-! ### Loops -/

/-- A loop keeps a property of the members that are left and of the state. -/
lemma Ends.forM {f : β → Step σ PUnit} {Q : PUnit → σ → Prop} (I : List β → σ → Prop)
    (hI : ∀ x xs t, I (x :: xs) t → (f x).Ends t (fun _ t' => I xs t') E)
    (hQ : ∀ t, I [] t → Q ⟨⟩ t) : ∀ (xs : List β) (s : σ), I xs s → (xs.forM f).Ends s Q E
  | [], s, h => by simpa using hQ s h
  | x :: xs, s, h =>
      .bind ((hI x xs s h).imp (fun _ t ht => Ends.forM I hI hQ xs t ht) fun _ _ => id)

/-- Logging several lines leaves the state as it is. -/
lemma ends_logs {Q : PUnit → σ → Prop} (lines : List LogLine) (h : Q ⟨⟩ s) :
    (lines.forM log : Step σ PUnit).Ends s Q E :=
  Ends.forM (fun _ t => t = s) (fun _ _ _ ht => ends_log.mpr ht) (fun _ ht => ht ▸ h) lines s rfl

/-! ### Runs -/

lemma Ends.apply {step : Step σ α} (h : step.Ends s Q E) (lines : List LogLine) :
    match (ExceptT.run step s lines).1 with
      | (.ok a, t) => Q a t
      | (.error e, t) => E e t := h lines

lemma Ends.of_run_ok {step : Step σ α} (h : step.Ends s Q E) {a : α} {t : σ}
    {lines : List LogLine} (hr : step.run s = (.ok a, t, lines)) : Q a t := by
  have h1 := h []
  have h2 : (ExceptT.run step s []).1 = (.ok a, t) :=
    Prod.ext (congrArg (·.1) hr) (congrArg (·.2.1) hr)
  rwa [h2] at h1

lemma Ends.of_run_error {step : Step σ α} (h : step.Ends s Q E) {e : Fault} {t : σ}
    {lines : List LogLine} (hr : step.run s = (.error e, t, lines)) : E e t := by
  have h1 := h []
  have h2 : (ExceptT.run step s []).1 = (.error e, t) :=
    Prod.ext (congrArg (·.1) hr) (congrArg (·.2.1) hr)
  rwa [h2] at h1

end Rules

/-- What answers has an answer. -/
lemma exists_of_isOk {a : Answer α} (h : a.isOk = true) : ∃ x, a = .ok x := by
  rcases a with e | x
  · cases h
  · exact ⟨x, rfl⟩

/-- The state that a step leaves, whether it answers or fails. -/
def after (step : Step σ α) (s : σ) : σ := (step.run s).2.1

lemma Ends.after {step : Step σ α} {s : σ} {P : σ → Prop}
    (h : step.Ends s (fun _ t => P t) fun _ t => P t) : P (step.after s) := by
  have h1 := h []
  change P (ExceptT.run step s []).1.2
  rcases hr : (ExceptT.run step s []).1 with ⟨_ | _, t⟩ <;> rw [hr] at h1
  · exact h1
  · exact h1

/-- How a step ends: its answer and the state that it leaves. -/
def outcome (step : Step σ α) (s : σ) : Answer α × σ := ((step.run s).1, step.after s)

lemma outcome_eq (step : Step σ α) (s : σ) : step.outcome s = (ExceptT.run step s []).1 := rfl

/-- A step that ends in one way, whatever had been logged, has this outcome. -/
lemma Ends.outcome_eq {step : Step σ α} {s : σ} {x : Answer α × σ}
    (h : step.Ends s (fun a t => x = (.ok a, t)) fun e t => x = (.error e, t)) :
    step.outcome s = x := by
  have h1 := h []
  rw [Step.outcome_eq]
  rcases hr : (ExceptT.run step s []).1 with ⟨_ | _, t⟩ <;> rw [hr] at h1 <;> exact h1.symm

lemma Ends.of_outcome_ok {step : Step σ α} {s : σ} {Q : α → σ → Prop} {E : Fault → σ → Prop}
    (h : step.Ends s Q E) {a : α} (hr : (step.outcome s).1 = .ok a) : Q a (step.after s) :=
  h.of_run_ok (t := step.after s) (Prod.ext hr rfl)

lemma Ends.of_outcome_error {step : Step σ α} {s t : σ} {Q : α → σ → Prop}
    {E : Fault → σ → Prop} (h : step.Ends s Q E) {e : Fault}
    (hr : step.outcome s = (.error e, t)) : E e t := by
  rw [Step.outcome_eq] at hr
  have h1 := h []
  rwa [hr] at h1

/-- What holds of both ends of a step holds of its run. -/
lemma Ends.of_run {step : Step σ α} {s : σ} {P : Answer α → σ → Prop}
    (h : step.Ends s (fun a t => P (.ok a) t) fun e t => P (.error e) t) :
    P (step.run s).1 (step.after s) := by
  rcases hr : (step.run s).1 with e | a
  · exact h.of_outcome_error (Prod.ext hr rfl)
  · exact h.of_outcome_ok hr

/-- A step that cannot fail answers. -/
lemma Ends.exists_outcome_ok {step : Step σ α} {s : σ} {Q : α → σ → Prop}
    (h : step.Ends s Q fun _ _ => False) :
    ∃ a, (step.outcome s).1 = .ok a ∧ Q a (step.after s) := by
  rcases hr : (step.outcome s).1 with e | a
  · exact (h.of_run_error (t := step.after s) (Prod.ext hr rfl)).elim
  · exact ⟨a, rfl, h.of_outcome_ok hr⟩

/-- A step after another that has answered. -/
lemma outcome_bind_ok {x : Step σ β} {f : β → Step σ α} {s t : σ} {b : β} {y : Answer α × σ}
    (hx : x.outcome s = (.ok b, t))
    (hf : (f b).Ends t (fun a u => y = (.ok a, u)) fun e u => y = (.error e, u)) :
    (x >>= f).outcome s = y := by
  rw [outcome_eq] at hx
  rw [outcome_eq, run_bind_apply]
  rcases hr : ExceptT.run x s [] with ⟨⟨_ | _, _⟩, more⟩ <;> rw [hr] at hx <;> cases hx
  have hends := hf.apply more
  rcases hnext : (ExceptT.run (f b) t more).1 with ⟨_ | _, u⟩ <;> rw [hnext] at hends
  · exact hends.symm
  · exact hends.symm

/-- The failure of a step ends what follows. -/
lemma outcome_bind_error {x : Step σ β} {f : β → Step σ α} {s t : σ} {e : Fault}
    (hx : x.outcome s = (.error e, t)) :
    (x >>= f).outcome s = (.error e, t) := by
  rw [outcome_eq] at hx
  rw [outcome_eq, run_bind_apply]
  rcases hr : ExceptT.run x s [] with ⟨⟨_ | _, _⟩, more⟩ <;> rw [hr] at hx <;> cases hx
  rfl

/-! ### Properties that a step keeps -/

section Keeps

variable {I : σ → Prop}

/-- The step keeps a property of the state, whether it answers or fails. -/
def Keeps (step : Step σ α) (I : σ → Prop) : Prop :=
  ∀ s, I s → step.Ends s (fun _ t => I t) fun _ t => I t

lemma Keeps.after {step : Step σ α} (h : step.Keeps I) {s : σ} (hs : I s) : I (step.after s) :=
  (h s hs).after

lemma Keeps.and {step : Step σ α} {J : σ → Prop} (h : step.Keeps I) (h' : step.Keeps J) :
    step.Keeps fun s => I s ∧ J s := fun s hs => (h s hs.1).and (h' s hs.2)

lemma keeps_pure (a : α) : (pure a : Step σ α).Keeps I := fun _ hs => ends_pure.mpr hs

lemma keeps_ofAnswer (a : Answer α) : (ofAnswer a : Step σ α).Keeps I := fun _ hs =>
  ends_ofAnswer.mpr ⟨fun _ _ => hs, fun _ _ => hs⟩

lemma keeps_get : (get : Step σ σ).Keeps I := fun _ hs => ends_get.mpr hs

/-- A step that computes from the state what to do with it. -/
lemma keeps_advance {f : σ → Answer α} {g : σ → α → σ} (h : ∀ s a, I s → f s = .ok a → I (g s a)) :
    (get >>= fun s => ofAnswer (f s) >>= fun a => set (g s a) : Step σ PUnit).Keeps I :=
  fun s hs => .bind (ends_get.mpr (.bind (ends_ofAnswer.mpr
    ⟨fun a ha => ends_set.mpr (h s a hs ha), fun _ _ => hs⟩)))

lemma keeps_log (line : LogLine) : (log line : Step σ Unit).Keeps I := fun _ hs => ends_log.mpr hs

lemma keeps_modify {f : σ → σ} (h : ∀ s, I s → I (f s)) : (modify f : Step σ PUnit).Keeps I :=
  fun s hs => ends_modify.mpr (h s hs)

lemma Keeps.bind {x : Step σ β} {f : β → Step σ α} (hx : x.Keeps I) (hf : ∀ b, (f b).Keeps I) :
    (x >>= f).Keeps I := fun s hs =>
  .bind ((hx s hs).imp (fun b t ht => hf b t ht) fun _ _ => id)

lemma Keeps.ite {c : Prop} [Decidable c] {x y : Step σ α} (hx : x.Keeps I) (hy : y.Keeps I) :
    (if c then x else y).Keeps I := by
  split
  · exact hx
  · exact hy

lemma Keeps.forM {f : β → Step σ PUnit} (hf : ∀ b, (f b).Keeps I) :
    ∀ xs : List β, (xs.forM f).Keeps I
  | [] => keeps_pure _
  | x :: xs => (hf x).bind fun _ => Keeps.forM hf xs

lemma Keeps.mapM {f : β → Step σ α} (hf : ∀ b, (f b).Keeps I) :
    ∀ xs : List β, (xs.mapM f).Keeps I
  | [] => keeps_pure _
  | x :: xs => by
      rw [List.mapM_cons]
      exact (hf x).bind fun _ => (Keeps.mapM hf xs).bind fun _ => keeps_pure _

end Keeps

/-! ### Faults that a step can fail with -/

section FailsWith

variable {F : Fault → Prop}

/-- Whatever the step fails with, the fault is one of those in `F`. -/
def FailsWith (step : Step σ α) (F : Fault → Prop) : Prop :=
  ∀ s, step.Ends s (fun _ _ => True) fun e _ => F e

lemma failsWith_pure (a : α) : (pure a : Step σ α).FailsWith F := fun _ => ends_pure.mpr trivial

lemma failsWith_throw {e : Fault} (h : F e) : (throw e : Step σ α).FailsWith F := fun _ =>
  ends_throw.mpr h

lemma failsWith_ofAnswer {a : Answer α} (h : ∀ e, a = .error e → F e) :
    (ofAnswer a : Step σ α).FailsWith F := fun _ => ends_ofAnswer.mpr ⟨fun _ _ => trivial, h⟩

lemma failsWith_get : (get : Step σ σ).FailsWith F := fun _ => ends_get.mpr trivial

lemma failsWith_set (t : σ) : (set t : Step σ PUnit).FailsWith F := fun _ => ends_set.mpr trivial

lemma failsWith_modify (f : σ → σ) : (modify f : Step σ PUnit).FailsWith F := fun _ =>
  ends_modify.mpr trivial

lemma failsWith_log (line : LogLine) : (log line : Step σ Unit).FailsWith F := fun _ =>
  ends_log.mpr trivial

lemma FailsWith.bind {x : Step σ β} {f : β → Step σ α} (hx : x.FailsWith F)
    (hf : ∀ b, (f b).FailsWith F) : (x >>= f).FailsWith F := fun s =>
  .bind ((hx s).imp (fun b t _ => hf b t) fun _ _ => id)

lemma FailsWith.ite {c : Prop} [Decidable c] {x y : Step σ α} (hx : x.FailsWith F)
    (hy : y.FailsWith F) : (if c then x else y).FailsWith F := by
  split
  · exact hx
  · exact hy

lemma FailsWith.forM {f : β → Step σ PUnit} (hf : ∀ b, (f b).FailsWith F) :
    ∀ xs : List β, (xs.forM f).FailsWith F
  | [] => failsWith_pure _
  | x :: xs => (hf x).bind fun _ => FailsWith.forM hf xs

lemma FailsWith.mapM {f : β → Step σ α} (hf : ∀ b, (f b).FailsWith F) :
    ∀ xs : List β, (xs.mapM f).FailsWith F
  | [] => failsWith_pure _
  | x :: xs => by
      rw [List.mapM_cons]
      exact (hf x).bind fun _ => (FailsWith.mapM hf xs).bind fun _ => failsWith_pure _

lemma FailsWith.focus {get : σ → τ} {put : τ → σ → σ} {step : Step τ α} (h : step.FailsWith F) :
    (focus get put step).FailsWith F := fun s =>
  ends_focus.mpr ((h (get s)).imp (fun _ _ _ => trivial) fun _ _ => id)

end FailsWith

/-! ### Steps that do not read the log -/

/-- A step that does not read the log. -/
def Quiet (step : Step σ α) : Prop :=
  ∀ s lines more, (ExceptT.run step s lines).1 = (ExceptT.run step s more).1

/-- A quiet step ends the same way whatever the log. -/
lemma Quiet.ends {step : Step σ α} (h : step.Quiet) (s : σ) :
    step.Ends s (fun _ t => t = step.after s) fun _ t => t = step.after s := by
  intro lines
  have h1 := h s lines []
  change match (ExceptT.run step s lines).1 with
    | (.ok a, t) => t = (ExceptT.run step s []).1.2
    | (.error e, t) => t = (ExceptT.run step s []).1.2
  rw [h1]
  rcases (ExceptT.run step s []).1 with ⟨_ | _, t⟩ <;> rfl

lemma quiet_pure (a : α) : (pure a : Step σ α).Quiet := fun _ _ _ => rfl

lemma quiet_throw (e : Fault) : (throw e : Step σ α).Quiet := fun _ _ _ => rfl

lemma quiet_ofAnswer (a : Answer α) : (ofAnswer a : Step σ α).Quiet := fun _ _ _ => rfl

lemma quiet_get : (get : Step σ σ).Quiet := fun _ _ _ => rfl

lemma quiet_set (t : σ) : (set t : Step σ PUnit).Quiet := fun _ _ _ => rfl

lemma quiet_modify (f : σ → σ) : (modify f : Step σ PUnit).Quiet := fun _ _ _ => rfl

lemma quiet_log (line : LogLine) : (log line : Step σ Unit).Quiet := fun _ _ _ => rfl

lemma Quiet.bind {x : Step σ β} {f : β → Step σ α} (hx : x.Quiet) (hf : ∀ b, (f b).Quiet) :
    (x >>= f).Quiet := by
  intro s lines more
  rw [run_bind_apply, run_bind_apply]
  have h := hx s lines more
  rcases hl : ExceptT.run x s lines with ⟨⟨_ | _, t⟩, lines'⟩ <;>
    rcases hm : ExceptT.run x s more with ⟨⟨_ | _, u⟩, more'⟩ <;> rw [hl, hm] at h <;> cases h
  · rfl
  · exact hf _ _ _ _

lemma Quiet.ite {c : Prop} [Decidable c] {x y : Step σ α} (hx : x.Quiet) (hy : y.Quiet) :
    (if c then x else y).Quiet := by
  split
  · exact hx
  · exact hy

/-! ### Steps with what they log -/

section Yields

variable {s t u : σ} {more more' : List LogLine}

/-- From `s` the step gives the answer `a` and leaves `t`, and `more` is logged after what had been
logged before. -/
def Yields (step : Step σ α) (s : σ) (a : Answer α) (t : σ) (more : List LogLine) : Prop :=
  ∀ lines, ExceptT.run step s lines = ((a, t), lines ++ more)

lemma yields_pure (a : α) : (pure a : Step σ α).Yields s (.ok a) s [] := fun lines => by
  rw [List.append_nil]
  rfl

lemma yields_throw (e : Fault) : (throw e : Step σ α).Yields s (.error e) s [] := fun lines => by
  rw [List.append_nil]
  rfl

lemma yields_ofAnswer (a : Answer α) : (ofAnswer a : Step σ α).Yields s a s [] := fun lines => by
  rw [List.append_nil]
  rfl

lemma yields_get : (get : Step σ σ).Yields s (.ok s) s [] := fun lines => by
  rw [List.append_nil]
  rfl

lemma yields_set (t : σ) : (set t : Step σ PUnit).Yields s (.ok ⟨⟩) t [] := fun lines => by
  rw [List.append_nil]
  rfl

lemma yields_log (line : LogLine) : (log line : Step σ Unit).Yields s (.ok ()) s [line] :=
  fun _ => rfl

/-- One step after another that has answered. -/
lemma Yields.bind {x : Step σ β} {f : β → Step σ α} {b : β} {a : Answer α}
    (hx : x.Yields s (.ok b) t more) (hf : (f b).Yields t a u more') :
    (x >>= f).Yields s a u (more ++ more') := fun lines => by
  rw [run_bind_apply, hx]
  exact (hf _).trans (by rw [List.append_assoc])

/-- A failure ends all that was to follow. -/
lemma Yields.bind_error {x : Step σ β} {f : β → Step σ α} {e : Fault}
    (hx : x.Yields s (.error e) t more) : (x >>= f).Yields s (.error e) t more := fun lines => by
  rw [run_bind_apply, hx]

lemma Yields.run {step : Step σ α} {a : Answer α} (h : step.Yields s a t more) :
    step.run s = (a, t, more) := by
  have hrun := h []
  rw [List.nil_append] at hrun
  exact Prod.ext (congrArg (·.1.1) hrun) (Prod.ext (congrArg (·.1.2) hrun) (congrArg (·.2) hrun))

/-- A step that yields an answer ends with it. -/
lemma Yields.ends {step : Step σ α} {a : α} {Q : α → σ → Prop} {E : Fault → σ → Prop}
    (h : step.Yields s (.ok a) t more) (hQ : Q a t) : step.Ends s Q E := fun lines => by
  rw [h lines]
  exact hQ

lemma Yields.ends_error {step : Step σ α} {e : Fault} {Q : α → σ → Prop} {E : Fault → σ → Prop}
    (h : step.Yields s (.error e) t more) (hE : E e t) : step.Ends s Q E := fun lines => by
  rw [h lines]
  exact hE

end Yields

/-! ### Steps that leave every state as it is -/

/-- A step that leaves every state as it is, and does the same from each of them, whatever had been
logged. -/
def Idle (step : Step σ α) : Prop := ∃ a more, ∀ s, step.Yields s a s more

lemma idle_pure (a : α) : (pure a : Step σ α).Idle := ⟨_, _, fun _ => yields_pure a⟩

lemma idle_throw (e : Fault) : (throw e : Step σ α).Idle := ⟨_, _, fun _ => yields_throw e⟩

lemma idle_ofAnswer (a : Answer α) : (ofAnswer a : Step σ α).Idle :=
  ⟨_, _, fun _ => yields_ofAnswer a⟩

lemma idle_log (line : LogLine) : (log line : Step σ Unit).Idle := ⟨_, _, fun _ => yields_log line⟩

lemma Idle.bind {x : Step σ β} {f : β → Step σ α} (hx : x.Idle) (hf : ∀ b, (f b).Idle) :
    (x >>= f).Idle := by
  obtain ⟨e | b, more, hyields⟩ := hx
  · exact ⟨_, _, fun s => (hyields s).bind_error⟩
  · obtain ⟨a, more', hrest⟩ := hf b
    exact ⟨_, _, fun s => (hyields s).bind (hrest s)⟩

lemma Idle.foldlM {f : α → β → Step σ α} (hf : ∀ a b, (f a b).Idle) :
    ∀ (bs : List β) (a : α), (bs.foldlM f a).Idle
  | [], a => idle_pure a
  | b :: bs, a => by
      rw [List.foldlM_cons]
      exact (hf a b).bind fun a' => Idle.foldlM hf bs a'

/-! ### Steps and what they have logged if they answer -/

section Logs

variable {Q : α → List LogLine → Prop}

/-- What holds of the answer of a step, if it gives one, and of the lines that it logged. -/
def Logs (step : Step σ α) (Q : α → List LogLine → Prop) : Prop :=
  ∀ s lines a t lines', ExceptT.run step s lines = ((.ok a, t), lines') →
    ∃ more, lines' = lines ++ more ∧ Q a more

/-- A step of which it is known all that it does. -/
lemma logs_of_yields {step : Step σ α} (h : ∀ s, ∃ a t more,
    step.Yields s a t more ∧ ∀ b, a = .ok b → Q b more) : step.Logs Q := by
  intro s lines b u lines' hrun
  obtain ⟨a, t, more, hyields, hQ⟩ := h s
  have hends := (hyields lines).symm.trans hrun
  cases hends
  exact ⟨more, rfl, hQ b rfl⟩

lemma logs_pure {a : α} (h : Q a []) : (pure a : Step σ α).Logs Q :=
  logs_of_yields fun _ => ⟨_, _, _, yields_pure a, fun _ hb => Except.ok.inj hb ▸ h⟩

lemma logs_ofAnswer {x : Answer α} (h : ∀ a, x = .ok a → Q a []) : (ofAnswer x : Step σ α).Logs Q :=
  logs_of_yields fun _ => ⟨_, _, _, yields_ofAnswer x, h⟩

lemma logs_get {Q : σ → List LogLine → Prop} (h : ∀ s, Q s []) : (get : Step σ σ).Logs Q :=
  logs_of_yields fun _ => ⟨_, _, _, yields_get, fun _ _ => h _⟩

lemma logs_set {t : σ} {Q : PUnit → List LogLine → Prop} (h : Q ⟨⟩ []) :
    (set t : Step σ PUnit).Logs Q :=
  logs_of_yields fun _ => ⟨_, _, _, yields_set t, fun _ _ => h⟩

lemma logs_modify {g : σ → σ} {Q : PUnit → List LogLine → Prop} (h : Q ⟨⟩ []) :
    (modify g : Step σ PUnit).Logs Q :=
  logs_of_yields fun s => ⟨.ok ⟨⟩, g s, [], fun lines => by rw [List.append_nil]; rfl, fun _ _ => h⟩

lemma logs_log {line : LogLine} {Q : Unit → List LogLine → Prop} (h : Q () [line]) :
    (log line : Step σ Unit).Logs Q :=
  logs_of_yields fun _ => ⟨_, _, _, yields_log line, fun _ _ => h⟩

/-- One step after another logs after it. -/
lemma Logs.bind {x : Step σ β} {f : β → Step σ α} {P : β → List LogLine → Prop} (hx : x.Logs P)
    (hf : ∀ b more, P b more → (f b).Logs fun a more' => Q a (more ++ more')) :
    (x >>= f).Logs Q := by
  intro s lines a u lines' hrun
  rw [run_bind_apply] at hrun
  rcases hr : ExceptT.run x s lines with ⟨⟨e | b, t⟩, between⟩ <;> rw [hr] at hrun
  · cases hrun
  · obtain ⟨more, rfl, hP⟩ := hx s lines b t between hr
    obtain ⟨more', rfl, hQ⟩ := hf b more hP t _ a u lines' hrun
    exact ⟨more ++ more', List.append_assoc .., hQ⟩

/-- A step that logs nothing if it answers. -/
def Silent (step : Step σ α) : Prop := step.Logs fun _ more => more = []

lemma Silent.bind {x : Step σ β} {f : β → Step σ α} (hx : x.Silent) (hf : ∀ b, (f b).Logs Q) :
    (x >>= f).Logs Q :=
  Logs.bind hx fun b more hmore => by
    rw [hmore]
    exact hf b

lemma Silent.forM {f : β → Step σ PUnit} (hf : ∀ b, (f b).Silent) : ∀ xs : List β,
    (xs.forM f).Silent
  | [] => logs_pure rfl
  | x :: xs => (hf x).bind fun _ => Silent.forM hf xs

/-- Several steps log what belongs to their answers. -/
lemma logs_mapM {f : β → Step σ α} {g : α → List LogLine}
    (hf : ∀ b, (f b).Logs fun a more => more = g a) : ∀ xs : List β,
      (xs.mapM f).Logs fun as more => more = as.flatMap g
  | [] => logs_pure rfl
  | x :: xs => by
      rw [List.mapM_cons]
      refine (hf x).bind fun a more hmore => (logs_mapM hf xs).bind fun as more' hmore' => ?_
      refine logs_pure ?_
      rw [hmore, hmore', List.flatMap_cons, List.append_nil]

/-- A step that cannot fail, with what it logs. -/
lemma Ends.exists_run {step : Step σ α} {s : σ} {P : α → σ → Prop}
    (h : step.Ends s P fun _ _ => False) (hlogs : step.Logs Q) :
    ∃ a t more, step.run s = (.ok a, t, more) ∧ P a t ∧ Q a more := by
  obtain ⟨a, ha, hP⟩ := h.exists_outcome_ok
  have hrun : ExceptT.run step s [] = ((.ok a, step.after s), (step.run s).2.2) :=
    Prod.ext (Prod.ext ha rfl) rfl
  obtain ⟨more, hmore, hQ⟩ := hlogs _ _ _ _ _ hrun
  exact ⟨a, step.after s, more, Prod.ext ha (Prod.ext rfl hmore), hP, hQ⟩

end Logs

-- the lemmas above say all that is needed of how a step ends, so that no concrete step is unfolded
attribute [irreducible] Ends

end Concordance.Step
