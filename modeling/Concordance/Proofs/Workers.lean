import Concordance.Proofs.Interleaving

/-!
What can be seen of the number of workers.

* `Settings.withWorkers` : the same settings with another number of workers.
* `Pipeline.unbuilt` : what one worker leaves undone when a build fails: the registry at that
  moment, and the processes behind the failing one. `Pipeline.runAll_halt` compares it with several
  workers, by induction on the processes.
* `Pipeline.Idle` : building the processes would change nothing.
* `Pipeline.workers_observed` : the answer is the same for every number of workers. What is left
  behind is the same for two numbers above one; one worker leaves the same exactly if what it left
  undone is idle.
-/

namespace Concordance

/-- The settings with another number of workers. -/
def Settings.withWorkers (s : Settings) (workers : Int) : Settings :=
  { s with pipeline := { s.pipeline with workers } }

namespace Pipeline

variable {s : Settings} {r : Registry} {p : ProcessDefinition} {ps : List ProcessDefinition}

/-- No build reads the number of workers. -/
lemma runAll_withWorkers (s : Settings) (workers : Int) (halt : Bool)
    (ps : List ProcessDefinition) :
    ∀ r, runAll (s.withWorkers workers) halt r ps = runAll s halt r ps := by
  have hbuild : build (s.withWorkers workers) = build s := rfl
  induction ps with
  | nil => exact fun _ => rfl
  | cons p ps ih =>
      intro r
      simp only [runAll, hbuild, ih]

/-! ### One worker -/

/-- What is left undone when a failing build ends the others: the registry at that moment, and the
processes behind the failing one. -/
def unbuilt (s : Settings) : Registry → List ProcessDefinition →
    Option (Registry × List ProcessDefinition)
  | _, [] => none
  | r, p :: ps => match settle s { process := p, registry := r } with
    | (.error _, t) => some (t.registry, ps)
    | (.ok _, t) => unbuilt s t.registry ps

/-- Building the processes would change nothing: neither a process nor the registry. -/
def Idle (s : Settings) (r : Registry) (ps : List ProcessDefinition) : Prop :=
  (runAll s false r ps).1.map (·.process) = ps ∧ (runAll s false r ps).2.1 = r

/-- The first of several builds, where a failing one ends the others. -/
lemma runAll_cons_halt (ps : List ProcessDefinition) {a : Answer Index} {t : Site}
    (h : settle s { process := p, registry := r } = (a, t)) :
    (∀ e, a = .error e → (runAll s true r (p :: ps)).1 =
        ⟨a, t.process⟩ :: ps.map (fun q => ⟨.error e, q⟩) ∧
      (runAll s true r (p :: ps)).2.1 = t.registry) ∧
    ∀ i, a = .ok i →
      (runAll s true r (p :: ps)).1 = ⟨a, t.process⟩ :: (runAll s true t.registry ps).1 ∧
        (runAll s true r (p :: ps)).2.1 = (runAll s true t.registry ps).2.1 := by
  obtain ⟨lines, hrun⟩ := exists_run h
  rw [runAll, hrun]
  constructor
  · rintro e rfl
    exact ⟨rfl, rfl⟩
  · rintro i rfl
    exact ⟨rfl, rfl⟩

/-- **One worker and several** answer the same. What they leave differs by the processes that one
worker does not build any more. -/
lemma runAll_halt (ps : List ProcessDefinition) : ∀ r,
    (runAll s true r ps).1.mapM (·.answer) = (runAll s false r ps).1.mapM (·.answer) ∧
    ((runAll s true r ps).1.map (·.process) = (runAll s false r ps).1.map (·.process) ∧
        (runAll s true r ps).2.1 = (runAll s false r ps).2.1 ↔
      ∀ r' qs, unbuilt s r ps = some (r', qs) → Idle s r' qs) := by
  induction ps with
  | nil => exact fun r => ⟨rfl, by simp [runAll, unbuilt]⟩
  | cons p ps ih =>
      intro r
      rcases hsettle : settle s { process := p, registry := r } with ⟨e | i, t⟩
      · obtain ⟨hhalt, hhaltReg⟩ := (runAll_cons_halt ps hsettle).1 e rfl
        obtain ⟨hall, hallReg⟩ := runAll_cons ps hsettle
        have hunbuilt : unbuilt s r (p :: ps) = some (t.registry, ps) := by
          rw [unbuilt, hsettle]
        have hkept : (ps.map fun q => ({ answer := .error e, process := q } : Ended)).map
            (·.process) = ps := by
          rw [List.map_map]
          exact List.map_id ps
        rw [hhalt, hall, hhaltReg, hallReg, hunbuilt, List.map_cons, List.map_cons, hkept,
          List.cons.injEq]
        refine ⟨rfl, fun h r' qs hqs => ?_, fun h => ?_⟩
        · cases hqs
          exact ⟨h.1.2.symm, h.2.symm⟩
        · obtain ⟨hprocesses, hregistry⟩ := h _ _ rfl
          exact ⟨⟨rfl, hprocesses.symm⟩, hregistry.symm⟩
      · obtain ⟨hhalt, hhaltReg⟩ := (runAll_cons_halt ps hsettle).2 i rfl
        obtain ⟨hall, hallReg⟩ := runAll_cons ps hsettle
        obtain ⟨hanswer, hleft⟩ := ih t.registry
        have hunbuilt : unbuilt s r (p :: ps) = unbuilt s t.registry ps := by
          rw [unbuilt, hsettle]
        rw [hhalt, hall, hhaltReg, hallReg, hunbuilt, ← hleft, List.map_cons, List.map_cons,
          List.mapM_cons, List.mapM_cons, hanswer, List.cons.injEq]
        exact ⟨rfl, by simp⟩

/-- With one worker a failing build ends the others. -/
lemma buildMany_one (hworkers : s.pipeline.workers = 1) :
    buildMany s r ps = ((runAll s true r ps).1.mapM (·.answer),
      (runAll s true r ps).1.map (·.process), (runAll s true r ps).2) := by
  rcases ps with _ | ⟨p, ps⟩
  · rfl
  · have hleast : leastWorkers s.pipeline.workers (p :: ps).length = 1 := by
      rw [leastWorkers, hworkers]
      split
      · rfl
      · rw [List.length_cons] at *
        omega
    simp only [buildMany, hleast]
    rfl

/-- Where every build answers nothing is left undone. -/
lemma unbuilt_eq_none {is : List Index} (ps : List ProcessDefinition) : ∀ r,
    (runAll s true r ps).1.mapM (·.answer) = .ok is → unbuilt s r ps = none := by
  induction ps generalizing is with
  | nil => exact fun _ _ => rfl
  | cons p ps ih =>
      intro r h
      rcases hsettle : settle s { process := p, registry := r } with ⟨e | i, t⟩
      · rw [((runAll_cons_halt ps hsettle).1 e rfl).1, List.mapM_cons] at h
        cases h
      · rw [((runAll_cons_halt ps hsettle).2 i rfl).1, List.mapM_cons] at h
        rw [unbuilt, hsettle]
        rcases hrest : (runAll s true t.registry ps).1.mapM (·.answer) with e | js
        · simp [hrest, bind, Except.bind] at h
        · exact ih t.registry hrest

/-! ### The number of workers -/

/-- What several builds leave behind: their processes and the registry. -/
def leaves (s : Settings) (r : Registry) (ps : List ProcessDefinition) :
    List ProcessDefinition × Registry :=
  ((buildMany s r ps).2.1, (buildMany s r ps).2.2.1)

lemma buildMany_withWorkers_one (s : Settings) (r : Registry) (ps : List ProcessDefinition) :
    (buildMany (s.withWorkers 1) r ps).1 = (runAll s true r ps).1.mapM (·.answer) ∧
      leaves (s.withWorkers 1) r ps =
        ((runAll s true r ps).1.map (·.process), (runAll s true r ps).2.1) := by
  rw [leaves, buildMany_one rfl, runAll_withWorkers]
  exact ⟨rfl, rfl⟩

lemma buildMany_withWorkers {workers : Int} (h : 2 ≤ workers) (s : Settings) (r : Registry)
    (ps : List ProcessDefinition) :
    (buildMany (s.withWorkers workers) r ps).1 = (runAll s false r ps).1.mapM (·.answer) ∧
      leaves (s.withWorkers workers) r ps =
        ((runAll s false r ps).1.map (·.process), (runAll s false r ps).2.1) := by
  rw [leaves, buildMany_eq h, runAll_withWorkers]
  exact ⟨rfl, rfl⟩

/-- The answer is the same for every number of workers as if all builds were run. -/
lemma buildMany_answer {workers : Int} (h : 1 ≤ workers) (s : Settings) (r : Registry)
    (ps : List ProcessDefinition) :
    (buildMany (s.withWorkers workers) r ps).1 = (runAll s false r ps).1.mapM (·.answer) := by
  rcases Int.lt_or_eq_of_le h with hlt | rfl
  · exact (buildMany_withWorkers hlt s r ps).1
  · rw [(buildMany_withWorkers_one s r ps).1, (runAll_halt ps r).1]

/-- One worker leaves the same as several exactly if what it left undone is idle. -/
lemma leaves_one_iff {workers : Int} (h : 2 ≤ workers) (s : Settings) (r : Registry)
    (ps : List ProcessDefinition) :
    leaves (s.withWorkers 1) r ps = leaves (s.withWorkers workers) r ps ↔
      ∀ r' qs, unbuilt s r ps = some (r', qs) → Idle s r' qs := by
  rw [(buildMany_withWorkers_one s r ps).2, (buildMany_withWorkers h s r ps).2, Prod.mk.injEq]
  exact (runAll_halt ps r).2

lemma leaves_one_of_ok {workers : Int} (h : 2 ≤ workers) {is : List Index}
    (hok : (buildMany (s.withWorkers 1) r ps).1 = .ok is) :
    leaves (s.withWorkers 1) r ps = leaves (s.withWorkers workers) r ps := by
  rw [(buildMany_withWorkers_one s r ps).1] at hok
  rw [leaves_one_iff h, unbuilt_eq_none ps r hok]
  exact nofun

/-- **What can be seen of the number of workers.** The answer is the same for every number. What is
left behind is the same for two numbers above one, and for any two if no build fails; one worker
leaves the same as several exactly if building what it left undone would change nothing. With
several workers every build is run to its end: of processes with different ids each ends as it
would have alone, whether others fail or not. -/
theorem workers_observed (s : Settings) (r : Registry) (ps : List ProcessDefinition) {v w : Int}
    (hv : 1 ≤ v) (hw : 1 ≤ w) :
    (buildMany (s.withWorkers v) r ps).1 = (buildMany (s.withWorkers w) r ps).1 ∧
    ((v = 1 ↔ w = 1) ∨ (∃ is, (buildMany (s.withWorkers v) r ps).1 = .ok is) →
      leaves (s.withWorkers v) r ps = leaves (s.withWorkers w) r ps) ∧
    (v = 1 → w ≠ 1 → (leaves (s.withWorkers v) r ps = leaves (s.withWorkers w) r ps ↔
      ∀ r' qs, unbuilt s r ps = some (r', qs) → Idle s r' qs)) ∧
    (w ≠ 1 → (∀ p ∈ ps, p.id.isText) → (ps.map (·.id)).Nodup → ∀ (k : Nat) p, ps[k]? = some p →
      ∃ a q, (leaves (s.withWorkers w) r ps).1[k]? = some q ∧
        EndedAlone s p (r.get? p.id) ⟨a, q, (leaves (s.withWorkers w) r ps).2.get? p.id⟩) := by
  have htwo : ∀ {n : Int}, 1 ≤ n → n ≠ 1 → 2 ≤ n := by omega
  have hanswer : (buildMany (s.withWorkers v) r ps).1 = (buildMany (s.withWorkers w) r ps).1 := by
    rw [buildMany_answer hv, buildMany_answer hw]
  refine ⟨hanswer, ?_, ?_, ?_⟩
  · intro h
    by_cases hv1 : v = 1 <;> by_cases hw1 : w = 1
    · rw [hv1, hw1]
    · obtain ⟨is, hok⟩ := h.resolve_left (by simp [hv1, hw1])
      subst hv1
      exact leaves_one_of_ok (htwo hw hw1) hok
    · obtain ⟨is, hok⟩ := h.resolve_left (by simp [hv1, hw1])
      subst hw1
      exact (leaves_one_of_ok (htwo hv hv1) (hanswer ▸ hok)).symm
    · rw [(buildMany_withWorkers (htwo hv hv1) s r ps).2,
        (buildMany_withWorkers (htwo hw hw1) s r ps).2]
  · rintro rfl hne
    exact leaves_one_iff (htwo hw hne) s r ps
  · intro hne hid hdistinct k p hp
    obtain ⟨hended, hstored, -⟩ := runAll_verdict (s := s) (r := r) hid hdistinct
    have hmem := List.mem_of_getElem? hp
    refine ⟨(verdict s p (r.get? p.id)).answer, (verdict s p (r.get? p.id)).process, ?_, ?_⟩
    · rw [(buildMany_withWorkers (htwo hw hne) s r ps).2, hended, List.map_map, List.getElem?_map,
        hp]
      rfl
    · rw [(buildMany_withWorkers (htwo hw hne) s r ps).2]
      simp only [hstored p hmem]
      exact endedAlone_verdict (hid p hmem) _

theorem workers_observed_sample :
    let ps := [.bare "P" "n", .bare "Q" "m"]
    (1 : Int) ≤ 1 ∧ (1 : Int) ≤ 2 ∧
    (∃ is, (buildMany (plain.withWorkers 1) {} ps).1 = .ok is) ∧
    leaves (plain.withWorkers 1) {} ps = leaves (plain.withWorkers 2) {} ps ∧
    ∃ a q, (leaves (plain.withWorkers 2) {} ps).1[1]? = some q ∧
      EndedAlone plain (.bare "Q" "m") none
        ⟨a, q, (leaves (plain.withWorkers 2) {} ps).2.get? (.text "Q")⟩ := by
  intro ps
  have hok : (buildMany (plain.withWorkers 1) {} ps).1.isOk = true := by cbv
  obtain ⟨is, his⟩ := Step.exists_of_isOk hok
  obtain ⟨-, hleaves, -, halone⟩ :=
    workers_observed plain {} ps (show (1 : Int) ≤ 1 by decide) (show (1 : Int) ≤ 2 by decide)
  have hid : ∀ p ∈ ps, p.id.isText := by
    simp [ps, ProcessDefinition.bare, Value.isText, Value.text?]
  have hdistinct : (ps.map (·.id)).Nodup := by simp [ps, ProcessDefinition.bare]
  exact ⟨by decide, by decide, ⟨is, his⟩, hleaves (.inr ⟨is, his⟩),
    halone (by decide) hid hdistinct 1 (.bare "Q" "m") rfl⟩

/-- A process whose imports are no collection. -/
def unreadable : ProcessDefinition := { ProcessDefinition.bare "B" "b" with imports := .int 1 }

/-- **One worker does not build what stands behind a failing process**, two do. -/
theorem workers_observed_unreadable :
    let ps := [unreadable, .bare "G" "g"]
    (ps.map (·.id)).Nodup ∧
    (∃ e, (buildMany (plain.withWorkers 1) {} ps).1 = .error e ∧
      (buildMany (plain.withWorkers 2) {} ps).1 = .error e) ∧
    ((leaves (plain.withWorkers 1) {} ps).2.get? (.text "G")).isSome = false ∧
    ((leaves (plain.withWorkers 2) {} ps).2.get? (.text "G")).isSome = true := by
  refine ⟨by simp [unreadable, ProcessDefinition.bare], ⟨.illTyped, by cbv, by cbv⟩, by cbv, by cbv⟩

end Pipeline

end Concordance
