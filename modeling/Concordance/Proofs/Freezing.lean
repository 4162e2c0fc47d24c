import Mathlib
import Concordance.Proofs.Immutability

/-!
What freezing a collector holds fast, and what it leaves open.

* `Collector.Operation` : what can be done with a collector; `Collector.run` : one after another,
  where a refused operation leaves the collector as it is.
* `Collector.Does c op d` : how an operation that is not refused turns `c` into `d`.
* `Collector.Frozen c` : the collector has just been frozen, by a call or by the end of a build.
* `Collector.Grows c d` : the resources and references of `c` are the first ones of `d`, unchanged.
  `Collector.Closed.grows_run` : so it is after a freeze, whatever is done.
* `Collector.Brings c op` : the operation adds something that `c` does not hold.
  `Collector.Brings.size_lt` : this is seen in the size, which never falls again.
* `Collector.frozen_run` : a frozen collector stays as it is exactly if nothing new is brought.
* `Collector.freeze_admits` : what is added after a freeze is taken all the same.
-/

namespace Concordance
namespace Collector

/-! ### What can be done with a collector -/

/-- What can be done with a collector. The resource that gets a part is told by its place. -/
inductive Operation where
  | addResource (id : Value) (type : ResourceType)
  | addShared (name : Value) (type : PartType)
  | addResourceRef (name : Value) (type : ResourceType)
  | addPart (n : Nat) (name : Value) (type : PartType)
  | freeze

/-- The collector that an operation makes of another, or why it is refused. -/
def Operation.apply (c : Collector) : Operation → Answer Collector
  | addResource id type => c.addResource id type
  | addShared name type => c.addShared name type
  | addResourceRef name type => c.addResourceRef name type
  | addPart n name type => c.addPartAt n name type
  | freeze => .ok c.freeze

/-- The collector after an operation; one that is refused leaves it as it is. -/
def after (c : Collector) (op : Operation) : Collector := ((op.apply c).toOption).getD c

/-- The collector after several operations, whether they succeed or are refused. -/
def run (c : Collector) (ops : List Operation) : Collector := ops.foldl after c

variable {c d e : Collector} {op : Operation}

lemma after_of_ok (h : op.apply c = .ok d) : c.after op = d := by
  rw [after, h]
  rfl

lemma after_of_error {why : Fault} (h : op.apply c = .error why) : c.after op = c := by
  rw [after, h]
  rfl

/-- How an operation that is not refused turns one collector into another. -/
inductive Does (c : Collector) : Operation → Collector → Prop
  | known {id : Value} {type : ResourceType} (h : (c.find? id type).isSome) :
      Does c (.addResource id type) c
  | registered {id : Value} {type : ResourceType} (hid : id.hashable)
      (h : c.find? id type = none) :
      Does c (.addResource id type) { c with resources := c.resources ++ [{ id, type }] }
  | shared {name : Value} {type : PartType} (hname : name.hashable) : Does c (.addShared name type)
      { c with shared := addNew SharedReference.same c.shared { name, type } }
  | referred {name : Value} {type : ResourceType} (hname : name.hashable) :
      Does c (.addResourceRef name type)
      { c with resourceRefs := addNew ResourceReference.same c.resourceRefs { name, type } }
  | extended {n : Nat} {name : Value} {type : PartType} {r : Resource}
      (hr : c.resources[n]? = some r) (hopen : r.frozen = false) : Does c (.addPart n name type)
      { c with resources :=
          c.resources.set n { r with parts := addNew Part.same r.parts { name, type } } }
  | froze : Does c .freeze c.freeze

/-- **Everything an operation can do**; what is said of operations below goes through these
cases. -/
lemma Operation.does (h : op.apply c = .ok d) : Does c op d := by
  cases op with
  | addResource id type =>
      replace h : Collector.addResource c id type = .ok d := h
      rw [Collector.addResource] at h
      split_ifs at h with hid hknown
      · cases h
        exact .known hknown
      · cases h
        exact .registered (by simpa using hid) (by simpa using hknown)
  | addShared name type =>
      replace h : Collector.addShared c name type = .ok d := h
      rw [Collector.addShared] at h
      split_ifs at h with hname
      cases h
      exact .shared hname
  | addResourceRef name type =>
      replace h : Collector.addResourceRef c name type = .ok d := h
      rw [Collector.addResourceRef] at h
      split_ifs at h with hname
      cases h
      exact .referred hname
  | addPart n name type =>
      replace h : c.addPartAt n name type = .ok d := h
      rw [addPartAt] at h
      rcases hr : c.resources[n]? with _ | r
      · rw [hr] at h
        cases h
      rcases hopen : r.frozen with _ | _
      · rw [hr] at h
        rcases hpart : r.addPart? name type with why | r'
        · simp [hpart, bind, Except.bind] at h
        · simp only [hpart, bind, Except.bind, pure, Except.pure, Except.ok.injEq] at h
          rw [← h, Build.addPart?_eq_ok hpart]
          exact .extended hr hopen
      · have hrefused := addPartAt_frozen hr hopen name type
        rw [addPartAt, h] at hrefused
        cases hrefused
  | freeze =>
      cases h
      exact .froze

/-- What holds of a collector and of all that an operation can make of it holds after the
operation. -/
lemma after_of_does {P : Collector → Prop} (hc : P c) (h : ∀ d, Does c op d → P d) :
    P (c.after op) := by
  rcases happly : op.apply c with why | d
  · rwa [after_of_error happly]
  · rw [after_of_ok happly]
    exact h d (Operation.does happly)

/-! ### What a freeze holds fast -/

/-- Every resource is closed to changes. -/
def Closed (c : Collector) : Prop := ∀ r ∈ c.resources, r.frozen = true

/-- A collector that has just been frozen: by a call, or by a build that has come to its end. -/
inductive Frozen : Collector → Prop
  | called (c : Collector) : Frozen c.freeze
  | completed {b : Build} {p : ProcessDefinition} {i : Index}
      (h : ((Build.buildComplete p).outcome b).1 = .ok i) :
      Frozen ((Build.buildComplete p).after b).refs

lemma closed_freeze (c : Collector) : c.freeze.Closed := by
  intro r hr
  obtain ⟨s, -, rfl⟩ := List.mem_map.mp hr
  rfl

lemma Frozen.closed (h : Frozen c) : c.Closed := by
  cases h with
  | called c => exact closed_freeze c
  | @completed b p i h =>
      by_cases hphase : b.phase = .compiled
      · obtain ⟨d, -, hd, -⟩ := (Build.buildComplete_closes hphase).of_outcome_ok h
        rw [hd]
        exact closed_freeze d.refs
      · have hrefused : (Build.buildComplete p).Ends b (fun _ _ => False) fun _ _ => True :=
          (Build.refused_ends hphase).imp (fun _ _ => id) fun _ _ _ => trivial
        exact (hrefused.of_outcome_ok h).elim

/-- All that one collector holds stands first in the other, unchanged. -/
structure Grows (c d : Collector) : Prop where
  resources : c.resources <+: d.resources
  shared : c.shared <+: d.shared
  resourceRefs : c.resourceRefs <+: d.resourceRefs

lemma Grows.refl (c : Collector) : Grows c c :=
  ⟨List.prefix_refl _, List.prefix_refl _, List.prefix_refl _⟩

/-- No operation touches the first resources, as far as they are closed to changes. -/
lemma Operation.spares (op : Operation) : Spares op.apply := by
  cases op with
  | addResource id type => exact spares_addResource id type
  | addShared name type => exact spares_addShared name type
  | addResourceRef name type => exact spares_addResourceRef name type
  | addPart n name type => exact spares_addPartAt n name type
  | freeze => exact spares_freeze

/-- Behind what is closed an operation adds, and does nothing else. -/
lemma Closed.grows_after (hc : c.Closed) (h : Grows c d) (op : Operation) :
    Grows c (d.after op) := by
  rcases happly : op.apply d with why | e
  · rwa [after_of_error happly]
  rw [after_of_ok happly]
  have hresources : c.resources <+: e.resources := op.spares happly h.resources hc
  cases Operation.does happly with
  | shared => exact ⟨hresources, Build.prefix_addNew h.shared _, h.resourceRefs⟩
  | referred => exact ⟨hresources, h.shared, Build.prefix_addNew h.resourceRefs _⟩
  | known | registered | extended | froze => exact ⟨hresources, h.shared, h.resourceRefs⟩

/-- **After a freeze** what is held stays as it is, whatever is done. -/
lemma Closed.grows_run (hc : c.Closed) (ops : List Operation) :
    ∀ {d}, Grows c d → Grows c (d.run ops) := by
  induction ops with
  | nil => exact fun h => h
  | cons op ops ih => exact fun h => ih (hc.grows_after h op)

/-! ### What is new -/

/-- An operation brings a collector something that it does not hold. -/
def Brings (c : Collector) : Operation → Prop
  | .addResource id type => id.hashable ∧ c.find? id type = none
  | .addShared name type => name.hashable ∧ ∀ r ∈ c.shared, r.same { name, type } = false
  | .addResourceRef name type =>
    name.hashable ∧ ∀ r ∈ c.resourceRefs, r.same { name, type } = false
  | .addPart .. | .freeze => False

/-- The number of resources and references. -/
def size (c : Collector) : Nat := c.resources.length + c.shared.length + c.resourceRefs.length

section AddNew

variable {α : Type} {same : α → α → Bool} {xs : List α} {x : α}

lemma addNew_of_new (h : ∀ y ∈ xs, same y x = false) : addNew same xs x = xs ++ [x] := by
  rw [addNew, if_neg]
  rw [List.any_eq_true]
  rintro ⟨y, hy, hsame⟩
  exact Bool.eq_false_iff.mp (h y hy) hsame

lemma addNew_of_known (h : ¬∀ y ∈ xs, same y x = false) : addNew same xs x = xs := by
  rw [addNew, if_pos]
  rw [List.any_eq_true]
  push Not at h
  obtain ⟨y, hy, hsame⟩ := h
  exact ⟨y, hy, by simpa using hsame⟩

lemma length_le_addNew : xs.length ≤ (addNew same xs x).length :=
  (Build.prefix_addNew (List.prefix_refl xs) x).length_le

end AddNew

/-- Nothing is ever taken away. -/
lemma size_le_after (c : Collector) (op : Operation) : c.size ≤ (c.after op).size := by
  refine after_of_does (P := fun d => c.size ≤ d.size) le_rfl fun d hd => ?_
  cases hd with
  | known => exact le_rfl
  | registered => simp [size]
  | shared => simpa [size] using length_le_addNew
  | referred => simpa [size] using length_le_addNew
  | extended => simp [size]
  | froze => simp [size, freeze]

lemma size_le_run (ops : List Operation) : ∀ c : Collector, c.size ≤ (c.run ops).size := by
  induction ops with
  | nil => exact fun c => le_rfl
  | cons op ops ih => exact fun c => (size_le_after c op).trans (ih _)

lemma Brings.size_lt (h : c.Brings op) : c.size < (c.after op).size := by
  cases op with
  | addResource id type =>
      obtain ⟨hid, hnew⟩ := h
      have happly : (Operation.addResource id type).apply c =
          .ok { c with resources := c.resources ++ [{ id, type }] } := by
        simp [Operation.apply, addResource, hid, hnew]
      rw [after_of_ok happly]
      simp [size]
  | addShared name type =>
      obtain ⟨hname, hnew⟩ := h
      have happly : (Operation.addShared name type).apply c =
          .ok { c with shared := c.shared ++ [{ name, type }] } := by
        rw [← addNew_of_new hnew]
        exact if_pos hname
      rw [after_of_ok happly]
      simp [size]
  | addResourceRef name type =>
      obtain ⟨hname, hnew⟩ := h
      have happly : (Operation.addResourceRef name type).apply c =
          .ok { c with resourceRefs := c.resourceRefs ++ [{ name, type }] } := by
        rw [← addNew_of_new hnew]
        exact if_pos hname
      rw [after_of_ok happly]
      simp [size]
  | addPart | freeze => exact h.elim

lemma Closed.freeze_eq (hc : c.Closed) : c.freeze = c := by
  have hsame : c.resources.map Resource.freeze = c.resources := by
    conv_rhs => rw [← List.map_id c.resources]
    exact List.map_congr_left fun r hr => freeze_of_frozen (hc r hr)
  rw [freeze, hsame]

/-- Behind a freeze an operation that brings nothing new changes nothing. -/
lemma Closed.after_eq (hc : c.Closed) (h : ¬c.Brings op) : c.after op = c := by
  refine after_of_does (P := fun d => d = c) rfl fun d hd => ?_
  cases hd with
  | known => rfl
  | registered hid hnew => exact (h ⟨hid, hnew⟩).elim
  | shared hname => rw [addNew_of_known fun hnew => h ⟨hname, hnew⟩]
  | referred hname => rw [addNew_of_known fun hnew => h ⟨hname, hnew⟩]
  | extended hr hopen =>
      rw [hc _ (List.mem_of_getElem? hr)] at hopen
      cases hopen
  | froze => exact hc.freeze_eq

/-- **Operations after a freeze** change nothing exactly if none of them brings anything new: what
is new is seen in the size from then on. -/
lemma Closed.run_eq_iff (hc : c.Closed) (ops : List Operation) :
    c.run ops = c ↔ ∀ op ∈ ops, ¬c.Brings op := by
  induction ops with
  | nil => exact iff_of_true rfl (List.forall_mem_nil _)
  | cons op ops ih =>
      rw [List.forall_mem_cons, ← ih]
      constructor
      · intro hrun
        have hidle : ¬c.Brings op := fun hbrings => by
          have hlater : (c.after op).size ≤ c.size := by
            conv_rhs => rw [← hrun]
            exact size_le_run ops (c.after op)
          exact absurd hbrings.size_lt (Nat.not_lt.mpr hlater)
        refine ⟨hidle, ?_⟩
        conv_lhs => rw [← hc.after_eq hidle]
        exact hrun
      · rintro ⟨hidle, hrun⟩
        change (c.after op).run ops = c
        rw [hc.after_eq hidle, hrun]

/-- **What a freeze holds fast.** Whatever is done with a frozen collector, the resources that it
holds keep their parts, stay closed and refuse parts, and no reference is lost or changed. The
collector stays as it is exactly if no operation brings a resource or a reference that it does not
hold: those are taken as before. -/
theorem frozen_run (hc : Frozen c) (later : List Operation) :
    Grows c (c.run later) ∧ (∀ r ∈ c.resources, r.frozen = true) ∧
    (∀ n r, c.resources[n]? = some r → ∀ name type,
      (Operation.addPart n name type).apply (c.run later) = .error (.frozen r.id.display)) ∧
    (c.run later = c ↔ ∀ op ∈ later, ¬c.Brings op) := by
  have hclosed := hc.closed
  have hgrows : Grows c (c.run later) := hclosed.grows_run later (.refl c)
  refine ⟨hgrows, hclosed, fun n r hr name type => ?_, hclosed.run_eq_iff later⟩
  have hn : n < c.resources.length := (List.getElem?_eq_some_iff.mp hr).1
  exact addPartAt_frozen ((getElem?_known hgrows.resources hn).trans hr)
    (hclosed r (List.mem_of_getElem? hr)) name type

/-- A collector with one resource and one shared reference. -/
def sample : Collector :=
  run {} [.addResource (.text "P") .processId, .addShared (.text "s") .signal]

/-- Operations that bring it nothing new: a part for a closed resource, and what it holds. -/
def attempts : List Operation :=
  [.addPart 0 (.text "v") .var, .addShared (.text "s") .signal,
    .addResource (.text "P") .processId, .freeze]

theorem frozen_run_sample : Frozen sample.freeze ∧ sample.freeze.run attempts = sample.freeze ∧
    (Operation.addPart 0 (.text "v") .var).apply (sample.freeze.run attempts) =
      .error (.frozen "P") := by
  obtain ⟨-, -, hrefused, hsame⟩ := frozen_run (.called sample) attempts
  refine ⟨.called sample, hsame.mpr ?_, hrefused 0 _ rfl _ _⟩
  simp only [attempts, List.forall_mem_cons]
  refine ⟨id, fun h => ?_, fun h => ?_, id, List.forall_mem_nil _⟩
  · have hself : (Value.text "s").same (.text "s") = true := Value.same_text_left.mpr rfl
    simpa [SharedReference.same, hself] using h.2 _ (List.mem_singleton.mpr rfl)
  · exact List.find?_eq_none.mp h.2 _ (List.mem_singleton.mpr rfl) (by cbv)

/-- **A frozen collector is not read-only**: a reference is added to it, and so is a resource, which
is open to parts. -/
theorem freeze_admits :
    (sample.freeze.run [.addShared (.text "x") .signal]).shared =
      sample.freeze.shared ++ [{ name := .text "x", type := .signal }] ∧
    (sample.freeze.run [.addResource (.text "Q") .processId, .addPart 1 (.text "v") .var]).resources =
      sample.freeze.resources ++ [⟨.text "Q", .processId, [⟨.text "v", .var⟩], false⟩] := by
  constructor <;> cbv

end Collector
end Concordance
