import Concordance.Proofs.Rebuild

/-!
A registry over a whole run of publications and removals.

* `Change` : an index is published, or the index of an id is removed. `Registry.accepted` and
  `Registry.following` : of changes one after another those that are not refused, and the registry
  that they leave.
* `Stored h s` : the changes `h` of one id say that `s` is stored there: nothing at first and after
  a removal, else the first index of the last unbroken run of publications with its fingerprint.
* `Registry.Tells h r` : the history `h` tells of every id what the registry `r` holds there.
  `Registry.Tells.step` is one change, `Registry.Tells.run` a whole run, by induction on the
  changes.
* `Registry.Views r is` : the queries of the registry `r` all speak of the list `is`.
* `Registry.faithful_run` : after every run the registry holds what its history tells, and answers
  accordingly.
* `Registry.run_refuses_half` : an index with a name that cannot be encoded stands in the way of
  later ones.
-/

namespace Concordance

/-- What is done to a registry: an index is published, or the index of an id is removed. -/
inductive Change where
  | publish (i : Index)
  | remove (s : String)

namespace Change

/-- The id that a change is about. -/
def subject : Change → Value
  | publish i => i.processId
  | remove s => .text s

/-- The registry after a change, and what the change answers. -/
def apply (r : Registry) : Change → Answer (Registry × Bool)
  | publish i => r.publish i
  | remove s => .ok (r.remove (.text s))

/-- The names in an index that is published are texts. -/
def Named : Change → Prop
  | publish i => ∀ v ∈ i.names, v.isText
  | remove _ => True

/-- The names in an index that is published are texts that can be encoded. -/
def Legible : Change → Prop
  | publish i => i.Legible
  | remove _ => True

lemma Named.subject {c : Change} (h : c.Named) : ∃ s, c.subject = .text s := by
  cases c with
  | publish i =>
      have hid : i.processId ∈ i.names := List.mem_cons_self
      exact Value.isText_iff.mp (h _ hid)
  | remove s => exact ⟨s, rfl⟩

/-- The changes that are about one id. -/
def about (s : String) (h : List Change) : List Change := h.filter fun c => c.subject.same (.text s)

lemma about_append_self {s : String} {h : List Change} {c : Change} (hc : c.subject = .text s) :
    about s (h ++ [c]) = about s h ++ [c] := by
  simp [about, List.filter_append, hc]

lemma about_append_other {s : String} {h : List Change} {c : Change} (hc : c.subject ≠ .text s) :
    about s (h ++ [c]) = about s h := by
  simp [about, List.filter_append, hc]

end Change

open Change (about)

/-! ### The history of one id -/

/-- What the changes of one id say is stored there: nothing at first and after a removal, else the
first index of the last unbroken run of publications with its fingerprint. -/
inductive Stored : List Change → Option Index → Prop
  | nothing : Stored [] none
  | removed {h : List Change} {s : String} : Stored (h ++ [.remove s]) none
  | published {before run : List Change} {i : Index}
      (hbefore : ∀ j, before.getLast? = some (.publish j) → j.fingerprint? ≠ i.fingerprint?)
      (hrun : ∀ c ∈ run, ∃ j, c = .publish j ∧ j.fingerprint? = i.fingerprint?) :
      Stored (before ++ .publish i :: run) (some i)

namespace Stored

variable {h : List Change} {i : Index}

/-- Nothing is stored exactly if the last change is no publication. -/
lemma none_last (hs : Stored h none) (j : Index) : h.getLast? ≠ some (.publish j) := by
  cases hs with
  | nothing => nofun
  | removed => simp

/-- The stored index has the fingerprint of the one that was published last. -/
lemma some_last (hs : Stored h (some i)) :
    ∃ j, h.getLast? = some (.publish j) ∧ i.fingerprint? = j.fingerprint? := by
  cases hs with
  | @published before run i hbefore hrun =>
      induction run using List.reverseRecOn with
      | nil => exact ⟨i, by simp, rfl⟩
      | append_singleton run c _ =>
          obtain ⟨j, rfl, hj⟩ := hrun c (by simp)
          refine ⟨j, ?_, hj.symm⟩
          rw [← List.cons_append, ← List.append_assoc, List.getLast?_concat]

lemma mem (hs : Stored h (some i)) : .publish i ∈ h := by
  cases hs with
  | published _ _ => simp

/-- One more index of the same fingerprint prolongs the run. -/
lemma prolonged (hs : Stored h (some i)) {j : Index} (hj : j.fingerprint? = i.fingerprint?) :
    Stored (h ++ [.publish j]) (some i) := by
  cases hs with
  | @published before run i hbefore hrun =>
      rw [List.append_assoc, List.cons_append]
      refine .published hbefore fun c hc => ?_
      rcases List.mem_append.mp hc with hc | hc
      · exact hrun c hc
      · exact ⟨j, List.mem_singleton.mp hc, hj⟩

/-- An index begins a run where nothing is stored, or an index of another fingerprint. -/
lemma begun {s : Option Index} (hs : Stored h s) {j : Index}
    (hj : ∀ i, s = some i → i.fingerprint? ≠ j.fingerprint?) :
    Stored (h ++ [.publish j]) (some j) := by
  refine .published (fun k hk => ?_) (List.forall_mem_nil _)
  cases s with
  | none => exact absurd hk (hs.none_last k)
  | some i =>
      obtain ⟨last, hlast, hprint⟩ := hs.some_last
      obtain rfl : k = last := by simpa using hk.symm.trans hlast
      exact hprint ▸ hj i rfl

end Stored

/-! ### One change -/

namespace Registry

variable {r r' : Registry} {h : List Change} {c : Change} {changed : Bool}

lemma get?_remove_self (r : Registry) (s : String) :
    (r.remove (.text s)).1.get? (.text s) = none := by
  simp [get?, remove, List.find?_filter]

lemma get?_remove_other (r : Registry) {s t : String} (hts : t ≠ s) :
    (r.remove (.text s)).1.get? (.text t) = r.get? (.text t) := by
  have hpred : (fun e : Value × Index =>
      decide ((!e.1.same (.text s)) = true ∧ e.1.same (.text t) = true)) =
        fun e => e.1.same (.text t) := by
    funext e
    by_cases ht : e.1 = .text t
    · have hne : (Value.text t).same (.text s) = false := by
        rw [Bool.eq_false_iff, Ne, Value.same_text_left, Value.text.injEq]
        exact hts
      have hself : (Value.text t).same (.text t) = true := Value.same_text_left.mpr rfl
      rw [ht, hne, hself]
      rfl
    · simp [Bool.eq_false_iff.mpr fun h => ht (Value.same_text_right.mp h)]
  rw [get?, remove, List.find?_filter, hpred, get?]

lemma Keyed.remove (hr : r.Keyed) (s : String) : (r.remove (.text s)).1.Keyed := by
  have hsub : ((r.remove (.text s)).1.entries.map (·.1)).Sublist (r.entries.map (·.1)) :=
    List.filter_sublist.map _
  exact ⟨fun k hk => hr.isText k (hsub.subset hk), hr.distinct.sublist hsub⟩

/-- What a history tells of every id is stored there. -/
structure Tells (h : List Change) (r : Registry) : Prop where
  keyed : r.Keyed
  stored : ∀ s, Stored (about s h) (r.get? (.text s))

lemma tells_empty : Tells [] {} where
  keyed := ⟨List.forall_mem_nil _, List.nodup_nil⟩
  stored _ := .nothing

/-- What is stored was published under its id. -/
lemma Tells.mem (ht : Tells h r) {s : String} {i : Index} (hi : r.get? (.text s) = some i) :
    .publish i ∈ h ∧ i.processId = .text s := by
  have hmem : .publish i ∈ about s h := Stored.mem (hi ▸ ht.stored s)
  obtain ⟨hmem, hid⟩ := List.mem_filter.mp hmem
  exact ⟨hmem, Value.same_text_right.mp hid⟩

/-- **One change** that is not refused makes the history longer by itself. -/
lemma Tells.step (ht : Tells h r) (hc : c.Named) (happly : c.apply r = .ok (r', changed)) :
    Tells (h ++ [c]) r' := by
  obtain ⟨s, hs⟩ := hc.subject
  cases c with
  | remove s' =>
      obtain rfl : s' = s := by simpa [Change.subject] using hs
      obtain rfl : (r.remove (.text s')).1 = r' := congrArg Prod.fst (Except.ok.inj happly)
      refine ⟨ht.keyed.remove s', fun t => ?_⟩
      by_cases hts : t = s'
      · subst hts
        rw [Change.about_append_self rfl, get?_remove_self]
        exact .removed
      · rw [Change.about_append_other (by simpa [Change.subject] using Ne.symm hts),
          get?_remove_other r hts]
        exact ht.stored t
  | publish i =>
      change i.processId = .text s at hs
      have hid : i.processId.isText := by rw [hs]; rfl
      refine ⟨ht.keyed.publish hid happly, fun t => ?_⟩
      by_cases hts : t = s
      · subst hts
        rw [Change.about_append_self (c := .publish i) hs]
        have hstored := ht.stored t
        have hpublishes := publishes r i
        rw [show r.publish i = _ from happly] at hpublishes
        -- the run of equal fingerprints goes on, or a new one begins
        cases hpublishes with
        | unchanged hold hbefore hafter =>
            rw [hs] at hold
            rw [hold] at hstored ⊢
            exact hstored.prolonged (hafter.trans hbefore.symm)
        | added hold =>
            rw [← hs, get?_insert hid]
            rw [← hs, hold] at hstored
            exact hstored.begun nofun
        | @replaced old f g hold hbefore hafter hne =>
            rw [← hs, get?_insert hid]
            rw [← hs, hold] at hstored
            refine hstored.begun fun j hj hprint => hne ?_
            obtain rfl := Option.some.inj hj
            exact Except.ok.inj (hbefore.symm.trans (hprint.trans hafter))
      · have hother : i.processId ≠ .text t := by rw [hs]; simpa using Ne.symm hts
        rw [Change.about_append_other (c := .publish i) hother, publish_get?_text happly hother]
        exact ht.stored t

/-! ### A whole run -/

/-- Of changes one after another, those that are not refused. -/
def accepted (r : Registry) : List Change → List Change
  | [] => []
  | c :: cs => match c.apply r with
    | .ok (r', _) => c :: accepted r' cs
    | .error _ => accepted r cs

/-- The registry after changes one after another; one that is refused leaves it as it is. -/
def following (r : Registry) : List Change → Registry
  | [] => r
  | c :: cs => match c.apply r with
    | .ok (r', _) => following r' cs
    | .error _ => following r cs

/-- **A whole run** makes the history longer by the changes that are not refused. -/
lemma Tells.run : ∀ {cs h r}, Tells h r → (∀ c ∈ cs, c.Named) →
    Tells (h ++ accepted r cs) (following r cs) := by
  intro cs
  induction cs with
  | nil =>
      intro h r ht _
      rwa [accepted, List.append_nil]
  | cons c cs ih =>
      intro h r ht hcs
      obtain ⟨hc, hcs⟩ := List.forall_mem_cons.mp hcs
      rcases happly : c.apply r with e | ⟨r', changed⟩
      · simp only [accepted, following, happly]
        exact ih ht hcs
      · simp only [accepted, following, happly]
        rw [List.append_cons]
        exact ih (ht.step hc happly) hcs

lemma accepted_subset : ∀ {cs r}, ∀ c ∈ accepted r cs, c ∈ cs := by
  intro cs
  induction cs with
  | nil => exact fun c hc => hc
  | cons d cs ih =>
      intro r c hc
      rcases happly : d.apply r with e | ⟨r', changed⟩
      · simp only [accepted, happly] at hc
        exact .tail _ (ih c hc)
      · simp only [accepted, happly, List.mem_cons] at hc
        rcases hc with rfl | hc
        · exact .head _
        · exact .tail _ (ih c hc)

/-- **When a publication is refused**: an index is stored under its id, and one of both has a name
that cannot be encoded. -/
lemma Tells.refused_iff (ht : Tells h r) (hh : ∀ c ∈ h, c.Named) {i : Index}
    (hi : ∀ v ∈ i.names, v.isText) : (∃ e, r.publish i = .error e) ↔
      ∃ old, r.get? i.processId = some old ∧ ¬(old.Legible ∧ i.Legible) := by
  obtain ⟨s, hs⟩ := Value.isText_iff.mp (hi i.processId (by simp [Index.names]))
  rw [publish_refused_iff (by rw [hs, Value.hashable_text])]
  refine exists_congr fun old => and_congr_right fun hold => ?_
  have hold' : ∀ v ∈ old.names, v.isText := hh _ (ht.mem (hs ▸ hold)).1
  rw [Index.fingerprinted_iff hold', Index.fingerprinted_iff hi]

/-- Of changes whose names can be encoded none is refused. -/
lemma Tells.accepted_eq : ∀ {cs h r}, Tells h r → (∀ c ∈ h, c.Legible) → (∀ c ∈ h, c.Named) →
    (∀ c ∈ cs, c.Legible) → (∀ c ∈ cs, c.Named) → accepted r cs = cs := by
  intro cs
  induction cs with
  | nil => exact fun _ _ _ _ _ => rfl
  | cons c cs ih =>
      intro h r ht hlegible hnamed hcs hcs'
      obtain ⟨hc, hcs⟩ := List.forall_mem_cons.mp hcs
      obtain ⟨hc', hcs'⟩ := List.forall_mem_cons.mp hcs'
      rcases happly : c.apply r with e | ⟨r', changed⟩
      · cases c with
        | remove s => cases happly
        | publish i =>
            obtain ⟨old, hold, hno⟩ := (ht.refused_iff hnamed hc').mp ⟨e, happly⟩
            obtain ⟨s, hs⟩ := hc'.subject
            exact absurd ⟨hlegible _ (ht.mem ((congrArg _ hs).symm.trans hold)).1, hc⟩ hno
      · simp only [accepted, happly]
        rw [ih (ht.step hc' happly)
          (List.forall_mem_append.mpr ⟨hlegible, List.forall_mem_singleton.mpr hc⟩)
          (List.forall_mem_append.mpr ⟨hnamed, List.forall_mem_singleton.mpr hc'⟩) hcs hcs']

/-! ### The queries -/

/-- The queries of a registry all speak of one list: its indexes, once each, in strictly increasing
order of their ids. -/
structure Views (r : Registry) (is : List Index) : Prop where
  all : r.all = .ok is
  ascending : is.Pairwise fun i j => Value.less? i.processId j.processId = some true
  mem : ∀ i, i ∈ is ↔ i.processId.isText ∧ r.get? i.processId = some i
  size : r.size = is.length
  contains : ∀ s, r.contains (.text s) = true ↔ ∃ i ∈ is, i.processId = .text s
  getByName : ∀ n, ∃ found, r.getByName n = .ok found ∧ found.Sublist is ∧
    ∀ i, i ∈ found ↔ i ∈ is ∧ i.processName = .text n
  stats : r.stats = .ok {
    processes := is.length
    parts := (is.map fun i => i.parts.length).sum
    shared := (is.map fun i => i.shared.length).sum
    resourceRefs := (is.map fun i => i.resourceRefs.length).sum }

/-- What stands under an id has it. -/
def Titled (r : Registry) : Prop := ∀ s i, r.get? (.text s) = some i → i.processId = .text s

lemma Titled.key (hr : r.Titled) (hkeyed : r.Keyed) {e : Value × Index} (he : e ∈ r.entries) :
    e.2.processId = e.1 := by
  obtain ⟨htext, hget⟩ := hkeyed.mem_iff.mp he
  obtain ⟨s, hs⟩ := Value.isText_iff.mp htext
  rw [hs] at hget ⊢
  exact hr s e.2 hget

lemma foldl_add_eq_sum {α : Type} (size : α → Nat) (xs : List α) :
    xs.foldl (fun n x => n + size x) 0 = (xs.map size).sum := by
  rw [List.sum_eq_foldl, List.foldl_map]

/-- The indexes in the order of their ids. -/
def inOrder (r : Registry) : List Index :=
  (Value.orderedBy (fun e : Value × Index => e.1.codes) r.entries).map (·.2)

lemma Keyed.all_eq (hr : r.Keyed) : r.all = .ok r.inOrder := by
  have hcompares : Value.ComparesBy (fun a b : Value × Index => Value.less? a.1 b.1)
      (fun e => e.1.codes) r.entries := fun a ha b hb =>
    Value.comparesBy_codes hr.isText a.1 (List.mem_map_of_mem ha) b.1 (List.mem_map_of_mem hb)
  rw [all, Value.sortBy?_eq hcompares]
  rfl

lemma mem_inOrder (hr : r.Keyed) (htitled : r.Titled) {i : Index} :
    i ∈ r.inOrder ↔ i.processId.isText ∧ r.get? i.processId = some i := by
  have hperm := Value.orderedBy_perm (fun e : Value × Index => e.1.codes) r.entries
  rw [inOrder, List.mem_map, ← hr.mem_iff]
  constructor
  · rintro ⟨e, he, rfl⟩
    have he' := hperm.mem_iff.mp he
    rw [htitled.key hr he']
    exact he'
  · exact fun hi => ⟨_, hperm.mem_iff.mpr hi, rfl⟩

lemma ascending_inOrder (hr : r.Keyed) (htitled : r.Titled) :
    r.inOrder.Pairwise fun i j => Value.less? i.processId j.processId = some true := by
  have hperm := Value.orderedBy_perm (fun e : Value × Index => e.1.codes) r.entries
  have hdistinct : (Value.orderedBy (fun e : Value × Index => e.1.codes) r.entries).Pairwise
      fun a b => a.1 ≠ b.1 :=
    List.pairwise_map.mp ((hperm.map Prod.fst).nodup_iff.mpr hr.distinct)
  refine List.pairwise_map.mpr (List.Pairwise.imp_of_mem ?_
    ((Value.pairwise_orderedBy (fun e : Value × Index => e.1.codes) r.entries).and hdistinct))
  rintro a b ha hb ⟨hle, hne⟩
  have ha' := hperm.mem_iff.mp ha
  have hb' := hperm.mem_iff.mp hb
  have hatext := hr.isText _ (List.mem_map_of_mem ha')
  have hbtext := hr.isText _ (List.mem_map_of_mem hb')
  -- different ids have different keys
  have hlt : a.1.codes < b.1.codes :=
    lt_of_le_of_ne hle fun heq => hne (Value.codes_inj_of_text hatext hbtext heq)
  rw [htitled.key hr ha', htitled.key hr hb',
    Value.comparesBy_codes hr.isText a.1 (List.mem_map_of_mem ha') b.1 (List.mem_map_of_mem hb')]
  exact congrArg some (@decide_eq_true _ (_) hlt)

/-- **The queries agree**: each speaks of the indexes in the order of their ids. -/
lemma Keyed.views (hr : r.Keyed) (htitled : r.Titled) : r.Views r.inOrder where
  all := hr.all_eq
  ascending := ascending_inOrder hr htitled
  mem i := mem_inOrder hr htitled
  size := by
    rw [size, inOrder, List.length_map, (Value.orderedBy_perm _ _).length_eq]
  contains s := by
    rw [contains, Option.isSome_iff_exists]
    constructor
    · rintro ⟨i, hi⟩
      have hid := htitled s i hi
      exact ⟨i, (mem_inOrder hr htitled).mpr ⟨by rw [hid]; rfl, by rw [hid, hi]⟩, hid⟩
    · rintro ⟨i, hi, hid⟩
      exact ⟨i, hid ▸ ((mem_inOrder hr htitled).mp hi).2⟩
  getByName n := by
    refine ⟨_, by rw [getByName, hr.all_eq]; rfl, List.filter_sublist, fun i => ?_⟩
    rw [List.mem_filter, Value.same_text_right]
  stats := by
    rw [stats, hr.all_eq]
    simp only [bind, Except.bind, foldl_add_eq_sum]
    rfl

/-! ### Faithful registries -/

/-- A registry is the map that a history of changes describes: it holds what the changes of each id
tell, answers a further change by what it holds and changes the entry of that id only, and its
queries speak of what it holds. -/
structure Faithful (h : List Change) (r : Registry) : Prop where
  present : ∀ s, r.contains (.text s) = true ↔ ∃ i, (about s h).getLast? = some (.publish i)
  stored : ∀ s, Stored (about s h) (r.get? (.text s))
  latest : ∀ s i, r.get? (.text s) = some i → i.processId = .text s ∧
    ∃ j, (about s h).getLast? = some (.publish j) ∧ i.fingerprint? = j.fingerprint?
  refused : ∀ i, (Change.publish i).Named → ((∃ e, r.publish i = .error e) ↔
    ∃ old, r.get? i.processId = some old ∧ ¬(old.Legible ∧ i.Legible))
  published : ∀ i r' changed, (Change.publish i).Named → r.publish i = .ok (r', changed) →
    (changed = true ↔
      ∀ old, r.get? i.processId = some old → old.fingerprint? ≠ i.fingerprint?) ∧
    ∀ s, i.processId ≠ .text s → r'.get? (.text s) = r.get? (.text s)
  removed : ∀ s, ((r.remove (.text s)).2 = true ↔ r.contains (.text s) = true) ∧
    ∀ t, t ≠ s → (r.remove (.text s)).1.get? (.text t) = r.get? (.text t)
  views : ∃ is, r.Views is

lemma publish_changed_iff (h : r.publish i = .ok (r', changed)) : changed = true ↔
    ∀ old, r.get? i.processId = some old → old.fingerprint? ≠ i.fingerprint? := by
  have hpublishes := publishes r i
  rw [h] at hpublishes
  cases hpublishes with
  | added hold => exact iff_of_true rfl fun old hold' => (nomatch hold.symm.trans hold')
  | unchanged hold hbefore hafter =>
      exact iff_of_false Bool.false_ne_true fun hall => hall _ hold (hbefore.trans hafter.symm)
  | replaced hold hbefore hafter hne =>
      refine iff_of_true rfl fun old hold' hprint => hne ?_
      obtain rfl := Option.some.inj (hold.symm.trans hold')
      exact Except.ok.inj (hbefore.symm.trans (hprint.trans hafter))

/-- A registry that holds what a history tells is the map that the history describes. -/
lemma Tells.faithful (ht : Tells h r) (hh : ∀ c ∈ h, c.Named) : Faithful h r where
  present s := by
    have hstored := ht.stored s
    rw [contains]
    rcases hget : r.get? (.text s) with _ | i <;> rw [hget] at hstored
    · exact iff_of_false Bool.false_ne_true fun ⟨j, hj⟩ => hstored.none_last j hj
    · obtain ⟨j, hj, -⟩ := hstored.some_last
      exact iff_of_true rfl ⟨j, hj⟩
  stored := ht.stored
  latest s i hi := ⟨(ht.mem hi).2, Stored.some_last (hi ▸ ht.stored s)⟩
  refused _ hi := ht.refused_iff hh hi
  published _ _ _ _ hpublish :=
    ⟨publish_changed_iff hpublish, fun _ hs => publish_get?_text hpublish hs⟩
  removed s := ⟨Iff.rfl, fun _ hts => get?_remove_other r hts⟩
  views := ⟨_, ht.keyed.views fun _ _ hi => (ht.mem hi).2⟩

/-- **Whole runs.** After any publications and removals the registry is the map that the history of
those that were not refused describes. None is refused if all names can be encoded. -/
theorem faithful_run (cs : List Change) (hcs : ∀ c ∈ cs, c.Named) :
    ((∀ c ∈ cs, c.Legible) → accepted {} cs = cs) ∧
      Faithful (accepted {} cs) (following {} cs) := by
  have hrun : Tells (accepted {} cs) (following {} cs) := tells_empty.run hcs
  constructor
  · intro hlegible
    exact tells_empty.accepted_eq (List.forall_mem_nil _) (List.forall_mem_nil _) hlegible hcs
  · exact hrun.faithful fun c hc => hcs c (accepted_subset c hc)

lemma named_ofParts (x y : String) : (Change.publish (.ofParts x y [])).Named := by
  change ∀ v ∈ (Index.ofParts x y []).names, v.isText
  rw [Index.names_ofParts]
  simp [Value.isText, Value.text?]

theorem faithful_run_pair :
    let cs := [.publish (.ofParts "P" "n" []), .publish (.ofParts "Q" "n" []), .remove "P"]
    (∀ c ∈ cs, c.Named) ∧ (∀ c ∈ cs, c.Legible) ∧ accepted {} cs = cs ∧
      Faithful cs (following {} cs) := by
  intro cs
  have hnamed : ∀ c ∈ cs, c.Named :=
    List.forall_mem_cons.mpr ⟨named_ofParts "P" "n",
      List.forall_mem_cons.mpr ⟨named_ofParts "Q" "n", List.forall_mem_singleton.mpr trivial⟩⟩
  have hlegible : ∀ c ∈ cs, c.Legible :=
    List.forall_mem_cons.mpr ⟨Index.legible_ofParts (by decide) (by decide),
      List.forall_mem_cons.mpr ⟨Index.legible_ofParts (by decide) (by decide),
        List.forall_mem_singleton.mpr trivial⟩⟩
  obtain ⟨hall, hfaithful⟩ := faithful_run cs hnamed
  rw [hall hlegible] at hfaithful
  exact ⟨hnamed, hlegible, hall hlegible, hfaithful⟩

lemma named_halfIndex : (Change.publish Pipeline.halfIndex).Named := by
  obtain ⟨F, hshows⟩ := Pipeline.made_shows Pipeline.textual_halfSignal Pipeline.made_halfSignal
  exact hshows.names_isText rfl rfl

/-- **An index with a name that cannot be encoded** has no fingerprint that another one could be
compared with: it stays, although another index of its id is published last. -/
theorem run_refuses_half :
    let cs := [.publish Pipeline.halfIndex, .publish (.ofParts "P" "n" [])]
    (∀ c ∈ cs, c.Named) ∧
      (about "P" cs).getLast? = some (.publish (.ofParts "P" "n" [])) ∧
      (following {} cs).get? (.text "P") = some Pipeline.halfIndex ∧
      Pipeline.halfIndex.fingerprint? ≠ (Index.ofParts "P" "n" []).fingerprint? := by
  intro cs
  have hunprinted : ¬Pipeline.halfIndex.Fingerprinted := fun h =>
    Pipeline.not_legible_halfIndex ((Index.fingerprinted_iff named_halfIndex).mp h)
  have hprinted : (Index.ofParts "P" "n" []).Fingerprinted :=
    (Index.legible_ofParts (by decide) (by decide)).fingerprinted
  -- the first index is stored, the second one is refused
  have hfirst : Registry.publish {} Pipeline.halfIndex =
      .ok (Registry.insert {} Pipeline.halfIndex, true) := rfl
  have hstored : (Registry.insert {} Pipeline.halfIndex).get? (.text "P") =
      some Pipeline.halfIndex := get?_insert (i := Pipeline.halfIndex) rfl
  obtain ⟨e, hsecond⟩ := (publish_refused_iff (i := .ofParts "P" "n" [])
    (Value.hashable_text "P")).mpr ⟨_, hstored, fun h => hunprinted h.1⟩
  have hfollowing : following {} cs = Registry.insert {} Pipeline.halfIndex := by
    simp only [cs, following, Change.apply, hfirst, hsecond]
  refine ⟨?_, ?_, by rw [hfollowing, hstored], fun heq => ?_⟩
  · exact List.forall_mem_cons.mpr ⟨named_halfIndex,
      List.forall_mem_singleton.mpr (named_ofParts "P" "n")⟩
  · have happend : cs = [.publish Pipeline.halfIndex] ++ [.publish (.ofParts "P" "n" [])] := rfl
    rw [happend, Change.about_append_self rfl, List.getLast?_concat]
  · obtain ⟨f, hf⟩ := hprinted
    exact hunprinted ⟨f, heq.trans hf⟩

end Registry

end Concordance
