import Mathlib.Tactic
import Concordance.Proofs.Acceptance

/-!
Which dialect owns which key, over whole runs of registrations.

* `DialectChange` : a dialect is registered, or the one of a name is removed.
  `DialectRegistry.accepted` and `DialectRegistry.following` : of changes one after another those
  that are not refused, and the registry that they leave.
* `DialectChange.standing n past` : what the changes `past`, the latest first, say of a name: since
  which change it has been registered without a break, and the contributor registered last.
* `DialectRegistry.Tells past r` : the changes tell of every name what the registry holds under it,
  and the keys belong to the contributors that hold them. `DialectRegistry.Tells.step` is one
  change, `DialectRegistry.Tells.run` a whole run, by induction on the changes.
* `DialectRegistry.ownership_run` : after every run, however the registry began, each key is owned
  by the dialect that reads it, the names stand in the order in which they came, and a registration
  is refused exactly if a key of it is owned by another dialect.
-/

namespace Concordance

/-! ### Histories of names -/

/-- What is done to a registry of dialects: a contributor is registered, or the one of a name is
removed. -/
inductive DialectChange where
  | register (c : Contributor)
  | unregister (name : String)
  deriving DecidableEq, Repr

namespace DialectChange

/-- The registry after a change, and what the change answers; one that is refused leaves the
registry as it is. -/
def apply (r : DialectRegistry) : DialectChange → DialectRegistry × Answer Bool
  | register c => match r.register c with
    | .ok r' => (r', .ok true)
    | .error e => (r, .error e)
  | unregister name => ((r.unregister name).1, .ok (r.unregister name).2)

/-- What changes, the latest first, say of a name: since which of them it has been registered
without a break, and the contributor that was registered last. -/
def standing (n : String) : List DialectChange → Option (ℕ × Contributor)
  | [] => none
  | register c :: past =>
    if c.name = n then some (((standing n past).map (·.1)).getD past.length, c)
    else standing n past
  | unregister m :: past => if m = n then none else standing n past

/-- Since which change a name has been registered without a break. -/
def since? (n : String) (past : List DialectChange) : Option ℕ := (standing n past).map (·.1)

/-- The contributor that was registered last under a name, unless it was removed. -/
def current? (n : String) (past : List DialectChange) : Option Contributor :=
  (standing n past).map (·.2)

variable {n : String} {past : List DialectChange} {c : Contributor} {i : ℕ}

lemma current?_register :
    current? n (register c :: past) = if c.name = n then some c else current? n past := by
  rw [current?, standing]
  split
  · rfl
  · rfl

lemma since?_register : since? n (register c :: past) =
    if c.name = n then some ((since? n past).getD past.length) else since? n past := by
  rw [since?, standing]
  split
  · rfl
  · rfl

lemma current?_unregister {m : String} :
    current? n (unregister m :: past) = if m = n then none else current? n past := by
  rw [current?, standing]
  split
  · rfl
  · rfl

lemma since?_unregister {m : String} :
    since? n (unregister m :: past) = if m = n then none else since? n past := by
  rw [since?, standing]
  split
  · rfl
  · rfl

lemma isSome_since? : (since? n past).isSome = (current? n past).isSome := by
  rw [since?, current?, Option.isSome_map, Option.isSome_map]

/-- A name has been registered since a change that was made. -/
lemma since?_lt (h : since? n past = some i) : i < past.length := by
  induction past generalizing i with
  | nil => cases h
  | cons change past ih =>
      rw [List.length_cons]
      cases change with
      | register d =>
          rw [since?_register] at h
          split at h
          · rcases hsince : since? n past with _ | j <;> rw [hsince] at h
            · cases h
              exact Nat.lt_succ_self _
            · cases h
              exact (ih hsince).trans (Nat.lt_succ_self _)
          · exact (ih h).trans (Nat.lt_succ_self _)
      | unregister m =>
          rw [since?_unregister] at h
          split at h
          · cases h
          · exact (ih h).trans (Nat.lt_succ_self _)

end DialectChange

open DialectChange (since? current?)

/-! ### One change -/

namespace DialectRegistry

variable {r r' : DialectRegistry} {c d : Contributor} {k m n : String} {e : Fault}
  {past : List DialectChange}

lemma find?_place (c : Contributor) (ds : List Contributor) :
    (place c ds).find? (·.name == n) = if c.name = n then some c else ds.find? (·.name == n) := by
  have hcons : ∀ d (ds : List Contributor), (d :: ds).find? (·.name == n) =
      if d.name = n then some d else ds.find? (·.name == n) := fun d ds => by
    by_cases hd : d.name = n
    · rw [if_pos hd, List.find?_cons_of_pos (by simpa using hd)]
    · rw [if_neg hd, List.find?_cons_of_neg (by simpa using hd)]
  induction ds with
  | nil => rw [place, hcons]
  | cons d ds ih =>
      rw [place]
      by_cases hd : d.name = c.name
      · rw [if_pos (by simpa using hd), hcons, hcons, hd]
        split
        · rfl
        · rfl
      · rw [if_neg (by simpa using hd), hcons, hcons, ih]
        by_cases hc : c.name = n
        · have hdn : ¬d.name = n := fun h => hd (h.trans hc.symm)
          rw [if_neg hdn, if_pos hc, if_pos hc]
        · rw [if_neg hc, if_neg hc]

/-- A contributor takes the place of the one with its name, or the last place. -/
lemma map_name_place (c : Contributor) (ds : List Contributor) :
    (place c ds).map (·.name) =
      if c.name ∈ ds.map (·.name) then ds.map (·.name) else ds.map (·.name) ++ [c.name] := by
  induction ds with
  | nil => rfl
  | cons d ds ih =>
      rw [place]
      by_cases hd : d.name = c.name
      · rw [if_pos (by simpa using hd), if_pos (by simp [hd]), List.map_cons, List.map_cons, hd]
      · rw [if_neg (by simpa using hd), List.map_cons, ih]
        have hcd : ¬c.name = d.name := fun h => hd h.symm
        by_cases hmem : c.name ∈ ds.map (·.name)
        · rw [if_pos hmem, if_pos (by simpa using .inr (by simpa using hmem)), List.map_cons]
        · rw [if_neg hmem, if_neg (by simpa [hcd] using hmem), List.map_cons, List.cons_append]

lemma find?_isSome : (r.find? n).isSome = true ↔ n ∈ r.names := by
  simp [find?, names]

lemma find?_name (h : r.find? n = some c) : c.name = n := by
  simpa using List.find?_some h

/-- **When a registration is refused**: a key of it is owned by another dialect. -/
lemma register_refused_iff : (∃ e, r.register c = .error e) ↔
    ∃ k ∈ c.keys, ∃ n, r.ownerOf k = some n ∧ n ≠ c.name := by
  have htaken : (∃ x, r.taken? c = some x) ↔
      ∃ k ∈ c.keys, ∃ n, r.ownerOf k = some n ∧ n ≠ c.name := by
    rw [← Option.isSome_iff_exists, taken?, List.isSome_findSome?, List.any_eq_true]
    refine exists_congr fun k => and_congr_right fun _ => ?_
    rcases r.ownerOf k with _ | n
    · simp
    · by_cases hn : n = c.name
      · simp [hn]
      · simp [hn]
  rw [← htaken, register]
  rcases r.taken? c with _ | x
  · simp
  · simp

/-- The refusal names the key, its owner and the dialect that claims it. -/
lemma register_error (h : r.register c = .error e) :
    ∃ k ∈ c.keys, ∃ n, r.ownerOf k = some n ∧ n ≠ c.name ∧ e = .keyTaken k n c.name := by
  rw [register] at h
  rcases htaken : r.taken? c with _ | ⟨k, n⟩ <;> rw [htaken] at h
  · cases h
  · cases h
    rw [taken?] at htaken
    obtain ⟨l, hl, hfound⟩ := List.exists_of_findSome?_eq_some htaken
    obtain ⟨owner, howner, hother⟩ := Option.bind_eq_some_iff.mp hfound
    split at hother
    · cases hother
    · next hne =>
        cases hother
        exact ⟨k, hl, n, howner, by simpa using hne, rfl⟩

/-- A registration that is not refused. -/
lemma eq_of_register (h : r.register c = .ok r') :
    r'.contributors = place c r.contributors ∧
      r'.owners = (r.owners.filter fun o =>
        !(((r.find? c.name).map Contributor.keys).getD []).contains o.1 && !c.keys.contains o.1) ++
          c.keys.eraseDups.map fun key => (key, c.name) := by
  rw [register] at h
  split at h
  · cases h
  · cases h
    exact ⟨rfl, rfl⟩

/-- Of the keys of a contributor that is replaced none stays owned, unless it is claimed anew. -/
lemma mem_owners_register (h : r.register c = .ok r') : (k, n) ∈ r'.owners ↔
    (k ∈ c.keys ∧ n = c.name) ∨
      ((k, n) ∈ r.owners ∧ k ∉ c.keys ∧ ∀ d, r.find? c.name = some d → k ∉ d.keys) := by
  have hold : k ∉ ((r.find? c.name).map Contributor.keys).getD [] ↔
      ∀ d, r.find? c.name = some d → k ∉ d.keys := by
    rcases r.find? c.name with _ | d
    · simp
    · simp
  rw [(eq_of_register h).2, List.mem_append, List.mem_filter, List.mem_map, ← hold]
  simp only [List.mem_eraseDups, Prod.mk.injEq, List.contains_iff_mem, Bool.and_eq_true,
    Bool.not_eq_true', Bool.eq_false_iff, Ne]
  constructor
  · rintro (⟨hmem, hnot, hkey⟩ | ⟨l, hl, rfl, rfl⟩)
    · exact .inr ⟨hmem, hkey, hnot⟩
    · exact .inl ⟨hl, rfl⟩
  · rintro (⟨hk, rfl⟩ | ⟨hmem, hkey, hnot⟩)
    · exact .inr ⟨k, hk, rfl, rfl⟩
    · exact .inl ⟨hmem, hnot, hkey⟩

lemma keyedOnce_register (h : r.register c = .ok r') (hr : (r.owners.map (·.1)).Nodup) :
    (r'.owners.map (·.1)).Nodup := by
  rw [(eq_of_register h).2, List.map_append, List.map_map]
  refine List.nodup_append.mpr ⟨hr.sublist (List.filter_sublist.map _), ?_, ?_⟩
  · have hkeys : c.keys.eraseDups.map (Prod.fst ∘ fun key => (key, c.name)) = c.keys.eraseDups :=
      List.map_id _
    rw [hkeys]
    exact Text.nodup_eraseDups _
  · rintro k hk l hl rfl
    obtain ⟨o, ho, rfl⟩ := List.mem_map.mp hk
    obtain ⟨l, hl, heq⟩ := List.mem_map.mp hl
    have hfree := (List.mem_filter.mp ho).2
    rw [Bool.and_eq_true, Bool.not_eq_true', Bool.not_eq_true'] at hfree
    have hclaimed : c.keys.contains o.1 = true := by
      rw [List.contains_iff_mem, ← heq]
      exact List.mem_eraseDups.mp hl
    exact Bool.noConfusion (hclaimed.symm.trans hfree.2)

lemma find?_register (h : r.register c = .ok r') (n : String) :
    r'.find? n = if c.name = n then some c else r.find? n := by
  rw [find?, (eq_of_register h).1, find?_place]
  rfl

lemma names_register (h : r.register c = .ok r') :
    r'.names = if c.name ∈ r.names then r.names else r.names ++ [c.name] := by
  rw [names, (eq_of_register h).1, map_name_place]
  rfl

lemma find?_unregister (r : DialectRegistry) (m n : String) :
    (r.unregister m).1.find? n = if m = n then none else r.find? n := by
  rw [unregister]
  rcases hm : r.find? m with _ | c
  · by_cases hmn : m = n
    · rw [if_pos hmn, ← hmn]
      exact hm
    · rw [if_neg hmn]
  · simp only [find?, List.find?_filter]
    by_cases hmn : m = n
    · rw [if_pos hmn, List.find?_eq_none]
      rintro d -
      simp [hmn]
    · rw [if_neg hmn]
      congr 1
      funext d
      by_cases hd : d.name = n
      · simp [hd, Ne.symm hmn]
      · simp [hd]

lemma names_unregister (r : DialectRegistry) (m : String) :
    (r.unregister m).1.names = r.names.filter (· != m) := by
  rw [unregister]
  rcases hm : r.find? m with _ | c
  · have hno : m ∉ r.names := fun hmem => by
      rw [← find?_isSome, hm] at hmem
      cases hmem
    refine (List.filter_eq_self.mpr fun n hn => ?_).symm
    have hne : n ≠ m := fun heq => hno (heq ▸ hn)
    simpa using hne
  · rw [names, names, List.filter_map]
    rfl

/-- The keys of a contributor that is removed are free. -/
lemma mem_owners_unregister (r : DialectRegistry) (m : String) :
    (k, n) ∈ (r.unregister m).1.owners ↔
      (k, n) ∈ r.owners ∧ ¬(n = m ∧ ∃ c, r.find? m = some c ∧ k ∈ c.keys) := by
  rw [unregister]
  rcases r.find? m with _ | c
  · simp
  · simp [List.mem_filter]
    tauto

/-- What changes tell of every name is registered under it, and every key is owned by the
contributor that holds it. -/
structure Tells (past : List DialectChange) (r : DialectRegistry) : Prop where
  found : ∀ n, r.find? n = current? n past
  distinct : r.names.Nodup
  ordered : r.names.Pairwise fun m n =>
    ∀ i ∈ since? m past, ∀ j ∈ since? n past, i < j
  keyedOnce : (r.owners.map (·.1)).Nodup
  owned : ∀ k n, (k, n) ∈ r.owners ↔ ∃ c, r.find? n = some c ∧ k ∈ c.keys

namespace Tells

lemma empty : Tells [] {} where
  found _ := rfl
  distinct := List.nodup_nil
  ordered := .nil
  keyedOnce := List.nodup_nil
  owned _ _ := iff_of_false List.not_mem_nil nofun

variable (h : Tells past r)
include h

/-- **Each key is owned by the dialect that reads it.** -/
lemma ownerOf_iff : r.ownerOf k = some n ↔ ∃ c, r.find? n = some c ∧ k ∈ c.keys := by
  rw [← h.owned, ownerOf, Option.map_eq_some_iff]
  constructor
  · rintro ⟨o, ho, rfl⟩
    have hkey : o.1 = k := by simpa using List.find?_some ho
    exact hkey ▸ List.mem_of_find?_eq_some ho
  · intro hmem
    rcases ho : r.owners.find? (·.1 == k) with _ | o
    · exact absurd (List.find?_eq_none.mp ho _ hmem) (by simp)
    · have hkey : o.1 = k := by simpa using List.find?_some ho
      exact ⟨o, ho, congrArg Prod.snd
        (List.inj_on_of_nodup_map h.keyedOnce (List.mem_of_find?_eq_some ho) hmem hkey)⟩

/-- No key is read under two names. -/
lemma name_eq_of_key (hc : r.find? m = some c) (hd : r.find? n = some d) (hkc : k ∈ c.keys)
    (hkd : k ∈ d.keys) : m = n :=
  Option.some.inj ((h.ownerOf_iff.mpr ⟨c, hc, hkc⟩).symm.trans (h.ownerOf_iff.mpr ⟨d, hd, hkd⟩))

lemma mem_names_iff : n ∈ r.names ↔ (since? n past).isSome := by
  rw [DialectChange.isSome_since?, ← h.found, find?_isSome]

/-- A registration that is not refused. -/
lemma register (hreg : r.register c = .ok r') : Tells (.register c :: past) r' where
  found n := by
    rw [find?_register hreg, DialectChange.current?_register, h.found]
  distinct := by
    rw [names_register hreg]
    split
    · exact h.distinct
    · next hnew => exact List.nodup_append.mpr ⟨h.distinct, List.nodup_singleton _, by
        rintro m hm n hn rfl
        exact hnew (List.mem_singleton.mp hn ▸ hm)⟩
  ordered := by
    -- a name that was there keeps its number, and a new one gets the highest
    have hsince : ∀ m ∈ r.names, since? m (.register c :: past) = since? m past := fun m hm => by
      rw [DialectChange.since?_register]
      split
      · obtain ⟨i, hi⟩ := Option.isSome_iff_exists.mp (h.mem_names_iff.mp hm)
        rw [hi]
        rfl
      · rfl
    have hold : r.names.Pairwise fun m n =>
        ∀ i ∈ since? m (.register c :: past), ∀ j ∈ since? n (.register c :: past), i < j :=
      h.ordered.imp_of_mem fun hm hn hlt => by rwa [hsince _ hm, hsince _ hn]
    rw [names_register hreg]
    split
    · exact hold
    · next hnew =>
        refine List.pairwise_append.mpr ⟨hold, List.pairwise_singleton _ _, fun m hm n hn => ?_⟩
        obtain rfl := List.mem_singleton.mp hn
        have hnone : since? c.name past = none := by
          rw [← Option.not_isSome_iff_eq_none, ← h.mem_names_iff]
          exact hnew
        rw [hsince m hm, DialectChange.since?_register, if_pos rfl, hnone]
        rintro i hi j hj
        cases hj
        exact DialectChange.since?_lt hi
  keyedOnce := keyedOnce_register hreg h.keyedOnce
  owned k n := by
    have hown : k ∈ c.keys → ∀ n, r.ownerOf k = some n → n = c.name := fun hk n hn => by
      by_contra hne
      obtain ⟨e, he⟩ := register_refused_iff.mpr ⟨k, hk, n, hn, hne⟩
      cases hreg.symm.trans he
    rw [mem_owners_register hreg, h.owned, find?_register hreg]
    by_cases hn : c.name = n
    · subst hn
      simp only [if_true, Option.some.injEq, exists_eq_left']
      constructor
      · rintro (⟨hk, -⟩ | ⟨⟨d, hd, hkd⟩, -, hfree⟩)
        · exact hk
        · exact absurd hkd (hfree d hd)
      · exact fun hk => .inl ⟨hk, trivial⟩
    · rw [if_neg hn]
      constructor
      · rintro (⟨-, rfl⟩ | ⟨hd, -⟩)
        · exact absurd rfl hn
        · exact hd
      · rintro ⟨d, hd, hkd⟩
        refine .inr ⟨⟨d, hd, hkd⟩, fun hk => ?_, fun o ho hko => ?_⟩
        · exact hn (hown hk n (h.ownerOf_iff.mpr ⟨d, hd, hkd⟩)).symm
        · exact hn (h.name_eq_of_key ho hd hko hkd)

/-- A removal. -/
lemma unregister (m : String) : Tells (.unregister m :: past) (r.unregister m).1 where
  found n := by
    rw [find?_unregister, DialectChange.current?_unregister, h.found]
  distinct := by
    rw [names_unregister]
    exact h.distinct.filter _
  ordered := by
    have hsince : ∀ n ∈ r.names.filter (· != m),
        since? n (.unregister m :: past) = since? n past := fun n hn => by
      have hne : n ≠ m := by simpa using (List.mem_filter.mp hn).2
      rw [DialectChange.since?_unregister, if_neg hne.symm]
    rw [names_unregister]
    exact (h.ordered.filter _).imp_of_mem fun hm hn hlt => by rwa [hsince _ hm, hsince _ hn]
  keyedOnce := by
    rw [DialectRegistry.unregister]
    split
    · exact h.keyedOnce
    · exact h.keyedOnce.sublist (List.filter_sublist.map _)
  owned k n := by
    rw [mem_owners_unregister, h.owned, find?_unregister]
    by_cases hn : m = n
    · subst hn
      simp
    · simp [hn, Ne.symm hn]

/-- **One change.** -/
lemma step (change : DialectChange) (hok : (change.apply r).2.isOk) :
    Tells (change :: past) (change.apply r).1 := by
  cases change with
  | register c =>
      rw [DialectChange.apply] at hok ⊢
      rcases hreg : r.register c with e | r' <;> rw [hreg] at hok
      · cases hok
      · exact h.register hreg
  | unregister m => exact h.unregister m

/-! ### Runs of changes -/

end Tells

/-- Of changes one after another those that are not refused. -/
def accepted (r : DialectRegistry) : List DialectChange → List DialectChange
  | [] => []
  | change :: changes =>
    if (change.apply r).2.isOk then change :: accepted (change.apply r).1 changes
    else accepted (change.apply r).1 changes

/-- The registry after changes one after another. -/
def following (r : DialectRegistry) (changes : List DialectChange) : DialectRegistry :=
  changes.foldl (fun r change => (change.apply r).1) r

/-- A registration that is refused changes nothing. -/
lemma apply_refused {change : DialectChange} (h : ¬(change.apply r).2.isOk) :
    (change.apply r).1 = r := by
  cases change with
  | register c =>
      rw [DialectChange.apply] at h ⊢
      rcases hreg : r.register c with e | r' <;> rw [hreg] at h
      exact absurd rfl h
  | unregister m => exact absurd rfl h

/-- **A whole run**, by induction on the changes. -/
lemma Tells.run (h : Tells past r) : ∀ changes : List DialectChange,
    Tells ((accepted r changes).reverse ++ past) (following r changes) := by
  intro changes
  induction changes generalizing past r with
  | nil => exact h
  | cons change changes ih =>
      rw [accepted, following, List.foldl_cons]
      split
      · next hok =>
          rw [List.reverse_cons, List.append_assoc]
          exact ih (h.step change hok)
      · next hrefused =>
          rw [apply_refused hrefused]
          exact ih h

/-- The registrations of a list of contributors, if none of them is refused. -/
lemma Tells.registerAll (h : Tells past r) {cs : List Contributor}
    (hcs : cs.foldlM DialectRegistry.register r = .ok r') :
    Tells ((cs.map .register).reverse ++ past) r' := by
  induction cs generalizing past r with
  | nil =>
      cases hcs
      exact h
  | cons c cs ih =>
      rw [List.foldlM_cons] at hcs
      obtain ⟨s, hs, hcs⟩ := Answer.bind_eq_ok_iff.mp hcs
      rw [List.map_cons, List.reverse_cons, List.append_assoc]
      exact ih (h.register hs) hcs

/-! ### Where runs begin -/

/-- A registry that runs begin with, and the registrations that made it, the latest first: the empty
one, the one of the built-in dialects, and the one of those of them that are enabled. -/
inductive Begins : DialectRegistry → List DialectChange → Prop
  | empty : Begins {} []
  | builtin : Begins builtin (builtinDialects.map .register).reverse
  | enabled {names : List Value} {r : DialectRegistry} (h : withDefaults names = .ok r) :
      Begins r ((names.filterMap fun v =>
        builtinDialects.find? fun c => v.same (.text c.name)).map .register).reverse

lemma ofList_builtin : ofList builtinDialects = .ok builtin := by
  decide

lemma Begins.tells (h : Begins r past) : Tells past r := by
  cases h with
  | empty => exact .empty
  | builtin => simpa only [List.append_nil] using Tells.empty.registerAll ofList_builtin
  | enabled h =>
      obtain ⟨flags, -, h⟩ := Answer.bind_eq_ok_iff.mp h
      dsimp only at h
      split at h
      · simpa only [List.append_nil] using Tells.empty.registerAll h
      · obtain ⟨unknown, -, h⟩ := Answer.bind_eq_ok_iff.mp h
        cases h

/-! ### Contributions -/

section Contributions

variable {metadata : Value} {pairs : List (String × Contribution)}

/-- Each contributor is found under its name. -/
lemma find?_of_mem (h : r.names.Nodup) (hc : c ∈ r.contributors) : r.find? c.name = some c := by
  obtain ⟨d, hd⟩ := Option.isSome_iff_exists.mp
    (find?_isSome.mpr (List.mem_map_of_mem hc) : (r.find? c.name).isSome = true)
  rw [hd, List.inj_on_of_nodup_map h (List.mem_of_find?_eq_some hd) hc (find?_name hd)]

/-- The contributions stand in the order of the names. -/
lemma contributions_eq_ok_iff (h : r.names.Nodup) : r.contributions metadata = .ok pairs ↔
    List.Forall₂ (fun n p => p.1 = n ∧ ∃ c, r.find? n = some c ∧ c.contribute metadata = .ok p.2)
      r.names pairs := by
  have hpair : ∀ (c : Contributor) (p : String × Contribution), (do
        let pair ← c.contribute metadata
        pure (c.name, pair) : Answer _) = .ok p ↔
      p.1 = c.name ∧ c.contribute metadata = .ok p.2 := fun c p => by
    rw [Answer.bind_eq_ok_iff]
    constructor
    · rintro ⟨pair, hpair, h⟩
      cases h
      exact ⟨rfl, hpair⟩
    · rintro ⟨hname, hpair⟩
      exact ⟨p.2, hpair, by rw [← hname]; rfl⟩
  have hfound : ∀ c ∈ r.contributors, r.find? c.name = some c := fun c => find?_of_mem h
  rw [contributions, Answer.mapM_eq_ok_iff, names, List.forall₂_map_left_iff]
  simp only [hpair]
  constructor
  · intro hall
    refine ((List.forall₂_and_left _ _).mpr ⟨hfound, hall⟩).imp ?_
    exact fun c p ⟨hc, hname, hp⟩ => ⟨hname, c, hc, hp⟩
  · intro hall
    refine ((List.forall₂_and_left _ _).mpr ⟨hfound, hall⟩).imp ?_
    rintro c p ⟨hc, hname, d, hd, hp⟩
    obtain rfl := Option.some.inj (hc.symm.trans hd)
    exact ⟨hname, hp⟩

/-- The contributions end with the first contributor that cannot read the bag. -/
lemma contributions_eq_error_iff : r.contributions metadata = .error e ↔
    ∃ before c after, r.contributors = before ++ c :: after ∧
      (∀ d ∈ before, ∃ pair, d.contribute metadata = .ok pair) ∧
      c.contribute metadata = .error e := by
  rw [contributions, Answer.mapM_eq_error_iff]
  refine exists_congr fun before => exists_congr fun c => exists_congr fun after =>
    and_congr_right fun _ => and_congr (forall₂_congr fun d _ => ?_) ?_
  · rcases d.contribute metadata with e | pair
    · exact iff_of_false nofun nofun
    · exact iff_of_true ⟨_, rfl⟩ ⟨_, rfl⟩
  · rcases c.contribute metadata with e' | pair
    · exact ⟨fun h => congrArg _ (Except.error.inj h), fun h => congrArg _ (Except.error.inj h)⟩
    · exact iff_of_false nofun nofun

end Contributions

/-! ### Consistent ownership -/

/-- A registry keeps keys and contributors in step after changes, the latest first: each key is
owned by the contributor that reads it, the names stand in the order in which they came, and a
registration is refused exactly if a key of it is owned by another dialect. -/
structure Consistent (past : List DialectChange) (r : DialectRegistry) : Prop where
  current : ∀ n, r.find? n = current? n past
  owner : ∀ k n, r.ownerOf k = some n ↔ ∃ c, r.find? n = some c ∧ k ∈ c.keys
  single : ∀ c ∈ r.contributors, ∀ d ∈ r.contributors, ∀ k ∈ c.keys, k ∈ d.keys → c = d
  refused : ∀ c, (∃ e, r.register c = .error e) ↔
    ∃ k ∈ c.keys, ∃ n, r.ownerOf k = some n ∧ n ≠ c.name
  fault : ∀ c e, r.register c = .error e →
    ∃ k ∈ c.keys, ∃ n, r.ownerOf k = some n ∧ n ≠ c.name ∧ e = .keyTaken k n c.name
  unchanged : ∀ change, ¬(DialectChange.apply r change).2.isOk →
    (DialectChange.apply r change).1 = r
  distinct : r.names.Nodup
  listed : ∀ n, n ∈ r.names ↔ (since? n past).isSome
  ordered : r.names.Pairwise fun m n =>
    ∃ i j, since? m past = some i ∧ since? n past = some j ∧ i < j
  contributed : ∀ metadata pairs, r.contributions metadata = .ok pairs ↔
    List.Forall₂ (fun n p => p.1 = n ∧ ∃ c, r.find? n = some c ∧ c.contribute metadata = .ok p.2)
      r.names pairs
  illegible : ∀ metadata e, r.contributions metadata = .error e ↔
    ∃ before c after, r.contributors = before ++ c :: after ∧
      (∀ d ∈ before, ∃ pair, d.contribute metadata = .ok pair) ∧ c.contribute metadata = .error e

lemma Tells.consistent (h : Tells past r) : Consistent past r where
  current := h.found
  owner _ _ := h.ownerOf_iff
  single c hc d hd k hkc hkd :=
    have hname := h.name_eq_of_key (find?_of_mem h.distinct hc) (find?_of_mem h.distinct hd) hkc hkd
    List.inj_on_of_nodup_map h.distinct hc hd hname
  refused _ := register_refused_iff
  fault _ _ := register_error
  unchanged _ := apply_refused
  distinct := h.distinct
  listed _ := h.mem_names_iff
  ordered := h.ordered.imp_of_mem fun hm hn hlt => by
    obtain ⟨i, hi⟩ := Option.isSome_iff_exists.mp (h.mem_names_iff.mp hm)
    obtain ⟨j, hj⟩ := Option.isSome_iff_exists.mp (h.mem_names_iff.mp hn)
    exact ⟨i, j, hi, hj, hlt i hi j hj⟩
  contributed _ _ := contributions_eq_ok_iff h.distinct
  illegible _ _ := contributions_eq_error_iff

/-- **Whole runs.** However the registry began, after any changes it is consistent with the
registrations that made it and the changes that were not refused. -/
theorem ownership_run {r₀ : DialectRegistry} {past₀ : List DialectChange} (h : Begins r₀ past₀)
    (changes : List DialectChange) :
    Consistent ((accepted r₀ changes).reverse ++ past₀) (following r₀ changes) :=
  (h.tells.run changes).consistent

/-- Beside the built-in dialects one that claims a key of theirs is refused, and registered once the
key is free; a dialect that reads other keys than before keeps its place. -/
theorem ownership_run_takeover :
    let claims : Contributor := ⟨"rules", some "MVELDialectReferencedTypes", none⟩
    let changes := [.register claims, .register ⟨"java", some "Types", some "Types"⟩,
      .unregister "mvel", .register claims]
    let r := following builtin changes
    Begins builtin (builtinDialects.map .register).reverse ∧
      accepted builtin changes = changes.tail ∧
      r.names = ["java", "java-return-value", "mvel-return-value", "rules"] ∧
      r.ownerOf "JavaDialectReferencedTypes" = none ∧
      Consistent (changes.tail.reverse ++ (builtinDialects.map .register).reverse) r := by
  intro claims changes r
  have haccepted : accepted builtin changes = changes.tail := by decide
  refine ⟨.builtin, haccepted, by decide, by decide, ?_⟩
  exact haccepted ▸ ownership_run .builtin changes

end DialectRegistry
end Concordance
