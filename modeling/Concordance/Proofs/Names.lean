import Mathlib.Tactic
import Concordance.Reference
import Concordance.Value.Access

/-!
Names, and the sets of names that lists stand for.

* `Value.name?` : the name a value states, a text that is not empty; `Value.Nameable` : a text or
  null, of which only a text that is not empty states a name.
* `Distinct same xs` : no member of the list is like an earlier one.
* `Enumerates f xs S` : the list `xs` holds the images of the members of `S`, each once, and nothing
  else. `Enumerates.addNew` adds a member, `Enumerates.perm` compares two lists of one set.
* `Value.same_text_left`, `Value.same_text_right` : a text equals itself alone.
-/

namespace Concordance

namespace Value

/-! ### Texts among values -/

@[simp] lemma same_text_left {s : String} {v : Value} : same (.text s) v = true ↔ .text s = v := by
  cases v with
  | text t =>
      rw [same, text?, beq_iff_eq, Option.some_inj, text.injEq]
      exact eq_comm
  | _ => simp [same, text?]

@[simp] lemma same_text_right {v : Value} {s : String} : same v (.text s) = true ↔ v = .text s := by
  cases v with
  | text t => exact same_text_left
  | _ => simp [same, sameNumber, integer?]

@[simp] lemma hashable_text (s : String) : hashable (.text s) = true := by simp [hashable]

@[simp] lemma display_text (s : String) : display (.text s) = s := rfl

@[simp] lemma display?_text (s : String) : display? (.text s) = .ok s := by
  simp [display?, spellableIn]

@[simp] lemma truthy_text {s : String} : truthy (.text s) = true ↔ s ≠ "" := by simp [truthy]

lemma memberOf_text {xs : List Value} {s : String} :
    memberOf xs (.text s) = true ↔ .text s ∈ xs := by
  simp [memberOf]

lemma lookup?_cons_self {s : String} (v : Value) (es : List (Value × Value)) :
    lookup? ((.text s, v) :: es) (.text s) = some v := by
  simp [lookup?]

lemma lookup?_cons_other {s : String} {k v : Value} {es : List (Value × Value)}
    (hk : k ≠ .text s) : lookup? ((k, v) :: es) (.text s) = lookup? es (.text s) := by
  have hno : same k (.text s) = false := Bool.eq_false_iff.mpr fun h => hk (same_text_right.mp h)
  simp [lookup?, hno]

lemma text?_eq_some {v : Value} {s : String} : v.text? = some s ↔ v = .text s := by
  cases v <;> simp [text?]

/-- A text. -/
lemma isText_iff {v : Value} : v.isText = true ↔ ∃ s, v = .text s := by
  cases v <;> simp [isText, text?]

/-- The name a value states: a text that is not empty. -/
def name? : Value → Option String
  | .text s => if s = "" then none else some s
  | _ => none

/-- A text or null: what stands where a name may be absent. -/
def Nameable (v : Value) : Prop := v = .null ∨ ∃ s, v = .text s

lemma name?_eq_some {v : Value} {n : String} : v.name? = some n ↔ v = .text n ∧ n ≠ "" := by
  cases v with
  | text s =>
      rw [name?, text.injEq]
      by_cases hs : s = ""
      · rw [if_pos hs]
        exact ⟨nofun, fun ⟨h, hn⟩ => absurd (h ▸ hs) hn⟩
      · rw [if_neg hs, Option.some.injEq]
        exact ⟨fun h => ⟨h, h ▸ hs⟩, And.left⟩
  | _ => simp [name?]

/-- A set that was given one more member. -/
lemma insert?_eq_ok {xs ys : List Value} {v : Value} (h : insert? xs v = .ok ys) :
    ys = insertNew xs v := by
  rw [insert?] at h
  split at h
  · exact (Except.ok.inj h).symm
  · cases h

lemma Nameable.of_text (s : String) : Nameable (.text s) := .inr ⟨s, rfl⟩

/-- What may be absent is present exactly if it states a name. -/
lemma Nameable.cases {v : Value} (h : v.Nameable) :
    (v.truthy = false ∧ v.name? = none) ∨ ∃ n, v = .text n ∧ n ≠ "" ∧ v.name? = some n := by
  obtain rfl | ⟨s, rfl⟩ := h
  · exact .inl ⟨rfl, rfl⟩
  · by_cases hs : s = ""
    · subst hs
      exact .inl ⟨rfl, rfl⟩
    · exact .inr ⟨s, rfl, hs, by simp [name?, hs]⟩

/-! ### Members of collections -/

/-- The members of a collection, none for any other value. -/
def elements (v : Value) : List Value := v.members?.getD []

/-- The entries of a mapping, none for any other value. -/
def fields (v : Value) : List (Value × Value) := v.entries?.getD []

/-- A value whose members can be asked for if it counts as present. -/
def Iterable (v : Value) : Prop := v.truthy → v.members?.isSome

/-- A value whose entries can be asked for if it counts as present. -/
def Mappable (v : Value) : Prop := v.truthy → v.entries?.isSome

/-- A collection counts as present if it has a member. -/
lemma truthy_iff_of_members? {v : Value} {xs : List Value} (h : v.members? = some xs) :
    v.truthy = true ↔ xs ≠ [] := by
  cases v <;> simp_all [members?, truthy] <;> subst h <;> simp [String.toList_eq_nil_iff]

/-- A mapping counts as present if it has an entry. -/
lemma truthy_iff_of_entries? {v : Value} {es : List (Value × Value)} (h : v.entries? = some es) :
    v.truthy = true ↔ es ≠ [] := by
  cases v <;> simp_all [entries?, truthy]

end Value

variable {α β : Type}

/-! ### Lists without repetition -/

/-- Each member of a list is told apart from those after it. -/
def Distinct (same : α → α → Bool) (xs : List α) : Prop := xs.Pairwise fun x y => same x y = false

section AddNew

variable {same : α → α → Bool} {xs : List α}

lemma subset_addNew (x : α) : ∀ y ∈ xs, y ∈ addNew same xs x := fun y hy => by
  unfold addNew
  split
  · exact hy
  · exact List.mem_append_left _ hy

lemma of_mem_addNew {x y : α} (h : y ∈ addNew same xs x) : y ∈ xs ∨ y = x := by
  unfold addNew at h
  split at h
  · exact .inl h
  · simpa using h

/-- After an addition the new member is there, or one like it. -/
lemma exists_mem_addNew (same : α → α → Bool) (xs : List α) (x : α) :
    ∃ y ∈ addNew same xs x, y = x ∨ same y x = true := by
  unfold addNew
  split
  next h =>
    obtain ⟨y, hy, hyx⟩ := List.any_eq_true.mp h
    exact ⟨y, hy, .inr hyx⟩
  next => exact ⟨x, by simp, .inl rfl⟩

lemma Distinct.addNew (h : Distinct same xs) (x : α) : Distinct same (addNew same xs x) := by
  unfold Concordance.addNew
  split
  next => exact h
  next hno =>
    refine List.pairwise_append.mpr ⟨h, List.pairwise_singleton _ _, fun y hy z hz => ?_⟩
    obtain rfl := List.mem_singleton.mp hz
    rw [Bool.eq_false_iff]
    exact fun hyz => hno (List.any_eq_true.mpr ⟨y, hy, hyz⟩)

end AddNew

/-! ### Lists that stand for sets -/

/-- The list holds the images of the members of a set, each once, and nothing else. -/
def Enumerates (f : β → α) (xs : List α) (S : Set β) : Prop :=
  xs.Nodup ∧ ∀ a, a ∈ xs ↔ ∃ b ∈ S, f b = a

namespace Enumerates

variable {f : β → α} {xs ys : List α} {S T : Set β}

lemma nil : Enumerates f [] ∅ := ⟨.nil, by simp⟩

lemma congr (h : Enumerates f xs S) (hST : S = T) : Enumerates f xs T := hST ▸ h

lemma mem_iff (h : Enumerates f xs S) (hf : f.Injective) {b : β} : f b ∈ xs ↔ b ∈ S := by
  rw [h.2]
  exact ⟨fun ⟨c, hc, hcb⟩ => hf hcb ▸ hc, fun hb => ⟨b, hb, rfl⟩⟩

lemma exists_of_mem (h : Enumerates f xs S) {a : α} (ha : a ∈ xs) : ∃ b ∈ S, f b = a :=
  (h.2 a).mp ha

/-- Two lists that stand for one set hold the same members in some order. -/
lemma perm (h : Enumerates f xs S) (h' : Enumerates f ys S) : xs.Perm ys :=
  (List.perm_ext_iff_of_nodup h.1 h'.1).mpr fun a => (h.2 a).trans (h'.2 a).symm

lemma of_perm (h : Enumerates f xs S) (hp : xs.Perm ys) : Enumerates f ys S :=
  ⟨hp.nodup_iff.mp h.1, fun a => hp.mem_iff.symm.trans (h.2 a)⟩

lemma eq_nil (h : Enumerates f xs ∅) : xs = [] := by
  refine List.eq_nil_iff_forall_not_mem.mpr fun a ha => ?_
  obtain ⟨b, hb, -⟩ := h.exists_of_mem ha
  exact hb

/-- What a list stands for, as a list. -/
lemma exists_list (h : Enumerates f xs S) (hf : f.Injective) :
    ∃ bs : List β, xs = bs.map f ∧ bs.Nodup ∧ ∀ b, b ∈ bs ↔ b ∈ S := by
  obtain ⟨bs, rfl⟩ : ∃ bs : List β, bs.map f = xs := by
    rw [← Set.mem_range, Set.range_list_map]
    exact fun a ha => let ⟨b, _, hb⟩ := h.exists_of_mem ha; ⟨b, hb⟩
  exact ⟨bs, rfl, h.1.of_map _, fun b => by rw [← h.mem_iff hf, List.mem_map_of_injective hf]⟩

/-- A list without repetition stands for the set of its members. -/
lemma of_distinct {same : α → α → Bool} (h : Distinct same xs)
    (hself : ∀ b, same (f b) (f b) = true) (hrange : ∀ a ∈ xs, ∃ b, f b = a) :
    Enumerates f xs {b | f b ∈ xs} := by
  refine ⟨h.imp_of_mem fun {a c} ha _ hac => ?_, fun a => ⟨fun ha => ?_, ?_⟩⟩
  · rintro rfl
    obtain ⟨b, rfl⟩ := hrange a ha
    rw [hself] at hac
    cases hac
  · obtain ⟨b, rfl⟩ := hrange a ha
    exact ⟨b, ha, rfl⟩
  · rintro ⟨b, hb, rfl⟩
    exact hb

/-- One more member, where the equality of the list is that of the set. -/
lemma addNew {same : α → α → Bool} (hsame : ∀ b c, same (f b) (f c) = true ↔ b = c)
    (h : Enumerates f xs S) (b : β) : Enumerates f (addNew same xs (f b)) (insert b S) := by
  have hf : f.Injective := fun c d hcd => (hsame c d).mp (hcd ▸ (hsame c c).mpr rfl)
  have hany : xs.any (same · (f b)) = true ↔ b ∈ S := by
    rw [List.any_eq_true, ← h.mem_iff hf]
    constructor
    · rintro ⟨a, ha, hab⟩
      obtain ⟨c, -, rfl⟩ := h.exists_of_mem ha
      exact (hsame c b).mp hab ▸ ha
    · exact fun hb => ⟨f b, hb, (hsame b b).mpr rfl⟩
  unfold Concordance.addNew
  by_cases hb : b ∈ S
  · rw [if_pos (hany.mpr hb), Set.insert_eq_of_mem hb]
    exact h
  · rw [if_neg (by simpa [hany] using hb)]
    refine ⟨?_, fun a => ?_⟩
    · refine List.Nodup.append h.1 (List.nodup_singleton _) ?_
      rw [List.disjoint_singleton]
      exact fun hmem => hb ((h.mem_iff hf).mp hmem)
    · rw [List.mem_append, List.mem_singleton, h.2]
      constructor
      · rintro (⟨c, hc, rfl⟩ | rfl)
        · exact ⟨c, .inr hc, rfl⟩
        · exact ⟨b, .inl rfl, rfl⟩
      · rintro ⟨c, rfl | hc, rfl⟩
        · exact .inr rfl
        · exact .inl ⟨c, hc, rfl⟩

end Enumerates

namespace Value

lemma text_injective : Function.Injective text := fun _ _ h => by simpa using h

end Value

/-- A set of texts with one more. -/
lemma Enumerates.insertNew {xs : List Value} {S : Set String} (h : Enumerates .text xs S)
    (n : String) : Enumerates .text (Value.insertNew xs (.text n)) (insert n S) :=
  h.addNew (fun m n => by simp) n

end Concordance
