import Mathlib.Tactic
import Concordance.Proofs.Names

/-!
Sorting texts, and references by kind and name.

* `Value.sortBy?_eq` : where a relation compares the members of a list by a key in a linear order,
  sorting never fails and gives the list in the order of the key.
* `Text.codes_injective` : a text is determined by the numbers of its characters, so the order of
  texts is linear.
* `Value.sort?_congr`, `Value.sortPairs?_congr` : lists with the same texts, or with the same
  references, are sorted alike; what order they came in leaves no trace.
-/

namespace Concordance

/-! ### Texts by number -/

namespace Text

lemma isHalf_iff {c : Char} : isHalf c = true ↔ 0x10d800 ≤ c.toNat ∧ c.toNat < 0x10e000 := by
  rw [isHalf, isHalfCode, halfShift, Bool.and_eq_true, decide_eq_true_eq, decide_eq_true_eq]
  omega

/-- The numbers that private characters stand for are no characters themselves. -/
lemma not_isHalfCode_toNat (c : Char) : ¬(0xd800 ≤ c.toNat ∧ c.toNat < 0xe000) := by
  have h : c.val.toNat < 0xd800 ∨ 0xdfff < c.val.toNat ∧ c.val.toNat < 0x110000 := c.valid
  have hc : c.toNat = c.val.toNat := rfl
  omega

lemma codeOf_injective : Function.Injective codeOf := by
  intro c d h
  have hc := not_isHalfCode_toNat c
  have hd := not_isHalfCode_toNat d
  rw [codeOf, codeOf, halfShift] at h
  rw [← Char.toNat_inj]
  split at h <;> rename_i h1 <;> split at h <;> rename_i h2 <;>
    rw [isHalf_iff] at h1 h2 <;> omega

/-- A text is determined by the numbers that its characters stand for. -/
lemma codes_injective : Function.Injective codes := fun _ _ h =>
  String.toList_inj.mp (List.map_injective_iff.mpr codeOf_injective h)

lemma precedes_iff {s t : String} : precedes s t = true ↔ codes s < codes t := decide_eq_true_iff

/-- A list without its repetitions holds each text once. -/
lemma nodup_eraseDups : ∀ xs : List String, xs.eraseDups.Nodup
  | [] => by simp
  | x :: xs => by
      rw [List.eraseDups_cons, List.nodup_cons, List.mem_eraseDups]
      exact ⟨by simp, nodup_eraseDups _⟩
  termination_by xs => xs.length
  decreasing_by exact Nat.lt_succ_of_le (List.length_filter_le _ _)

end Text

namespace Value

/-! ### Sorting by a key -/

section Key

variable {α κ : Type} [LinearOrder κ] {less : α → α → Option Bool} {key : α → κ} {xs ys : List α}

/-- The relation compares the members of a list by a key. -/
def ComparesBy (less : α → α → Option Bool) (key : α → κ) (xs : List α) : Prop :=
  ∀ x ∈ xs, ∀ y ∈ xs, less x y = some (decide (key x < key y))

/-- The list in the order of a key. -/
def orderedBy (key : α → κ) (xs : List α) : List α := xs.mergeSort fun x y => decide (key x ≤ key y)

lemma orderedBy_perm (key : α → κ) (xs : List α) : (orderedBy key xs).Perm xs :=
  List.mergeSort_perm xs _

lemma pairwise_orderedBy (key : α → κ) (xs : List α) :
    (orderedBy key xs).Pairwise (key · ≤ key ·) := by
  have htrans : ∀ a b c : α, decide (key a ≤ key b) = true → decide (key b ≤ key c) = true →
      decide (key a ≤ key c) = true := fun a b c hab hbc => by
    simpa using le_trans (by simpa using hab) (by simpa using hbc)
  have htotal : ∀ a b : α, (decide (key a ≤ key b) || decide (key b ≤ key a)) = true :=
    fun a b => by simpa using le_total (key a) (key b)
  simpa [orderedBy] using List.pairwise_mergeSort htrans htotal xs

/-- A relation ranks every list that is in the order of its key. -/
lemma ranked_of_pairwise : ∀ {xs : List α}, ComparesBy less key xs →
    xs.Pairwise (key · ≤ key ·) → ranked less xs = true
  | [], _, _ => rfl
  | [_], _, _ => rfl
  | x :: y :: zs, h, hp => by
      obtain ⟨hx, hp⟩ := List.pairwise_cons.mp hp
      have hy := (List.pairwise_cons.mp hp).1
      have ih := ranked_of_pairwise (fun a ha b hb => h a (.tail _ ha) b (.tail _ hb)) hp
      have hxm : x ∈ x :: y :: zs := by simp
      have hym : y ∈ x :: y :: zs := by simp
      have hzm : ∀ z ∈ zs, z ∈ x :: y :: zs := fun z hz => by simp [hz]
      -- no member is below the first
      have hback : (y :: zs).all (less · x == some false) = true := by
        refine List.all_eq_true.mpr fun z hz => ?_
        rw [h z (.tail _ hz) x hxm]
        simpa using hx z hz
      rw [ranked, hback, ih, Bool.true_and, Bool.and_true, h x hxm y hym]
      rcases (hx y (by simp)).lt_or_eq with hlt | heq
      · rw [if_pos (by simpa using hlt)]
        refine List.all_eq_true.mpr fun z hz => ?_
        rw [h x hxm z (hzm z hz)]
        simpa using hlt.trans_le (hy z hz)
      · rw [if_neg (by simp [heq])]
        simp only [heq, lt_irrefl, decide_false, BEq.rfl, Bool.true_and, List.all_eq_true]
        intro z hz
        rw [h x hxm z (hzm z hz), h y hym z (hzm z hz), heq, BEq.rfl]

/-- **Sorting by a key**: it never fails, and the result is in the order of the key. -/
lemma sortBy?_eq (h : ComparesBy less key xs) : sortBy? less xs = .ok (orderedBy key xs) := by
  have hsort : xs.mergeSort (fun x y => less y x != some true) = orderedBy key xs := by
    have := List.map_mergeSort (f := id) (l := xs) (r := fun x y => less y x != some true)
      (s := fun x y => decide (key x ≤ key y)) fun a ha b hb => by
        rw [h b hb a ha]
        by_cases hlt : key b < key a <;> simp [hlt, not_le.mpr, not_lt.mp]
    simpa [orderedBy] using this
  have hranked : ranked less (orderedBy key xs) = true :=
    ranked_of_pairwise
      (fun a ha b hb => h a ((orderedBy_perm key xs).mem_iff.mp ha) b
        ((orderedBy_perm key xs).mem_iff.mp hb))
      (pairwise_orderedBy key xs)
  simp only [sortBy?, hsort, hranked, if_true]

/-- The order in which members came leaves no trace if the key tells them apart. -/
lemma orderedBy_congr (hinj : ∀ x ∈ xs, ∀ y ∈ xs, key x = key y → x = y) (hp : xs.Perm ys) :
    orderedBy key xs = orderedBy key ys := by
  have hxs := orderedBy_perm key xs
  have hys := orderedBy_perm key ys
  refine List.Perm.eq_of_pairwise (fun a b ha hb hab hba => ?_) (pairwise_orderedBy key xs)
    (pairwise_orderedBy key ys) (hxs.trans (hp.trans hys.symm))
  exact hinj a (hxs.mem_iff.mp ha) b (hp.mem_iff.mpr (hys.mem_iff.mp hb)) (le_antisymm hab hba)

end Key

/-! ### Texts -/

/-- The sort key of a text. -/
def codes : Value → List ℕ
  | .text s => Text.codes s
  | _ => []

lemma codes_inj_of_text {v w : Value} (hv : v.isText) (hw : w.isText) (h : v.codes = w.codes) :
    v = w := by
  obtain ⟨s, rfl⟩ := isText_iff.mp hv
  obtain ⟨t, rfl⟩ := isText_iff.mp hw
  exact congrArg text (Text.codes_injective h)

lemma comparesBy_codes {xs : List Value} (h : ∀ v ∈ xs, v.isText) : ComparesBy less? codes xs := by
  intro v hv w hw
  obtain ⟨s, rfl⟩ := isText_iff.mp (h v hv)
  obtain ⟨t, rfl⟩ := isText_iff.mp (h w hw)
  rw [less?, Option.some_inj, Bool.eq_iff_iff]
  exact Text.precedes_iff.trans (@decide_eq_true_iff _ (_)).symm

lemma sort?_eq {xs : List Value} (h : ∀ v ∈ xs, v.isText) :
    sort? xs = .ok (orderedBy codes xs) := sortBy?_eq (comparesBy_codes h)

/-- Lists of the same texts are sorted alike. -/
lemma sort?_congr {xs ys : List Value} (h : ∀ v ∈ xs, v.isText) (hp : xs.Perm ys) :
    sort? xs = sort? ys := by
  rw [sort?_eq h, sort?_eq fun v hv => h v (hp.mem_iff.mpr hv)]
  exact congrArg _
    (orderedBy_congr (fun v hv w hw => codes_inj_of_text (h v hv) (h w hw)) hp)

/-! ### Labelled texts -/

/-- The sort key of a labelled text. -/
def pairCodes (a : String × Value) : List ℕ ×ₗ List ℕ := toLex (Text.codes a.1, a.2.codes)

lemma lessPair?_eq {a b : String × Value} (ha : a.2.isText) (hb : b.2.isText) :
    lessPair? a b = some (decide (pairCodes a < pairCodes b)) := by
  obtain ⟨l, v⟩ := a
  obtain ⟨m, w⟩ := b
  obtain ⟨s, rfl⟩ := isText_iff.mp ha
  obtain ⟨t, rfl⟩ := isText_iff.mp hb
  have hlex : pairCodes (l, .text s) < pairCodes (m, .text t) ↔
      Text.codes l < Text.codes m ∨ l = m ∧ Text.codes s < Text.codes t := by
    rw [Prod.Lex.lt_iff]
    exact or_congr Iff.rfl (and_congr Text.codes_injective.eq_iff Iff.rfl)
  have hbool : ∀ b : Bool, (b = true ↔ pairCodes (l, .text s) < pairCodes (m, .text t)) →
      some b = some (decide (pairCodes (l, .text s) < pairCodes (m, .text t))) := fun b hb =>
    congrArg some (Bool.eq_iff_iff.mpr (hb.trans decide_eq_true_iff.symm))
  by_cases hl : l = m
  · subst hl
    by_cases hs : s = t
    · subst hs
      simp [lessPair?]
    · have hsame : same (.text s) (.text t) = false := by
        rwa [Bool.eq_false_iff, Ne, same_text_left, text.injEq]
      simp only [lessPair?, BEq.rfl, if_true, hsame, Bool.false_eq_true, if_false, less?]
      exact hbool _ (by rw [Text.precedes_iff, hlex]; simp)
  · simp only [lessPair?, beq_iff_eq, hl, if_false]
    exact hbool _ (by rw [Text.precedes_iff, hlex]; simp [hl])

section Pairs

variable {α : Type} {key : α → String × Value} {xs ys : List α}

lemma sortPairs?_eq (h : ∀ x ∈ xs, (key x).2.isText) :
    sortPairs? key xs = .ok (orderedBy (fun x => pairCodes (key x)) xs) :=
  sortBy?_eq fun x hx y hy => lessPair?_eq (h x hx) (h y hy)

lemma pairCodes_inj {a b : String × Value} (ha : a.2.isText) (hb : b.2.isText)
    (h : pairCodes a = pairCodes b) : a = b := by
  have h1 : (Text.codes a.1, a.2.codes) = (Text.codes b.1, b.2.codes) := toLex.injective h
  obtain ⟨hl, hv⟩ := Prod.mk.inj h1
  exact Prod.ext (Text.codes_injective hl) (codes_inj_of_text ha hb hv)

/-- Lists of the same references are sorted alike. -/
lemma sortPairs?_congr (hkey : key.Injective) (h : ∀ x ∈ xs, (key x).2.isText) (hp : xs.Perm ys) :
    sortPairs? key xs = sortPairs? key ys := by
  rw [sortPairs?_eq h, sortPairs?_eq fun y hy => h y (hp.mem_iff.mpr hy)]
  exact congrArg _ (orderedBy_congr
    (fun x hx y hy hxy => hkey (pairCodes_inj (h x hx) (h y hy) hxy)) hp)

end Pairs

end Value
end Concordance
