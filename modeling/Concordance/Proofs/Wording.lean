import Mathlib
import Concordance.Proofs.Acceptance
import Concordance.Settings.Key

/-!
Texts that settings are read from and shown as.

* `Text.upper_upper` : upper case has no effect on what is in upper case. `Text.rising` holds the
  characters that it changes, one bit each, and no character in upper case is among them.
* `Text.Trims` : a list without some members at its ends, which leaves none of their kind there.
  `Text.trims_trimmed`, `Text.Trims.eq` : it is what `Text.trimmed` gives, and nothing else is.
* `Text.integer?_toString` : an integer that is written is read back, if it is not too long; one
  that was read is not (`Text.isSpellable_of_integer?`).
* `Text.splitCommas_joined` : the members of a list that is written with commas.
* `SettingKey.listOf_pieces` : what the list is that a text stands for. `SettingKey.listOf_joined` :
  such a list is read back.
* `SettingKey.exists_textOf?` : so for every setting: what is read of a text is shown as a text of
  which the same is read.
-/

namespace Concordance
namespace Text

/-! ### Upper case -/

/-- The code points of a run. -/
def runMembers (r : Nat × Nat × Nat × Int) : List Nat :=
  (List.range ((r.2.1 - r.1) / r.2.2.1 + 1)).map fun i => r.1 + i * r.2.2.1

/-- Numbers as the bits of one. -/
def bits (ns : List Nat) : Nat := ns.foldr (fun n m => m ||| 1 <<< n) 0

/-- The code points that upper case changes, as bits: to test one of them takes a single step, while
the tables have to be searched. -/
def rising : Nat :=
  (upperRuns.map fun r => bits (runMembers r)).foldr (· ||| ·) (bits (upperWide.map (·.1)))

lemma rising_run : ∀ r ∈ upperRuns, ∀ n ∈ runMembers r, rising.testBit n = true ∧
    rising.testBit ((n : Int) + r.2.2.2).toNat = false := by decide +kernel

lemma rising_wide : ∀ e ∈ upperWide, rising.testBit e.1 = true ∧
    ∀ n ∈ e.2, rising.testBit n = false := by decide +kernel

lemma rising_ascii : ∀ n < 128, rising.testBit (Char.ofNat n).toUpper.toNat = false ∧
    (rising.testBit n = false → (Char.ofNat n).toUpper = Char.ofNat n) := by decide +kernel

lemma mem_runMembers {r : Nat × Nat × Nat × Int} {n : Nat} (hlow : r.1 ≤ n) (hhigh : n ≤ r.2.1)
    (hstep : (n - r.1) % r.2.2.1 = 0) : n ∈ runMembers r := by
  have hcount : (n - r.1) / r.2.2.1 ≤ (r.2.1 - r.1) / r.2.2.1 :=
    Nat.div_le_div_right (Nat.sub_le_sub_right hhigh _)
  refine List.mem_map.mpr ⟨(n - r.1) / r.2.2.1, List.mem_range.mpr (Nat.lt_succ_of_le hcount), ?_⟩
  rw [Nat.div_mul_cancel (Nat.dvd_of_mod_eq_zero hstep)]
  omega

/-- What the tables say of a character: it has an image of several characters, or it is in a run, or
it stays. -/
lemma mapCase_cases (c : Char) :
    (∃ e ∈ upperWide, e.1 = c.toNat ∧ mapCase upperWide upperRuns c = e.2.map Char.ofNat) ∨
    (∃ r ∈ upperRuns, c.toNat ∈ runMembers r ∧
      mapCase upperWide upperRuns c = [Char.ofNat ((c.toNat : Int) + r.2.2.2).toNat]) ∨
    mapCase upperWide upperRuns c = [c] := by
  rw [mapCase]
  split
  · next n image hfound =>
      refine .inl ⟨_, List.mem_of_find?_eq_some hfound, ?_, rfl⟩
      simpa using List.find?_some hfound
  · rw [displacement]
    split
    · next a b step d hfound =>
        have htest := List.find?_some hfound
        simp only [Bool.and_eq_true, decide_eq_true_eq, beq_iff_eq] at htest
        exact .inr (.inl ⟨_, List.mem_of_find?_eq_some hfound,
          mem_runMembers htest.1.1 htest.1.2 htest.2, rfl⟩)
    · refine .inr (.inr ?_)
      rw [Int.add_zero, Int.toNat_natCast, Char.ofNat_toNat]

/-- A character that is not among those that upper case changes. -/
lemma upperOf_eq_self {c : Char} (h : rising.testBit c.toNat = false) : upperOf c = [c] := by
  rw [upperOf]
  split
  · next hascii =>
      have hsame := (rising_ascii _ hascii).2 h
      rw [Char.ofNat_toNat] at hsame
      rw [hsame]
  · rcases mapCase_cases c with ⟨e, he, hkey, -⟩ | ⟨r, hr, hmem, -⟩ | hc
    · exact absurd (h.symm.trans (hkey ▸ (rising_wide e he).1)) Bool.false_ne_true
    · exact absurd (h.symm.trans (rising_run r hr _ hmem).1) Bool.false_ne_true
    · exact hc

lemma testBit_toNat_ofNat {n : Nat} (h : rising.testBit n = false) :
    rising.testBit (Char.ofNat n).toNat = false := by
  rw [Char.toNat_ofNat]
  split
  · exact h
  · decide +kernel

/-- What upper case makes of a character is in upper case. -/
lemma upperOf_of_mem {c d : Char} (hd : d ∈ upperOf c) : upperOf d = [d] := by
  by_cases hascii : c.toNat < 128
  · have himage := (rising_ascii _ hascii).1
    rw [Char.ofNat_toNat] at himage
    rw [upperOf, if_pos hascii, List.mem_singleton] at hd
    exact upperOf_eq_self (hd ▸ himage)
  · have hmap : upperOf c = mapCase upperWide upperRuns c := if_neg hascii
    rw [hmap] at hd
    rcases mapCase_cases c with ⟨e, he, -, hc⟩ | ⟨r, hr, hmem, hc⟩ | hc
    · rw [hc] at hd
      obtain ⟨n, hn, rfl⟩ := List.mem_map.mp hd
      exact upperOf_eq_self (testBit_toNat_ofNat ((rising_wide e he).2 n hn))
    · rw [hc, List.mem_singleton] at hd
      exact hd ▸ upperOf_eq_self (testBit_toNat_ofNat (rising_run r hr _ hmem).2)
    · rw [hc, List.mem_singleton] at hd
      rw [hd, hmap, hc]

/-- **Upper case** has no effect on what is in upper case. -/
lemma upper_upper (s : String) : upper (upper s) = upper s := by
  have hfixed : ∀ {cs : List Char}, (∀ d ∈ cs, upperOf d = [d]) → cs.flatMap upperOf = cs := by
    intro cs h
    rw [List.flatMap_congr h]
    exact List.flatMap_pure_eq_map _ _ |>.trans (List.map_id _)
  rw [upper, upper, String.toList_ofList]
  refine congrArg String.ofList (hfixed fun d hd => ?_)
  obtain ⟨c, -, hdc⟩ := List.mem_flatMap.mp hd
  exact upperOf_of_mem hdc

/-! ### Ends that are taken off -/

section Trims

variable {α : Type} {p : α → Bool} {xs ys : List α}

/-- A list without some of what satisfies a test at its two ends, which leaves nothing there that
does. -/
def Trims (p : α → Bool) (xs ys : List α) : Prop :=
  ∃ before after, xs = before ++ ys ++ after ∧ (∀ x ∈ before, p x = true) ∧
    (∀ x ∈ after, p x = true) ∧ (∀ x ∈ ys.head?, p x = false) ∧ ∀ x ∈ ys.getLast?, p x = false

lemma head?_dropWhile (p : α → Bool) (xs : List α) : ∀ x ∈ (xs.dropWhile p).head?, p x = false := by
  intro x hx
  have hnot := List.head?_dropWhile_not p xs
  rw [Option.mem_def.mp hx] at hnot
  exact hnot

lemma dropWhile_eq_self (h : ∀ x ∈ xs.head?, p x = false) : xs.dropWhile p = xs := by
  cases xs with
  | nil => rfl
  | cons x xs => exact List.dropWhile_cons_of_neg (Bool.not_eq_true _ ▸ h x rfl)

lemma trims_trimmed (p : α → Bool) (xs : List α) : Trims p xs (trimmed p xs) := by
  have hfront := List.takeWhile_append_dropWhile (p := p) (l := xs)
  have hback : xs.dropWhile p = trimmed p xs ++ ((xs.dropWhile p).reverse.takeWhile p).reverse := by
    rw [trimmed, ← List.reverse_append, List.takeWhile_append_dropWhile, List.reverse_reverse]
  refine ⟨xs.takeWhile p, ((xs.dropWhile p).reverse.takeWhile p).reverse, ?_, ?_, ?_, ?_, ?_⟩
  · rw [List.append_assoc, ← hback, hfront]
  · exact fun x hx => List.mem_takeWhile_imp hx
  · exact fun x hx => List.mem_takeWhile_imp (List.mem_reverse.mp hx)
  · -- what comes first is what came first behind the members that were taken off
    intro x hx
    refine head?_dropWhile p xs x ?_
    rw [hback, Option.mem_def, List.head?_append, Option.mem_def.mp hx]
    rfl
  · rw [trimmed, List.getLast?_reverse]
    exact head?_dropWhile p _

lemma Trims.eq (h : Trims p xs ys) : trimmed p xs = ys := by
  obtain ⟨before, after, rfl, hbefore, hafter, hhead, hlast⟩ := h
  have hall : ∀ x ∈ after.reverse, p x = true := fun x hx => hafter x (List.mem_reverse.mp hx)
  rw [trimmed, List.append_assoc, List.dropWhile_append_of_pos hbefore]
  cases ys with
  | nil =>
      rw [List.nil_append, List.dropWhile_eq_nil_iff.mpr hafter]
      rfl
  | cons y ys =>
      have hfront : (y :: ys ++ after).dropWhile p = y :: ys ++ after :=
        dropWhile_eq_self (by simpa using hhead)
      rw [hfront, List.reverse_append, List.dropWhile_append_of_pos hall,
        dropWhile_eq_self (by rwa [List.head?_reverse]), List.reverse_reverse]

/-- A member that satisfies the test makes no difference in front. -/
lemma trimmed_cons {x : α} (hx : p x = true) (xs : List α) :
    trimmed p (x :: xs) = trimmed p xs := by
  rw [trimmed, List.dropWhile_cons_of_pos hx, trimmed]

lemma trimmed_eq_self (hhead : ∀ x ∈ xs.head?, p x = false)
    (hlast : ∀ x ∈ xs.getLast?, p x = false) : trimmed p xs = xs :=
  Trims.eq ⟨[], [], by simp, by simp, by simp, hhead, hlast⟩

end Trims

/-! ### Integers -/

section Integer

variable {cs : List Char} {c : Char} {ds : List Nat} {n : Int} {s : String}

/-- The value of a character that is a digit. -/
def digitValue (c : Char) : Nat := c.toNat - '0'.toNat

lemma digit?_eq (hc : c.isDigit = true) : digit? c = some (digitValue c) := by
  obtain ⟨hlow, hhigh⟩ := Char.isDigit_iff_toNat.mp hc
  have hfirst : (decide (0x30 ≤ c.toNat) && decide (c.toNat ≤ 0x30 + 9)) = true := by
    rw [Bool.and_eq_true, decide_eq_true_eq, decide_eq_true_eq]
    exact ⟨hlow, hhigh⟩
  have hfound : zeros.find? (fun z => z ≤ c.toNat && c.toNat ≤ z + 9) = some 0x30 :=
    List.find?_cons_of_pos hfirst
  rw [digit?, hfound]
  rfl

lemma digit?_lt {d : Nat} (h : digit? c = some d) : d < 10 := by
  obtain ⟨z, hz, rfl⟩ := Option.map_eq_some_iff.mp h
  have htest := List.find?_some hz
  rw [Bool.and_eq_true, decide_eq_true_eq, decide_eq_true_eq] at htest
  omega

lemma digitValues?_eq : ∀ {cs : List Char} {afterDigit : Bool}, (∀ c ∈ cs, c.isDigit = true) →
    (afterDigit = true ∨ cs ≠ []) → digitValues? afterDigit cs = some (cs.map digitValue)
  | [], _, _, h => by rw [h.resolve_right (· rfl)]; rfl
  | c :: cs, afterDigit, hcs, _ => by
      obtain ⟨hc, hrest⟩ := List.forall_mem_cons.mp hcs
      have hlater : digitValues? true cs = some (cs.map digitValue) :=
        digitValues?_eq hrest (.inl rfl)
      rw [digitValues?.eq_def]
      split
      · next heq => cases heq
      · next heq => exact absurd ((List.cons.inj heq).1 ▸ hc) (by decide)
      · next heq =>
          obtain ⟨rfl, rfl⟩ := List.cons.inj heq
          rw [digit?_eq hc, hlater]
          rfl

lemma digitValues?_lt {afterDigit : Bool} (h : digitValues? afterDigit cs = some ds) :
    ∀ d ∈ ds, d < 10 := by
  fun_induction digitValues? afterDigit cs generalizing ds with
  | case1 => cases h; exact List.forall_mem_nil _
  | case2 => cases h
  | case3 cs ih => exact ih h
  | case4 => cases h
  | case5 afterDigit c cs hc ih =>
      obtain ⟨d, hd, ds', hds', rfl⟩ : ∃ d, digit? c = some d ∧ ∃ ds', digitValues? true cs =
          some ds' ∧ d :: ds' = ds := by
        simpa [Option.bind_eq_some_iff] using h
      exact List.forall_mem_cons.mpr ⟨digit?_lt hd, ih hds'⟩

/-- A number has a value below the power of ten that has as many zeros as it has digits. -/
lemma ofDigits_lt (h : ∀ d ∈ ds, d < 10) : ofDigits ds < 10 ^ ds.length := by
  have hreverse : ofDigits ds = Nat.ofDigits 10 ds.reverse := by
    rw [Nat.ofDigits_eq_foldr, List.foldr_reverse, ofDigits]
    congr 1
    funext n d
    rw [Nat.cast_id, Nat.add_comm, Nat.mul_comm]
  rw [hreverse, ← List.length_reverse]
  exact Nat.ofDigits_lt_base_pow_length (by decide) fun d hd => h d (List.mem_reverse.mp hd)

/-- The sign of an integer and the characters behind it. -/
def signed : List Char → Bool × List Char
  | '-' :: ds => (true, ds)
  | '+' :: ds => (false, ds)
  | ds => (false, ds)

/-- A number with a sign. -/
def withSign (neg : Bool) (m : Nat) : Int := if neg then -m else m

lemma natAbs_withSign (neg : Bool) (m : Nat) : (withSign neg m).natAbs = m := by
  rw [withSign]
  split
  · rw [Int.natAbs_neg, Int.natAbs_natCast]
  · exact Int.natAbs_natCast m

lemma integer?_eq (s : String) : integer? s =
    (digitValues? false (signed (trimmed isPadding s.toList)).2).bind fun values =>
      if integerDigitLimit < values.length then none
      else some (withSign (signed (trimmed isPadding s.toList)).1 (ofDigits values)) := rfl

lemma isSpellable_iff : isSpellable n = true ↔ n.natAbs < 10 ^ integerDigitLimit := by
  have hpow : ∀ a k : Nat, decide (a < Nat.pow 10 k) = true ↔ a < 10 ^ k := fun a k =>
    decide_eq_true_iff
  exact hpow n.natAbs integerDigitLimit

/-- An integer that was read can be written. -/
lemma isSpellable_of_integer? (h : integer? s = some n) : isSpellable n = true := by
  rw [integer?_eq] at h
  obtain ⟨values, hvalues, h⟩ := Option.bind_eq_some_iff.mp h
  split at h
  · cases h
  · next hshort =>
      rw [isSpellable_iff, ← Option.some.inj h, natAbs_withSign]
      exact (ofDigits_lt (digitValues?_lt hvalues)).trans_le
        (Nat.pow_le_pow_right (by decide) (Nat.not_lt.mp hshort))

/-- The digits of a natural number give it back. -/
lemma ofDigits_toDigits (m : Nat) : ofDigits ((Nat.toDigits 10 m).map digitValue) = m := by
  have hfold := Nat.ofDigitChars_ten_toDigits (n := m)
  rw [Nat.ofDigitChars_eq_foldl] at hfold
  rw [ofDigits, List.foldl_map]
  refine (List.foldl_ext _ _ _ fun n c _ => ?_).trans hfold
  rw [Nat.mul_comm, digitValue]

lemma isDigit_toDigits (m : Nat) : ∀ c ∈ Nat.toDigits 10 m, c.isDigit = true := fun _ hc =>
  Nat.isDigit_of_mem_toDigits (by decide) (by decide) hc

lemma digitValues?_toDigits (m : Nat) :
    digitValues? false (Nat.toDigits 10 m) = some ((Nat.toDigits 10 m).map digitValue) :=
  digitValues?_eq (isDigit_toDigits m) (.inr Nat.toDigits_ne_nil)

lemma length_toDigits_le {m : Nat} (h : m < 10 ^ integerDigitLimit) :
    ¬integerDigitLimit < ((Nat.toDigits 10 m).map digitValue).length := by
  rw [List.length_map, Nat.not_lt]
  exact (Nat.length_toDigits_le_iff (by decide) (by decide)).mpr h

lemma signed_toDigits (m : Nat) : signed (Nat.toDigits 10 m) = (false, Nat.toDigits 10 m) := by
  have hdigits := isDigit_toDigits m
  rw [signed.eq_def]
  split
  · next heq => exact absurd (hdigits '-' (heq ▸ List.mem_cons_self)) (by decide)
  · next heq => exact absurd (hdigits '+' (heq ▸ List.mem_cons_self)) (by decide)
  · rfl

lemma not_isPadding (hc : c.isDigit = true ∨ c = '-') : isPadding c = false := by
  rcases hc with hc | rfl
  · obtain ⟨hlow, hhigh⟩ := Char.isDigit_iff_toNat.mp hc
    have hblank : isBlank c = false := by
      have h48 : '0'.toNat = 48 := rfl
      have h57 : '9'.toNat = 57 := rfl
      simp only [isBlank, Bool.or_eq_false_iff, Bool.and_eq_false_iff, decide_eq_false_iff_not,
        beq_eq_false_iff_ne]
      omega
    rw [isPadding, hblank]
    rfl
  · rfl

/-- **An integer that is written is read back.** -/
lemma integer?_toString (h : isSpellable n = true) : integer? (toString n) = some n := by
  obtain ⟨neg, m, hm, rfl, htext⟩ : ∃ neg m, m < 10 ^ integerDigitLimit ∧ withSign neg m = n ∧
      (toString n).toList = if neg then '-' :: Nat.toDigits 10 m else Nat.toDigits 10 m := by
    have hlimit := isSpellable_iff.mp h
    rcases n with m | m
    · refine ⟨false, m, hlimit, rfl, ?_⟩
      change (toString m).toList = _
      rw [Nat.toString_eq_ofList_toDigits, String.toList_ofList]
      rfl
    · refine ⟨true, m + 1, hlimit, rfl, ?_⟩
      change ("-" ++ toString (m + 1)).toList = _
      rw [Nat.toString_eq_ofList_toDigits, String.toList_append, String.toList_ofList,
        String.toList_ofList]
      rfl
  have hchars : ∀ c ∈ (toString (withSign neg m)).toList, isPadding c = false := by
    intro c hc
    rw [htext] at hc
    split at hc
    · exact not_isPadding ((List.mem_cons.mp hc).symm.imp_left (isDigit_toDigits m c))
    · exact not_isPadding (.inl (isDigit_toDigits m c hc))
  have hsigned : signed (toString (withSign neg m)).toList = (neg, Nat.toDigits 10 m) := by
    rw [htext]
    cases neg
    · exact signed_toDigits m
    · rfl
  rw [integer?_eq, trimmed_eq_self (fun c hc => hchars c (List.mem_of_mem_head? hc))
    fun c hc => hchars c (List.mem_of_mem_getLast? hc), hsigned, digitValues?_toDigits]
  change (if _ then none else _) = _
  rw [if_neg (length_toDigits_le hm), ofDigits_toDigits]

end Integer

/-! ### Lists -/

section Pieces

variable {α : Type} {p : α → Bool}

lemma pieces_ne_nil : ∀ xs : List α, pieces p xs ≠ []
  | [] => List.cons_ne_nil _ _
  | x :: xs => by
      rw [pieces]
      split
      · exact List.cons_ne_nil _ _
      · split <;> exact List.cons_ne_nil _ _

lemma pieces_append {x : α} (hx : p x = true) (ys : List α) :
    ∀ {xs : List α}, (∀ y ∈ xs, p y = false) → pieces p (xs ++ x :: ys) = xs :: pieces p ys
  | [], _ => by rw [List.nil_append, pieces, if_pos hx]
  | y :: xs, h => by
      obtain ⟨hy, hxs⟩ := List.forall_mem_cons.mp h
      rw [List.cons_append, pieces, hy, if_neg Bool.false_ne_true, pieces_append hx ys hxs]

lemma pieces_eq_singleton : ∀ {xs : List α}, (∀ y ∈ xs, p y = false) → pieces p xs = [xs]
  | [], _ => rfl
  | y :: xs, h => by
      obtain ⟨hy, hxs⟩ := List.forall_mem_cons.mp h
      rw [pieces, hy, if_neg Bool.false_ne_true, pieces_eq_singleton hxs]

/-- No piece holds what the pieces stand between. -/
lemma pieces_pure : ∀ xs : List α, ∀ q ∈ pieces p xs, ∀ x ∈ q, p x = false
  | [], q, hq, x, hx => by
      rw [List.mem_singleton.mp hq] at hx
      cases hx
  | y :: ys, q, hq, x, hx => by
      have hlater := pieces_pure ys
      rw [pieces] at hq
      split at hq
      · rcases List.mem_cons.mp hq with rfl | hq
        · cases hx
        · exact hlater q hq x hx
      · next hy =>
          split at hq
          · next hnil => exact absurd hnil (pieces_ne_nil ys)
          · next first rest hpieces =>
              rw [hpieces, List.forall_mem_cons] at hlater
              rcases List.mem_cons.mp hq with rfl | hq
              · rcases List.mem_cons.mp hx with rfl | hx
                · exact Bool.eq_false_iff.mpr hy
                · exact hlater.1 x hx
              · exact hlater.2 q hq x hx

/-- The pieces around a member make up the list. -/
lemma intercalate_pieces [BEq α] [LawfulBEq α] (a : α) : ∀ xs : List α,
    [a].intercalate (pieces (· == a) xs) = xs
  | [] => rfl
  | x :: xs => by
      have hlater := intercalate_pieces a xs
      rw [pieces]
      rcases hpieces : pieces (· == a) xs with _ | ⟨first, rest⟩
      · exact absurd hpieces (pieces_ne_nil xs)
      · rw [hpieces] at hlater
        split
        · next hx =>
            rw [List.intercalate_cons_cons, hlater, eq_of_beq hx]
            rfl
        · cases rest with
          | nil => simpa using hlater
          | cons second rest =>
              rw [List.intercalate_cons_cons] at hlater ⊢
              rw [List.cons_append, List.cons_append, hlater]

end Pieces

/-- The pieces of a text between commas, from which blanks are taken off in some way. -/
def splitCommas (trim : List Char → List Char) (s : String) : List String :=
  (pieces (· == ',') s.toList).map fun cs => String.ofList (trim cs)

/-- A text that can be told in a list: it holds no comma, and nothing is taken off it. -/
structure Told (trim : List Char → List Char) (s : String) : Prop where
  plain : ∀ c ∈ s.toList, (c == ',') = false
  kept : trim s.toList = s.toList

section SplitCommas

variable {trim : List Char → List Char} (htrim : ∀ cs, trim (' ' :: cs) = trim cs)
include htrim

/-- A blank in front is not seen. -/
lemma splitCommas_blank (s : String) : splitCommas trim (" " ++ s) = splitCommas trim s := by
  have hblank : (" " ++ s).toList = ' ' :: s.toList := by simp
  rw [splitCommas, splitCommas, hblank, pieces, if_neg (by decide)]
  rcases hs : pieces (· == ',') s.toList with _ | ⟨q, qs⟩
  · exact absurd hs (pieces_ne_nil _)
  · rw [List.map_cons, htrim, List.map_cons]

lemma splitCommas_cons {s : String} (hs : Told trim s) (rest : String) :
    splitCommas trim (s ++ ", " ++ rest) = s :: splitCommas trim rest := by
  have hcomma : (s ++ ", " ++ rest).toList = s.toList ++ ',' :: (" " ++ rest).toList := by simp
  rw [← splitCommas_blank htrim rest, splitCommas, hcomma, pieces_append (by decide) _ hs.plain,
    List.map_cons, hs.kept, String.ofList_toList]
  rfl

/-- **What was written is read**: the members of a list that is written with commas, by induction on
them. -/
lemma splitCommas_joined : ∀ {xs : List String}, xs ≠ [] → (∀ x ∈ xs, Told trim x) →
    splitCommas trim (", ".intercalate xs) = xs
  | [], h, _ => absurd rfl h
  | [x], _, hxs => by
      have hx := hxs x List.mem_cons_self
      rw [String.intercalate_singleton, splitCommas, pieces_eq_singleton hx.plain,
        List.map_singleton, hx.kept, String.ofList_toList]
  | x :: y :: xs, _, hxs => by
      obtain ⟨hx, hrest⟩ := List.forall_mem_cons.mp hxs
      rw [String.intercalate_cons_cons, splitCommas_cons htrim hx,
        splitCommas_joined (List.cons_ne_nil y xs) hrest]

end SplitCommas

end Text

namespace SettingKey

variable {s x : String}

/-- **The members of a list** are the pieces of its text between commas, without the blanks around
them and without the empty ones. -/
lemma listOf_pieces (s : String) : ∃ ps qs : List String, ",".intercalate ps = s ∧
    (∀ p ∈ ps, ',' ∉ p.toList) ∧
    List.Forall₂ (fun p q => Text.Trims Text.isBlank p.toList q.toList) ps qs ∧
    listOf s = qs.filter (· != "") := by
  refine ⟨(Text.pieces (· == ',') s.toList).map String.ofList,
    (Text.pieces (· == ',') s.toList).map fun cs => String.ofList (Text.stripChars cs), ?_, ?_, ?_,
    rfl⟩
  · rw [← String.toList_inj, String.toList_intercalate, List.map_map]
    have hmap : (Text.pieces (· == ',') s.toList).map (String.toList ∘ String.ofList) =
        Text.pieces (· == ',') s.toList := by
      simp [Function.comp_def]
    rw [hmap]
    exact Text.intercalate_pieces ',' s.toList
  · rw [List.forall_mem_map]
    intro cs hcs hcomma
    rw [String.toList_ofList] at hcomma
    exact absurd (Text.pieces_pure _ cs hcs ',' hcomma) (by decide)
  · rw [List.forall₂_map_left_iff, List.forall₂_map_right_iff, List.forall₂_same]
    intro cs _
    rw [String.toList_ofList, String.toList_ofList]
    exact Text.trims_trimmed _ cs

/-- The members of a list can be told in one. -/
lemma told_of_mem_listOf (hx : x ∈ listOf s) : Text.Told Text.stripChars x := by
  obtain ⟨cs, hcs, rfl⟩ := List.mem_map.mp (List.mem_filter.mp hx).1
  obtain ⟨before, after, hsplit, -, -, hhead, hlast⟩ := Text.trims_trimmed Text.isBlank cs
  constructor
  · rw [String.toList_ofList]
    intro c hc
    refine Text.pieces_pure _ cs hcs c ?_
    rw [hsplit]
    exact List.mem_append_left _ (List.mem_append_right _ hc)
  · rw [String.toList_ofList]
    exact Text.trimmed_eq_self hhead hlast

/-- **A list that is written is read back.** -/
lemma listOf_joined (s : String) : listOf (", ".intercalate (listOf s)) = listOf s := by
  by_cases hnil : listOf s = []
  · rw [hnil, String.intercalate_nil]
    rfl
  · have hsplit : Text.splitCommas Text.stripChars (", ".intercalate (listOf s)) = listOf s :=
      Text.splitCommas_joined (Text.trimmed_cons (by decide)) hnil fun x => told_of_mem_listOf
    calc listOf (", ".intercalate (listOf s))
        = (Text.splitCommas Text.stripChars (", ".intercalate (listOf s))).filter (· != "") := rfl
      _ = listOf s := by
          rw [hsplit]
          exact List.filter_eq_self.mpr fun x hx => (List.mem_filter.mp hx).2

/-! ### Settings -/

lemma textOf?_textValues (xs : List String) (mark : Option Mark) :
    textOf? (.list (textValues xs) mark) = .ok (", ".intercalate xs) := by
  have htexts : Value.texts? (textValues xs) = .ok xs := by
    rw [Value.texts?, textValues, Answer.mapM_eq_ok_iff, List.forall₂_map_left_iff,
      List.forall₂_same]
    exact fun x _ => rfl
  exact Answer.bind_of_ok htexts

/-- **What is read is shown, and what is shown is read back.** -/
lemma exists_textOf? {k : SettingKey} {v : Value} (h : k.parse? s = some v) :
    ∃ t, textOf? v = .ok t ∧ k.parse? t = some v := by
  cases k with
  | builtinTypes | enabledDialects =>
      obtain rfl := Option.some.inj h
      refine ⟨_, textOf?_textValues _ _, ?_⟩
      rw [parse?, listOf_joined]
  | workers =>
      obtain ⟨n, hn, rfl⟩ := Option.map_eq_some_iff.mp h
      have hspellable := Text.isSpellable_of_integer? hn
      have hshown : textOf? (.int n) = .ok (toString n) := by
        change Value.display? (.int n) = _
        rw [Value.display?, Value.spellableIn, hspellable]
        rfl
      refine ⟨toString n, hshown, ?_⟩
      rw [parse?, Text.integer?_toString hspellable]
      rfl
  | publishToMetadata =>
      obtain rfl := Option.some.inj h
      refine ⟨_, rfl, ?_⟩
      have hon : ∀ b : Bool, onWords.contains (Text.lower (if b then "true" else "false")) = b := by
        decide +kernel
      rw [parse?, hon]
  | level =>
      obtain rfl := Option.some.inj h
      exact ⟨Text.upper s, rfl, by rw [parse?, Text.upper_upper]⟩
  | _ =>
      obtain rfl := Option.some.inj h
      exact ⟨s, rfl, rfl⟩

end SettingKey
end Concordance
