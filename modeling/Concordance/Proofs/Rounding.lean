import Mathlib
import Concordance.Report.Table

/-!
How far a double is above what it rounds.

* `Binary64.AtMost x q` : the double is no negative number, and at most `q` if it is finite.
* `Binary64.atMost_ofRatio` : the nearest double to a quotient exceeds it by one part in `2 ^ 53`,
  or by half of the least double. The proof follows the exponent: `reaches_iff` says that a power of
  two is at most the quotient, `mantissaAt_le` that a rounded mantissa is half a unit too large at
  most.
* `Binary64.AtMost.mul`, `Binary64.AtMost.truncate` : so do products; rounding down keeps below.
* `scaledWidth_le` : the width of a scaled column is at most its exact share, as long as the total
  width times the room is at most `2 ^ 50`.
-/

namespace Concordance
namespace Binary64

/-! ### The nearest double -/

variable {num den : Nat}

/-- The part of a number by which its nearest double may be above it. -/
def halfUnit : ℚ := 2 ^ (-53 : ℤ)

/-- Half of the least double that is not zero. -/
def halfLeast : ℚ := 2 ^ (-1075 : ℤ)

lemma halfUnit_nonneg : 0 ≤ halfUnit := by rw [halfUnit]; positivity

lemma halfLeast_nonneg : 0 ≤ halfLeast := by rw [halfLeast]; positivity

/-- The double is no negative number, and at most `q` if it is finite. -/
def AtMost (x : Binary64) (q : ℚ) : Prop :=
  ∀ neg m e, x = .finite neg m e → neg = false ∧ (m : ℚ) * 2 ^ e ≤ q

lemma twoPow_eq (k : Nat) : twoPow k = 2 ^ k := rfl

lemma roundQuotient_le (num : Nat) (hden : 0 < den) :
    2 * (den * roundQuotient num den) ≤ 2 * num + den := by
  have hdiv := Nat.div_add_mod num den
  have hmod := Nat.mod_lt num hden
  have hsucc : den * (num / den + 1) = den * (num / den) + den := Nat.mul_succ _ _
  rw [roundQuotient]
  split_ifs <;> omega

/-- A rounded mantissa is half a unit too large at most. -/
lemma mantissaAt_le (num : Nat) (hden : 0 < den) (e : ℤ) :
    (mantissaAt num den e : ℚ) * 2 ^ e ≤ num / den + 2 ^ (e - 1) := by
  have hd : (0 : ℚ) < den := by exact_mod_cast hden
  have hhalf : (2 : ℚ) ^ (e - 1) = 2 ^ e / 2 := by rw [zpow_sub_one₀ two_ne_zero]; ring
  rw [hhalf, mantissaAt]
  split
  · next he =>
      obtain ⟨n, rfl⟩ := Int.eq_ofNat_of_zero_le he
      have hpos : (0 : ℚ) < 2 ^ n := by positivity
      have hround : (2 : ℚ) * (den * 2 ^ n * roundQuotient num (den * 2 ^ n)) ≤
          2 * num + den * 2 ^ n := by
        exact_mod_cast roundQuotient_le num (Nat.mul_pos hden (Nat.two_pow_pos n))
      rw [Int.toNat_natCast, zpow_natCast, twoPow_eq]
      rw [← sub_nonneg]
      have hfactor : (num : ℚ) / den + 2 ^ n / 2 - roundQuotient num (den * 2 ^ n) * 2 ^ n =
          (2 * num + den * 2 ^ n - 2 * (den * 2 ^ n * roundQuotient num (den * 2 ^ n))) /
            (2 * den) := by
        field_simp
      rw [hfactor]
      exact div_nonneg (by linarith) (by positivity)
  · next he =>
      obtain ⟨n, hn⟩ := Int.eq_ofNat_of_zero_le (show 0 ≤ -e by omega)
      obtain rfl : e = -(n : ℤ) := by omega
      have hround : (2 : ℚ) * (den * roundQuotient (num * 2 ^ n) den) ≤
          2 * (num * 2 ^ n) + den := by
        exact_mod_cast roundQuotient_le (num * 2 ^ n) hden
      rw [neg_neg, Int.toNat_natCast, zpow_neg, zpow_natCast, twoPow_eq]
      rw [← sub_nonneg]
      have hfactor : (num : ℚ) / den + (2 ^ n)⁻¹ / 2 - roundQuotient (num * 2 ^ n) den * (2 ^ n)⁻¹ =
          (2 * (num * 2 ^ n) + den - 2 * (den * roundQuotient (num * 2 ^ n) den)) /
            (2 * den * 2 ^ n) := by
        field_simp
      rw [hfactor]
      exact div_nonneg (by linarith) (by positivity)

lemma reaches_iff (num : Nat) (hden : 0 < den) (k : ℤ) :
    reaches num den k = true ↔ (2 : ℚ) ^ k ≤ num / den := by
  have hd : (0 : ℚ) < den := by exact_mod_cast hden
  rw [reaches, le_div_iff₀ hd]
  split
  · next hk =>
      obtain ⟨n, rfl⟩ := Int.eq_ofNat_of_zero_le hk
      rw [decide_eq_true_eq, Int.toNat_natCast, zpow_natCast, twoPow_eq,
        mul_comm]
      exact_mod_cast Iff.rfl
  · next hk =>
      obtain ⟨n, hn⟩ := Int.eq_ofNat_of_zero_le (show 0 ≤ -k by omega)
      obtain rfl : k = -(n : ℤ) := by omega
      rw [decide_eq_true_eq, neg_neg, Int.toNat_natCast, zpow_neg, zpow_natCast, twoPow_eq,
        inv_mul_le_iff₀ (by positivity), mul_comm]
      exact_mod_cast Iff.rfl

/-- The lesser of the two exponents that are tried. -/
lemma two_zpow_log2_le (hnum : num ≠ 0) (hden : 0 < den) :
    (2 : ℚ) ^ ((num.log2 : ℤ) - den.log2 - 1) ≤ num / den := by
  have hd : (0 : ℚ) < den := by exact_mod_cast hden
  have hlow : (2 : ℚ) ^ num.log2 ≤ num := by exact_mod_cast Nat.log2_self_le hnum
  have hhigh : (den : ℚ) ≤ 2 ^ (den.log2 + 1) := by exact_mod_cast Nat.lt_log2_self.le
  have hsplit : (2 : ℚ) ^ ((num.log2 : ℤ) - den.log2 - 1) = 2 ^ num.log2 / 2 ^ (den.log2 + 1) := by
    rw [sub_sub, zpow_sub₀ two_ne_zero, zpow_natCast]
    exact_mod_cast rfl
  rw [hsplit]
  exact div_le_div₀ (by positivity) hlow hd hhigh

/-- The exponent of the greatest power of two below a quotient. -/
def topExponent (num den : Nat) : ℤ :=
  if reaches num den ((num.log2 : ℤ) - den.log2) then (num.log2 : ℤ) - den.log2
  else (num.log2 : ℤ) - den.log2 - 1

lemma two_zpow_topExponent_le (hnum : num ≠ 0) (hden : 0 < den) :
    (2 : ℚ) ^ topExponent num den ≤ num / den := by
  rw [topExponent]
  split
  · next h => exact (reaches_iff num hden _).mp h
  · exact two_zpow_log2_le hnum hden

/-- Half a unit in the last place. -/
lemma halfUnit_le {top : ℤ} {q : ℚ} (hq : 2 ^ top ≤ q) :
    (2 : ℚ) ^ (max (top - 52) minExponent - 1) ≤ halfUnit * q + halfLeast := by
  have hleast := halfLeast_nonneg
  have hpower : halfUnit * 2 ^ top ≤ halfUnit * q := mul_le_mul_of_nonneg_left hq halfUnit_nonneg
  rcases max_choice (top - 52) minExponent with hmax | hmax <;> rw [hmax]
  · have hsplit : (2 : ℚ) ^ (top - 52 - 1) = halfUnit * 2 ^ top := by
      rw [halfUnit, ← zpow_add₀ two_ne_zero]
      congr 1
      omega
    rw [hsplit]
    linarith
  · have hzero : 0 ≤ halfUnit * (2 : ℚ) ^ top := mul_nonneg halfUnit_nonneg (by positivity)
    have hexact : (2 : ℚ) ^ (minExponent - 1) = halfLeast := by
      rw [halfLeast]
      congr 1
    rw [hexact]
    linarith

/-- **The nearest double to a quotient** is above it by one part in `2 ^ 53` at most, or by half of
the least double. -/
lemma atMost_ofRatio (num : Nat) (hden : 0 < den) :
    AtMost (ofRatio false num den) ((1 + halfUnit) * (num / den) + halfLeast) := by
  intro neg m e h
  by_cases hnum : num = 0
  · rw [ofRatio, if_pos hnum, zero] at h
    cases h
    refine ⟨rfl, ?_⟩
    rw [Nat.cast_zero, zero_mul, hnum, Nat.cast_zero, zero_div, mul_zero, zero_add]
    exact halfLeast_nonneg
  obtain ⟨exponent, hexponent⟩ : ∃ e', max (topExponent num den - 52) minExponent = e' := ⟨_, rfl⟩
  have hbound : (mantissaAt num den exponent : ℚ) * 2 ^ exponent ≤
      (1 + halfUnit) * (num / den) + halfLeast := by
    have hmantissa := mantissaAt_le num hden exponent
    have hexcess := hexponent ▸ halfUnit_le (two_zpow_topExponent_le hnum hden)
    linarith
  rw [ofRatio, if_neg hnum] at h
  dsimp only at h
  rw [← topExponent, hexponent] at h
  by_cases hfull : mantissaAt num den exponent = twoPow 53
  · -- a mantissa of 54 bits is halved under the next exponent
    rw [if_pos hfull] at h
    split at h
    · cases h
    · cases h
      refine ⟨rfl, le_of_eq_of_le ?_ hbound⟩
      rw [hfull, zpow_add₀ two_ne_zero, twoPow_eq, twoPow_eq]
      push_cast
      ring
  · rw [if_neg hfull] at h
    split at h
    · cases h
    · cases h
      exact ⟨rfl, hbound⟩

/-! ### Products and integer parts -/

/-- A finite double that is not negative, as a quotient of natural numbers. -/
lemma ratio?_finite (m : Nat) (e : ℤ) : ∃ n d : Nat, (finite false m e).ratio? = some ((n : ℤ), d) ∧
    0 < d ∧ (n : ℚ) / d = m * 2 ^ e := by
  by_cases he : 0 ≤ e
  · obtain ⟨k, rfl⟩ := Int.eq_ofNat_of_zero_le he
    refine ⟨m * 2 ^ k, 1, ?_, one_pos, ?_⟩
    · simp [ratio?, twoPow_eq]
    · simp
  · obtain ⟨k, hk⟩ := Int.eq_ofNat_of_zero_le (show 0 ≤ -e by omega)
    obtain rfl : e = -(k : ℤ) := by omega
    refine ⟨m, 2 ^ k, ?_, Nat.two_pow_pos k, ?_⟩
    · rw [ratio?, if_neg he, neg_neg, Int.toNat_natCast]
      rfl
    · rw [zpow_neg, zpow_natCast, Nat.cast_pow, Nat.cast_ofNat, div_eq_mul_inv]

section AtMost

variable {x y : Binary64} {p q : ℚ}

/-- The double product exceeds that of two bounds as a rounded quotient may. -/
lemma AtMost.mul (hx : x.AtMost p) (hy : y.AtMost q) (hp : 0 ≤ p) :
    (x.mul y).AtMost ((1 + halfUnit) * (p * q) + halfLeast) := by
  intro neg m e h
  have hunit := halfUnit_nonneg
  rcases x with _ | _ | ⟨xneg, xm, xe⟩ <;> rcases y with _ | _ | ⟨yneg, ym, ye⟩
  case finite.finite =>
    obtain ⟨rfl, hxle⟩ := hx xneg xm xe rfl
    obtain ⟨rfl, hyle⟩ := hy yneg ym ye rfl
    obtain ⟨a, b, hxratio, hb, hxvalue⟩ := ratio?_finite xm xe
    obtain ⟨c, d, hyratio, hd, hyvalue⟩ := ratio?_finite ym ye
    rw [Binary64.mul, hxratio, hyratio] at h
    have hproduct : ((a : ℤ) * c).natAbs = a * c := by rw [← Nat.cast_mul, Int.natAbs_natCast]
    dsimp only [isNeg] at h
    rw [hproduct] at h
    obtain ⟨hneg, hle⟩ := atMost_ofRatio (a * c) (Nat.mul_pos hb hd) neg m e h
    refine ⟨hneg, hle.trans ?_⟩
    have hvalue : ((a * c : ℕ) : ℚ) / (b * d : ℕ) = (xm * 2 ^ xe) * (ym * 2 ^ ye) := by
      rw [← hxvalue, ← hyvalue, Nat.cast_mul, Nat.cast_mul, mul_div_mul_comm]
    have hfactors : (xm * (2 : ℚ) ^ xe) * (ym * 2 ^ ye) ≤ p * q :=
      mul_le_mul hxle hyle (by positivity) hp
    rw [hvalue]
    have := mul_le_mul_of_nonneg_left hfactors (show 0 ≤ 1 + halfUnit by linarith)
    linarith
  -- a product with a double that is not finite is not finite
  all_goals
    rw [Binary64.mul] at h
    simp only [ratio?] at h
    split at h <;> cases h

/-- The integer part of a double is no more than its bound. -/
lemma AtMost.truncate (h : x.AtMost q) (hq : 0 ≤ q) : ((x.truncate?.getD 0).toNat : ℚ) ≤ q := by
  rcases x with _ | _ | ⟨neg, m, e⟩
  · exact_mod_cast hq
  · exact_mod_cast hq
  · obtain ⟨rfl, hle⟩ := h neg m e rfl
    obtain ⟨n, d, hratio, hd, hvalue⟩ := ratio?_finite m e
    rw [truncate?, hratio]
    have hpart : ((n : ℤ).tdiv d).toNat = n / d := rfl
    rw [Option.map_some, Option.getD_some, hpart]
    exact Nat.cast_div_le.trans (hvalue.trans_le hle)

end AtMost

/-! ### Shares -/

lemma halfUnit_eq : halfUnit * 2 ^ 53 = 1 := by
  rw [halfUnit, ← zpow_natCast, ← zpow_add₀ two_ne_zero]
  rfl

lemma halfLeast_le : halfLeast * 2 ^ 103 ≤ 1 := by
  rw [halfLeast, ← zpow_natCast, ← zpow_add₀ two_ne_zero]
  exact zpow_le_one_of_nonpos₀ one_le_two (by decide)

/-- What three roundings add to a share `w * a / t` does not reach the next whole number, as long as
the numbers are not too large. -/
lemma rounded_share_lt {w t a : ℚ} (hw : 0 ≤ w) (hwt : w ≤ t) (ha : 1 ≤ a) (ht : 1 ≤ t)
    (h : t * a ≤ 2 ^ 50) :
    ((1 + halfUnit) * (((1 + halfUnit) * w + halfLeast) * ((1 + halfUnit) * (a / t) + halfLeast)) +
      halfLeast) * t < w * a + 1 := by
  obtain ⟨u, hu⟩ : ∃ u, halfUnit = u := ⟨_, rfl⟩
  obtain ⟨l, hl⟩ : ∃ l, halfLeast = l := ⟨_, rfl⟩
  obtain ⟨r, hr⟩ : ∃ r, a / t = r := ⟨_, rfl⟩
  have hunit : u * 2 ^ 53 = 1 := hu ▸ halfUnit_eq
  have hleast : l * 2 ^ 103 ≤ 1 := hl ▸ halfLeast_le
  have hl0 : 0 ≤ l := hl ▸ halfLeast_nonneg
  have hrt : r * t = a := by rw [← hr]; field_simp
  have hta : t ≤ 2 ^ 50 := (le_mul_of_one_le_right (by linarith) ha).trans h
  have hat : a ≤ 2 ^ 50 := (le_mul_of_one_le_left (by linarith) ht).trans h
  have hwa : w * a ≤ 2 ^ 50 := (mul_le_mul_of_nonneg_right hwt (by linarith)).trans h
  have hu0 : 0 ≤ u := hu ▸ halfUnit_nonneg
  have hr0 : 0 ≤ r := by
    rw [← hr]
    exact div_nonneg (by linarith) (by linarith)
  rw [hu, hl, hr]
  -- the least double is small beside the quotient of the two widths
  have hsmall : l ≤ u * r := by
    have hrlow : 1 ≤ r * 2 ^ 50 := (ha.trans_eq hrt.symm).trans (mul_le_mul_of_nonneg_left hta hr0)
    have hscaled : l * 2 ^ 103 ≤ (u * r) * 2 ^ 103 := by
      calc l * 2 ^ 103 ≤ 1 * 1 := by linarith
        _ ≤ (u * 2 ^ 53) * (r * 2 ^ 50) := mul_le_mul hunit.ge hrlow zero_le_one (by linarith)
        _ = (u * r) * 2 ^ 103 := by ring
    exact le_of_mul_le_mul_right hscaled (by positivity)
  have hp0 : 0 ≤ (1 + u) * w + l := add_nonneg (mul_nonneg (by linarith) hw) hl0
  have hla : l * a ≤ l * 2 ^ 50 := mul_le_mul_of_nonneg_left hat hl0
  have hlt : l * t ≤ l * 2 ^ 50 := mul_le_mul_of_nonneg_left hta hl0
  calc ((1 + u) * (((1 + u) * w + l) * ((1 + u) * r + l)) + l) * t
      ≤ ((1 + u) * (((1 + u) * w + l) * ((1 + 2 * u) * r)) + l) * t := by
        gcongr
        linarith
    _ = (1 + u) * (1 + 2 * u) * (1 + u) * (w * a) + (1 + u) * (1 + 2 * u) * (l * a) + l * t := by
        rw [← hrt]
        ring
    _ < w * a + 1 := by
        obtain rfl : u = 1 / 2 ^ 53 := eq_one_div_of_mul_eq_one_left hunit
        norm_num at *
        linarith

end Binary64

/-- **The width of a scaled column** is at most its exact share, rounded down. -/
lemma scaledWidth_le {a t w : Nat} (hw : w ≤ t) (ha : 0 < a) (ht : 0 < t) (h : t * a ≤ 2 ^ 50) :
    scaledWidth a t w ≤ w * a / t := by
  have htq : (0 : ℚ) < t := by exact_mod_cast ht
  have hfirst : (Binary64.ofInt w).AtMost ((1 + Binary64.halfUnit) * w + Binary64.halfLeast) := by
    have hw1 := Binary64.atMost_ofRatio w one_pos
    rwa [Nat.cast_one, div_one] at hw1
  have hnonneg : ∀ {q : ℚ}, 0 ≤ q → 0 ≤ (1 + Binary64.halfUnit) * q + Binary64.halfLeast :=
    fun hq => add_nonneg (mul_nonneg (by linarith [Binary64.halfUnit_nonneg]) hq)
      Binary64.halfLeast_nonneg
  have hshare := (hfirst.mul (Binary64.atMost_ofRatio a ht) (hnonneg (by positivity))).truncate
    (hnonneg (mul_nonneg (hnonneg (by positivity)) (hnonneg (by positivity))))
  have hslack := Binary64.rounded_share_lt (w := w) (t := t) (a := a) (by positivity)
    (by exact_mod_cast hw) (by exact_mod_cast ha) (by exact_mod_cast ht) (by exact_mod_cast h)
  have hscaled : (scaledWidth a t w * t : ℚ) < w * a + 1 :=
    (mul_le_mul_of_nonneg_right hshare htq.le).trans_lt hslack
  have hnat : scaledWidth a t w * t < w * a + 1 := by exact_mod_cast hscaled
  exact (Nat.le_div_iff_mul_le ht).mpr (Nat.lt_succ_iff.mp hnat)

end Concordance
