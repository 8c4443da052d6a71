import Mathlib
import SlotOutcome.Decimal.Shortest

/-!
# Finite doubles read back

Which double a decimal is rounded to depends on the number that it denotes, not on the digits and
the exponent that it is written with, and a decimal that denotes a double is rounded to that double.
So the shortest decimal of a finite double, which loses its trailing zeros last, is rounded to the
double that it was made for.

## Main definitions

* `Decimal.magnitude`: the number that a decimal denotes, without its sign.

## Main results

* `nearestMagnitude_congr`: equal quotients have the same nearest double.
* `Decimal.round_congr`: decimals that denote the same number are rounded alike.
* `FiniteFloat.round_exact`, `FiniteFloat.round_shortest`: the decimals of a double read back.
-/

namespace SlotOutcome

/-! ### Rounding quotients -/

theorem roundHalfEven_mul_mul {k : ℕ} (hk : 0 < k) (num den : ℕ) :
    roundHalfEven (k * num) (k * den) = roundHalfEven num den := by
  have hfloor : k * num / (k * den) = num / den := Nat.mul_div_mul_left _ _ hk
  have hrest : 2 * (k * num % (k * den)) = k * (2 * (num % den)) := by
    rw [Nat.mul_mod_mul_left, Nat.mul_left_comm]
  simp only [roundHalfEven, hfloor, hrest, Nat.mul_lt_mul_left hk]

/-- Rounding depends on the quotient only. -/
theorem roundHalfEven_congr {a b c d : ℕ} (hb : 0 < b) (hd : 0 < d) (h : (a : ℚ) / b = c / d) :
    roundHalfEven a b = roundHalfEven c d := by
  have hcross : a * d = c * b := by
    have hb' : (b : ℚ) ≠ 0 := by positivity
    have hd' : (d : ℚ) ≠ 0 := by positivity
    exact_mod_cast (div_eq_div_iff hb' hd').mp h
  calc roundHalfEven a b = roundHalfEven (d * a) (d * b) := (roundHalfEven_mul_mul hd a b).symm
    _ = roundHalfEven (b * c) (b * d) := by
      rw [Nat.mul_comm d a, hcross, Nat.mul_comm c b, Nat.mul_comm d b]
    _ = roundHalfEven c d := roundHalfEven_mul_mul hb c d

/-- A natural number is rounded to itself. -/
theorem roundHalfEven_one (n : ℕ) : roundHalfEven n 1 = n := by
  simp [roundHalfEven, Nat.mod_one]

theorem le_roundHalfEven (num den : ℕ) : num / den ≤ roundHalfEven num den := by
  unfold roundHalfEven
  dsimp only
  split_ifs <;> omega

theorem roundHalfEven_eq_zero {num den : ℕ} (h : 2 * num < den) : roundHalfEven num den = 0 := by
  have hlt : num < den := by omega
  rw [roundHalfEven, Nat.mod_eq_of_lt hlt, if_pos h, Nat.div_eq_of_lt hlt]

/-! ### The nearest double -/

theorem zpow_eq_div_pow (b : ℚ) (e : ℤ) : b ^ e = b ^ e.toNat / b ^ (-e).toNat := by
  rcases le_total 0 e with he | he
  · obtain ⟨n, rfl⟩ := Int.eq_ofNat_of_zero_le he
    simp
  · obtain ⟨n, hn⟩ := Int.eq_ofNat_of_zero_le (Int.neg_nonneg_of_nonpos he)
    obtain rfl : e = -(n : ℤ) := by omega
    simp

theorem le_log_of_le {x : ℚ} {k : ℤ} (h : 2 ^ k ≤ x) : k ≤ Int.log 2 x := by
  have hx : 0 < x := lt_of_lt_of_le (by positivity) h
  exact (Int.zpow_le_iff_le_log one_lt_two hx).mp (by exact_mod_cast h)

theorem log_lt_of_lt {x : ℚ} (hx : 0 < x) {k : ℤ} (h : x < 2 ^ k) : Int.log 2 x < k :=
  (Int.lt_zpow_iff_log_lt one_lt_two hx).mp (by exact_mod_cast h)

theorem zpow_log_le {x : ℚ} (hx : 0 < x) : 2 ^ Int.log 2 x ≤ x := by
  exact_mod_cast Int.zpow_log_le_self one_lt_two hx

/-- The exponent of the largest power of two that does not exceed a number. -/
theorem log_eq_of_bounds {x : ℚ} {k : ℤ} (hle : 2 ^ k ≤ x) (hlt : x < 2 ^ (k + 1)) :
    Int.log 2 x = k := by
  have hx : 0 < x := lt_of_lt_of_le (by positivity) hle
  have hge := le_log_of_le hle
  have hlt' := log_lt_of_lt hx hlt
  omega

section Quotients

variable {num den : ℕ}

/-- The exponents of numerator and denominator tell that of the quotient, but for one. -/
theorem quotient_bounds (hnum : 0 < num) (hden : 0 < den) :
    (2 : ℚ) ^ ((num.log2 : ℤ) - den.log2 - 1) ≤ num / den ∧
      (num : ℚ) / den < 2 ^ ((num.log2 : ℤ) - den.log2 + 1) := by
  have hnum_le : (2 : ℚ) ^ num.log2 ≤ num := by exact_mod_cast Nat.log2_self_le hnum.ne'
  have hnum_lt : (num : ℚ) < 2 ^ (num.log2 + 1) := by exact_mod_cast Nat.lt_log2_self
  have hden_le : (2 : ℚ) ^ den.log2 ≤ den := by exact_mod_cast Nat.log2_self_le hden.ne'
  have hden_lt : (den : ℚ) < 2 ^ (den.log2 + 1) := by exact_mod_cast Nat.lt_log2_self
  have hden_pos : (0 : ℚ) < den := by exact_mod_cast hden
  constructor
  · rw [le_div_iff₀ hden_pos]
    calc (2 : ℚ) ^ ((num.log2 : ℤ) - den.log2 - 1) * den
        ≤ 2 ^ ((num.log2 : ℤ) - den.log2 - 1) * 2 ^ (den.log2 + 1) := by gcongr
      _ = 2 ^ num.log2 := by
        rw [← zpow_natCast, ← zpow_add₀ two_ne_zero, ← zpow_natCast]
        congr 1
        push_cast
        ring
      _ ≤ num := hnum_le
  · rw [div_lt_iff₀ hden_pos]
    calc (num : ℚ) < 2 ^ (num.log2 + 1) := hnum_lt
      _ = 2 ^ ((num.log2 : ℤ) - den.log2 + 1) * 2 ^ den.log2 := by
        rw [← zpow_natCast, ← zpow_natCast, ← zpow_add₀ two_ne_zero]
        congr 1
        push_cast
        ring
      _ ≤ 2 ^ ((num.log2 : ℤ) - den.log2 + 1) * den := by gcongr

theorem zpow_le_quotient_iff (hden : 0 < den) (g : ℤ) :
    (2 : ℚ) ^ g ≤ num / den ↔ den <<< g.toNat ≤ num <<< (-g).toNat := by
  have hden_pos : (0 : ℚ) < den := by exact_mod_cast hden
  rw [zpow_eq_div_pow, div_le_div_iff₀ (by positivity) hden_pos, Nat.shiftLeft_eq,
    Nat.shiftLeft_eq, Nat.mul_comm den]
  exact_mod_cast Iff.rfl

/-- The unit of the double nearest to a quotient depends on the quotient only. -/
theorem unitExponent_eq (hnum : 0 < num) (hden : 0 < den) :
    unitExponent num den = max (-1074) (Int.log 2 ((num : ℚ) / den) - 52) := by
  obtain ⟨hle, hlt⟩ := quotient_bounds hnum hden
  unfold unitExponent
  dsimp only
  generalize (num.log2 : ℤ) - den.log2 = g at hle hlt ⊢
  have hreaches : (if 0 ≤ g then decide (den <<< g.toNat ≤ num)
      else decide (den ≤ num <<< (-g).toNat)) = true ↔ (2 : ℚ) ^ g ≤ num / den := by
    rw [zpow_le_quotient_iff hden]
    split_ifs with hg
    · have hneg : (-g).toNat = 0 := by omega
      rw [decide_eq_true_iff, hneg, Nat.shiftLeft_zero]
    · have hpos : g.toNat = 0 := by omega
      rw [decide_eq_true_iff, hpos, Nat.shiftLeft_zero]
  by_cases h : (2 : ℚ) ^ g ≤ num / den
  · rw [if_pos (hreaches.mpr h), log_eq_of_bounds h hlt]
  · have hlog : Int.log 2 ((num : ℚ) / den) = g - 1 :=
      log_eq_of_bounds hle (by rw [Int.sub_add_cancel]; exact not_le.mp h)
    rw [if_neg (fun hr => h (hreaches.mp hr)), hlog]

/-- The pattern of the nearest double, with one way to write the units for all exponents. -/
theorem nearestMagnitude_eq (num den : ℕ) : nearestMagnitude num den =
    (unitExponent num den + 1074).toNat * binade +
      roundHalfEven (num * 2 ^ (-unitExponent num den).toNat)
        (den * 2 ^ (unitExponent num den).toNat) := by
  unfold nearestMagnitude
  dsimp only
  generalize unitExponent num den = q
  split_ifs with hq
  · have hneg : (-q).toNat = 0 := by omega
    rw [hneg, Nat.pow_zero, Nat.mul_one, Nat.shiftLeft_eq]
  · have hpos : q.toNat = 0 := by omega
    rw [hpos, Nat.pow_zero, Nat.mul_one, Nat.shiftLeft_eq]

/-- The quotient in units of a power of two. -/
theorem quotient_in_units (num den : ℕ) (q : ℤ) :
    ((num * 2 ^ (-q).toNat : ℕ) : ℚ) / ((den * 2 ^ q.toNat : ℕ) : ℚ) =
      num / den / 2 ^ q := by
  rw [zpow_eq_div_pow]
  push_cast
  field_simp

/-- Equal quotients have the same nearest double. -/
theorem nearestMagnitude_congr {a b c d : ℕ} (ha : 0 < a) (hb : 0 < b) (hc : 0 < c) (hd : 0 < d)
    (h : (a : ℚ) / b = c / d) : nearestMagnitude a b = nearestMagnitude c d := by
  have hunit : unitExponent a b = unitExponent c d := by
    rw [unitExponent_eq ha hb, unitExponent_eq hc hd, h]
  rw [nearestMagnitude_eq, nearestMagnitude_eq, hunit]
  congr 1
  refine roundHalfEven_congr (by positivity) (by positivity) ?_
  rw [quotient_in_units, quotient_in_units, h]

/-- The pattern of the double that a quotient is equal to. -/
theorem nearestMagnitude_of_eq {m : ℕ} {q : ℤ} (hm : 0 < m) (hm' : m < 2 ^ 53) (hq : -1074 ≤ q)
    (hnormal : 2 ^ 52 ≤ m ∨ q = -1074) (hnum : 0 < num) (hden : 0 < den)
    (h : (num : ℚ) / den = m * 2 ^ q) :
    nearestMagnitude num den = (q + 1074).toNat * binade + m := by
  have hmq : (0 : ℚ) < m * 2 ^ q := by positivity
  have hlt : (m : ℚ) * 2 ^ q < 2 ^ (53 + q) := by
    rw [zpow_add₀ two_ne_zero]
    have hm'' : (m : ℚ) < 2 ^ (53 : ℤ) := by exact_mod_cast hm'
    gcongr
  have hlog_lt := log_lt_of_lt hmq hlt
  have hunit : unitExponent num den = q := by
    rw [unitExponent_eq hnum hden, h]
    rcases hnormal with hnormal | hsubnormal
    · have hle : (2 : ℚ) ^ (52 + q) ≤ m * 2 ^ q := by
        rw [zpow_add₀ two_ne_zero]
        have hnormal' : (2 : ℚ) ^ (52 : ℤ) ≤ m := by exact_mod_cast hnormal
        gcongr
      have hlog_le := le_log_of_le hle
      omega
    · omega
  rw [nearestMagnitude_eq, hunit]
  congr 1
  rw [← roundHalfEven_one m]
  refine roundHalfEven_congr (by positivity) one_pos ?_
  rw [quotient_in_units, h]
  field_simp
  simp

/-- A quotient that no finite double is near. -/
theorem infinity_le_nearestMagnitude (hnum : 0 < num) (hden : 0 < den)
    (h : (2 : ℚ) ^ (1024 : ℤ) ≤ num / den) :
    Decimal.infinityPattern ≤ nearestMagnitude num den := by
  have hpos : (0 : ℚ) < num / den := by positivity
  have hlog : 1024 ≤ Int.log 2 ((num : ℚ) / den) := le_log_of_le h
  have hunit : unitExponent num den = Int.log 2 ((num : ℚ) / den) - 52 := by
    rw [unitExponent_eq hnum hden]
    omega
  have hunits : 2 ^ 52 ≤ roundHalfEven (num * 2 ^ (-unitExponent num den).toNat)
      (den * 2 ^ (unitExponent num den).toNat) := by
    refine le_trans ?_ (le_roundHalfEven _ _)
    rw [Nat.le_div_iff_mul_le (by positivity)]
    have hle : ((2 ^ 52 : ℕ) : ℚ) ≤ ((num * 2 ^ (-unitExponent num den).toNat : ℕ) : ℚ) /
        ((den * 2 ^ (unitExponent num den).toNat : ℕ) : ℚ) := by
      rw [quotient_in_units, le_div_iff₀ (by positivity), hunit]
      calc ((2 ^ 52 : ℕ) : ℚ) * 2 ^ (Int.log 2 ((num : ℚ) / den) - 52)
          = 2 ^ Int.log 2 ((num : ℚ) / den) := by
            rw [zpow_sub₀ two_ne_zero]
            push_cast
            field_simp
        _ ≤ num / den := zpow_log_le hpos
    rw [le_div_iff₀ (by positivity)] at hle
    exact_mod_cast hle
  rw [nearestMagnitude_eq]
  have hexponent : 2046 ≤ (unitExponent num den + 1074).toNat := by omega
  unfold Decimal.infinityPattern binade
  omega

/-- A quotient that zero is nearest to. -/
theorem nearestMagnitude_eq_zero (hnum : 0 < num) (hden : 0 < den)
    (h : (num : ℚ) / den < 2 ^ (-1076 : ℤ)) : nearestMagnitude num den = 0 := by
  have hpos : (0 : ℚ) < num / den := by positivity
  have hlog : Int.log 2 ((num : ℚ) / den) < -1076 := log_lt_of_lt hpos h
  have hunit : unitExponent num den = -1074 := by
    rw [unitExponent_eq hnum hden]
    omega
  rw [nearestMagnitude_eq, roundHalfEven_eq_zero, hunit]
  · rfl
  · have hlt : ((num * 2 ^ (-unitExponent num den).toNat : ℕ) : ℚ) /
        ((den * 2 ^ (unitExponent num den).toNat : ℕ) : ℚ) < 1 / 2 := by
      rw [quotient_in_units, hunit, div_lt_iff₀ (by positivity)]
      refine h.trans_le ?_
      rw [show (-1076 : ℤ) = -2 + -1074 by norm_num, zpow_add₀ two_ne_zero]
      gcongr
      norm_num
    rw [div_lt_div_iff₀ (by positivity) two_pos, mul_comm, one_mul] at hlt
    exact_mod_cast hlt

end Quotients

/-! ### Rounding decimals -/

namespace Decimal

variable {d d' : Decimal}

/-- The number that a decimal denotes, without its sign. -/
def magnitude (d : Decimal) : ℚ := d.digits * 10 ^ d.exponent

theorem magnitude_eq_div (d : Decimal) : d.magnitude =
    ((d.digits * 10 ^ d.exponent.toNat : ℕ) : ℚ) / ((10 ^ (-d.exponent).toNat : ℕ) : ℚ) := by
  rw [magnitude, zpow_eq_div_pow, ← mul_div_assoc]
  push_cast
  rfl

theorem magnitude_eq_zero_iff (d : Decimal) : d.magnitude = 0 ↔ d.digits = 0 := by
  have hpow : (10 : ℚ) ^ d.exponent ≠ 0 := by positivity
  rw [magnitude, mul_eq_zero, or_iff_left hpow, Nat.cast_eq_zero]

theorem ofMagnitude?_of_infinity_le {magnitude : ℕ} (h : infinityPattern ≤ magnitude)
    (negative : Bool) : ofMagnitude? negative magnitude = none :=
  if_neg (Nat.not_lt.mpr h)

/-- Ten to a power is at least eight to it. -/
theorem two_pow_le_ten_pow (n : ℕ) : 2 ^ (3 * n) ≤ 10 ^ n := by
  rw [pow_mul]
  exact Nat.pow_le_pow_left (by norm_num) n

/-- Rounding, without the early answers. -/
theorem round_of_digits (h : d.digits ≠ 0) : d.round = ofMagnitude? d.negative
    (nearestMagnitude (d.digits * 10 ^ d.exponent.toNat) (10 ^ (-d.exponent).toNat)) := by
  have hdigits : 0 < d.digits := Nat.pos_of_ne_zero h
  have hnum : 0 < d.digits * 10 ^ d.exponent.toNat := by positivity
  have hden : 0 < 10 ^ (-d.exponent).toNat := by positivity
  rw [round, if_neg h]
  split_ifs with he hhuge htiny
  · rw [ofMagnitude?_of_infinity_le]
    refine infinity_le_nearestMagnitude hnum hden ?_
    have hneg : (-d.exponent).toNat = 0 := by omega
    have hle : 2 ^ (d.digits.log2 + 3 * d.exponent.toNat) ≤ d.digits * 10 ^ d.exponent.toNat := by
      rw [pow_add]
      exact Nat.mul_le_mul (Nat.log2_self_le h) (two_pow_le_ten_pow _)
    rw [hneg, pow_zero, Nat.cast_one, div_one]
    calc (2 : ℚ) ^ (1024 : ℤ) ≤ 2 ^ ((d.digits.log2 + 3 * d.exponent.toNat : ℕ) : ℤ) :=
          zpow_le_zpow_right₀ one_le_two (by exact_mod_cast hhuge)
      _ ≤ ((d.digits * 10 ^ d.exponent.toNat : ℕ) : ℚ) := by
        rw [zpow_natCast]
        exact_mod_cast hle
  · have hneg : (-d.exponent).toNat = 0 := by omega
    rw [hneg]
    rfl
  · rw [nearestMagnitude_eq_zero hnum hden]
    have hpos : d.exponent.toNat = 0 := by omega
    have hten : (2 : ℚ) ^ (3 * (-d.exponent).toNat) ≤ 10 ^ (-d.exponent).toNat := by
      exact_mod_cast two_pow_le_ten_pow (-d.exponent).toNat
    have hlog : (d.digits : ℚ) < 2 ^ (d.digits.log2 + 1) := by exact_mod_cast Nat.lt_log2_self
    rw [hpos, pow_zero, Nat.mul_one, Nat.cast_pow, Nat.cast_ofNat, div_lt_iff₀ (by positivity)]
    calc (d.digits : ℚ) < 2 ^ (d.digits.log2 + 1) := hlog
      _ ≤ 2 ^ ((-1076 : ℤ) + (3 * (-d.exponent).toNat : ℕ)) := by
        rw [← zpow_natCast]
        exact zpow_le_zpow_right₀ one_le_two (by omega)
      _ ≤ 2 ^ (-1076 : ℤ) * 10 ^ (-d.exponent).toNat := by
        rw [zpow_add₀ two_ne_zero, zpow_natCast]
        gcongr
  · have hpos : d.exponent.toNat = 0 := by omega
    rw [hpos, pow_zero, Nat.mul_one]
    rfl

/-- Decimals that denote the same number are rounded alike. -/
theorem round_congr (hsign : d.negative = d'.negative) (h : d.magnitude = d'.magnitude) :
    d.round = d'.round := by
  have hzero : d.digits = 0 ↔ d'.digits = 0 := by
    rw [← magnitude_eq_zero_iff, ← magnitude_eq_zero_iff, h]
  by_cases hdigits : d.digits = 0
  · rw [round, if_pos hdigits, round, if_pos (hzero.mp hdigits), hsign]
  have hdigits' : d'.digits ≠ 0 := fun hd => hdigits (hzero.mpr hd)
  have hpos : 0 < d.digits := Nat.pos_of_ne_zero hdigits
  have hpos' : 0 < d'.digits := Nat.pos_of_ne_zero hdigits'
  rw [magnitude_eq_div, magnitude_eq_div] at h
  rw [round_of_digits hdigits, round_of_digits hdigits', hsign,
    nearestMagnitude_congr (by positivity) (by positivity) (by positivity) (by positivity) h]

/-- Taking trailing zeros off a decimal keeps its sign and the number that it denotes. -/
theorem trimmed_same (fuel : ℕ) (d : Decimal) :
    (d.trimmed fuel).negative = d.negative ∧ (d.trimmed fuel).magnitude = d.magnitude := by
  induction fuel generalizing d with
  | zero => exact ⟨rfl, rfl⟩
  | succ fuel ih =>
    rw [trimmed]
    split_ifs with h
    · obtain ⟨hsign, hmagnitude⟩ := ih ⟨d.negative, d.digits / 10, d.exponent + 1⟩
      refine ⟨hsign, hmagnitude.trans ?_⟩
      have hdigits : d.digits = 10 * (d.digits / 10) := by omega
      rw [magnitude, magnitude, zpow_add_one₀ (by norm_num)]
      nth_rewrite 2 [hdigits]
      push_cast
      ring
    · exact ⟨rfl, rfl⟩

theorem round_trimmed (fuel : ℕ) (d : Decimal) : (d.trimmed fuel).round = d.round :=
  round_congr (trimmed_same fuel d).1 (trimmed_same fuel d).2

end Decimal

/-! ### The decimals of a double -/

namespace FiniteFloat

variable (x : FiniteFloat)

theorem pattern_lt : x.pattern < 2 ^ 64 := x.toFloat.toBits.toNat_lt

/-- The exponent field of all ones belongs to infinities and NaN. -/
theorem exponentField_lt : x.exponentField < 2047 := by
  have hmod : x.exponentField < 2048 := Nat.mod_lt _ (by norm_num)
  by_contra hge
  have hfield : x.exponentField = 2047 := by omega
  have hones : @Float.Model.UnpackedFloat.unpackExponent .binary64
      x.toFloat.toModel.toBits.toBitVec = -1#(Float.Model.Format.binary64.exponentBits) := by
    refine BitVec.eq_of_toNat_eq ?_
    rw [Float.Model.UnpackedFloat.unpackExponent, BitVec.toNat_cast, BitVec.extractLsb,
      BitVec.extractLsb'_toNat, Nat.shiftRight_eq_div_pow]
    exact hfield
  have hfinite : x.toFloat.isFinite = true := x.isFinite
  simp only [Float.isFinite, Float.Model.isFinite, Float.Model.unpack,
    Float.Model.UnpackedFloat.unpack, hones, if_true] at hfinite
  split at hfinite <;> cases hfinite

theorem fraction_lt : x.pattern % binade < 2 ^ 52 := Nat.mod_lt _ (by norm_num)

theorem significand_lt : x.significand < 2 ^ 53 := by
  have hfraction := x.fraction_lt
  rw [significand]
  unfold binade at *
  split_ifs <;> omega

theorem scale_ge : -1074 ≤ x.scale := by
  rw [scale]
  split_ifs <;> omega

/-- A significand that is not full belongs to the least scale. -/
theorem significand_normal : 2 ^ 52 ≤ x.significand ∨ x.scale = -1074 := by
  rw [significand, scale]
  split_ifs
  · exact .inr rfl
  · exact .inl (Nat.le_add_right _ _)

/-- The bits of a pattern without the sign bit. -/
theorem fields_eq : (x.scale + 1074).toNat * binade + x.significand =
    x.exponentField * binade + x.pattern % binade := by
  by_cases hfield : x.exponentField = 0
  · have hscale : ((-1074 : ℤ) + 1074).toNat = x.exponentField := by omega
    rw [significand, scale, if_pos hfield, if_pos hfield, hscale]
  · obtain ⟨field, hfield'⟩ := Nat.exists_eq_succ_of_ne_zero hfield
    have hscale : ((x.exponentField : ℤ) - 1075 + 1074).toNat = field := by omega
    rw [significand, scale, if_neg hfield, if_neg hfield, hscale, hfield', Nat.succ_mul,
      Nat.add_assoc]

theorem fields_lt :
    (x.scale + 1074).toNat * binade + x.significand < Decimal.infinityPattern := by
  have hfield := x.exponentField_lt
  have hfraction := x.fraction_lt
  rw [fields_eq, Decimal.infinityPattern]
  calc x.exponentField * binade + x.pattern % binade
      < x.exponentField * binade + binade := Nat.add_lt_add_left hfraction _
    _ = (x.exponentField + 1) * binade := (Nat.succ_mul _ _).symm
    _ ≤ 2047 * binade := Nat.mul_le_mul_right _ hfield

/-- The pattern of a double, put together from its parts. -/
theorem pattern_eq : x.pattern = if x.negative then
      signBit + ((x.scale + 1074).toNat * binade + x.significand)
    else (x.scale + 1074).toNat * binade + x.significand := by
  have hlt := x.pattern_lt
  rw [fields_eq, exponentField, negative]
  unfold binade signBit
  split_ifs with h
  · have hsign := of_decide_eq_true h
    omega
  · have hsign := of_decide_eq_false (eq_false_of_ne_true h)
    omega

/-- The double of its own parts. -/
theorem ofMagnitude?_fields : Decimal.ofMagnitude? x.negative
    ((x.scale + 1074).toNat * binade + x.significand) = some x := by
  have hbits : Float.ofBits (UInt64.ofNat x.pattern) = x.toFloat := by
    rw [pattern, UInt64.ofNat_toNat, Float.ofBits_toBits]
  rw [Decimal.ofMagnitude?, if_pos x.fields_lt, ← x.pattern_eq, ofBits?]
  simp only [hbits, x.isFinite, dite_true]

theorem magnitude_exact : x.exact.magnitude = x.significand * 2 ^ x.scale := by
  rw [exact]
  split_ifs with h
  · obtain ⟨n, hn⟩ := Int.eq_ofNat_of_zero_le h
    rw [Decimal.magnitude, hn, Nat.shiftLeft_eq]
    simp
  · obtain ⟨n, hn⟩ := Int.eq_ofNat_of_zero_le (show 0 ≤ -x.scale by omega)
    have hscale : x.scale = -(n : ℤ) := by omega
    have hten : (10 : ℚ) ^ n = 5 ^ n * 2 ^ n := by
      rw [← mul_pow]
      norm_num
    rw [Decimal.magnitude, hn, hscale]
    simp only [Int.toNat_natCast, zpow_neg, zpow_natCast, Nat.pow_eq]
    push_cast
    rw [hten]
    field_simp

/-- The decimal that writes a double in full reads back. -/
theorem round_exact (h : x.isZero = false) : x.exact.round = some x := by
  have hpos : 0 < x.significand := by
    rw [isZero, beq_eq_false_iff_ne] at h
    exact Nat.pos_of_ne_zero h
  have hsign : x.exact.negative = x.negative := by
    rw [exact]
    split_ifs <;> rfl
  have hdigits : x.exact.digits ≠ 0 := by
    rw [ne_eq, ← Decimal.magnitude_eq_zero_iff, magnitude_exact]
    positivity
  have hquotient := x.magnitude_exact
  rw [Decimal.magnitude_eq_div] at hquotient
  rw [Decimal.round_of_digits hdigits, hsign, nearestMagnitude_of_eq hpos x.significand_lt
    x.scale_ge x.significand_normal (by positivity) (by positivity) hquotient]
  exact x.ofMagnitude?_fields

theorem round_of_hitAt? {p : ℤ} {d : Decimal} (h : x.hitAt? p = some d) : d.round = some x := by
  unfold hitAt? at h
  dsimp only at h
  split at h
  · next hbelow habove =>
    split at h <;> cases h
    · exact of_decide_eq_true hbelow
    · exact of_decide_eq_true habove
  · next hbelow _ =>
    cases h
    exact of_decide_eq_true hbelow
  · next _ habove =>
    cases h
    exact of_decide_eq_true habove
  · cases h

theorem round_of_firstHit? {fuel : ℕ} {p : ℤ} {d : Decimal} (h : x.firstHit? fuel p = some d) :
    d.round = some x := by
  induction fuel generalizing p with
  | zero => cases h
  | succ fuel ih =>
    rw [firstHit?] at h
    rcases hhit : x.hitAt? p with _ | hit <;> rw [hhit] at h
    · exact ih h
    · cases h
      exact x.round_of_hitAt? hhit

/-- The shortest decimal of a double reads back. -/
theorem round_shortest : x.shortest.round = some x := by
  rw [shortest]
  split_ifs with hzero
  · have hsignificand : x.significand = 0 := beq_iff_eq.mp hzero
    have hscale : x.scale = -1074 := x.significand_normal.resolve_left (by omega)
    have hfields := x.ofMagnitude?_fields
    rw [hsignificand, hscale] at hfields
    exact hfields
  · rw [Decimal.round_trimmed]
    rcases hhit : x.firstHit? 17 x.decade with _ | hit
    · exact x.round_exact (eq_false_of_ne_true hzero)
    · exact x.round_of_firstHit? hhit

/-- Only the zeros are read from no digits. -/
theorem isZero_of_ofMagnitude? {negative : Bool} (h : Decimal.ofMagnitude? negative 0 = some x) :
    x.isZero = true := by
  have hzero : ∀ negative, (Decimal.ofMagnitude? negative 0).all (·.isZero) = true := by
    decide +kernel
  have hx := hzero negative
  rw [h] at hx
  exact hx

/-- Without digits, the shortest decimal of a double has no exponent. -/
theorem exponent_shortest (h : x.shortest.digits = 0) : x.shortest.exponent = 0 := by
  have hround := x.round_shortest
  rw [Decimal.round, if_pos h] at hround
  rw [shortest, if_pos (x.isZero_of_ofMagnitude? hround)]

end FiniteFloat

end SlotOutcome
