import Mathlib.Data.Nat.Prime.Basic
import Psych.Publish.FieldMap

/-!
# `round_half_up`

The product of a cell value with a million is rounded to a double, and so is its sum with a half;
the floor of the sum is the mantissa.

* `near_iff_of_small`: below `2 ^ 52` the mantissa is a nearest integer of the product, unless a
  rounding takes the product up to a half, or the sum up to 1.
* `near_iff_of_large`: from there on the mantissa is even, and a nearest integer only where the
  product is near to a number that has its places and no place for 1.
* `inRange_iff`: the range of the products whose mantissa is near and has 64 bits.
-/

namespace Psych

open FloatingPoint

/-! ## Integers and halves -/

theorem exact_intCast {n : ℤ} (h : |n| ≤ 2 ^ 53) : binary64.Exact (n : ℚ) :=
  ⟨n, 0, by decide, h, by simp⟩

theorem exact_half {n : ℤ} (h : |2 * n - 1| ≤ 2 ^ 53) : binary64.Exact ((n : ℚ) - 1 / 2) :=
  ⟨2 * n - 1, -1, by decide, h, by push_cast; norm_num; ring⟩

/-- A sum that is not less than the middle between 1 and the number before it is rounded to 1. -/
theorem one_le_nearest_iff {z : ℚ} : 1 ≤ binary64.nearest z ↔ 1 - 1 / 2 ^ 54 ≤ z := by
  have hfull : binary64.FullBelow (2 ^ 53) := Or.inl ⟨by decide, by decide⟩
  have hiff := @le_nearest_iff ℚ _ _ _ _ z binary64 (2 ^ 53) (-53) (by decide) hfull
  have hone : (((2 ^ 53 : ℤ) : ℚ) * 2 ^ (-53 : ℤ)) = 1 := by norm_num
  have hmiddle : ((((2 ^ 53 : ℤ) : ℚ) - 1 / 2) * 2 ^ (-53 : ℤ)) = 1 - 1 / 2 ^ 54 := by norm_num
  have heven : Even (2 ^ 53 : ℤ) := by decide
  rw [hone, hmiddle, and_iff_left heven] at hiff
  exact hiff.trans le_iff_lt_or_eq.symm

/-- In units of the fraction of a number: between its sum with a half and the next integer there is
a significand, an integer or a half. -/
theorem exists_between {k r n : ℤ} (hr : 0 < r) (hwhole : r < 2 ^ 53 → 2 * r ∣ 2 ^ 53)
    (hk : |k| ≤ 2 ^ 53) (hn : |2 * n - 1| ≤ 2 ^ 53) (hone : n ≠ 1) (h : k + r < 2 * r * n) :
    ∃ i, k + r ≤ i ∧ i < 2 * r * n ∧
      (|i| ≤ 2 ^ 53 ∨ ∃ j, |j| ≤ 2 ^ 53 ∧ (i = j * (2 * r) ∨ i = j * r)) := by
  have hk' := abs_le.mp hk
  rcases le_or_gt n 0 with hneg | hpos
  · have : 2 * r * n ≤ 0 := mul_nonpos_of_nonneg_of_nonpos (by omega) hneg
    exact ⟨k + r, le_rfl, h, Or.inl (abs_le.mpr ⟨by omega, by omega⟩)⟩
  rcases le_or_gt k r with hsmall | hsmall
  · have : 2 * r * 2 ≤ 2 * r * n := mul_le_mul_of_nonneg_left (by omega) (by omega)
    exact ⟨2 * r, by omega, by omega, Or.inr ⟨1, by norm_num, Or.inl (one_mul _).symm⟩⟩
  rcases le_or_gt (2 * r * n) (2 ^ 53) with hfine | hcoarse
  · exact ⟨2 * r * n - 1, by omega, by omega, Or.inl (abs_le.mpr ⟨by omega, by omega⟩)⟩
  · obtain ⟨s, hs⟩ := hwhole (by omega)
    have hsn : s < n := by
      rw [hs] at hcoarse
      exact lt_of_mul_lt_mul_left hcoarse (by omega)
    have hmul : 2 * r * s ≤ 2 * r * (n - 1) := mul_le_mul_of_nonneg_left (by omega) (by omega)
    have heq : (2 * n - 1) * r = 2 * r * (n - 1) + r := by ring
    have heq' : 2 * r * n = (2 * n - 1) * r + r := by ring
    exact ⟨(2 * n - 1) * r, by omega, by omega, Or.inr ⟨2 * n - 1, hn, Or.inr rfl⟩⟩

/-- A number with a fraction of less than a half does not reach the next integer. -/
theorem nearest_add_half_lt {p : ℚ} (hp : binary64.Exact p) {n : ℤ} (hn : |2 * n - 1| ≤ 2 ^ 53)
    (hone : n ≠ 1) (h : p < n - 1 / 2) : binary64.nearest (p + 1 / 2) < n := by
  suffices hbetween : ∃ z : ℚ, binary64.Exact z ∧ p + 1 / 2 ≤ z ∧ z < n by
    obtain ⟨z, hz, hle, hlt⟩ := hbetween
    exact (nearest_le hz hle).trans_lt hlt
  obtain ⟨k, e, hleast, hk, rfl⟩ := hp
  rcases le_or_gt 0 e with he | he
  · -- an integer is less than `n` by 1
    obtain ⟨t, rfl⟩ := Int.eq_ofNat_of_zero_le he
    have hcast : (k : ℚ) * 2 ^ (t : ℤ) = ((k * 2 ^ t : ℤ) : ℚ) := by
      rw [zpow_natCast]
      push_cast
      rfl
    rw [hcast] at h ⊢
    have hlt : ((k * 2 ^ t : ℤ) : ℚ) < n := by linarith
    have hle : ((k * 2 ^ t + 1 : ℤ) : ℚ) ≤ n := Int.cast_le.mpr (Int.cast_lt.mp hlt)
    rw [Int.cast_add, Int.cast_one] at hle
    exact ⟨n - 1 / 2, exact_half hn, by linarith, by linarith⟩
  · obtain ⟨t, rfl⟩ : ∃ t : ℕ, e = -((t : ℤ) + 1) := ⟨(-e - 1).toNat, by omega⟩
    have hr : (0 : ℤ) < 2 ^ t := by positivity
    have hwhole : (2 ^ t : ℤ) < 2 ^ 53 → 2 * 2 ^ t ∣ (2 ^ 53 : ℤ) := fun hlt => by
      have ht : t + 1 ≤ 53 := (pow_lt_pow_iff_right₀ (by norm_num)).mp hlt
      rw [← pow_succ']
      exact pow_dvd_pow 2 ht
    have hunit : (2 : ℚ) ^ (-((t : ℤ) + 1)) = 1 / (2 * ((2 ^ t : ℤ) : ℚ)) := by
      rw [zpow_neg, zpow_add_one₀ two_ne_zero, zpow_natCast]
      push_cast
      rw [one_div, mul_comm]
    have hexact : ∀ i : ℤ, |i| ≤ 2 ^ 53 → binary64.Exact ((i : ℚ) * 2 ^ (-((t : ℤ) + 1))) :=
      fun i hi => ⟨i, _, hleast, hi, rfl⟩
    rw [hunit] at h hexact ⊢
    generalize (2 : ℤ) ^ t = r at h hexact hr hwhole ⊢
    have hr' : (0 : ℚ) < 2 * r := by exact_mod_cast Int.mul_pos two_pos hr
    have hsum : (k : ℚ) * (1 / (2 * r)) + 1 / 2 = ((k + r : ℤ) : ℚ) * (1 / (2 * r)) := by
      push_cast
      field_simp
    have hscale : ∀ i : ℤ, (i : ℚ) * (1 / (2 * r)) < n ↔ i < 2 * r * n := fun i => by
      rw [mul_one_div, div_lt_iff₀ hr', mul_comm (n : ℚ)]
      exact_mod_cast Iff.rfl
    have hlt : k + r < 2 * r * n := by
      rw [← hscale, ← hsum]
      linarith
    obtain ⟨i, hle, hless, hi⟩ := exists_between hr hwhole hk hn hone hlt
    refine ⟨(i : ℚ) * (1 / (2 * r)), ?_, ?_, (hscale i).mpr hless⟩
    · rcases hi with hi | ⟨j, hj, rfl | rfl⟩
      · exact hexact i hi
      · refine ⟨j, 0, by decide, hj, ?_⟩
        push_cast
        field_simp
      · refine ⟨j, -1, by decide, hj, ?_⟩
        push_cast
        field_simp
    · rw [hsum]
      exact mul_le_mul_of_nonneg_right (Int.cast_le.mpr hle) (by positivity)

theorem le_roundHalfUp_iff {p : ℚ} (hp : binary64.Exact p) {n : ℤ} (hn : |2 * n - 1| ≤ 2 ^ 53) :
    n ≤ roundHalfUp p ↔ (n : ℚ) - 1 / 2 ≤ p ∨ (n = 1 ∧ 1 / 2 - 1 / 2 ^ 54 ≤ p) := by
  unfold roundHalfUp
  rw [Int.le_floor]
  by_cases hone : n = 1
  · subst hone
    rw [Int.cast_one, one_le_nearest_iff]
    refine ⟨fun h => Or.inr ⟨rfl, by linarith⟩, ?_⟩
    rintro (h | ⟨_, h⟩)
    · have hpos : (0 : ℚ) < 1 / 2 ^ 54 := by positivity
      linarith
    · linarith
  · rw [or_iff_left fun h => hone h.1]
    constructor
    · intro hle
      by_contra hlt
      exact absurd hle (not_le.mpr (nearest_add_half_lt hp hn hone (not_le.mp hlt)))
    · intro hle
      have hsmall : |n| ≤ 2 ^ 53 := by
        rw [abs_le] at hn ⊢
        omega
      exact le_nearest (exact_intCast hsmall) (by linarith)

/-! ## Products below `2 ^ 52` -/

/-- The product `y` is less than `n - 1 / 2`, and is rounded to it; before 1, it is rounded to a
number whose sum with a half is rounded to 1. -/
def PassesHalf (y : ℚ) (n : ℤ) : Prop :=
  y < n - 1 / 2 ∧ |(n : ℚ) - 1 / 2| < 2 ^ 52 ∧
    if n = 1 then 1 / 2 - 3 / 2 ^ 55 < y
    else (n : ℚ) - 1 / 2 - binary64.ulp (n - 1 / 2 : ℚ) / 2 < y ∨
      ((n : ℚ) - 1 / 2 - binary64.ulp (n - 1 / 2 : ℚ) / 2 = y ∧ |(n : ℚ) - 1 / 2| < 2 ^ 51)

theorem abs_half (n : ℤ) : |(n : ℚ) - 1 / 2| = ((|2 * n - 1| : ℤ) : ℚ) / 2 := by
  have heq : (n : ℚ) - 1 / 2 = ((2 * n - 1 : ℤ) : ℚ) / 2 := by
    push_cast
    ring
  rw [heq, abs_div, abs_of_pos (two_pos : (0 : ℚ) < 2), Int.cast_abs]

theorem exists_shift {m : ℕ} (hpos : m ≠ 0) (h : m < 2 ^ 53) :
    ∃ t ≤ 52, 2 ^ 52 ≤ m * 2 ^ t ∧ m * 2 ^ t < 2 ^ 53 := by
  have hlog : Nat.log 2 m < 53 := Nat.log_lt_of_lt_pow hpos h
  refine ⟨52 - Nat.log 2 m, Nat.sub_le _ _, ?_, ?_⟩
  · calc 2 ^ 52 = 2 ^ Nat.log 2 m * 2 ^ (52 - Nat.log 2 m) := by
          rw [← pow_add, Nat.add_sub_cancel' (by omega)]
      _ ≤ m * 2 ^ (52 - Nat.log 2 m) := Nat.mul_le_mul_right _ (Nat.pow_log_le_self 2 hpos)
  · calc m * 2 ^ (52 - Nat.log 2 m)
        < 2 ^ (Nat.log 2 m + 1) * 2 ^ (52 - Nat.log 2 m) :=
          Nat.mul_lt_mul_of_pos_right (Nat.lt_pow_succ_log_self one_lt_two m) (by positivity)
      _ = 2 ^ 53 := by
          rw [← pow_add]
          congr 1
          omega

theorem eq_one_of_mul_two_pow {m t : ℕ} (hodd : Odd m) (h : m * 2 ^ t = 2 ^ 52) : m = 1 :=
  (hodd.coprime_two_right.pow_right 52).eq_one_of_dvd (Dvd.intro _ h)

theorem shift_ne_zero_iff {m t : ℕ} (hlow : 2 ^ 52 ≤ m * 2 ^ t) (hhigh : m * 2 ^ t < 2 ^ 53) :
    t ≠ 0 ↔ m < 2 ^ 52 := by
  constructor
  · intro hne
    have htwo : 2 ^ 1 ≤ 2 ^ t := Nat.pow_le_pow_right two_pos (by omega)
    have hmul : m * 2 ^ 1 ≤ m * 2 ^ t := Nat.mul_le_mul_left m htwo
    omega
  · rintro hless rfl
    omega

/-- A half as a number with a significand of full length. -/
theorem half_normal {n : ℤ} (hone : n ≠ 1) (hn : |2 * n - 1| < 2 ^ 53) :
    ∃ k e : ℤ, binary64.least ≤ e ∧ binary64.FullBelow k ∧ (n : ℚ) - 1 / 2 = k * 2 ^ e ∧
      binary64.ulp (n - 1 / 2 : ℚ) = 2 ^ e ∧ (Even k ↔ |2 * n - 1| < 2 ^ 52) := by
  obtain ⟨m, hm⟩ : ∃ m : ℕ, |2 * n - 1| = m := ⟨_, Int.abs_eq_natAbs _⟩
  have hodd : Odd m := by
    rw [← Int.odd_coe_nat, ← hm, odd_abs]
    exact ⟨n - 1, by ring⟩
  obtain ⟨t, ht, hlow, hhigh⟩ := exists_shift hodd.pos.ne' (by omega)
  have hlow' : (2 ^ 52 : ℤ) ≤ m * 2 ^ t := by exact_mod_cast hlow
  have hhigh' : (m * 2 ^ t : ℤ) < 2 ^ 53 := by exact_mod_cast hhigh
  have heq : (n : ℚ) - 1 / 2 = ((2 * n - 1) * 2 ^ t : ℤ) * 2 ^ (-1 - (t : ℤ)) := by
    rw [zpow_sub₀ two_ne_zero, zpow_natCast]
    push_cast
    field_simp
  have hunit : (0 : ℚ) < 2 ^ (-1 - (t : ℤ)) := two_zpow_pos _
  have habs : |(n : ℚ) - 1 / 2| = ((m * 2 ^ t : ℤ) : ℚ) * 2 ^ (-1 - (t : ℤ)) := by
    have hpow : (0 : ℤ) < 2 ^ t := by positivity
    rw [heq, abs_mul, abs_of_pos hunit, ← Int.cast_abs, abs_mul, hm, abs_of_pos hpow]
  have hleast : binary64.least ≤ -1 - (t : ℤ) := by
    change (-1074 : ℤ) ≤ _
    omega
  refine ⟨(2 * n - 1) * 2 ^ t, -1 - t, hleast, ?_, heq, ?_, ?_⟩
  · change (2 ^ 52 < _ ∧ _ ≤ 2 ^ 53) ∨ (-2 ^ 53 < _ ∧ _ ≤ -2 ^ 52)
    rcases le_or_gt n 0 with hle | hgt
    · rw [abs_of_nonpos (by omega), neg_eq_iff_eq_neg] at hm
      rw [hm, neg_mul]
      exact Or.inr ⟨neg_lt_neg hhigh', neg_le_neg hlow'⟩
    · rw [abs_of_nonneg (by omega)] at hm
      rw [hm]
      refine Or.inl ⟨lt_of_le_of_ne hlow' fun hpow => ?_, hhigh'.le⟩
      have := eq_one_of_mul_two_pow hodd (by exact_mod_cast hpow.symm)
      omega
  · refine congrArg ((2 : ℚ) ^ ·) (lastPlace_eq hleast ?_ ?_)
    · have hsplit : -1 - (t : ℤ) + binary64.precision - 1 = -1 - t + (52 : ℕ) := by
        change -1 - (t : ℤ) + 53 - 1 = -1 - t + 52
        ring
      rw [habs, hsplit, two_zpow_add]
      exact mul_le_mul_of_nonneg_right (Int.cast_le.mpr hlow') hunit.le
    · rw [habs]
      apply (mul_lt_mul_of_pos_right (Int.cast_lt.mpr hhigh') hunit).trans_eq
      exact (two_zpow_add 53 _).symm
  · have heven : ¬ Even (2 * n - 1) := Int.not_even_iff_odd.mpr ⟨n - 1, by ring⟩
    rw [Int.even_mul, or_iff_right heven, Int.even_pow, and_iff_right even_two, hm]
    exact_mod_cast shift_ne_zero_iff hlow hhigh

/-- The products that are rounded to a half from below, or are not less than it. -/
theorem half_le_nearest_iff {y : ℚ} {n : ℤ} (hone : n ≠ 1) (hn : |(n : ℚ) - 1 / 2| < 2 ^ 52) :
    (n : ℚ) - 1 / 2 ≤ binary64.nearest y ↔ (n : ℚ) - 1 / 2 ≤ y ∨ PassesHalf y n := by
  have hscale : ∀ i : ℕ, |(n : ℚ) - 1 / 2| < 2 ^ i ↔ |2 * n - 1| < 2 ^ (i + 1) := fun i => by
    rw [abs_half, div_lt_iff₀ two_pos, ← pow_succ]
    exact_mod_cast Iff.rfl
  obtain ⟨k, e, hleast, hfull, heq, hulp, heven⟩ := half_normal hone ((hscale 52).mp hn)
  have hunit : (0 : ℚ) < 2 ^ e := two_zpow_pos e
  have hmiddle : ((k : ℚ) - 1 / 2) * 2 ^ e = (n : ℚ) - 1 / 2 - 2 ^ e / 2 := by
    rw [heq]
    ring
  unfold PassesHalf
  rw [and_iff_right hn, if_neg hone, hulp, hscale 51, ← heven, ← hmiddle, heq,
    le_nearest_iff hleast hfull]
  constructor
  · intro h
    exact (le_or_gt _ _).imp_right fun hlt => ⟨hlt, h⟩
  · rintro (h | ⟨_, h⟩)
    · exact Or.inl (by linarith)
    · exact h

/-- Which products are published as `n` or as a greater number. -/
theorem le_rounded_iff {y : ℚ} {n : ℤ} (hn : |(n : ℚ) - 1 / 2| < 2 ^ 52) :
    n ≤ roundHalfUp (binary64.nearest y) ↔ (n : ℚ) - 1 / 2 ≤ y ∨ PassesHalf y n := by
  have hn' : |2 * n - 1| ≤ 2 ^ 53 := by
    rw [abs_half, div_lt_iff₀ two_pos, ← pow_succ] at hn
    have : |2 * n - 1| < 2 ^ 53 := by exact_mod_cast hn
    exact this.le
  rw [le_roundHalfUp_iff (exact_nearest binary64 y) hn']
  by_cases hone : n = 1
  · have hfull : binary64.FullBelow (2 ^ 53 - 1) := Or.inl ⟨by decide, by decide⟩
    have hiff := @le_nearest_iff ℚ _ _ _ _ y binary64 (2 ^ 53 - 1) (-54) (by decide) hfull
    have hbefore : (((2 ^ 53 - 1 : ℤ) : ℚ) * 2 ^ (-54 : ℤ)) = 1 / 2 - 1 / 2 ^ 54 := by norm_num
    have hmiddle : ((((2 ^ 53 - 1 : ℤ) : ℚ) - 1 / 2) * 2 ^ (-54 : ℤ)) = 1 / 2 - 3 / 2 ^ 55 := by
      norm_num
    have hodd : ¬ Even (2 ^ 53 - 1 : ℤ) := by decide
    rw [hbefore, hmiddle, or_iff_left fun h => hodd h.2] at hiff
    unfold PassesHalf
    rw [and_iff_right hn, and_iff_right hone, if_pos hone, hone, Int.cast_one]
    have hnext : (1 / 2 - 1 / 2 ^ 54 : ℚ) < 1 - 1 / 2 := by norm_num
    have hlast : (1 / 2 - 3 / 2 ^ 55 : ℚ) < 1 - 1 / 2 := by norm_num
    constructor
    · intro h
      have hup := hiff.mp (h.elim hnext.le.trans id)
      exact (le_or_gt _ _).imp_right fun hlt => ⟨hlt, hup⟩
    · rintro (h | ⟨_, h⟩)
      · exact Or.inr (hiff.mpr (hlast.trans_le h))
      · exact Or.inr (hiff.mpr h)
  · rw [or_iff_left fun h => hone h.1, half_le_nearest_iff hone hn]

theorem roundHalfUp_le {p : ℚ} (h : p ≤ 2 ^ 52) : roundHalfUp p ≤ 2 ^ 52 := by
  have hfull : binary64.FullBelow (2 ^ 52 + 1) := Or.inl ⟨by decide, by decide⟩
  have hiff := @le_nearest_iff ℚ _ _ _ _ (p + 1 / 2) binary64 (2 ^ 52 + 1) 0 (by decide) hfull
  have hodd : ¬ Even (2 ^ 52 + 1 : ℤ) := by decide
  rw [zpow_zero, mul_one, mul_one, or_iff_left fun h => hodd h.2] at hiff
  by_contra hgt
  have hle : (2 ^ 52 + 1 : ℤ) ≤ roundHalfUp p := not_le.mp hgt
  have := hiff.mp (Int.le_floor.mp hle)
  push_cast at this
  linarith

theorem le_roundHalfUp {p : ℚ} (h : -2 ^ 52 ≤ p) : -2 ^ 52 ≤ roundHalfUp p := by
  have hexact : binary64.Exact ((-2 ^ 52 : ℤ) : ℚ) := exact_intCast (by norm_num)
  refine Int.le_floor.mpr (le_nearest hexact ?_)
  push_cast
  linarith

/-- Below `2 ^ 52` the mantissa is a nearest integer unless the middle below it is passed. -/
theorem near_iff_of_small {y : ℚ} (hy : |y| < 2 ^ 52) :
    |(roundHalfUp (binary64.nearest y) : ℚ) - y| ≤ 1 / 2 ↔ ∀ n, ¬ PassesHalf y n := by
  have hiff := fun n => le_rounded_iff (y := y) (n := n)
  obtain ⟨hleft, hright⟩ := abs_lt.mp hy
  have hlow : -2 ^ 52 ≤ roundHalfUp (binary64.nearest y) := by
    have hexact : binary64.Exact ((-2 ^ 52 : ℤ) : ℚ) := exact_intCast (by norm_num)
    have := le_nearest hexact (x := y) (by push_cast; exact hleft.le)
    apply le_roundHalfUp
    rwa [Int.cast_neg, Int.cast_pow, Int.cast_ofNat] at this
  have hhigh : roundHalfUp (binary64.nearest y) ≤ 2 ^ 52 := by
    have hexact : binary64.Exact ((2 ^ 52 : ℤ) : ℚ) := exact_intCast (by norm_num)
    have := nearest_le hexact (x := y) (by push_cast; exact hright.le)
    apply roundHalfUp_le
    rwa [Int.cast_pow, Int.cast_ofNat] at this
  generalize roundHalfUp (binary64.nearest y) = m at hiff hlow hhigh ⊢
  rw [abs_le]
  constructor
  · rintro ⟨_, hnear⟩ n hpasses
    have hle : (n : ℚ) ≤ m := Int.cast_le.mpr ((hiff n hpasses.2.1).mpr (Or.inr hpasses))
    have := hpasses.1
    linarith
  · intro hnone
    have hiff' : ∀ n : ℤ, -2 ^ 52 < n → n ≤ 2 ^ 52 → (n ≤ m ↔ (n : ℚ) - 1 / 2 ≤ y) := by
      intro n hn hn'
      have hn : ((-2 ^ 52 + 1 : ℤ) : ℚ) ≤ n := Int.cast_le.mpr hn
      have hn' : (n : ℚ) ≤ ((2 ^ 52 : ℤ) : ℚ) := Int.cast_le.mpr hn'
      push_cast at hn hn'
      rw [hiff n (abs_lt.mpr ⟨by linarith, by linarith⟩), or_iff_left (hnone n)]
    constructor
    · rcases hhigh.lt_or_eq with h | h
      · have hnext := (hiff' (m + 1) (by omega) (by omega)).not.mp (by omega)
        push_cast at hnext
        linarith
      · have hcast : (m : ℚ) = 2 ^ 52 := by exact_mod_cast h
        linarith
    · rcases hlow.lt_or_eq with h | h
      · have := (hiff' m h hhigh).mp le_rfl
        linarith
      · have hcast : (m : ℚ) = -2 ^ 52 := by exact_mod_cast h.symm
        linarith

/-! ## Products from `2 ^ 52` on -/

theorem two_le_ulp {x : ℚ} (h : 0 < binary64.lastPlace x) : 2 ≤ binary64.ulp x := by
  calc (2 : ℚ) = 2 ^ (1 : ℤ) := (zpow_one 2).symm
    _ ≤ binary64.ulp x := zpow_le_zpow_right₀ one_le_two h

theorem eq_of_le_abs_add_half {m bound : ℤ} (hm : |m| ≤ bound) (h : bound ≤ |(m : ℚ) + 1 / 2|) :
    m = bound := by
  obtain ⟨hlow, hhigh⟩ := abs_le.mp hm
  apply le_antisymm hhigh
  have hlow : ((-bound : ℤ) : ℚ) ≤ m := Int.cast_le.mpr hlow
  rw [Int.cast_neg] at hlow
  rcases le_abs.mp h with h | h
  · have : (bound : ℚ) < (m + 1 : ℤ) := by
      rw [Int.cast_add, Int.cast_one]
      linarith
    exact Int.lt_add_one_iff.mp (Int.cast_lt.mp this)
  · linarith

/-- A number without a place for 1 is a multiple of the unit of its sum with a half. -/
theorem eq_mul_ulp_add_half {k : ℤ} {t : ℕ} (hk : |k| ≤ 2 ^ 53) :
    ∃ c : ℤ, ((k * 2 ^ (t + 1) : ℤ) : ℚ) =
      c * binary64.ulp (((k * 2 ^ (t + 1) : ℤ) : ℚ) + 1 / 2) := by
  have hpow : (1 : ℤ) ≤ 2 ^ (t + 1) := one_le_pow₀ (by norm_num)
  have habs : |k * 2 ^ (t + 1)| ≤ 2 ^ 53 * 2 ^ (t + 1) := by
    rw [abs_mul, abs_of_pos (by omega : (0 : ℤ) < 2 ^ (t + 1))]
    exact mul_le_mul_of_nonneg_right hk (by omega)
  have hleast : binary64.least ≤ ((t + 1 : ℕ) : ℤ) := by
    change (-1074 : ℤ) ≤ _
    omega
  rcases le_or_gt (binary64.lastPlace (((k * 2 ^ (t + 1) : ℤ) : ℚ) + 1 / 2)) (t + 1 : ℕ)
    with hle | hgt
  · obtain ⟨c, hc⟩ : ∃ c : ℤ, (2 : ℚ) ^ ((t + 1 : ℕ) : ℤ) = c * binary64.ulp _ :=
      ⟨_, zpow_eq_mul_ulp hle⟩
    refine ⟨k * c, ?_⟩
    rw [Int.cast_mul k c, mul_assoc, ← hc, zpow_natCast]
    push_cast
    rfl
  · -- of the numbers with these places only a power of two reaches so far
    have hsplit : (2 : ℚ) ^ (((t + 1 : ℕ) : ℤ) + 53) = ((2 ^ 53 * 2 ^ (t + 1) : ℤ) : ℚ) := by
      have hadd : (2 : ℚ) ^ (((t + 1 : ℕ) : ℤ) + (53 : ℕ)) = _ := two_zpow_add 53 _
      rw [zpow_natCast] at hadd
      push_cast at hadd ⊢
      exact hadd
    have hreach : (2 : ℚ) ^ (((t + 1 : ℕ) : ℤ) + 53) ≤ _ := zpow_le_of_lt_lastPlace hgt hleast
    rw [hsplit] at hreach
    have heq := eq_of_le_abs_add_half habs hreach
    have hplace : binary64.lastPlace (((k * 2 ^ (t + 1) : ℤ) : ℚ) + 1 / 2) ≤
        ((t + 1 : ℕ) : ℤ) + 53 := by
      apply lastPlace_le (by omega)
      change _ < (2 : ℚ) ^ (((t + 1 : ℕ) : ℤ) + 53 + (53 : ℕ))
      rw [two_zpow_add, hsplit, heq, abs_of_nonneg (by positivity), ← Int.cast_mul]
      have hlt : 2 ^ 53 * 2 ^ (t + 1) + 1 < (2 : ℤ) ^ 53 * (2 ^ 53 * 2 ^ (t + 1)) := by omega
      have hlt : ((2 ^ 53 * 2 ^ (t + 1) + 1 : ℤ) : ℚ) < _ := Int.cast_lt.mpr hlt
      rw [Int.cast_add, Int.cast_one] at hlt
      refine lt_trans ?_ hlt
      rw [add_lt_add_iff_left]
      norm_num
    obtain ⟨c, hc⟩ : ∃ c : ℤ, (2 : ℚ) ^ (((t + 1 : ℕ) : ℤ) + 53) = c * binary64.ulp _ :=
      ⟨_, zpow_eq_mul_ulp hplace⟩
    refine ⟨c, ?_⟩
    rw [← hc, hsplit, heq]

/-- A number without a place for 1 is published as itself. -/
theorem roundHalfUp_even {k : ℤ} {t : ℕ} (hk : |k| ≤ 2 ^ 53) :
    roundHalfUp ((k * 2 ^ (t + 1) : ℤ) : ℚ) = k * 2 ^ (t + 1) := by
  have heven : Even (k * 2 ^ (t + 1)) :=
    (even_two.pow_of_ne_zero (Nat.succ_ne_zero t)).mul_left k
  have hmul := eq_mul_ulp_add_half (t := t) hk
  generalize k * 2 ^ (t + 1) = m at heven hmul ⊢
  suffices h : binary64.nearest ((m : ℚ) + 1 / 2) = m ∨
      binary64.nearest ((m : ℚ) + 1 / 2) = m + 1 / 2 by
    unfold roundHalfUp
    rw [Int.floor_eq_iff]
    rcases h with h | h <;> rw [h] <;> constructor <;> linarith
  rcases lt_trichotomy (binary64.lastPlace ((m : ℚ) + 1 / 2)) 0 with hfine | hone | hcoarse
  · -- the sum is exact
    right
    have hbound : |(m : ℚ) + 1 / 2| < 2 ^ 52 := by
      apply (abs_lt_ulp binary64 _).trans_le
      rw [← zpow_natCast]
      apply zpow_le_zpow_right₀ one_le_two
      change _ + (53 : ℤ) ≤ 52
      omega
    have hhalf : ((m + 1 : ℤ) : ℚ) - 1 / 2 = m + 1 / 2 := by
      push_cast
      ring
    rw [← hhalf, abs_half, div_lt_iff₀ two_pos, ← pow_succ] at hbound
    have hsmall : |2 * (m + 1) - 1| < 2 ^ 53 := by exact_mod_cast hbound
    rw [← hhalf]
    exact nearest_exact (exact_half hsmall.le)
  · -- the even one of two
    left
    have hulp : binary64.ulp ((m : ℚ) + 1 / 2) = 1 := by
      unfold Format.ulp
      rw [hone, zpow_zero]
    have hnear : |(m : ℚ) + 1 / 2 - m * binary64.ulp ((m : ℚ) + 1 / 2)| ≤
        binary64.ulp ((m : ℚ) + 1 / 2) / 2 := by
      rw [hulp, mul_one, add_sub_cancel_left, abs_of_pos one_half_pos]
    rw [nearest_of_even hnear heven, hulp, mul_one]
  · left
    obtain ⟨c, hc⟩ := hmul
    have htwo := two_le_ulp hcoarse
    have hnear : |(m : ℚ) + 1 / 2 - c * binary64.ulp ((m : ℚ) + 1 / 2)| <
        binary64.ulp ((m : ℚ) + 1 / 2) / 2 := by
      rw [← hc, add_sub_cancel_left, abs_of_pos one_half_pos]
      linarith
    rw [nearest_of_near hnear, ← hc]

/-- Of two integers with the even one even, the even one is published. -/
theorem roundHalfUp_odd {r : ℤ} (hodd : ¬ Even r) (hlow : 2 ^ 52 ≤ |r|) (hhigh : |r| ≤ 2 ^ 53) :
    roundHalfUp r = r + 1 := by
  have heven : Even (r + 1) := Int.even_add_one.mpr hodd
  have hplace : binary64.lastPlace ((r : ℚ) + 1 / 2) = 0 := by
    have hne : |r| ≠ 2 ^ 52 ∧ |r| ≠ 2 ^ 53 := by
      rw [← even_abs] at hodd
      constructor <;> intro h <;> rw [h] at hodd <;> exact hodd (by decide)
    have hlow : ((2 ^ 52 + 1 : ℤ) : ℚ) ≤ |(r : ℚ)| := by
      exact_mod_cast (by omega : 2 ^ 52 + 1 ≤ |r|)
    have hhigh : |(r : ℚ)| ≤ ((2 ^ 53 - 1 : ℤ) : ℚ) := by
      exact_mod_cast (by omega : |r| ≤ 2 ^ 53 - 1)
    have hhalf : |(1 / 2 : ℚ)| = 1 / 2 := abs_of_pos one_half_pos
    refine lastPlace_eq (by decide) ?_ ?_
    · change (2 : ℚ) ^ (52 : ℤ) ≤ _
      have := abs_sub_abs_le_abs_sub (r : ℚ) (-(1 / 2))
      rw [sub_neg_eq_add, abs_neg, hhalf] at this
      push_cast at hlow
      norm_num at hlow ⊢
      linarith
    · change _ < (2 : ℚ) ^ (53 : ℤ)
      have := abs_add_le (r : ℚ) (1 / 2)
      rw [hhalf] at this
      push_cast at hhigh
      norm_num at hhigh ⊢
      linarith
  have hulp : binary64.ulp ((r : ℚ) + 1 / 2) = 1 := by
    unfold Format.ulp
    rw [hplace, zpow_zero]
  have hnear : |(r : ℚ) + 1 / 2 - (r + 1 : ℤ) * binary64.ulp ((r : ℚ) + 1 / 2)| ≤
      binary64.ulp ((r : ℚ) + 1 / 2) / 2 := by
    rw [hulp, Int.cast_add]
    norm_num
  unfold roundHalfUp
  rw [nearest_of_even hnear heven, hulp, mul_one, Int.floor_intCast]

theorem lastPlace_nonneg {y : ℚ} (hy : 2 ^ 52 ≤ |y|) : 0 ≤ binary64.lastPlace y := by
  by_contra hneg
  have hlt := abs_lt_ulp binary64 y
  have hle : (2 : ℚ) ^ (binary64.lastPlace y + (53 : ℤ)) ≤ 2 ^ (52 : ℤ) :=
    zpow_le_zpow_right₀ one_le_two (by omega)
  exact absurd (hlt.trans_le hle) (not_lt.mpr hy)

theorem pow_le_abs_nearest {y : ℚ} (hy : 2 ^ 52 ≤ |y|) : 2 ^ 52 ≤ |binary64.nearest y| := by
  have hexact : binary64.Exact ((2 ^ 52 : ℤ) : ℚ) := exact_intCast (by norm_num)
  have hexact' : binary64.Exact ((-2 ^ 52 : ℤ) : ℚ) := exact_intCast (by norm_num)
  push_cast at hexact hexact'
  rcases le_abs.mp hy with h | h
  · exact (le_nearest hexact h).trans (le_abs_self _)
  · exact (le_neg_of_le_neg (nearest_le hexact' (le_neg_of_le_neg h))).trans (neg_le_abs _)

theorem roundHalfUp_intCast {r : ℤ} (hlow : 2 ^ 52 ≤ |r|) (hhigh : |r| ≤ 2 ^ 53) :
    Even (roundHalfUp r) ∧ (Even r → roundHalfUp r = r) := by
  by_cases heven : Even r
  · obtain ⟨c, hc⟩ := even_iff_two_dvd.mp heven
    have hsmall : |c| ≤ 2 ^ 53 := by
      rw [abs_le] at hhigh ⊢
      omega
    have hself := roundHalfUp_even (t := 0) hsmall
    rw [zero_add, pow_one, mul_comm c, ← hc] at hself
    rw [hself]
    exact ⟨heven, fun _ => rfl⟩
  · rw [roundHalfUp_odd heven hlow hhigh]
    exact ⟨Int.even_add_one.mpr heven, fun h => absurd h heven⟩

/-- Without a fraction the even integers are those within a half. -/
theorem near_iff_of_fine {y : ℚ} (hy : 2 ^ 52 ≤ |y|) (hplace : binary64.lastPlace y = 0) :
    Even (roundHalfUp (binary64.nearest y)) ∧
      (|(roundHalfUp (binary64.nearest y) : ℚ) - y| ≤ 1 / 2 ↔
        ∃ k : ℤ, |y - k * 2| ≤ 1 / 2) := by
  have hulp : binary64.ulp y = 1 := by
    unfold Format.ulp
    rw [hplace, zpow_zero]
  obtain ⟨r, hr⟩ : ∃ r, r = roundEven (y / binary64.ulp y) := ⟨_, rfl⟩
  have hnearest : binary64.nearest y = r := by
    rw [hr]
    show (_ : ℚ) * binary64.ulp y = _
    rw [hulp, mul_one]
  have hhigh : |r| ≤ 2 ^ 53 := hr ▸ abs_significand_le binary64 y
  have hlow : 2 ^ 52 ≤ |r| := by
    have hlow := pow_le_abs_nearest hy
    rw [hnearest, ← Int.cast_abs] at hlow
    exact_mod_cast hlow
  obtain ⟨heven, hself⟩ := roundHalfUp_intCast hlow hhigh
  rw [hnearest]
  refine ⟨heven, ?_⟩
  constructor
  · intro h
    obtain ⟨k, hk⟩ := heven
    refine ⟨k, ?_⟩
    rw [hk, abs_sub_comm] at h
    rwa [mul_two, ← Int.cast_add]
  · rintro ⟨k, hk⟩
    have heven' : Even (k * 2) := even_two.mul_left k
    have hnear : |y - (k * 2 : ℤ) * binary64.ulp y| ≤ binary64.ulp y / 2 := by
      rw [hulp, mul_one, Int.cast_mul]
      exact hk
    have hr : r = k * 2 := by
      have hexact := nearest_of_even hnear heven'
      rw [hnearest, hulp, mul_one] at hexact
      exact Int.cast_inj.mp hexact
    rw [hself (hr ▸ heven'), abs_sub_comm, hr, Int.cast_mul]
    exact hk

/-- Without a place for 1 the nearest number is published. -/
theorem near_iff_of_coarse {y : ℚ} (hplace : 0 < binary64.lastPlace y) :
    Even (roundHalfUp (binary64.nearest y)) ∧
      (|(roundHalfUp (binary64.nearest y) : ℚ) - y| ≤ 1 / 2 ↔
        ∃ k : ℤ, |y - k * binary64.ulp y| ≤ 1 / 2) := by
  obtain ⟨t, ht⟩ : ∃ t : ℕ, binary64.lastPlace y = (t + 1 : ℕ) :=
    ⟨(binary64.lastPlace y - 1).toNat, by omega⟩
  have hulp : binary64.ulp y = ((2 ^ (t + 1) : ℤ) : ℚ) := by
    unfold Format.ulp
    rw [ht, zpow_natCast]
    push_cast
    rfl
  obtain ⟨r, hr⟩ : ∃ r, r = roundEven (y / binary64.ulp y) := ⟨_, rfl⟩
  have hnearest : binary64.nearest y = r * binary64.ulp y := by
    rw [hr]
    rfl
  have hself : roundHalfUp (binary64.nearest y) = r * 2 ^ (t + 1) := by
    rw [hnearest, hulp, ← Int.cast_mul]
    exact roundHalfUp_even (hr ▸ abs_significand_le binary64 y)
  have hcast : (roundHalfUp (binary64.nearest y) : ℚ) = binary64.nearest y := by
    rw [hself, hnearest, hulp, Int.cast_mul]
  constructor
  · rw [hself]
    exact (even_two.pow_of_ne_zero (Nat.succ_ne_zero t)).mul_left r
  · rw [hcast]
    constructor
    · intro h
      exact ⟨r, by rwa [← hnearest, abs_sub_comm]⟩
    · rintro ⟨k, hk⟩
      have htwo := two_le_ulp hplace
      rw [nearest_of_near (k := k) (by linarith), abs_sub_comm]
      exact hk

/-- From `2 ^ 52` on only even integers are published, and only those with the places of the
product. -/
theorem near_iff_of_large {y : ℚ} (hy : 2 ^ 52 ≤ |y|) :
    Even (roundHalfUp (binary64.nearest y)) ∧
      (|(roundHalfUp (binary64.nearest y) : ℚ) - y| ≤ 1 / 2 ↔
        ∃ k : ℤ, |y - k * max 2 (binary64.ulp y)| ≤ 1 / 2) := by
  rcases (lastPlace_nonneg hy).eq_or_lt with hfine | hcoarse
  · have hulp : binary64.ulp y = 1 := by
      unfold Format.ulp
      rw [← hfine, zpow_zero]
    rw [hulp, max_eq_left one_le_two]
    exact near_iff_of_fine hy hfine.symm
  · rw [max_eq_right (two_le_ulp hcoarse)]
    exact near_iff_of_coarse hcoarse

/-! ## Both -/

/-- Both roundings together leave the integer within a half of the product `y`. -/
def RoundsNear (y : ℚ) : Prop :=
  if |y| < 2 ^ 52 then ∀ n, ¬ PassesHalf y n
  else ∃ k : ℤ, |y - k * max 2 (binary64.ulp y)| ≤ 1 / 2

theorem near_iff (y : ℚ) :
    |(roundHalfUp (binary64.nearest y) : ℚ) - y| ≤ 1 / 2 ↔ RoundsNear y := by
  unfold RoundsNear
  split
  · rename_i hsmall
    exact near_iff_of_small hsmall
  · rename_i hlarge
    exact (near_iff_of_large (not_lt.mp hlarge)).2

/-- An integer near to the product has 64 bits where the product does: at the ends of the range only
even integers are published. -/
theorem inRange_iff {y : ℚ}
    (hnear : |(roundHalfUp (binary64.nearest y) : ℚ) - y| ≤ 1 / 2) :
    -2 ^ 63 ≤ roundHalfUp (binary64.nearest y) ∧ roundHalfUp (binary64.nearest y) < 2 ^ 63 ↔
      -2 ^ 63 - 1 / 2 ≤ y ∧ y < 2 ^ 63 - 1 / 2 := by
  have heven : 2 ^ 52 ≤ |y| → Even (roundHalfUp (binary64.nearest y)) :=
    fun h => (near_iff_of_large h).1
  generalize roundHalfUp (binary64.nearest y) = m at hnear heven ⊢
  obtain ⟨hleft, hright⟩ := abs_le.mp hnear
  constructor
  · rintro ⟨hlow, hhigh⟩
    have hlow' : ((-2 ^ 63 : ℤ) : ℚ) ≤ m := Int.cast_le.mpr hlow
    have hhigh' : (m : ℚ) ≤ ((2 ^ 63 - 1 : ℤ) : ℚ) := Int.cast_le.mpr (by omega)
    push_cast at hlow' hhigh'
    refine ⟨by linarith, lt_of_le_of_ne (by linarith) fun hend => ?_⟩
    have hm : m = 2 ^ 63 - 1 := by
      have : ((2 ^ 63 - 1 : ℤ) : ℚ) ≤ m := by
        push_cast
        linarith
      exact le_antisymm (by omega) (Int.cast_le.mp this)
    have := heven (le_abs.mpr (Or.inl (by linarith)))
    rw [hm] at this
    exact absurd this (by decide)
  · rintro ⟨hlow, hhigh⟩
    have hlow' : ((-2 ^ 63 - 1 : ℤ) : ℚ) ≤ m := by
      push_cast
      linarith
    have hhigh' : (m : ℚ) < ((2 ^ 63 : ℤ) : ℚ) := by
      push_cast
      linarith
    refine ⟨?_, Int.cast_lt.mp hhigh'⟩
    by_contra hend
    have hm : m = -2 ^ 63 - 1 := by
      have := Int.cast_le.mp hlow'
      omega
    have hcast : (m : ℚ) = -2 ^ 63 - 1 := by
      rw [hm]
      norm_num
    have := heven (le_abs.mpr (Or.inr (by linarith)))
    rw [hm] at this
    exact absurd this (by decide)

end Psych
