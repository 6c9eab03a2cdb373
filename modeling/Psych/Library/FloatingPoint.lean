import Mathlib.Algebra.Order.Round
import Mathlib.Data.Int.Log
import Mathlib.Data.Rat.Floor
import Mathlib.Tactic.Linarith
import Mathlib.Tactic.Positivity
import Mathlib.Tactic.Ring

/-!
# Rounding to floating-point numbers

The numbers of a binary format are the multiples `k * 2 ^ e` with `|k| ≤ 2 ^ precision` and
`least ≤ e` (`Format.Exact`). A result is rounded to the nearest of them, and to the even one of
two (`Format.nearest`). There is no greatest exponent: a result that overflows is out of every range
it is converted to.

* `nearest_exact`, `nearest_le`, `le_nearest`: an exact number is kept, and no rounding passes one.
* `abs_nearest_sub_le`: the error is at most half a unit in the last place.
* `le_nearest_iff`: which numbers are rounded up to an exact one.
-/

namespace FloatingPoint

variable {α : Type} [Field α] [LinearOrder α] [IsStrictOrderedRing α] [FloorRing α]

/-! ## Nearest integers -/

/-- The nearest integer, and the even one of two. -/
def roundEven (x : α) : ℤ :=
  if Int.fract x < 1 / 2 ∨ (Int.fract x = 1 / 2 ∧ Even ⌊x⌋) then ⌊x⌋ else ⌊x⌋ + 1

variable {x : α} {n : ℤ}

theorem le_roundEven_iff :
    n ≤ roundEven x ↔ (n : α) - 1 / 2 < x ∨ ((n : α) - 1 / 2 = x ∧ Even n) := by
  have hsum := Int.floor_add_fract x
  have hnonneg := Int.fract_nonneg x
  have hlt := Int.fract_lt_one x
  rcases lt_trichotomy n (⌊x⌋ + 1) with hn | hn | hn
  · have hle : n ≤ ⌊x⌋ := by omega
    have hcast : (n : α) ≤ ⌊x⌋ := Int.cast_le.mpr hle
    refine iff_of_true ?_ (Or.inl (by linarith))
    unfold roundEven
    split <;> omega
  · have hcast : (n : α) = ⌊x⌋ + 1 := by rw [hn, Int.cast_add, Int.cast_one]
    have heven : Even n ↔ ¬ Even ⌊x⌋ := by rw [hn, Int.even_add_one]
    have hdown : n ≤ roundEven x ↔
        ¬ (Int.fract x < 1 / 2 ∨ (Int.fract x = 1 / 2 ∧ Even ⌊x⌋)) := by
      unfold roundEven
      split
      · exact iff_of_false (by omega) (not_not_intro ‹_›)
      · exact iff_of_true (by omega) ‹_›
    rw [hdown, heven, hcast]
    rcases lt_trichotomy (Int.fract x) (1 / 2) with hf | hf | hf
    · apply iff_of_false (not_not_intro (Or.inl hf))
      rintro (h | ⟨h, _⟩) <;> linarith
    · have hx : (⌊x⌋ : α) + 1 - 1 / 2 = x := by linarith
      rw [or_iff_right hf.not_lt, and_iff_right hf, or_iff_right hx.not_lt, and_iff_right hx]
    · refine iff_of_true ?_ (Or.inl (by linarith))
      rintro (h | ⟨h, _⟩) <;> linarith
  · have hle : ⌊x⌋ + 2 ≤ n := by omega
    have hcast : (⌊x⌋ : α) + 2 ≤ n := by exact_mod_cast hle
    refine iff_of_false ?_ ?_
    · unfold roundEven
      split <;> omega
    · rintro (h | ⟨h, _⟩) <;> linarith

theorem le_roundEven (h : (n : α) ≤ x) : n ≤ roundEven x :=
  le_roundEven_iff.mpr (Or.inl (by linarith))

theorem roundEven_eq_iff :
    roundEven x = n ↔ |x - n| < 1 / 2 ∨ (|x - n| = 1 / 2 ∧ Even n) := by
  have heven : Even (n + 1) ↔ ¬ Even n := Int.even_add_one
  have heq : roundEven x = n ↔ n ≤ roundEven x ∧ ¬ n + 1 ≤ roundEven x := by omega
  rw [heq, le_roundEven_iff, le_roundEven_iff, Int.cast_add, Int.cast_one, heven]
  rcases lt_trichotomy |x - n| (1 / 2) with h | h | h
  · obtain ⟨hlow, hhigh⟩ := abs_lt.mp h
    refine iff_of_true ⟨Or.inl (by linarith), ?_⟩ (Or.inl h)
    rintro (h | ⟨h, _⟩) <;> linarith
  · have hne : ¬ |x - n| < 1 / 2 := h.not_lt
    rcases (abs_eq (by norm_num)).mp h with hx | hx
    · have h1 : (n : α) - 1 / 2 < x := by linarith
      have h2 : ¬ (n : α) + 1 - 1 / 2 < x := by linarith
      have h3 : (n : α) + 1 - 1 / 2 = x := by linarith
      rw [and_iff_right (Or.inl h1), or_iff_right h2, and_iff_right h3, not_not, or_iff_right hne,
        and_iff_right h]
    · have h1 : ¬ (n : α) - 1 / 2 < x := by linarith
      have h2 : (n : α) - 1 / 2 = x := by linarith
      have h3 : ¬ ((n : α) + 1 - 1 / 2 < x ∨ (n : α) + 1 - 1 / 2 = x ∧ ¬ Even n) := by
        rintro (h | ⟨h, _⟩) <;> linarith
      rw [and_iff_left h3, or_iff_right h1, or_iff_right hne, and_iff_right h2, and_iff_right h]
  · refine iff_of_false ?_ (by rintro (h' | ⟨h', _⟩) <;> linarith)
    rintro ⟨hlow, hhigh⟩
    rw [not_or] at hhigh
    rcases lt_abs.mp h with hx | hx
    · exact hhigh.1 (by linarith)
    · rcases hlow with hlow | ⟨hlow, _⟩ <;> linarith

theorem roundEven_of_even (h : |x - n| ≤ 1 / 2) (heven : Even n) : roundEven x = n :=
  roundEven_eq_iff.mpr (h.lt_or_eq.imp_right fun h => ⟨h, heven⟩)

theorem abs_roundEven_sub_le (x : α) : |(roundEven x : α) - x| ≤ 1 / 2 := by
  rw [abs_sub_comm]
  rcases roundEven_eq_iff.mp (rfl : roundEven x = roundEven x) with h | ⟨h, _⟩
  · exact h.le
  · exact h.le

theorem roundEven_neg (x : α) : roundEven (-x) = -roundEven x := by
  rw [roundEven_eq_iff, Int.cast_neg, even_neg]
  have hspec := roundEven_eq_iff.mp (rfl : roundEven x = roundEven x)
  have habs : |-x - -(roundEven x : α)| = |x - roundEven x| := by
    rw [← abs_neg]
    congr 1
    ring
  rwa [habs]

theorem roundEven_le (h : x ≤ n) : roundEven x ≤ n := by
  have hneg : ((-n : ℤ) : α) ≤ -x := by
    rw [Int.cast_neg]
    exact neg_le_neg h
  have := le_roundEven hneg
  rw [roundEven_neg] at this
  omega

/-! ## Formats -/

/-- A binary format: the length of its significands, and the exponent of its least number. -/
structure Format where
  precision : ℕ
  least : ℤ
  positive : 0 < precision

/-- The exponent of the last place of `x`. -/
def Format.lastPlace (f : Format) (x : α) : ℤ :=
  if x = 0 then f.least else max (Int.log 2 |x| + 1 - f.precision) f.least

/-- The unit in the last place of `x`. -/
def Format.ulp (f : Format) (x : α) : α := 2 ^ f.lastPlace x

/-- The nearest number of the format to a result `x`. -/
def Format.nearest (f : Format) (x : α) : α := roundEven (x / f.ulp x) * f.ulp x

/-- The numbers of the format. -/
def Format.Exact (f : Format) (x : α) : Prop :=
  ∃ k e : ℤ, f.least ≤ e ∧ |k| ≤ 2 ^ f.precision ∧ x = k * 2 ^ e

section Format

variable {f : Format} {y : α} {k e : ℤ}

theorem two_zpow_pos (e : ℤ) : (0 : α) < 2 ^ e := zpow_pos two_pos e

theorem ulp_pos (f : Format) (x : α) : 0 < f.ulp x := two_zpow_pos _

theorem two_zpow_add (n : ℕ) (e : ℤ) : (2 : α) ^ (e + n) = ((2 ^ n : ℤ) : α) * 2 ^ e := by
  have htwo : (2 : α) ≠ 0 := two_pos.ne'
  rw [add_comm, zpow_add₀ htwo, zpow_natCast]
  push_cast
  rfl

omit [IsStrictOrderedRing α] in
theorem least_le_lastPlace (f : Format) (x : α) : f.least ≤ f.lastPlace x := by
  unfold Format.lastPlace
  split
  · exact le_rfl
  · exact le_max_right _ _

/-- Above the least exponent the last place is that of the highest. -/
theorem zpow_le_of_lt_lastPlace (h : e < f.lastPlace x) (he : f.least ≤ e) :
    (2 : α) ^ (e + f.precision) ≤ |x| := by
  unfold Format.lastPlace at h
  split at h
  · omega
  · rename_i hx
    have hlog : e + f.precision ≤ Int.log 2 |x| := by
      rcases lt_max_iff.mp h with h | h <;> omega
    have := (Int.zpow_le_iff_le_log Nat.one_lt_two (abs_pos.mpr hx)).mpr hlog
    rwa [Nat.cast_ofNat] at this

theorem lastPlace_le (he : f.least ≤ e) (h : |x| < 2 ^ (e + f.precision)) : f.lastPlace x ≤ e := by
  by_contra hlt
  exact absurd (zpow_le_of_lt_lastPlace (not_le.mp hlt) he) (not_le.mpr h)

/-- The last place of a number with a significand of full length. -/
theorem lastPlace_eq (he : f.least ≤ e) (hlow : 2 ^ (e + f.precision - 1) ≤ |x|)
    (hhigh : |x| < 2 ^ (e + f.precision)) : f.lastPlace x = e := by
  apply le_antisymm (lastPlace_le he hhigh)
  have hpos : 0 < |x| := (two_zpow_pos _).trans_le hlow
  have hlog : e + f.precision - 1 ≤ Int.log 2 |x| := by
    apply (Int.zpow_le_iff_le_log Nat.one_lt_two hpos).mp
    rwa [Nat.cast_ofNat]
  unfold Format.lastPlace
  rw [if_neg (abs_pos.mp hpos)]
  exact le_max_of_le_left (by omega)

/-- A number is less than its unit with a significand of full length. -/
theorem abs_lt_ulp (f : Format) (x : α) : |x| < 2 ^ (f.lastPlace x + f.precision) := by
  unfold Format.lastPlace
  split
  · rename_i hx
    rw [hx, abs_zero]
    exact two_zpow_pos _
  · have := Int.lt_zpow_succ_log_self Nat.one_lt_two |x|
    rw [Nat.cast_ofNat] at this
    refine this.trans_le (zpow_le_zpow_right₀ one_le_two ?_)
    have := le_max_left (Int.log 2 |x| + 1 - f.precision) f.least
    omega

/-! ## The nearest number -/

theorem abs_nearest_sub_le (f : Format) (x : α) : |f.nearest x - x| ≤ f.ulp x / 2 := by
  have hpos := ulp_pos f x
  have hround := abs_roundEven_sub_le (x / f.ulp x)
  have heq : f.nearest x - x = ((roundEven (x / f.ulp x) : α) - x / f.ulp x) * f.ulp x := by
    rw [sub_mul, div_mul_cancel₀ x hpos.ne']
    rfl
  rw [heq, abs_mul, abs_of_pos hpos]
  calc |(roundEven (x / f.ulp x) : α) - x / f.ulp x| * f.ulp x ≤ 1 / 2 * f.ulp x :=
        mul_le_mul_of_nonneg_right hround hpos.le
    _ = f.ulp x / 2 := by ring

theorem nearest_neg (f : Format) (x : α) : f.nearest (-x) = -f.nearest x := by
  have hulp : f.ulp (-x) = f.ulp x := by
    unfold Format.ulp Format.lastPlace
    simp only [abs_neg, neg_eq_zero]
  unfold Format.nearest
  rw [hulp, neg_div, roundEven_neg, Int.cast_neg, neg_mul]

/-- A multiple of the unit in the last place is not passed. -/
theorem nearest_le_mul (h : x ≤ k * f.ulp x) : f.nearest x ≤ k * f.ulp x := by
  have hpos := ulp_pos f x
  refine mul_le_mul_of_nonneg_right (Int.cast_le.mpr (roundEven_le ?_)) hpos.le
  exact (div_le_iff₀ hpos).mpr h

theorem abs_div_ulp_sub (f : Format) (x : α) (k : ℤ) :
    |x / f.ulp x - k| = |x - k * f.ulp x| / f.ulp x := by
  have hpos := ulp_pos f x
  rw [← abs_of_pos hpos, ← abs_div, abs_of_pos hpos, sub_div, mul_div_cancel_right₀ _ hpos.ne']

/-- A multiple of the unit that is nearer than half a unit is the nearest number. -/
theorem nearest_of_near (h : |x - k * f.ulp x| < f.ulp x / 2) : f.nearest x = k * f.ulp x := by
  have hpos := ulp_pos f x
  have hnear : |x / f.ulp x - k| < 1 / 2 := by
    rw [abs_div_ulp_sub, div_lt_iff₀ hpos]
    linarith
  exact congrArg (· * f.ulp x) (congrArg Int.cast (roundEven_eq_iff.mpr (Or.inl hnear)))

/-- Of two multiples at half a unit the even one is the nearest number. -/
theorem nearest_of_even (h : |x - k * f.ulp x| ≤ f.ulp x / 2) (heven : Even k) :
    f.nearest x = k * f.ulp x := by
  have hpos := ulp_pos f x
  have hnear : |x / f.ulp x - k| ≤ 1 / 2 := by
    rw [abs_div_ulp_sub, div_le_iff₀ hpos]
    linarith
  exact congrArg (· * f.ulp x) (congrArg Int.cast (roundEven_of_even hnear heven))

/-- A power of two with the exponent of the last place or a higher one is a multiple of the unit. -/
theorem zpow_eq_mul_ulp (h : f.lastPlace x ≤ e) :
    (2 : α) ^ e = ((2 ^ (e - f.lastPlace x).toNat : ℤ) : α) * f.ulp x := by
  have hsplit : e = f.lastPlace x + (e - f.lastPlace x).toNat := by omega
  conv_lhs => rw [hsplit]
  exact two_zpow_add _ _

/-- No rounding passes an exact number. -/
theorem nearest_le (hy : f.Exact y) (h : x ≤ y) : f.nearest x ≤ y := by
  obtain ⟨k, e, he, hk, rfl⟩ := hy
  rcases le_or_gt (f.lastPlace x) e with hle | hlt
  · rw [zpow_eq_mul_ulp hle, ← mul_assoc, ← Int.cast_mul] at h ⊢
    exact nearest_le_mul h
  · -- the greatest power of two that `x` reaches lies between them, or between `x` and `-y`
    have hpositive := f.positive
    have hunit : (0 : α) < 2 ^ e := two_zpow_pos e
    have hreach := zpow_le_of_lt_lastPlace (e := f.lastPlace x - 1) (x := x) (f := f)
      (by omega) (by omega)
    have hsmall : |(k * 2 ^ e : α)| ≤ 2 ^ (f.lastPlace x - 1 + f.precision) := by
      have hcast : |(k : α)| ≤ 2 ^ f.precision := by exact_mod_cast hk
      calc |(k * 2 ^ e : α)| = |(k : α)| * 2 ^ e := by rw [abs_mul, abs_of_pos hunit]
        _ ≤ 2 ^ f.precision * 2 ^ e := mul_le_mul_of_nonneg_right hcast hunit.le
        _ = 2 ^ (f.precision + e) := by rw [zpow_add₀ two_ne_zero, zpow_natCast]
        _ ≤ 2 ^ (f.lastPlace x - 1 + f.precision) :=
            zpow_le_zpow_right₀ one_le_two (by omega)
    have hmul := zpow_eq_mul_ulp (f := f) (x := x) (e := f.lastPlace x - 1 + f.precision) (by omega)
    rcases le_or_gt 0 x with hx | hx
    · rw [abs_of_nonneg hx] at hreach
      have hle : x ≤ 2 ^ (f.lastPlace x - 1 + f.precision) :=
        h.trans ((le_abs_self _).trans hsmall)
      rw [hmul] at hle
      exact ((nearest_le_mul hle).trans_eq hmul.symm).trans (hreach.trans h)
    · rw [abs_of_neg hx] at hreach
      have hle : x ≤ -2 ^ (f.lastPlace x - 1 + f.precision) := le_neg_of_le_neg hreach
      have hneg : (-2 ^ (f.lastPlace x - 1 + f.precision) : α) =
          ((-2 ^ (f.lastPlace x - 1 + f.precision - f.lastPlace x).toNat : ℤ) : α) * f.ulp x := by
        rw [hmul, Int.cast_neg, neg_mul]
      rw [hneg] at hle
      exact ((nearest_le_mul hle).trans_eq hneg.symm).trans
        ((neg_le_neg hsmall).trans (neg_abs_le _))

theorem le_nearest (hy : f.Exact y) (h : y ≤ x) : y ≤ f.nearest x := by
  have hneg : f.Exact (-y) := by
    obtain ⟨k, e, he, hk, rfl⟩ := hy
    exact ⟨-k, e, he, by rwa [abs_neg], by rw [Int.cast_neg, neg_mul]⟩
  have hle := nearest_le hneg (neg_le_neg h)
  rw [nearest_neg] at hle
  exact neg_le_neg_iff.mp hle

theorem nearest_exact (hy : f.Exact y) : f.nearest y = y :=
  le_antisymm (nearest_le hy le_rfl) (le_nearest hy le_rfl)

theorem abs_significand_le (f : Format) (x : α) :
    |roundEven (x / f.ulp x)| ≤ 2 ^ f.precision := by
  have hbound : |x / f.ulp x| ≤ ((2 ^ f.precision : ℤ) : α) := by
    rw [abs_div, abs_of_pos (ulp_pos f x), div_le_iff₀ (ulp_pos f x)]
    exact (abs_lt_ulp f x).le.trans_eq (two_zpow_add _ _)
  obtain ⟨hlow, hhigh⟩ := abs_le.mp hbound
  rw [← Int.cast_neg] at hlow
  exact abs_le.mpr ⟨le_roundEven hlow, roundEven_le hhigh⟩

/-- A nearest number is exact. -/
theorem exact_nearest (f : Format) (x : α) : f.Exact (f.nearest x) :=
  ⟨_, f.lastPlace x, least_le_lastPlace f x, abs_significand_le f x, rfl⟩

/-! ## Rounding up -/

/-- The significand `k` of full length belongs to a number whose neighbour below is at the distance
of one unit. -/
def Format.FullBelow (f : Format) (k : ℤ) : Prop :=
  (2 ^ (f.precision - 1) < k ∧ k ≤ 2 ^ f.precision) ∨
    (-2 ^ f.precision < k ∧ k ≤ -2 ^ (f.precision - 1))

theorem two_pow_precision (f : Format) : (2 : ℤ) ^ f.precision = 2 * 2 ^ (f.precision - 1) := by
  rw [← pow_succ', Nat.sub_add_cancel f.positive]

theorem Format.FullBelow.bounds (hk : f.FullBelow k) :
    -2 ^ f.precision < k ∧ k ≤ 2 ^ f.precision := by
  have hdouble := two_pow_precision f
  have hhalf : (0 : ℤ) < 2 ^ (f.precision - 1) := by positivity
  rcases hk with hk | hk <;> omega

omit [LinearOrder α] [IsStrictOrderedRing α] [FloorRing α] in
theorem Format.FullBelow.exact (hk : f.FullBelow k) (he : f.least ≤ e) :
    f.Exact (k * 2 ^ e : α) := by
  obtain ⟨hlow, hhigh⟩ := hk.bounds
  exact ⟨k, e, he, abs_le.mpr ⟨hlow.le, hhigh⟩, rfl⟩

/-- A number between such a number and the middle below it has the same last place. -/
theorem lastPlace_of_near (he : f.least ≤ e) (hk : f.FullBelow k) (hlt : x < k * 2 ^ e)
    (hnear : ((k : α) - 1 / 2) * 2 ^ e ≤ x) : f.lastPlace x = e := by
  have hpositive := f.positive
  have hunit : (0 : α) < 2 ^ e := two_zpow_pos e
  have hhalf : (0 : ℤ) < 2 ^ (f.precision - 1) := by positivity
  have hlow : (2 : α) ^ (e + f.precision - 1) = ((2 ^ (f.precision - 1) : ℤ) : α) * 2 ^ e := by
    have hsplit : e + f.precision - 1 = e + ((f.precision - 1 : ℕ) : ℤ) := by omega
    rw [hsplit, two_zpow_add]
  have hhigh : (2 : α) ^ (e + f.precision) = _ := two_zpow_add f.precision e
  suffices hbounds : ((2 ^ (f.precision - 1) : ℤ) : α) * 2 ^ e ≤ |x| ∧
      |x| < ((2 ^ f.precision : ℤ) : α) * 2 ^ e from
    lastPlace_eq he (hlow.trans_le hbounds.1) (hbounds.2.trans_eq hhigh.symm)
  unfold Format.FullBelow at hk
  clear hlow hhigh
  generalize (2 : ℤ) ^ (f.precision - 1) = half at hhalf hk ⊢
  generalize (2 : ℤ) ^ f.precision = full at hk ⊢
  have hhalf' : (0 : α) ≤ half * 2 ^ e :=
    mul_nonneg (by exact_mod_cast hhalf.le) hunit.le
  rcases hk with ⟨hk, hk'⟩ | ⟨hk, hk'⟩
  · have hright := mul_le_mul_of_nonneg_right (Int.cast_le.mpr hk') hunit.le
    have hleft : ((half : α) + 1) * 2 ^ e ≤ k * 2 ^ e :=
      mul_le_mul_of_nonneg_right (by exact_mod_cast hk) hunit.le
    rw [abs_of_nonneg (by linarith)]
    exact ⟨by linarith, by linarith⟩
  · have hleft : (k : α) * 2 ^ e ≤ -half * 2 ^ e :=
      mul_le_mul_of_nonneg_right (by exact_mod_cast hk') hunit.le
    have hright : (-full + 1 : α) * 2 ^ e ≤ k * 2 ^ e :=
      mul_le_mul_of_nonneg_right (by exact_mod_cast hk) hunit.le
    rw [abs_of_nonpos (by linarith)]
    exact ⟨by linarith, by linarith⟩

/-- A number is rounded up to the exact `k * 2 ^ e`, whose neighbour below is at the distance
`2 ^ e`, from the middle between them on, and from the middle itself where `k` is even. -/
theorem le_nearest_iff (he : f.least ≤ e) (hk : f.FullBelow k) :
    (k * 2 ^ e : α) ≤ f.nearest x ↔
      ((k : α) - 1 / 2) * 2 ^ e < x ∨ (((k : α) - 1 / 2) * 2 ^ e = x ∧ Even k) := by
  have hunit : (0 : α) < 2 ^ e := two_zpow_pos e
  by_cases hplace : f.lastPlace x = e
  · have hnearest : f.nearest x = roundEven (x / 2 ^ e) * 2 ^ e := by
      unfold Format.nearest Format.ulp
      rw [hplace]
    rw [hnearest, mul_le_mul_iff_left₀ hunit, Int.cast_le, le_roundEven_iff, lt_div_iff₀ hunit,
      eq_div_iff hunit.ne']
  rcases le_or_gt (k * 2 ^ e : α) x with hge | hlt
  · exact iff_of_true (le_nearest (hk.exact he) hge) (Or.inl (by linarith))
  have hfar : x < ((k : α) - 1 / 2) * 2 ^ e := by
    by_contra hnear
    exact hplace (lastPlace_of_near he hk hlt (not_lt.mp hnear))
  refine iff_of_false (fun hle => ?_) ?_
  · rcases lt_or_gt_of_ne hplace with hfiner | hcoarser
    · -- the error is at most a quarter of the unit
      have hulp : f.ulp x ≤ 2 ^ e / 2 := by
        rw [div_eq_mul_inv, ← zpow_sub_one₀ two_ne_zero]
        exact zpow_le_zpow_right₀ one_le_two (by omega)
      have herror := (abs_le.mp (abs_nearest_sub_le f x)).2
      linarith
    · -- a number that coarse below `k * 2 ^ e` is negative, and does not come near
      obtain ⟨hlow, hhigh⟩ := hk.bounds
      have hreach := zpow_le_of_lt_lastPlace hcoarser he
      rw [two_zpow_add] at hreach
      have hmul : (k : α) * 2 ^ e ≤ ((2 ^ f.precision : ℤ) : α) * 2 ^ e :=
        mul_le_mul_of_nonneg_right (Int.cast_le.mpr hhigh) hunit.le
      have hneg : x < 0 := by
        by_contra hnonneg
        rw [abs_of_nonneg (not_lt.mp hnonneg)] at hreach
        linarith
      rw [abs_of_neg hneg] at hreach
      have hexact : f.Exact (((-2 ^ f.precision : ℤ) : α) * 2 ^ e) :=
        ⟨_, e, he, by rw [abs_neg, abs_of_pos (by positivity)], rfl⟩
      have hpast : x ≤ ((-2 ^ f.precision : ℤ) : α) * 2 ^ e := by
        rw [Int.cast_neg, neg_mul]
        linarith
      have hless : ((-2 ^ f.precision : ℤ) : α) * 2 ^ e < k * 2 ^ e :=
        mul_lt_mul_of_pos_right (Int.cast_lt.mpr hlow) hunit
      exact absurd (hle.trans (nearest_le hexact hpast)) (not_le.mpr hless)
  · rintro (h | ⟨h, _⟩) <;> linarith

end Format

end FloatingPoint
