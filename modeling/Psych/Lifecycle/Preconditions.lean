import Psych.Http.Response
import Psych.Timer.Interval

/-!
# Settings that are used without a check

`interval` and `minimum_response_size` are texts that are converted where they are used.
`Validate` looks at neither of them: an accepted configuration may have no interval, and without
a minimum size the default fails the assertion that follows it.

`preconditions_iff` says which settings meet every use: the interval reads as a positive `int`,
and the minimum size is set and exceeds the size of the magic number.
-/

namespace Psych

/-- `sizeof (uint32_t)`. -/
def magicSize : Nat := 4

/-- What the code relies on where it uses the two settings. -/
structure RuntimePreconditions (config : Config) : Prop where
  /-- `stoi` does not throw, and yields a positive number. -/
  interval : ∃ n, stoi config.interval = some n ∧ 0 < n
  /-- `stoul`, which the timer uses, yields the same. -/
  unsignedInterval : (stoul config.interval).map Int.ofNat = stoi config.interval
  /-- `GetNextInterval` does not divide by zero. -/
  division : ∀ platform now fuel, getNextInterval platform config now fuel ≠ some (.error .undefined)
  /-- `assert (minimum_response_size > sizeof (uint32_t))`, which compares in `size_t`. -/
  assertion : magicSize < toSize (minimumResponseSize config)
  /-- `data.size () < minimum_response_size`, which compares in `size_t`, means what it says. -/
  comparison : ∀ size : Nat, size < 2 ^ 64 →
    (size < toSize (minimumResponseSize config) ↔ (size : Int) < minimumResponseSize config)
  /-- The magic number is read inside the body. -/
  magic : ∀ contentType data, admissible config contentType data = true → magicSize ≤ data.length

/-- The text has the digits of a positive `int`. -/
def positiveInt (s : Text) : Prop :=
  (readInteger s).2 = true ∧ 0 < (readInteger s).1 ∧ (readInteger s).1 ≤ longMax

/-- The minimum size is set, to more than the size of the magic number. -/
def coversMagic (s : Text) : Prop := s ≠ [] ∧ magicSize < atol s

theorem stoi_eq (s : Text) : stoi s =
    if (readInteger s).2 = true ∧ longMin ≤ (readInteger s).1 ∧ (readInteger s).1 ≤ longMax then
      some (readInteger s).1 else none := by
  unfold stoi
  simp [and_assoc]

theorem positiveInt_iff (s : Text) : positiveInt s ↔ ∃ n, stoi s = some n ∧ 0 < n := by
  rw [stoi_eq]
  unfold positiveInt longMin
  constructor
  · rintro ⟨hdigits, hpos, hmax⟩
    exact ⟨_, if_pos ⟨hdigits, by omega, hmax⟩, hpos⟩
  · rintro ⟨n, hn, hpos⟩
    split at hn
    · rename_i h
      cases hn
      exact ⟨h.1, hpos, h.2.2⟩
    · cases hn

/-- The two conversions agree on a positive `int`. -/
theorem stoul_of_positiveInt {s : Text} (h : positiveInt s) :
    (stoul s).map Int.ofNat = stoi s := by
  obtain ⟨hdigits, hpos, hmax⟩ := h
  unfold longMax at hmax
  have hmod : (readInteger s).1 % 2 ^ 32 = (readInteger s).1 :=
    Int.emod_eq_of_lt (by omega) (by omega)
  have habs : (readInteger s).1.natAbs < 2 ^ 32 := by omega
  rw [stoi_eq, if_pos ⟨hdigits, by unfold longMin; omega, hmax⟩]
  unfold stoul
  simp only [hdigits, habs, hmod, decide_true, Bool.and_self, if_true, Option.map_some]
  exact congrArg some (Int.toNat_of_nonneg (by omega))

theorem getNextInterval_divides {config : Config} (h : positiveInt config.interval)
    (platform : Platform) (now : Int) (fuel : Nat) :
    getNextInterval platform config now fuel ≠ some (.error .undefined) := by
  obtain ⟨n, hn, hpos⟩ := (positiveInt_iff _).mp h
  unfold getNextInterval
  rw [hn]
  cases platform.durationFromString config.timeOffsetConstant with
  | none => simp
  | some referenceTod =>
    dsimp only
    intro hfault
    obtain ⟨reference, _, hbin⟩ := Option.map_eq_some_iff.mp hfault
    unfold nextBin at hbin
    rw [if_neg (by omega)] at hbin
    cases hbin

/-- The size comparison is the mathematical one for a minimum that is not negative. -/
theorem toSize_minimum {config : Config} (h : 0 ≤ minimumResponseSize config) :
    (toSize (minimumResponseSize config) : Int) = minimumResponseSize config := by
  have hmax : minimumResponseSize config ≤ longMax := by
    unfold minimumResponseSize
    split
    · exact atol_le _
    · decide
  unfold longMax at hmax
  rw [toSize_of_nonneg h (by omega), Int.toNat_of_nonneg h]

theorem coversMagic_iff (config : Config) :
    coversMagic config.minimumResponseSize ↔ (magicSize : Int) < minimumResponseSize config := by
  unfold coversMagic minimumResponseSize magicSize
  cases config.minimumResponseSize with
  | nil => simp
  | cons c s => simp

/-- For every configuration the settings meet all their uses exactly when the interval reads as a
positive `int` and the minimum size is set to more than the size of the magic number. -/
theorem preconditions_iff (config : Config) : RuntimePreconditions config ↔
    positiveInt config.interval ∧ coversMagic config.minimumResponseSize := by
  rw [coversMagic_iff]
  constructor
  · intro h
    refine ⟨(positiveInt_iff _).mpr h.interval, ?_⟩
    by_cases hneg : minimumResponseSize config < 0
    · -- no size is below a negative minimum, but 0 is below its conversion
      have hpos : 0 < toSize (minimumResponseSize config) := by
        have := h.assertion
        omega
      have hzero := (h.comparison 0 (by omega)).mp hpos
      omega
    · have hsize := toSize_minimum (by omega : 0 ≤ minimumResponseSize config)
      have := h.assertion
      omega
  · rintro ⟨hinterval, hminimum⟩
    have hsize := toSize_minimum (by omega : 0 ≤ minimumResponseSize config)
    refine ⟨(positiveInt_iff _).mp hinterval, stoul_of_positiveInt hinterval,
      getNextInterval_divides hinterval, by omega, fun size _ => by omega, fun ct data had => ?_⟩
    unfold admissible at had
    simp only [Bool.and_eq_true, decide_eq_true_eq] at had
    have := had.1.2
    omega

/-- The sample configuration without the two settings. -/
def bareConfig : Config := { sampleConfig with interval := [], minimumResponseSize := [] }

/-- The default of the minimum size fails its assertion in a valid configuration. -/
theorem valid_without_preconditions :
    bareConfig.validate = true ∧ ¬ RuntimePreconditions bareConfig := by
  refine ⟨by decide, fun h => ?_⟩
  have hassert := h.assertion
  revert hassert
  decide

end Psych
