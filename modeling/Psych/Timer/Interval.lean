import Psych.Model.Sample

/-!
# The first bin close

`GetNextInterval` looks for the last reference time that is at least one interval old, and
rounds the time since then up to a multiple of the interval. The guard of its loop reads
the reference time of day, and the body steps the reference back in `reference_ptime`: the
loop is not entered or never left (`getNextInterval_terminates_iff`). Where it is not
entered, the result is the end of the bin that the time is in (`getNextInterval_bin`).
-/

namespace Psych

/-- `seconds (n)`. -/
def seconds (n : Int) : Int := n * ticksPerSecond

/-- `time_of_day ()`. -/
def timeOfDay (t : Int) : Int := t % ticksPerDay

/-- `ptime (t.date (), tod)`. -/
def onDateOf (t tod : Int) : Int := t - timeOfDay t + tod

/-- The loop that is to step the reference back to yesterday, for fewer than `fuel`
iterations; `none` where it has not ended by then. -/
def stepBack (referenceTod interval nowTod : Int) : Nat → Int → Option Int
  | 0, _ => none
  | fuel + 1, reference =>
    if referenceTod + seconds interval > nowTod then
      stepBack referenceTod interval nowTod fuel (reference - ticksPerDay)
    else some reference

/-- The end of the bin of `now`, counted from the reference. -/
def nextBin (reference interval now : Int) : Except Fault Int :=
  -- division by zero
  if interval = 0 then .error .undefined
  else
    let endTime := reference + seconds ((totalSeconds (now - reference)).tdiv interval * interval)
    .ok (endTime + seconds interval)

/-- `GetNextInterval` at the time `now`, with fuel for its loop. -/
def getNextInterval (platform : Platform) (config : Config) (now : Int) (fuel : Nat) :
    Option (Except Fault Int) :=
  match platform.durationFromString config.timeOffsetConstant with
  | none => some (.error .exception)
  | some referenceTod =>
    match stoi config.interval with
    | none => some (.error .exception)
    | some interval =>
      (stepBack referenceTod interval (timeOfDay now) fuel (onDateOf now referenceTod)).map
        fun reference => nextBin reference interval now

example : getNextInterval boostPlatform sampleConfig 1336079995000000 1 =
    some (.ok 1336080000000000) := by decide

/-! ## The loop -/

/-- The body of the loop leaves its guard as it is. -/
theorem stepBack_of_guard {referenceTod interval nowTod : Int}
    (h : nowTod < referenceTod + seconds interval) (fuel : Nat) (reference : Int) :
    stepBack referenceTod interval nowTod fuel reference = none := by
  induction fuel generalizing reference with
  | zero => rfl
  | succ fuel ih =>
    rw [stepBack, if_pos h]
    exact ih _

theorem stepBack_of_not_guard {referenceTod interval nowTod : Int}
    (h : referenceTod + seconds interval ≤ nowTod) (fuel : Nat) (reference : Int) :
    stepBack referenceTod interval nowTod (fuel + 1) reference = some reference := by
  rw [stepBack, if_neg (by omega)]

/-- The first reference of the day and one interval after it have passed. -/
def intervalElapsed (platform : Platform) (config : Config) (now : Int) : Prop :=
  ∀ referenceTod interval, platform.durationFromString config.timeOffsetConstant =
    some referenceTod → stoi config.interval = some interval →
      referenceTod + seconds interval ≤ timeOfDay now

/-- `GetNextInterval` returns exactly when one interval after the day's reference has
elapsed, or a setting is malformed. -/
theorem getNextInterval_terminates_iff (platform : Platform) (config : Config) (now : Int) :
    (∃ fuel result, getNextInterval platform config now fuel = some result) ↔
      intervalElapsed platform config now := by
  unfold getNextInterval intervalElapsed
  cases href : platform.durationFromString config.timeOffsetConstant with
  | none => exact iff_of_true ⟨0, _, rfl⟩ (by simp)
  | some referenceTod =>
    cases hint : stoi config.interval with
    | none => exact iff_of_true ⟨0, _, rfl⟩ (by simp)
    | some interval =>
      dsimp only
      constructor
      · rintro ⟨fuel, result, hresult⟩ _ _ heq heq'
        cases heq
        cases heq'
        refine Int.not_lt.mp fun hguard => ?_
        rw [stepBack_of_guard hguard] at hresult
        cases hresult
      · intro h
        refine ⟨1, nextBin (onDateOf now referenceTod) interval now, ?_⟩
        rw [stepBack_of_not_guard (h _ _ rfl rfl)]
        rfl

/-- Half a minute after midnight, with an interval of a minute. -/
theorem getNextInterval_after_midnight :
    ¬ ∃ fuel result,
      getNextInterval boostPlatform sampleConfig 1336003230000000 fuel = some result := by
  rintro ⟨fuel, result, hresult⟩
  have hnone : getNextInterval boostPlatform sampleConfig 1336003230000000 fuel = none := by
    have hstep : stepBack 0 60 30000000 fuel 1336003200000000 = none :=
      stepBack_of_guard (by decide) fuel _
    exact congrArg (Option.map fun reference => nextBin reference 60 1336003230000000) hstep
  rw [hnone] at hresult
  cases hresult

/-! ## The bin -/

/-- Within a day of the reference, `total_seconds ()` fits a `long`. -/
theorem totalSeconds_of_day {offset : Int} (hnonneg : 0 ≤ offset)
    (hday : offset < ticksPerDay) : totalSeconds offset = offset / ticksPerSecond := by
  have hbound : offset < 86400 * 1000000 := hday
  rw [totalSeconds, Int.tdiv_eq_ediv_of_nonneg hnonneg, toLong, ticksPerSecond]
  exact Int.bmod_eq_of_le (by omega) (by omega)

/-- Rounding down to whole intervals leaves less than one interval. -/
theorem nextBin_bounds {reference interval now next : Int} (hpos : 0 < interval)
    (hle : reference ≤ now) (hday : now - reference < ticksPerDay)
    (hnext : nextBin reference interval now = .ok next) :
    now < next ∧ next ≤ now + seconds interval ∧
      ∃ bins, next - reference = seconds (bins * interval) := by
  rw [nextBin, if_neg (by omega)] at hnext
  rw [totalSeconds_of_day (by omega) hday] at hnext
  cases hnext
  have helapsed : 0 ≤ (now - reference) / ticksPerSecond :=
    Int.ediv_nonneg (by omega) (by decide)
  have hsecond : ticksPerSecond * ((now - reference) / ticksPerSecond) ≤ now - reference :=
    Int.mul_ediv_self_le (by decide)
  have hsecond' : now - reference < ticksPerSecond * ((now - reference) / ticksPerSecond) +
      ticksPerSecond := Int.lt_mul_ediv_self_add (by decide)
  generalize (now - reference) / ticksPerSecond = elapsed at helapsed hsecond hsecond' ⊢
  rw [Int.tdiv_eq_ediv_of_nonneg helapsed]
  have hbin : interval * (elapsed / interval) ≤ elapsed :=
    Int.mul_ediv_self_le (by omega)
  have hbin' : elapsed < interval * (elapsed / interval) + interval :=
    Int.lt_mul_ediv_self_add hpos
  generalize elapsed / interval = bins at hbin hbin' ⊢
  have hnext : reference + seconds (bins * interval) + seconds interval - reference =
      seconds ((bins + 1) * interval) := by
    simp only [seconds, Int.add_mul, Int.one_mul]
    omega
  rw [Int.mul_comm bins interval] at hnext ⊢
  simp only [seconds, ticksPerSecond] at hsecond hsecond' hnext ⊢
  exact ⟨by omega, by omega, bins + 1, hnext⟩

/-- What `GetNextInterval` returns is the end of the bin that `now` is in, counted from
the day's reference. -/
theorem getNextInterval_bin (platform : Platform) (config : Config)
    (now : Int) (fuel : Nat) (referenceTod interval next : Int)
    (href : platform.durationFromString config.timeOffsetConstant = some referenceTod)
    (hint : stoi config.interval = some interval)
    (htod : 0 ≤ referenceTod ∧ referenceTod < ticksPerDay) (hpos : 0 < interval)
    (hnext : getNextInterval platform config now fuel = some (.ok next)) :
    now < next ∧ next ≤ now + seconds interval ∧
      ∃ bins, next - onDateOf now referenceTod = seconds (bins * interval) := by
  have helapsed : referenceTod + seconds interval ≤ timeOfDay now :=
    (getNextInterval_terminates_iff platform config now).mp ⟨fuel, _, hnext⟩ _ _ href hint
  have hday : timeOfDay now < ticksPerDay := Int.emod_lt_of_pos now (by decide)
  have hpositive : 0 < seconds interval := Int.mul_pos hpos (by decide)
  have hoffset : now - onDateOf now referenceTod = timeOfDay now - referenceTod := by
    unfold onDateOf
    omega
  simp only [getNextInterval, href, hint] at hnext
  cases fuel with
  | zero => cases hnext
  | succ fuel =>
    rw [stepBack_of_not_guard helapsed] at hnext
    exact nextBin_bounds hpos (by omega) (by omega) (Option.some.inj hnext)

/-- Five seconds before eight in the evening, with an interval of a minute. -/
theorem getNextInterval_evening :
    (1336079995000000 : Int) < 1336080000000000 ∧
      1336080000000000 ≤ 1336079995000000 + seconds 60 ∧
        ∃ bins, 1336080000000000 - onDateOf 1336079995000000 0 = seconds (bins * 60) :=
  getNextInterval_bin boostPlatform sampleConfig 1336079995000000 1 0 60 1336080000000000
    (by decide) (by decide) (by decide) (by decide) (by decide)

end Psych
