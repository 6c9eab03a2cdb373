import Psych.Timer.Feed
import Psych.Timer.Interval
import Psych.Lifecycle.Preconditions

/-!
# The schedule

`Init` makes the timer due at the next bin close, and every tick moves it on by one interval, also one
that came late or found another query running. So the ticks stay on the bins that are counted from the
first reference, and they meet the reference time of day on every later day exactly where the interval
divides a day (`timer_schedule`).
-/

namespace Psych

/-! ## The code -/

/-- The part of `Init` that makes the timer; `none` where `GetNextInterval` does not return. -/
def startTimer (platform : Platform) (config : Config) (now : Int) (fuel : Nat) (p : State) :
    Option (Except Fault Feed) :=
  (getNextInterval platform config now fuel).map fun r => do
    let next ← r
    match stoul config.interval with
    | none => .error .exception
    | some td => .ok { state := p, dueTime := toUnixEpoch (some next), td := td }

/-! ## Due times -/

variable {platform : Platform} {config : Config}

def FeedInput.isTick : FeedInput → Bool
  | .tick _ => true
  | .events _ => false

/-- A step moves the due time on if it is a tick, and never changes the interval. -/
theorem step_dueTime (input : FeedInput) {feed feed' : Feed}
    (h : feed.step platform config input = (.ok (), feed')) (hrunning : feed'.running = true) :
    feed.running = true ∧ feed'.td = feed.td ∧
      feed'.dueTime = feed.dueTime + if input.isTick then feed.td else 0 := by
  cases input with
  | events events =>
    obtain ⟨_, rfl⟩ := Prod.mk.inj h
    exact ⟨hrunning, rfl, (Int.add_zero _).symm⟩
  | tick tick =>
    cases hfeed : feed.running with
    | false =>
      rw [Feed.step, fire_of_stopped tick hfeed] at h
      obtain ⟨_, rfl⟩ := Prod.mk.inj h
      rw [hfeed] at hrunning
      cases hrunning
    | true =>
      rw [Feed.step, fire_of_running tick hfeed, Feed.after] at h
      refine ⟨rfl, ?_⟩
      split at h
      · cases h
      · obtain ⟨_, rfl⟩ := Prod.mk.inj h
        cases hrunning
      · obtain ⟨_, rfl⟩ := Prod.mk.inj h
        exact ⟨rfl, rfl⟩
      · obtain ⟨_, rfl⟩ := Prod.mk.inj h
        exact ⟨rfl, rfl⟩

/-- No tick is lost: while the pump runs, it is due after as many intervals as there were ticks. -/
theorem run_dueTime (inputs : List FeedInput) {feed feed' : Feed}
    (h : feed.run platform config inputs = (.ok (), feed')) (hrunning : feed'.running = true) :
    feed.running = true ∧ feed'.td = feed.td ∧
      feed'.dueTime = feed.dueTime + inputs.countP FeedInput.isTick * feed.td := by
  induction inputs generalizing feed with
  | nil =>
    obtain ⟨_, rfl⟩ := Prod.mk.inj h
    exact ⟨hrunning, rfl, by simp⟩
  | cons input inputs ih =>
    rw [Feed.run] at h
    rcases Faults.forEach_cons_cases (Feed.step platform config) input inputs feed with
      ⟨e, _, heq⟩ | ⟨hok, heq⟩
    · rw [heq] at h
      cases h
    · rw [heq] at h
      obtain ⟨hmid, htd, hdue⟩ := ih h
      obtain ⟨hfeed, htd', hdue'⟩ := step_dueTime input (Prod.ext hok rfl) hmid
      refine ⟨hfeed, htd.trans htd', ?_⟩
      rw [hdue, hdue', htd', List.countP_cons]
      cases input.isTick with
      | false => simp
      | true =>
        rw [if_pos rfl, if_pos rfl, Int.natCast_add, Int.add_mul, Int.natCast_one, Int.one_mul]
        omega

/-! ## The first due time -/

theorem getNextInterval_ok {now next referenceTod interval : Int} {fuel : Nat}
    (href : platform.durationFromString config.timeOffsetConstant = some referenceTod)
    (hint : stoi config.interval = some interval)
    (h : getNextInterval platform config now fuel = some (.ok next)) :
    referenceTod + seconds interval ≤ timeOfDay now ∧
      nextBin (onDateOf now referenceTod) interval now = .ok next := by
  unfold getNextInterval at h
  rw [href, hint] at h
  dsimp only at h
  obtain ⟨reference, hstep, hnext⟩ := Option.map_eq_some_iff.mp h
  rcases Int.lt_or_le (timeOfDay now) (referenceTod + seconds interval) with hguard | hpassed
  · rw [stepBack_of_guard hguard] at hstep
    cases hstep
  · cases fuel with
    | zero => cases hstep
    | succ fuel =>
      rw [stepBack_of_not_guard hpassed] at hstep
      cases hstep
      exact ⟨hpassed, hnext⟩

theorem startTimer_ok {now referenceTod interval : Int} {fuel : Nat} {p : State} {feed : Feed}
    (href : platform.durationFromString config.timeOffsetConstant = some referenceTod)
    (hint : stoi config.interval = some interval) (hpos : 0 < interval)
    (h : startTimer platform config now fuel p = some (.ok feed)) :
    referenceTod + seconds interval ≤ timeOfDay now ∧ ∃ next,
      nextBin (onDateOf now referenceTod) interval now = .ok next ∧
        feed = { state := p, dueTime := toUnixEpoch (some next), td := interval } := by
  have hunsigned := stoul_of_positiveInt ((positiveInt_iff config.interval).mpr
    ⟨interval, hint, hpos⟩)
  rw [hint] at hunsigned
  obtain ⟨td, htd, rfl⟩ := Option.map_eq_some_iff.mp hunsigned
  obtain ⟨r, hr, hfeed⟩ := Option.map_eq_some_iff.mp h
  rw [htd] at hfeed
  cases r with
  | error e => cases hfeed
  | ok next =>
    obtain ⟨hpassed, hnext⟩ := getNextInterval_ok href hint hr
    exact ⟨hpassed, next, hnext, (Except.ok.inj hfeed).symm⟩

/-- The reference of the day of `now`, in seconds since the epoch. -/
def referenceSecond (now referenceTod : Int) : Int := onDateOf now referenceTod / ticksPerSecond

/-- The timer is first due at the end of a bin, no later than a day after the reference if bins
fill days. -/
theorem startTimer_bin {now referenceTod interval : Int} {fuel : Nat} {p : State} {feed : Feed}
    (href : platform.durationFromString config.timeOffsetConstant = some referenceTod)
    (hint : stoi config.interval = some interval)
    (htod : 0 ≤ referenceTod) (hpos : 0 < interval)
    (hnow : 0 ≤ now ∧ now + seconds interval < seconds (2 ^ 31))
    (h : startTimer platform config now fuel p = some (.ok feed)) :
    feed.td = interval ∧ ∃ bins : Int, 0 < bins ∧ bins * interval < 86400 + interval ∧
      feed.dueTime = referenceSecond now referenceTod + bins * interval := by
  obtain ⟨hpassed, next, hnext, rfl⟩ := startTimer_ok href hint hpos h
  have hday : timeOfDay now < ticksPerDay := Int.emod_lt_of_pos now (by decide)
  have hpositive : 0 < seconds interval := Int.mul_pos hpos (by decide)
  have hoffset : now - onDateOf now referenceTod = timeOfDay now - referenceTod := by
    unfold onDateOf
    omega
  obtain ⟨hlt, hle, bins, hbins⟩ := nextBin_bounds hpos (by omega) (by omega) hnext
  have hnextSeconds : next / ticksPerSecond = referenceSecond now referenceTod + bins * interval := by
    have heq : next = onDateOf now referenceTod + bins * interval * ticksPerSecond := by
      unfold seconds at hbins
      omega
    rw [heq, referenceSecond]
    exact Int.add_mul_ediv_right _ _ (by decide)
  have hdue : toUnixEpoch (some next) = next / ticksPerSecond := by
    change totalSeconds (next - 0) = _
    unfold seconds ticksPerSecond at *
    rw [Int.sub_zero, totalSeconds, ticksPerSecond, Int.tdiv_eq_ediv_of_nonneg (by omega), toLong]
    exact Int.bmod_eq_of_le (by omega) (by omega)
  have hbinsPos : 0 < bins * interval := by
    unfold seconds ticksPerSecond at *
    omega
  have hbinsDay : bins * interval < 86400 + interval := by
    unfold seconds ticksPerDay ticksPerSecond at *
    omega
  exact ⟨rfl, bins, Int.pos_of_mul_pos_left hbinsPos hpos, hbinsDay, hdue.trans hnextSeconds⟩

/-- The ticks stay on the bins of the first reference. They meet the time of day of the reference on
all later days exactly where the interval divides a day. -/
theorem timer_schedule {now referenceTod interval : Int} {fuel : Nat} {p : State} {feed : Feed}
    (href : platform.durationFromString config.timeOffsetConstant = some referenceTod)
    (hint : stoi config.interval = some interval)
    (htod : 0 ≤ referenceTod) (hpos : 0 < interval)
    (hnow : 0 ≤ now ∧ now + seconds interval < seconds (2 ^ 31))
    (h : startTimer platform config now fuel p = some (.ok feed)) :
    ∃ bins : Int, 0 < bins ∧
      (∀ inputs feed', feed.run platform config inputs = (.ok (), feed') → feed'.running = true →
        feed'.dueTime = referenceSecond now referenceTod +
          (bins + inputs.countP FeedInput.isTick) * interval) ∧
      ((∀ day : Nat, 0 < day → ∃ n : Nat, referenceSecond now referenceTod +
          (bins + n) * interval = referenceSecond now referenceTod + day * 86400) ↔
        interval ∣ 86400) := by
  obtain ⟨htd, bins, hbins, hday, hdue⟩ := startTimer_bin href hint htod hpos hnow h
  refine ⟨bins, hbins, ?_, ?_, ?_⟩
  · intro inputs feed' hrun hrunning
    obtain ⟨_, _, hdue'⟩ := run_dueTime inputs hrun hrunning
    rw [hdue', hdue, htd, Int.add_mul, Int.add_assoc]
  · intro hdaily
    obtain ⟨n, hn⟩ := hdaily 1 Nat.one_pos
    exact ⟨bins + n, by rw [Int.mul_comm]; omega⟩
  · rintro ⟨q, hq⟩ day hpositive
    have hle : bins ≤ q := by
      have hlt : interval * bins < interval * (q + 1) := by
        rw [Int.mul_add, ← hq, Int.mul_one, Int.mul_comm]
        exact hday
      have := Int.lt_of_mul_lt_mul_left hlt (Int.le_of_lt hpos)
      omega
    have hq0 : 0 ≤ q := by omega
    have hmany : q ≤ day * q := le_mul_of_one_le_left hq0 (by omega)
    refine ⟨(day * q - bins).toNat, ?_⟩
    have hticks : bins + (day * q - bins) = day * q := by omega
    rw [Int.toNat_of_nonneg (by omega), hticks, hq, Int.mul_assoc, Int.mul_comm q interval]

/-- An interval of a minute, five seconds before eight in the evening. -/
theorem minute_schedule : ∃ bins : Int, 0 < bins ∧
    (∀ inputs feed', sampleFeed.run boostPlatform sampleConfig inputs = (.ok (), feed') →
      feed'.running = true → feed'.dueTime = referenceSecond 1336079995000000 0 +
        (bins + inputs.countP FeedInput.isTick) * 60) ∧
    ((∀ day : Nat, 0 < day → ∃ n : Nat, referenceSecond 1336079995000000 0 + (bins + n) * 60 =
      referenceSecond 1336079995000000 0 + day * 86400) ↔ (60 : Int) ∣ 86400) := by
  have hstart : startTimer boostPlatform sampleConfig 1336079995000000 1 sampleState =
      some (.ok sampleFeed) := by
    have hnext : getNextInterval boostPlatform sampleConfig 1336079995000000 1 =
        some (.ok 1336080000000000) := by decide
    have htd : stoul sampleConfig.interval = some 60 := by decide
    rw [startTimer, hnext, htd]
    rfl
  exact timer_schedule (by decide) (by decide) (by decide) (by decide) (by decide) hstart

end Psych
