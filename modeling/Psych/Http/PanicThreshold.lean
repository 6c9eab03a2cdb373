import Psych.Http.Scan

/-!
# The panic threshold

`panic_threshold` is a "clock offset sanity check, 0 disables". `OnHttpResponse` disables the check
for an empty text only, and computes the offset in a `long` of 32 bits.
-/

namespace Psych

/-- The seconds from the request to the file time. -/
def clockOffset (transfer : Transfer) (request : Int) : Int :=
  transfer.filetime - request.tdiv ticksPerSecond

/-- The check as it is documented: a response is rejected where the threshold is positive and the
offset reaches it, and the offset is computed without overflow. -/
structure ChecksClock (config : Config) (transfer : Transfer) (request : Int) (s : HttpState) :
    Prop where
  rejects : (storeFiletime config transfer s).1 = false ↔
    0 < atol config.panicThreshold ∧
      atol config.panicThreshold ≤ (clockOffset transfer request).natAbs
  seconds : toUnixEpoch s.connection.requestPtime = request.tdiv ticksPerSecond
  difference : httpOffset transfer s.connection = clockOffset transfer request
  absolute : config.panicThreshold ≠ [] →
    labs (httpOffset transfer s.connection) = (clockOffset transfer request).natAbs

/-! ## Machine integers -/

theorem toLong_eq_self_iff {x : Int} : toLong x = x ↔ longMin ≤ x ∧ x ≤ longMax := by
  unfold toLong longMin longMax
  rw [Int.bmod_def]
  split <;> omega

/-- `labs` is the absolute value but for the smallest `long`. -/
theorem labs_eq_natAbs_iff {x : Int} (h : longMin ≤ x ∧ x ≤ longMax) :
    labs x = x.natAbs ↔ x ≠ longMin := by
  unfold labs
  rw [toLong_eq_self_iff]
  unfold longMin longMax at *
  omega

/-! ## The check -/

theorem storeFiletime_rejects {transfer : Transfer} (hknown : transfer.filetime ≠ -1)
    (config : Config) (s : HttpState) :
    (storeFiletime config transfer s).1 = false ↔ config.panicThreshold ≠ [] ∧
      atol config.panicThreshold ≤ labs (httpOffset transfer s.connection) := by
  unfold storeFiletime
  rw [if_neg hknown]
  dsimp only
  have hpanics : panics config transfer (s.set .httpClockDrift
      (httpOffset transfer s.connection)).connection = true ↔ config.panicThreshold ≠ [] ∧
        atol config.panicThreshold ≤ labs (httpOffset transfer s.connection) := by
    change panics config transfer s.connection = true ↔ _
    simp [panics]
  rw [← hpanics]
  split <;> simp_all

variable {config : Config} {transfer : Transfer} {request : Int} {s : HttpState}

theorem toUnixEpoch_request (hrequest : s.connection.requestPtime = some request) :
    toUnixEpoch s.connection.requestPtime = toLong (request.tdiv ticksPerSecond) := by
  rw [hrequest]
  unfold toUnixEpoch secondsBetween totalSeconds
  dsimp only
  rw [sub_zero]

/-- The check is the documented one exactly where the threshold is empty or positive and the
seconds of the request, the offset and its absolute value fit. -/
theorem checks_clock_iff (hknown : transfer.filetime ≠ -1)
    (hrequest : s.connection.requestPtime = some request) :
    ChecksClock config transfer request s ↔
      (config.panicThreshold = [] ∨ 0 < atol config.panicThreshold) ∧
      (longMin ≤ request.tdiv ticksPerSecond ∧ request.tdiv ticksPerSecond ≤ longMax) ∧
      (longMin ≤ clockOffset transfer request ∧ clockOffset transfer request ≤ longMax) ∧
      (config.panicThreshold = [] ∨ clockOffset transfer request ≠ longMin) := by
  have hepoch := toUnixEpoch_request hrequest
  have hoffset : toUnixEpoch s.connection.requestPtime = request.tdiv ticksPerSecond →
      httpOffset transfer s.connection = toLong (clockOffset transfer request) := fun h =>
    congrArg (fun seconds => toLong (transfer.filetime - seconds)) h
  constructor
  · intro h
    have hseconds := toLong_eq_self_iff.mp (hepoch.symm.trans h.seconds)
    have hfits := toLong_eq_self_iff.mp ((hoffset h.seconds).symm.trans h.difference)
    refine ⟨?_, hseconds, hfits, ?_⟩
    · by_contra hno
      rw [not_or] at hno
      have hrejects := (storeFiletime_rejects hknown config s).mpr ⟨hno.1, by
        rw [h.absolute hno.1]
        omega⟩
      exact hno.2 (h.rejects.mp hrejects).1
    · by_cases hempty : config.panicThreshold = []
      · exact Or.inl hempty
      · have habs := h.absolute hempty
        rw [h.difference] at habs
        exact Or.inr ((labs_eq_natAbs_iff hfits).mp habs)
  · rintro ⟨hthreshold, hseconds, hfits, habs⟩
    have hsame : toUnixEpoch s.connection.requestPtime = request.tdiv ticksPerSecond :=
      hepoch.trans (toLong_eq_self_iff.mpr hseconds)
    have hdifference : httpOffset transfer s.connection = clockOffset transfer request :=
      (hoffset hsame).trans (toLong_eq_self_iff.mpr hfits)
    have habsolute : config.panicThreshold ≠ [] →
        labs (httpOffset transfer s.connection) = (clockOffset transfer request).natAbs :=
      fun hne => by
        rw [hdifference]
        exact (labs_eq_natAbs_iff hfits).mpr (habs.resolve_left hne)
    refine ⟨?_, hsame, hdifference, habsolute⟩
    rw [storeFiletime_rejects hknown]
    by_cases hempty : config.panicThreshold = []
    · rw [hempty]
      exact iff_of_false (fun h => h.1 rfl) fun h => absurd h.1 (by decide)
    · rw [habsolute hempty]
      exact and_congr_left fun _ => iff_of_true hempty (hthreshold.resolve_left hempty)

/-- The state of the sample response before its file time is looked at. -/
def sampleClock : HttpState where
  connection := sampleConnection sampleResource
  stats _ := 0
  table := {}

/-- With a threshold of an hour the check of the sample response is the documented one. -/
theorem sample_checks_clock :
    ChecksClock { sampleConfig with panicThreshold := "3600".toList } sampleTransfer
      1336080000000000 sampleClock :=
  (checks_clock_iff (by decide) rfl).mpr (by decide)

/-- A threshold of 0 rejects the sample response. -/
theorem zero_rejects :
    ¬ ChecksClock { sampleConfig with panicThreshold := "0".toList } sampleTransfer
      1336080000000000 sampleClock := by
  intro h
  exact absurd (h.rejects.mp (by decide)).1 (by decide)

end Psych
