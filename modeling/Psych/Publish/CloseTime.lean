import Psych.Model.CalendarFacts
import Psych.Publish.FieldMap

/-!
# The published date and time

The close time of a table goes through a signed 32-bit number of seconds since 1970 to
`_gmtime32_s`, whose result is not looked at. The fields of a message are those of the close time
while the seconds fit (`handed_dated_iff`), that is up to 19 January 2038.
-/

namespace Psych

/-- A date and time of Boost's calendar, which `time_from_string` returns. -/
structure BoostTime where
  year : Nat
  month : Nat
  day : Nat
  hour : Nat
  minute : Nat
  second : Nat
  microsecond : Nat
  years : 1400 ≤ year ∧ year ≤ 9999
  date : IsDate year month day
  time : hour < 24 ∧ minute < 60 ∧ second < 60
  fraction : microsecond < 1000000

/-- The seconds since the Unix epoch. -/
def BoostTime.seconds (moment : BoostTime) : Int :=
  daysFromCivil moment.year moment.month moment.day * 86400 +
    (moment.hour * 3600 + moment.minute * 60 + moment.second)

/-- The moment as a `ptime`. -/
def BoostTime.ticks (moment : BoostTime) : Int :=
  moment.seconds * ticksPerSecond + moment.microsecond

/-- TIMACT and ACTIV_DATE are the calendar fields of the moment. -/
structure Message.Dated (message : Message) (moment : BoostTime) : Prop where
  time : message.fields.lookup kRdmTimeOfUpdateId =
    some (.time moment.hour moment.minute moment.second 0)
  date : message.fields.lookup kRdmActiveDateId =
    some (.date moment.year moment.month moment.day)

/-! ## What `SendRefresh` sets -/

theorem lookup_commonFields (resource : Resource) (table : Table) (topic : Text)
    (fields : List (Int × FieldData)) :
    (commonFields resource table topic ++ fields).lookup kRdmTimeOfUpdateId =
        some (.time (gmtime32 (toUnixEpoch table.closeTime)).hour
          (gmtime32 (toUnixEpoch table.closeTime)).min
          (gmtime32 (toUnixEpoch table.closeTime)).sec 0) ∧
      (commonFields resource table topic ++ fields).lookup kRdmActiveDateId =
        some (activeDate (gmtime32 (toUnixEpoch table.closeTime))) := by
  simp [commonFields, List.lookup_cons, kRdmStockRicId, kRdmSourceFeedNameId, kRdmEngineVersionId,
    kRdmTimeOfUpdateId, kRdmActiveDateId]

/-- The seconds that `_gmtime32_s` gets. -/
def BoostTime.time32 (moment : BoostTime) : Int := toUnixEpoch (some moment.ticks)

theorem handed_dated {config : Config} {resource : Resource} {table : Table}
    {calls : Nat → RowCalls} {provider : Provider} {moment : BoostTime}
    (hclose : table.closeTime = some moment.ticks) {message : Message}
    (h : message ∈ (sendRefresh config resource table calls provider).2.handed) :
    message.Dated moment ↔
      (gmtime32 moment.time32).hour = moment.hour ∧ (gmtime32 moment.time32).min = moment.minute ∧
      (gmtime32 moment.time32).sec = moment.second ∧
      activeDate (gmtime32 moment.time32) =
        .date moment.year moment.month moment.day := by
  obtain ⟨row, _, topic, hfields⟩ := handed_fields h
  obtain ⟨htime, hdate⟩ := lookup_commonFields resource table topic
    (table.columns.zipIdx.filterMap (columnEntry resource row.2))
  rw [← hfields, hclose] at htime hdate
  constructor
  · rintro ⟨htime', hdate'⟩
    have heq := htime.symm.trans htime'
    simp only [Option.some.injEq, FieldData.time.injEq, and_true] at heq
    exact ⟨heq.1, heq.2.1, heq.2.2, Option.some.inj (hdate.symm.trans hdate')⟩
  · rintro ⟨hhour, hmin, hsec, hday⟩
    refine ⟨htime.trans ?_, hdate.trans (congrArg some hday)⟩
    rw [← hhour, ← hmin, ← hsec]
    rfl

/-! ## The conversion -/

theorem BoostTime.time32_of_fits {moment : BoostTime} (hlow : 0 ≤ moment.seconds)
    (hhigh : moment.seconds ≤ longMax) : moment.time32 = moment.seconds := by
  have hdiv : (moment.seconds * ticksPerSecond + moment.microsecond).tdiv ticksPerSecond =
      moment.seconds := by
    have hfraction := moment.fraction
    unfold ticksPerSecond
    rw [Int.tdiv_eq_ediv_of_nonneg (by omega)]
    omega
  unfold BoostTime.time32 toUnixEpoch secondsBetween totalSeconds
  dsimp only
  rw [sub_zero, BoostTime.ticks, hdiv]
  unfold longMax at hhigh
  exact Int.bmod_eq_of_le (by omega) (by omega)

/-- The seconds of a moment, taken apart. -/
theorem BoostTime.seconds_parts (moment : BoostTime) :
    moment.seconds / 86400 = daysFromCivil moment.year moment.month moment.day ∧
      moment.seconds % 86400 / 3600 = moment.hour ∧
      moment.seconds % 86400 / 60 % 60 = moment.minute ∧
      moment.seconds % 86400 % 60 = moment.second := by
  obtain ⟨hhour, hminute, hsecond⟩ := moment.time
  unfold BoostTime.seconds
  omega

/-- The dates `_gmtime32_s` yields need no narrowing. -/
theorem civilFromDays_narrow {days : Int} (hlow : 0 ≤ days) (hhigh : days ≤ 24855) :
    0 ≤ (civilFromDays days).1 ∧ (civilFromDays days).1 < 65536 ∧
      1 ≤ (civilFromDays days).2.1 ∧ (civilFromDays days).2.1 ≤ 12 ∧
      1 ≤ (civilFromDays days).2.2 ∧ (civilFromDays days).2.2 ≤ 31 := by
  obtain ⟨era, doe, hdoe, hdoe', rfl⟩ :
      ∃ era doe, 0 ≤ doe ∧ doe < 146097 ∧ days = era * 146097 + doe - 719468 :=
    ⟨(days + 719468) / 146097, (days + 719468) % 146097, by omega⟩
  obtain ⟨century, cycle, year, day, h⟩ := exists_eraDay hdoe hdoe'
  rw [civilFromDays_eraDay h]
  obtain ⟨hc, hq, hy, hd, _, _⟩ := h
  have hera : 4 ≤ era ∧ era ≤ 5 := by omega
  have hmonth : 0 ≤ (5 * day + 2) / 153 ∧ (5 * day + 2) / 153 ≤ 11 := by omega
  dsimp only
  refine ⟨?_, ?_, ?_, ?_, by omega, by omega⟩ <;> split_ifs <;> omega

/-- What is narrowed to the types of RFA is what `_gmtime32_s` yields. -/
theorem activeDate_gmtime32 {time : Int} (hlow : 0 ≤ time) (hhigh : time ≤ longMax) :
    activeDate (gmtime32 time) =
      .date (civilFromDays (time / 86400)).1 (civilFromDays (time / 86400)).2.1
        (civilFromDays (time / 86400)).2.2 := by
  unfold longMax at hhigh
  have hnarrow := @civilFromDays_narrow (time / 86400) (by omega) (by omega)
  unfold activeDate gmtime32
  rw [if_pos ⟨hlow, hhigh⟩]
  generalize civilFromDays (time / 86400) = date at hnarrow ⊢
  obtain ⟨year, month, day⟩ := date
  simp only [FieldData.date.injEq]
  dsimp only at hnarrow
  exact ⟨by omega, by omega, by omega⟩

/-- The date and time of every message are those of the close time exactly where its seconds since
1970 fit into 31 bits. -/
theorem handed_dated_iff {config : Config} {resource : Resource} {table : Table}
    {calls : Nat → RowCalls} {provider : Provider} {moment : BoostTime}
    (hclose : table.closeTime = some moment.ticks) {message : Message}
    (h : message ∈ (sendRefresh config resource table calls provider).2.handed) :
    message.Dated moment ↔ 0 ≤ moment.seconds ∧ moment.seconds ≤ longMax := by
  rw [handed_dated hclose h]
  obtain ⟨hdays, hhour, hminute, hsecond⟩ := moment.seconds_parts
  constructor
  · rintro ⟨hhour', hminute', hsecond', hdate⟩
    by_cases hfits : 0 ≤ moment.time32 ∧ moment.time32 ≤ longMax
    · rw [activeDate_gmtime32 hfits.1 hfits.2] at hdate
      unfold gmtime32 at hhour' hminute' hsecond'
      rw [if_pos hfits] at hhour' hminute' hsecond'
      dsimp only at hhour' hminute' hsecond'
      have hday := daysFromCivil_civilFromDays (moment.time32 / 86400)
      simp only [FieldData.date.injEq] at hdate
      rw [hdate.1, hdate.2.1, hdate.2.2] at hday
      have hsame : moment.time32 = moment.seconds := by omega
      exact hsame ▸ hfits
    · unfold gmtime32 at hhour'
      rw [if_neg hfits] at hhour'
      dsimp only at hhour'
      omega
  · rintro ⟨hlow, hhigh⟩
    have htime := BoostTime.time32_of_fits hlow hhigh
    have hdate := activeDate_gmtime32 hlow hhigh
    rw [hdays, civilFromDays_daysFromCivil moment.date] at hdate
    rw [htime, hdate]
    unfold gmtime32
    rw [if_pos ⟨hlow, hhigh⟩]
    exact ⟨hhour, hminute, hsecond, rfl⟩

/-! ## Two close times -/

def lastMoment : BoostTime where
  year := 2038
  month := 1
  day := 19
  hour := 3
  minute := 14
  second := 7
  microsecond := 0
  years := by decide
  date := ⟨by decide, by decide⟩
  time := by decide
  fraction := by decide

def nextMoment : BoostTime := { lastMoment with second := 8, time := by decide }

/-- A table with one row, closed at the moment. -/
def closedTable (moment : BoostTime) : Table where
  closeTime := some moment.ticks
  columns := ["Sector".toList, "Buzz".toList]
  rows := [("1679".toList, [.real 5])]

def closedMessages (moment : BoostTime) : List Message :=
  (sendRefresh sampleConfig sampleResource (closedTable moment) (fun _ => {})
    (.create 1 [sampleResource])).2.handed

theorem closedMessages_ne_nil (moment : BoostTime) : closedMessages moment ≠ [] := by
  intro h
  cases h

/-- The last second that fits is published. -/
theorem last_moment_dated : ∃ message ∈ closedMessages lastMoment, message.Dated lastMoment := by
  obtain ⟨message, hmessage⟩ := List.exists_mem_of_ne_nil _ (closedMessages_ne_nil lastMoment)
  exact ⟨message, hmessage, (handed_dated_iff rfl hmessage).mpr (by decide)⟩

/-- The second after it is published as another time. -/
theorem next_moment_not_dated :
    ∃ message ∈ closedMessages nextMoment, ¬ message.Dated nextMoment := by
  obtain ⟨message, hmessage⟩ := List.exists_mem_of_ne_nil _ (closedMessages_ne_nil nextMoment)
  refine ⟨message, hmessage, fun h => ?_⟩
  exact absurd ((handed_dated rfl hmessage).mp h).1 (by decide)

end Psych
