import Psych.Model.Calendar
import Mathlib.Tactic.IntervalCases
import Mathlib.Tactic.Linarith

/-!
# Dates and day numbers

`daysFromCivil` and `civilFromDays` are inverse to each other on the dates of the calendar
(`civilFromDays_daysFromCivil`), and every day number has a date (`daysFromCivil_civilFromDays`).

Both count in eras of 400 years from the first of March. A day of an era is written here by its
century, its cycle of four years, its year in that and its day in the year (`EraDay`).
-/

namespace Psych

/-! ## Days of an era -/

/-- The day `doe` of an era. A year has 365 days, and one more where it ends with a leap day. -/
structure EraDay (century cycle year day doe : Int) : Prop where
  centuries : 0 ≤ century ∧ century ≤ 3
  cycles : 0 ≤ cycle ∧ cycle ≤ 24
  years : 0 ≤ year ∧ year ≤ 3
  days : 0 ≤ day ∧ day ≤ 365
  leap : day = 365 → year = 3 ∧ (cycle = 24 → century = 3)
  eq : doe = 36524 * century + 1461 * cycle + 365 * year + day

variable {century cycle year day doe : Int}

theorem exists_eraDay (hlow : 0 ≤ doe) (hhigh : doe < 146097) :
    ∃ century cycle year day, EraDay century cycle year day doe := by
  have hcentury : ∃ c, 0 ≤ c ∧ c ≤ 3 ∧ 0 ≤ doe - 36524 * c ∧ doe - 36524 * c ≤ 36524 ∧
      (doe - 36524 * c = 36524 → c = 3) := ⟨min 3 (doe / 36524), by omega⟩
  obtain ⟨c, hc0, hc3, hr0, hr, hlast⟩ := hcentury
  have hcycle : ∃ q, 0 ≤ q ∧ q ≤ 24 ∧ 0 ≤ doe - 36524 * c - 1461 * q ∧
      doe - 36524 * c - 1461 * q ≤ 1460 := ⟨(doe - 36524 * c) / 1461, by omega⟩
  obtain ⟨q, hq0, hq, hs0, hs⟩ := hcycle
  have hyear : ∃ y, 0 ≤ y ∧ y ≤ 3 ∧ 0 ≤ doe - 36524 * c - 1461 * q - 365 * y ∧
      doe - 36524 * c - 1461 * q - 365 * y ≤ 365 ∧
      (doe - 36524 * c - 1461 * q - 365 * y = 365 → y = 3) :=
    ⟨min 3 ((doe - 36524 * c - 1461 * q) / 365), by omega⟩
  obtain ⟨y, hy0, hy, ht0, ht, hleap⟩ := hyear
  exact ⟨c, q, y, doe - 36524 * c - 1461 * q - 365 * y, ⟨hc0, hc3⟩, ⟨hq0, hq⟩, ⟨hy0, hy⟩, ⟨ht0, ht⟩,
    fun h => ⟨hleap h, fun h' => hlast (by have := hleap h; omega)⟩, by omega⟩

/-- The day numbers of one era. -/
theorem EraDay.bounds (h : EraDay century cycle year day doe) : 0 ≤ doe ∧ doe < 146097 := by
  obtain ⟨hc, hq, hy, hd, hleap, rfl⟩ := h
  omega

/-- The leap days before a day, as far as they are not those of whole cycles. -/
theorem carry_bounds (hcentury : 0 ≤ century ∧ century ≤ 3) (hcycle : 0 ≤ cycle ∧ cycle ≤ 24)
    (hyear : 0 ≤ year ∧ year ≤ 3) (hday : 0 ≤ day ∧ day ≤ 365) (hleap : day = 365 → year = 3) :
    0 ≤ day - (24 * century + cycle + 365 * year + day) / 1460 ∧
      day - (24 * century + cycle + 365 * year + day) / 1460 ≤ 364 := by
  by_cases hcarry : 24 * century + cycle + 365 * year + day < 1460
  · have hzero : (24 * century + cycle + 365 * year + day) / 1460 = 0 := by omega
    rw [hzero]
    omega
  · have hone : (24 * century + cycle + 365 * year + day) / 1460 = 1 := by omega
    rw [hone]
    omega

/-- The year of a day. -/
theorem EraDay.yearOfEra (h : EraDay century cycle year day doe) :
    (doe - doe / 1460 + doe / 36524 - doe / 146096) / 365 = 100 * century + 4 * cycle + year := by
  obtain ⟨hc, hq, hy, hd, hleap, heq⟩ := h
  have hcenturies : doe / 36524 - doe / 146096 = century := by
    by_cases hlast : doe = 146096
    · rw [hlast]
      omega
    · have hrest : 1461 * cycle + 365 * year + day < 36524 := by
        by_contra hlong
        have hday : day = 365 := by omega
        obtain ⟨hyear, hcentury⟩ := hleap hday
        have hthree := hcentury (by omega)
        omega
      have hzero : doe / 146096 = 0 := by omega
      have hdiv : doe / 36524 = century := by omega
      rw [hzero, hdiv, sub_zero]
  have hcycles : doe / 1460 =
      25 * century + cycle + (24 * century + cycle + 365 * year + day) / 1460 := by
    omega
  have hextra := carry_bounds hc hq hy hd fun h => (hleap h).1
  have hsum : doe - doe / 1460 + doe / 36524 - doe / 146096 =
      365 * (100 * century + 4 * cycle + year) +
        (day - (24 * century + cycle + 365 * year + day) / 1460) := by
    linarith only [hcenturies, hcycles, heq]
  rw [hsum, Int.mul_add_ediv_left _ _ (by decide), Int.ediv_eq_zero_of_lt hextra.1 (by omega),
    add_zero]

/-- The day in the year. -/
theorem EraDay.dayOfYear (h : EraDay century cycle year day doe) :
    doe - (365 * (100 * century + 4 * cycle + year) + (100 * century + 4 * cycle + year) / 4 -
      (100 * century + 4 * cycle + year) / 100) = day := by
  obtain ⟨hc, hq, hy, hd, hleap, heq⟩ := h
  have hcycles : (100 * century + 4 * cycle + year) / 4 = 25 * century + cycle := by omega
  have hcenturies : (100 * century + 4 * cycle + year) / 100 = century := by omega
  rw [hcycles, hcenturies]
  omega

/-- The date of a day of an era. -/
theorem civilFromDays_eraDay (h : EraDay century cycle year day doe) (era : Int) :
    civilFromDays (era * 146097 + doe - 719468) =
      (100 * century + 4 * cycle + year + era * 400 +
          (if (if (5 * day + 2) / 153 < 10 then (5 * day + 2) / 153 + 3
            else (5 * day + 2) / 153 - 9) ≤ 2 then 1 else 0),
        if (5 * day + 2) / 153 < 10 then (5 * day + 2) / 153 + 3 else (5 * day + 2) / 153 - 9,
        day - (153 * ((5 * day + 2) / 153) + 2) / 5 + 1) := by
  obtain ⟨hlow, hhigh⟩ := h.bounds
  have hz : era * 146097 + doe - 719468 + 719468 = era * 146097 + doe := by omega
  have hera : (era * 146097 + doe) / 146097 = era := by omega
  have hdoe : era * 146097 + doe - era * 146097 = doe := by omega
  unfold civilFromDays
  simp only [hz, hera, hdoe, h.yearOfEra, h.dayOfYear]

/-! ## From a day number to its date and back -/

theorem daysFromCivil_civilFromDays (days : Int) :
    daysFromCivil (civilFromDays days).1 (civilFromDays days).2.1 (civilFromDays days).2.2 =
      days := by
  have hera : ∃ era doe, 0 ≤ doe ∧ doe < 146097 ∧ days = era * 146097 + doe - 719468 :=
    ⟨(days + 719468) / 146097, (days + 719468) % 146097, by omega⟩
  obtain ⟨era, doe, hlow, hhigh, rfl⟩ := hera
  obtain ⟨century, cycle, year, day, h⟩ := exists_eraDay hlow hhigh
  rw [civilFromDays_eraDay h]
  have hday := h.dayOfYear
  obtain ⟨hc, hq, hy, hd, _, _⟩ := h
  have hmonth : 0 ≤ (5 * day + 2) / 153 ∧ (5 * day + 2) / 153 ≤ 11 := by omega
  generalize (5 * day + 2) / 153 = mp at hmonth ⊢
  generalize hyoe : 100 * century + 4 * cycle + year = yoe at hday ⊢
  have hyear : 0 ≤ yoe ∧ yoe < 400 := by omega
  have hera : (yoe + era * 400) / 400 = era := by omega
  have hsub : yoe + era * 400 - era * 400 = yoe := by omega
  unfold daysFromCivil
  by_cases hmp : mp < 10
  · have h2 : ¬ mp + 3 ≤ 2 := by omega
    have h3 : 2 < mp + 3 := by omega
    simp only [hmp, h2, h3, if_true, if_false, add_zero, hera, hsub]
    omega
  · have h2 : mp - 9 ≤ 2 := by omega
    have h3 : ¬ 2 < mp - 9 := by omega
    simp only [hmp, h2, h3, if_true, if_false, add_sub_cancel_right, hera, hsub]
    omega

/-- The date of a day of Boost's calendar. -/
structure IsDate (year month day : Nat) : Prop where
  months : 1 ≤ month ∧ month ≤ 12
  days : 1 ≤ day ∧ day ≤ endOfMonthDay year month

theorem isLeapYear_iff (year : Nat) :
    isLeapYear year = true ↔ (year % 4 = 0 ∧ year % 100 ≠ 0) ∨ year % 400 = 0 := by
  simp [isLeapYear]

/-- The month of a year that starts in March, from 0. -/
def marchMonth (month : Nat) : Int := if 2 < (month : Int) then month - 3 else month + 9

theorem marchMonth_bounds {year month day : Nat} (h : IsDate year month day) :
    0 ≤ marchMonth month ∧ marchMonth month ≤ 11 ∧ (10 ≤ marchMonth month ↔ month ≤ 2) := by
  obtain ⟨⟨hlow, hhigh⟩, _⟩ := h
  unfold marchMonth
  split <;> omega

/-- The month is found from the day of the year, and only a leap day is the 366th. -/
theorem marchMonth_day {year month day : Nat} (h : IsDate year month day) {doy : Int}
    (hdoy : doy = (153 * marchMonth month + 2) / 5 + day - 1) :
    0 ≤ doy ∧ doy ≤ 365 ∧ (5 * doy + 2) / 153 = marchMonth month ∧
      (doy = 365 → month = 2 ∧ isLeapYear year = true) := by
  obtain ⟨⟨hlow, hhigh⟩, hday, hend⟩ := h
  by_cases hfebruary : month = 2
  · subst hfebruary
    simp only [endOfMonthDay, marchMonth] at hend hdoy ⊢
    split at hend
    · rename_i hleap
      exact ⟨by omega, by omega, by omega, fun _ => ⟨trivial, hleap⟩⟩
    · exact ⟨by omega, by omega, by omega, fun h => by omega⟩
  · interval_cases month <;> first | exact absurd rfl hfebruary | skip
    all_goals
      simp only [endOfMonthDay, marchMonth] at hend hdoy ⊢
      omega

/-- A date of the calendar is a day of an era. -/
theorem IsDate.eraDay {year month day : Nat} (h : IsDate year month day) :
    ∃ era century cycle yearOfCycle doy doe, EraDay century cycle yearOfCycle doy doe ∧
      daysFromCivil year month day = era * 146097 + doe - 719468 ∧
      doy = (153 * marchMonth month + 2) / 5 + day - 1 ∧
      (year : Int) = 100 * century + 4 * cycle + yearOfCycle + era * 400 +
        if month ≤ 2 then 1 else 0 := by
  obtain ⟨hmarch0, hmarch, hfirst⟩ := marchMonth_bounds h
  obtain ⟨hdoy0, hdoy, _, hleap⟩ := marchMonth_day h rfl
  rw [isLeapYear_iff] at hleap
  generalize hy : (if (month : Int) ≤ 2 then (year : Int) - 1 else year) = y
  have hyoe : 0 ≤ y - y / 400 * 400 ∧ y - y / 400 * 400 < 400 := by omega
  refine ⟨y / 400, (y - y / 400 * 400) / 100, (y - y / 400 * 400) % 100 / 4,
    (y - y / 400 * 400) % 4, _, _, ⟨by omega, by omega, by omega, ⟨hdoy0, hdoy⟩, fun h => ?_, rfl⟩,
    ?_, rfl, ?_⟩
  · obtain ⟨hmonth, hyear⟩ := hleap h
    have hnext : (year : Int) = y + 1 := by
      rw [if_pos (by omega)] at hy
      omega
    rcases hyear with ⟨hfour, hhundred⟩ | hera
    · exact ⟨by omega, fun hlast => by omega⟩
    · have hlast : y - y / 400 * 400 = 399 := by omega
      rw [hlast]
      decide
  · unfold daysFromCivil
    simp only [hy]
    change _ + (_ + ((153 * marchMonth month + 2) / 5 + day - 1)) - _ = _
    omega
  · split at hy
    · rw [if_pos (by omega)]
      omega
    · rw [if_neg (by omega)]
      omega

/-- The date of the day of a date. -/
theorem civilFromDays_daysFromCivil {year month day : Nat} (h : IsDate year month day) :
    civilFromDays (daysFromCivil year month day) = ((year : Int), (month : Int), (day : Int)) := by
  obtain ⟨era, century, cycle, yearOfCycle, doy, doe, hday, heq, hdoy, hyear⟩ := h.eraDay
  obtain ⟨_, _, hmarch, _⟩ := marchMonth_day h hdoy
  obtain ⟨_, _, hfirst⟩ := marchMonth_bounds h
  obtain ⟨hlow, hhigh⟩ := h.months
  have hmonth : (if marchMonth month < 10 then marchMonth month + 3 else marchMonth month - 9) =
      month := by
    unfold marchMonth
    split_ifs <;> omega
  rw [heq, civilFromDays_eraDay hday, hmarch, hmonth, hyear]
  simp only [Prod.mk.injEq, true_and]
  refine ⟨?_, by omega⟩
  norm_cast

end Psych
