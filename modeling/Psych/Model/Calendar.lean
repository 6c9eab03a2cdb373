import Psych.Model.Platform

/-!
# The Gregorian calendar

Days since the Unix epoch and calendar dates, `_gmtime32_s`, and a `Platform` whose time
functions follow Boost's documentation on dates of the form `YYYY-MM-DD HH:MM:SS`.
-/

namespace Psych

/-- `struct tm`: the year since 1900, the month from 0. -/
structure Tm where
  sec : Int
  min : Int
  hour : Int
  mday : Int
  mon : Int
  year : Int
deriving DecidableEq

/-- The year, month and day of a day number. The year starts in March, so that the leap
day is its last. -/
def civilFromDays (days : Int) : Int × Int × Int :=
  let z := days + 719468
  let era := z / 146097
  let doe := z - era * 146097
  let yoe := (doe - doe / 1460 + doe / 36524 - doe / 146096) / 365
  let doy := doe - (365 * yoe + yoe / 4 - yoe / 100)
  let mp := (5 * doy + 2) / 153
  let month := if mp < 10 then mp + 3 else mp - 9
  (yoe + era * 400 + (if month ≤ 2 then 1 else 0), month, doy - (153 * mp + 2) / 5 + 1)

/-- The day number of a date. -/
def daysFromCivil (year month day : Int) : Int :=
  let y := if month ≤ 2 then year - 1 else year
  let era := y / 400
  let yoe := y - era * 400
  let doy := (153 * (if 2 < month then month - 3 else month + 9) + 2) / 5 + day - 1
  era * 146097 + (yoe * 365 + yoe / 4 - yoe / 100 + doy) - 719468

/-- `_gmtime32_s`: outside `0 .. 2^31 - 1` it fails and sets every field to -1. -/
def gmtime32 (time : Int) : Tm :=
  if 0 ≤ time ∧ time ≤ longMax then
    let (year, month, day) := civilFromDays (time / 86400)
    let tod := time % 86400
    { sec := tod % 60, min := tod / 60 % 60, hour := tod / 3600, mday := day, mon := month - 1,
      year := year - 1900 }
  else { sec := -1, min := -1, hour := -1, mday := -1, mon := -1, year := -1 }

/-! ## A platform -/

def isLeapYear (year : Nat) : Bool := (year % 4 == 0 && year % 100 != 0) || year % 400 == 0

def endOfMonthDay (year month : Nat) : Nat :=
  match month with
  | 2 => if isLeapYear year then 29 else 28
  | 4 | 6 | 9 | 11 => 30
  | _ => 31

/-- `boost::gregorian::date`: years 1400 to 9999. -/
def boostDate (year month day : Nat) : Option Int :=
  if 1400 ≤ year ∧ year ≤ 9999 ∧ 1 ≤ month ∧ month ≤ 12 ∧ 1 ≤ day ∧ day ≤ endOfMonthDay year month
  then some (daysFromCivil year month day) else none

/-- The number in the characters from `pos` to `pos + len`. -/
def digitsAt (s : Text) (pos len : Nat) : Nat := readDigits 0 ((s.drop pos).take len)

/-- `time_from_string` on `YYYY-MM-DD HH:MM:SS`; every other text throws. -/
def boostTimeFromString (s : Text) : Option PTime :=
  if s.length = 19 ∧
      s.map (fun c => if c.isDigit then '0' else c) = "0000-00-00 00:00:00".toList then
    (boostDate (digitsAt s 0 4) (digitsAt s 5 2) (digitsAt s 8 2)).map fun days =>
      some (days * ticksPerDay +
        (digitsAt s 11 2 * 3600 + digitsAt s 14 2 * 60 + digitsAt s 17 2) * ticksPerSecond)
  else none

/-- `duration_from_string` on `HH:MM:SS`; every other text throws. -/
def boostDurationFromString (s : Text) : Option Int :=
  if s.map (fun c => if c.isDigit then '0' else c) = "00:00:00".toList then
    some ((digitsAt s 0 2 * 3600 + digitsAt s 3 2 * 60 + digitsAt s 6 2) * ticksPerSecond)
  else none

/-- A platform with Boost's calendar, a `reserve` that allocates exactly, and an
extraction that knows the decimal integers. -/
def boostPlatform : Platform where
  timeFromString := boostTimeFromString
  durationFromString := boostDurationFromString
  date := boostDate
  printable t := decide (daysFromCivil 1400 1 1 ≤ t / ticksPerDay ∧
    t / ticksPerDay ≤ daysFromCivil 9999 12 31)
  extract text f :=
    match readInteger text with
    | (n, true) => .real n
    | (_, false) => f
  uninitialised _ _ := .real 0
  reserve _ n := n
  logInfo := true
  vlog4 := false

example : boostTimeFromString "2012-05-03 21:19:00".toList = some (some 1336079940000000) := by
  decide

example : gmtime32 1336079940 =
    { sec := 0, min := 19, hour := 21, mday := 3, mon := 4, year := 112 } := by decide

end Psych
