import Psych.Text.Strings
import Mathlib.Data.Rat.Defs

/-!
# What the program takes from outside

Times, cell values and faults, and the functions of Boost and of the C++ library that
are not in the repository (`Platform`): the theorems hold for all of them.
-/

namespace Psych

/-- How control leaves a function other than by returning. -/
inductive Fault where
  /-- `rfa::common::InvalidUsageException`. -/
  | invalidUsage
  /-- A `std::exception`. -/
  | exception
  /-- Undefined behaviour: nothing is known of what the process does from here on. -/
  | undefined
deriving DecidableEq

/-! ## Times -/

/-- `boost::posix_time::ptime`, in microseconds since the Unix epoch; `none` is
`not_a_date_time`. -/
abbrev PTime := Option Int

def ticksPerSecond : Int := 1000000

def ticksPerDay : Int := 86400 * ticksPerSecond

/-- `total_seconds ()` of a duration, narrowed to a `long`. -/
def totalSeconds (ticks : Int) : Int := toLong (ticks.tdiv ticksPerSecond)

/-- The ticks of a time or duration that is `not_a_date_time`. -/
def notADateTimeTicks : Int := 2 ^ 63 - 1

/-- `(a - b).total_seconds ()`. -/
def secondsBetween (a b : PTime) : Int :=
  match a, b with
  | some a, some b => totalSeconds (a - b)
  | _, _ => totalSeconds notADateTimeTicks

/-- `to_unix_epoch` with a 32-bit result. -/
def toUnixEpoch (t : PTime) : Int := secondsBetween t (some 0)

/-! ## Values -/

/-- A cell of the table, read as a `double`. -/
inductive Value where
  | real (q : ℚ)
  | posInf
  | negInf
  | nan
deriving DecidableEq

/-! ## Parameters -/

structure Platform where
  /-- `boost::posix_time::time_from_string`; `none` where it throws. -/
  timeFromString : Text → Option PTime
  /-- `boost::posix_time::duration_from_string`, in ticks; `none` where it throws. -/
  durationFromString : Text → Option Int
  /-- `boost::gregorian::date (year, month, day)`, as days since the Unix epoch; `none`
  where it throws. -/
  date : Nat → Nat → Nat → Option Int
  /-- Whether `to_simple_string` renders a time: it throws outside Boost's calendar. -/
  printable : Int → Bool
  /-- `ss >> f` with the locale of the row parser: the value of `f` afterwards, from the
  text in `ss` and the value of `f` before. -/
  extract : Text → Value → Value
  /-- What an uninitialised `double f` holds, by row and column. -/
  uninitialised : Nat → Nat → Value
  /-- `capacity ()` after `reserve (n)`, from the capacity before and `n`. -/
  reserve : Nat → Nat → Nat
  /-- `LOG_IS_ON(INFO)`. -/
  logInfo : Bool
  /-- `VLOG_IS_ON(4)`. -/
  vlog4 : Bool

/-- `to_simple_string` returns: a special value is always rendered. -/
def Platform.prints (platform : Platform) (t : PTime) : Bool :=
  match t with
  | some t => platform.printable t
  | none => true

end Psych
