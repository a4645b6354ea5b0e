/-!
# The calendar

Days and dates of the Gregorian calendar, continued in both directions. Days are counted from the
first of January 1970. A year that starts in March has its leap day at the end, and four hundred
such years have always the same length, so both directions are a few divisions.
-/

namespace TemplateBindings
namespace Calendar

/-- **A date**. -/
structure Date where
  /-- The year, zero and below before the first year. -/
  year : Int
  /-- The month, from one. -/
  month : Nat
  /-- The day of the month, from one. -/
  day : Nat
  deriving DecidableEq, Repr

/-- Whether a year has a leap day. -/
def isLeapYear (year : Int) : Bool :=
  year % 4 == 0 && (year % 100 != 0 || year % 400 == 0)

/-- The number of days in a month. -/
def daysInMonth (year : Int) (month : Nat) : Nat :=
  if month = 2 then (if isLeapYear year then 29 else 28)
  else if month = 4 || month = 6 || month = 9 || month = 11 then 30
  else 31

/-- The days of four hundred years. -/
def daysPerCycle : Int := 146097

/-- The days from the first of March of the year zero to the first of January 1970. -/
def epochOffset : Int := 719468

/-- **The day of a date**. -/
def dayOf (date : Date) : Int :=
  let month : Int := date.month
  let year := if month ≤ 2 then date.year - 1 else date.year
  let sinceMarch := if month ≤ 2 then month + 9 else month - 3
  let dayOfYear := (153 * sinceMarch + 2) / 5 + date.day - 1
  year * 365 + year / 4 - year / 100 + year / 400 + dayOfYear - epochOffset

/-- **The date of a day**. -/
def dateOf (day : Int) : Date :=
  let shifted := day + epochOffset
  let cycle := shifted / daysPerCycle
  let dayOfCycle := shifted % daysPerCycle
  let yearOfCycle :=
    (dayOfCycle - dayOfCycle / 1460 + dayOfCycle / 36524 - dayOfCycle / 146096) / 365
  let dayOfYear := dayOfCycle - (365 * yearOfCycle + yearOfCycle / 4 - yearOfCycle / 100)
  let sinceMarch := (5 * dayOfYear + 2) / 153
  let dayOfMonth := dayOfYear - (153 * sinceMarch + 2) / 5 + 1
  let month := if sinceMarch < 10 then sinceMarch + 3 else sinceMarch - 9
  let year := yearOfCycle + 400 * cycle
  ⟨if month ≤ 2 then year + 1 else year, month.toNat, dayOfMonth.toNat⟩

/-- Whether a year, a month and a day make a date of the years that have four digits. -/
def isDate (year month day : Nat) : Bool :=
  1 ≤ year && year ≤ 9999 && 1 ≤ month && month ≤ 12 && 1 ≤ day && day ≤ daysInMonth year month

end Calendar
end TemplateBindings
