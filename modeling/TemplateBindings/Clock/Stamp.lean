import TemplateBindings.Clock.Calendar
import TemplateBindings.Clock.Double
import TemplateBindings.Text.Integer

/-!
# Time stamps

A moment of universal time as text, down to the millisecond: the year has four digits and every
other field two or three, so that the order of stamps as texts is the order of the moments. Moments
come from two sides. The fields of a clock in some zone are taken exactly. The modification time of
a file goes through double precision, and may lose a millisecond where its numbers lie too far
apart.
-/

namespace TemplateBindings
namespace Clock

/-! ### Errors -/

/-- **Why a moment has no stamp**. -/
inductive ClockError where
  /-- The fields of the clock lead out of the years that have four digits. -/
  | dateOverflow
  /-- The year of a count of seconds does not have four digits; the year is given as it is counted.
  -/
  | yearOutOfRange (year : Int)
  /-- The year of a count of seconds is too large to be counted. -/
  | yearTooLarge
  /-- The count of seconds is too large. -/
  | secondsTooLarge
  /-- The count of seconds is too large for double precision. -/
  | quotientTooLarge
  deriving DecidableEq, Repr

/-- The wording of an error. -/
def ClockError.message : ClockError → Text
  | .dateOverflow => "date value out of range".toList
  | .yearOutOfRange year => "year ".toList ++ Text.ofInt year ++ " is out of range".toList
  | .yearTooLarge => "[Errno 75] Value too large for defined data type".toList
  | .secondsTooLarge => "timestamp out of range for platform time_t".toList
  | .quotientTooLarge => "integer division result too large for a float".toList

/-- The kind of error that a report names. -/
def ClockError.kind : ClockError → Text
  | .dateOverflow => "OverflowError".toList
  | .yearOutOfRange _ => "ValueError".toList
  | .yearTooLarge => "OSError".toList
  | .secondsTooLarge => "OverflowError".toList
  | .quotientTooLarge => "OverflowError".toList

/-! ### Stamps -/

/-- The seconds of a day. -/
def secondsPerDay : Int := 86400

/-- The stamp of a moment, without regard to how many digits the year has: the seconds since the
first of January 1970, and the millisecond. -/
def renderStamp (seconds : Int) (millisecond : Nat) : Text :=
  let date := Calendar.dateOf (seconds / secondsPerDay)
  let second := (seconds % secondsPerDay).toNat
  Text.ofNatPadded 4 date.year.toNat ++ ['-'] ++ Text.ofNatPadded 2 date.month ++ ['-']
    ++ Text.ofNatPadded 2 date.day ++ ['T'] ++ Text.ofNatPadded 2 (second / 3600) ++ [':']
    ++ Text.ofNatPadded 2 (second / 60 % 60) ++ [':'] ++ Text.ofNatPadded 2 (second % 60) ++ ['.']
    ++ Text.ofNatPadded 3 millisecond ++ ['Z']

/-- The stamp of a moment by the milliseconds since the first of January 1970. -/
def stampOfMilliseconds (milliseconds : Int) : Text :=
  renderStamp (milliseconds / 1000) (milliseconds % 1000).toNat

/-- Whether a year has a stamp. -/
def hasStamp (year : Int) : Bool := 1 ≤ year && year ≤ 9999

/-! ### Clocks in a zone -/

/-- **How far a zone is ahead** of universal time. -/
structure Offset where
  /-- The microseconds; a zone that is behind has them negative. -/
  microseconds : Int
  deriving DecidableEq, Repr

/-- Most zones are whole seconds ahead. -/
instance : Coe Int Offset := ⟨fun seconds => ⟨seconds * 1000000⟩⟩

/-- **What a clock shows** in a zone. -/
structure Reading where
  /-- The date. -/
  date : Calendar.Date
  /-- The hour. -/
  hour : Nat
  /-- The minute. -/
  minute : Nat
  /-- The second. -/
  second : Nat
  /-- The microsecond. -/
  microsecond : Nat
  /-- The zone. -/
  offset : Offset
  deriving DecidableEq, Repr

/-- The microseconds of universal time since the first of January 1970. -/
def Reading.microseconds (r : Reading) : Int :=
  (Calendar.dayOf r.date * secondsPerDay + (r.hour * 3600 + r.minute * 60 + r.second : Nat)) * 1000000
    + r.microsecond - r.offset.microseconds

/-- The whole milliseconds of universal time. -/
def Reading.milliseconds (r : Reading) : Int := r.microseconds / 1000

/-- **The stamp of a clock's reading**. -/
def Reading.stamp (r : Reading) : Except ClockError Text :=
  if hasStamp (Calendar.dateOf (r.milliseconds / 1000 / secondsPerDay)).year then
    .ok (stampOfMilliseconds r.milliseconds)
  else .error .dateOverflow

/-! ### Modification times -/

/-- The whole seconds and the microseconds of a number of seconds in double precision. The part
behind the point is taken to microseconds in double precision too; a carry and a negative part are
evened out. -/
def splitSeconds (x : Rat) : Int × Int :=
  let whole := Rounding.towardZero x
  let micros := Rounding.toInteger (Rounding.toDouble ((x - whole) * 1000000))
  if 1000000 ≤ micros then (whole + 1, micros - 1000000)
  else if micros < 0 then (whole - 1, micros + 1000000)
  else (whole, micros)

/-- The bound of the counts of seconds, in size. -/
def secondsBound : Int := 9223372036854775808

/-- The bound of the years that are counted, in size. Years are counted from 1900, and those that
this brings over the bound start again from the other end. -/
def yearBound : Int := 2147483648

/-- The stamp of a number of seconds in double precision. -/
def stampOfSeconds (x : Rat) : Except ClockError Text :=
  let (seconds, micros) := splitSeconds x
  if seconds < -secondsBound || secondsBound ≤ seconds then .error .secondsTooLarge
  else
    let year := (Calendar.dateOf (seconds / secondsPerDay)).year
    if year - 1900 < -yearBound || yearBound ≤ year - 1900 then .error .yearTooLarge
    else if hasStamp year then .ok (renderStamp seconds (micros / 1000).toNat)
    else .error (.yearOutOfRange (year.bmod (2 * yearBound.toNat)))

/-- **The stamp of a modification time** in nanoseconds: its milliseconds, as seconds in double
precision. -/
def stampOfNanoseconds (nanoseconds : Int) : Except ClockError Text :=
  let x := Rounding.toDouble ((nanoseconds / 1000000 : Int) / 1000)
  if x ≤ -Rounding.tooLarge || Rounding.tooLarge ≤ x then .error .quotientTooLarge
  else stampOfSeconds x

end Clock
end TemplateBindings
