import TemplateBindings.Clock.Calendar
import TemplateBindings.Settings.Value
import TemplateBindings.Toml.Lexeme

/-!
# Numbers, dates and times of TOML

Integers are read to their value. Of other numbers, and of dates and times, only the end is found,
and that the date exists: no setting takes one. A date or time is tried first, because it starts
like a number.
-/

namespace TemplateBindings
namespace Toml

open Settings

/-! ### Digits -/

/-- Digits, without the single underscores between them, and what follows them. -/
def digitRun (isDigit : Char → Bool) : Text → Text × Text
  | [] => ([], [])
  | '_' :: d :: rest =>
    if isDigit d then
      let run := digitRun isDigit rest
      (d :: run.1, run.2)
    else ([], '_' :: d :: rest)
  | c :: rest =>
    if isDigit c then
      let run := digitRun isDigit rest
      (c :: run.1, run.2)
    else ([], c :: rest)

/-- Digits of which there is at least one. -/
def digits? (isDigit : Char → Bool) (s : Text) : Option (Text × Text) :=
  match s with
  | c :: _ => if isDigit c then some (digitRun isDigit s) else none
  | [] => none

/-- The number of two digits between bounds, and what follows it. -/
def twoDigits? (low high : Nat) (s : Text) : Option (Nat × Text) :=
  match s with
  | a :: b :: rest =>
    let n := Text.decimalValue [a, b]
    if Text.isAsciiDigit a && Text.isAsciiDigit b && low ≤ n && n ≤ high then some (n, rest)
    else none
  | _ => none

/-! ### Dates and times -/

/-- What follows the fraction of a second, if there is one. -/
def skipFraction (s : Text) : Text :=
  match s with
  | '.' :: d :: rest => if Text.isAsciiDigit d then rest.dropWhile Text.isAsciiDigit else s
  | _ => s

/-- What follows a time of the day. -/
def time? (s : Text) : Option Text := do
  let (_, rest) ← twoDigits? 0 23 s
  let rest ← Text.after? [':'] rest
  let (_, rest) ← twoDigits? 0 59 rest
  let rest ← Text.after? [':'] rest
  let (_, rest) ← twoDigits? 0 59 rest
  return skipFraction rest

/-- What follows a zone's hours and minutes. -/
def zone? (s : Text) : Option Text := do
  let (_, rest) ← twoDigits? 0 23 s
  let rest ← Text.after? [':'] rest
  let (_, rest) ← twoDigits? 0 59 rest
  return rest

/-- What follows the zone of a moment, if there is one. -/
def skipZone (s : Text) : Text :=
  match s with
  | 'Z' :: rest => rest
  | 'z' :: rest => rest
  | '+' :: rest => (zone? rest).getD s
  | '-' :: rest => (zone? rest).getD s
  | _ => s

/-- What follows the time of a moment, from behind its date, if there is one. -/
def skipTime (s : Text) : Text :=
  match s with
  | c :: rest =>
    if c = 'T' || c = 't' || c = ' ' then
      match time? rest with
      | some rest => skipZone rest
      | none => s
    else s
  | [] => s

/-- A date with what may follow it of a moment: its year, month and day, and the text behind. -/
def date? (s : Text) : Option ((Nat × Nat × Nat) × Text) := do
  let (century, rest) ← twoDigits? 0 99 s
  let (year, rest) ← twoDigits? 0 99 rest
  let rest ← Text.after? ['-'] rest
  let (month, rest) ← twoDigits? 1 12 rest
  let rest ← Text.after? ['-'] rest
  let (day, rest) ← twoDigits? 1 31 rest
  return ((100 * century + year, month, day), skipTime rest)

/-! ### Numbers -/

/-- An integer that names its base, and what follows it. -/
def basedInteger? (s : Text) : Option (Nat × Text) :=
  let value (base : Nat) (digits : Text) : Nat :=
    (digits.filterMap Text.hexDigit?).foldl (fun n d => base * n + d) 0
  let read (base : Nat) (isDigit : Char → Bool) (rest : Text) : Option (Nat × Text) :=
    (digits? isDigit rest).map fun r => (value base r.1, r.2)
  match s with
  | '0' :: 'x' :: rest => read 16 (fun c => (Text.hexDigit? c).isSome) rest
  | '0' :: 'b' :: rest => read 2 (fun c => c == '0' || c == '1') rest
  | '0' :: 'o' :: rest => read 8 (fun c => '0' ≤ c && c ≤ '7') rest
  | _ => none

/-- The sign at the front of a text: whether it is a minus sign, and what follows it. -/
def skipSign (s : Text) : Bool × Text :=
  match s with
  | '-' :: rest => (true, rest)
  | '+' :: rest => (false, rest)
  | _ => (false, s)

/-- The digits of an integer in decimal: a zero, or digits that do not start with one. -/
def decimalDigits? (s : Text) : Option (Text × Text) :=
  match s with
  | '0' :: rest => some (['0'], rest)
  | _ => digits? Text.isAsciiDigit s

/-- What follows a fraction, and an exponent behind it, if there is either. -/
def skipFloatPart (s : Text) : Text :=
  let exponent (s : Text) : Text :=
    match s with
    | c :: rest =>
      if c = 'e' || c = 'E' then
        match digits? Text.isAsciiDigit (skipSign rest).2 with
        | some (_, rest) => rest
        | none => s
      else s
    | [] => s
  match s with
  | '.' :: rest =>
    match digits? Text.isAsciiDigit rest with
    | some (_, rest) => exponent rest
    | none => s
  | _ => exponent s

/-- What follows the word for a number that is not finite. -/
def notFinite? (s : Text) : Option Text :=
  let unsigned := (skipSign s).2
  (Text.after? "inf".toList unsigned).orElse fun _ => Text.after? "nan".toList unsigned

/-- **A number, a date or a time**. -/
def readScalar (s : Text) : Reading Value :=
  match date? s with
  | some ((year, month, day), rest) =>
    if Calendar.isDate year month day then .ok (.other, rest) else malformed
  | none =>
    match time? s with
    | some rest => .ok (.other, rest)
    | none =>
      match basedInteger? s with
      | some (n, rest) => .ok (.integer n, rest)
      | none =>
        match decimalDigits? (skipSign s).2 with
        | some (digits, rest) =>
          let behind := skipFloatPart rest
          if behind.length < rest.length then .ok (.other, behind)
          else if Text.maxDigits < digits.length then .error (.tooManyDigits digits.length)
          else
            let n : Int := Text.decimalValue digits
            .ok (.integer (if (skipSign s).1 then -n else n), rest)
        | none =>
          match notFinite? s with
          | some rest => .ok (.other, rest)
          | none => malformed

end Toml
end TemplateBindings
