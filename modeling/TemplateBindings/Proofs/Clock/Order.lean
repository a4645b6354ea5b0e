import TemplateBindings.Clock.Stamp
import TemplateBindings.Proofs.Clock.Calendar
import TemplateBindings.Proofs.Text.Numeral

/-!
# The order of stamps

What a stamp says is said here without writing one: its numerals are a date that the calendar has and
a time of day, and these are so many milliseconds from the first of January 1970
(`TemplateBindings.Clock.Shows`). Every moment of the years with four digits has such a stamp
(`TemplateBindings.Clock.shows_stampOfMilliseconds`). And since every numeral has its width, and stands
in front of those that matter less, stamps are ordered as texts just as their moments are
(`TemplateBindings.Clock.Shows.le_iff`).
-/

namespace TemplateBindings
namespace Clock

open Calendar (dayOf dateOf)
open Text (Numeral)

variable {s t : Text} {day m n : Int}

/-! ### What a stamp says -/

/-- **The date and the time of a moment**. -/
structure Fields where
  /-- The date. -/
  date : Calendar.Date
  /-- The hour. -/
  hour : Nat
  /-- The minute. -/
  minute : Nat
  /-- The second. -/
  second : Nat
  /-- The millisecond. -/
  millisecond : Nat

variable {f g : Fields}

/-- **A date and a time that there are**, in the years with four digits. -/
structure Fields.IsValid (f : Fields) : Prop where
  /-- The calendar has the date. -/
  date : f.date.IsValid
  /-- The year is not before the first. -/
  year_pos : 1 ≤ f.date.year
  /-- The year has four digits. -/
  year_le : f.date.year ≤ 9999
  /-- A day has so many hours. -/
  hour_lt : f.hour < 24
  /-- An hour has so many minutes. -/
  minute_lt : f.minute < 60
  /-- A minute has so many seconds. -/
  second_lt : f.second < 60
  /-- A second has so many milliseconds. -/
  millisecond_lt : f.millisecond < 1000

/-- The milliseconds up to the time of day, if the date has a number. -/
def Fields.millisecondsOn (f : Fields) (day : Int) : Int :=
  (((day * 24 + f.hour) * 60 + f.minute) * 60 + f.second) * 1000 + f.millisecond

/-- The milliseconds since the first of January 1970. -/
def Fields.milliseconds (f : Fields) : Int := f.millisecondsOn (dayOf f.date)

/-- **A text writes a date and a time**: numerals of four, two and three digits with a sign behind
each. -/
inductive Fields.Written (f : Fields) : Text → Prop
  /-- The numerals from the year to the millisecond. -/
  | numerals {year month day hour minute second millisecond : Text}
    (hyear : Numeral 4 f.date.year.toNat year) (hmonth : Numeral 2 f.date.month month)
    (hday : Numeral 2 f.date.day day) (hhour : Numeral 2 f.hour hour)
    (hminute : Numeral 2 f.minute minute) (hsecond : Numeral 2 f.second second)
    (hmillisecond : Numeral 3 f.millisecond millisecond) :
    Written f (year ++ '-' :: (month ++ '-' :: (day ++ 'T' :: (hour ++ ':' :: (minute ++
      ':' :: (second ++ '.' :: (millisecond ++ ['Z'])))))))

/-- **A text shows a moment**, by its milliseconds since the first of January 1970: it writes a date and
a time that are so many days, counted one by one, and milliseconds from there. -/
def Shows (stamp : Text) (milliseconds : Int) : Prop :=
  ∃ (f : Fields) (day : Int), f.IsValid ∧ Calendar.Counted f.date day ∧
    f.millisecondsOn day = milliseconds ∧ f.Written stamp

theorem shows_iff : Shows s m ↔ ∃ f : Fields, f.IsValid ∧ f.milliseconds = m ∧ f.Written s := by
  constructor
  · rintro ⟨f, day, hf, hday, hm, hs⟩
    exact ⟨f, hf, by rwa [Fields.milliseconds, (Calendar.counted_iff.1 hday).2], hs⟩
  · rintro ⟨f, hf, hm, hs⟩
    exact ⟨f, dayOf f.date, hf, Calendar.counted_iff.2 ⟨hf.date, rfl⟩, hm, hs⟩

/-! ### Years with four digits -/

/-- **A moment is in the years with four digits.** -/
def InYears (milliseconds : Int) : Prop :=
  dayOf ⟨1, 1, 1⟩ * 86400000 ≤ milliseconds ∧ milliseconds < dayOf ⟨10000, 1, 1⟩ * 86400000

instance (milliseconds : Int) : Decidable (InYears milliseconds) :=
  inferInstanceAs (Decidable (_ ∧ _))

theorem inYears_iff : InYears m ↔ -62135596800000 ≤ m ∧ m < 253402300800000 := by
  have hfirst : dayOf ⟨1, 1, 1⟩ = -719162 := by decide
  have hlast : dayOf ⟨10000, 1, 1⟩ = 2932897 := by decide
  rw [InYears, hfirst, hlast]
  omega

theorem year_lt_iff (day year : Int) : (dateOf day).year < year ↔ day < dayOf ⟨year, 1, 1⟩ := by
  have hvalid := Calendar.isValid_dateOf day
  have hmonth := hvalid.month_pos
  have hday := hvalid.day_pos
  have hbefore := Calendar.before_iff hvalid (Calendar.isValid_newYear year)
  rw [Calendar.dayOf_dateOf, Calendar.Date.Before] at hbefore
  rw [← hbefore]
  dsimp only
  omega

theorem hasStamp_iff : hasStamp (dateOf day).year = true ↔
    dayOf ⟨1, 1, 1⟩ ≤ day ∧ day < dayOf ⟨10000, 1, 1⟩ := by
  have hlow := year_lt_iff day 1
  have hhigh := year_lt_iff day 10000
  rw [hasStamp, Bool.and_eq_true, decide_eq_true_iff, decide_eq_true_iff]
  omega

/-- Moments in these years have a stamp. -/
theorem hasStamp_of_inYears (h : InYears m) :
    hasStamp (dateOf (m / 1000 / secondsPerDay)).year = true := by
  obtain ⟨hlow, hhigh⟩ := h
  rw [hasStamp_iff, secondsPerDay]
  omega

/-- **The stamp of a moment shows it.** -/
theorem shows_stampOfMilliseconds (h : InYears m) : Shows (stampOfMilliseconds m) m := by
  have hyears := hasStamp_of_inYears h
  rw [hasStamp, Bool.and_eq_true, decide_eq_true_iff, decide_eq_true_iff] at hyears
  have hdate := Calendar.isValid_dateOf (m / 1000 / secondsPerDay)
  have hdayOf := Calendar.dayOf_dateOf (m / 1000 / secondsPerDay)
  rw [stampOfMilliseconds, renderStamp]
  generalize dateOf (m / 1000 / secondsPerDay) = date at hyears hdate hdayOf
  obtain ⟨second, hsecond⟩ : ∃ second, second = (m / 1000 % secondsPerDay).toNat := ⟨_, rfl⟩
  obtain ⟨milli, hmilli⟩ : ∃ milli, milli = (m % 1000).toNat := ⟨_, rfl⟩
  rw [secondsPerDay] at hsecond hdayOf
  have hsecond' : second < 86400 := by omega
  have hmilli' : milli < 1000 := by omega
  have hlength := hdate.day_le.trans (Calendar.daysInMonth_le date.year date.month)
  have hmonth := hdate.month_le
  have hnumerals : date.year.toNat < 10 ^ 4 ∧ date.month < 10 ^ 2 ∧ date.day < 10 ^ 2 ∧
      second / 3600 < 10 ^ 2 ∧ second / 60 % 60 < 10 ^ 2 ∧ second % 60 < 10 ^ 2 ∧
      milli < 10 ^ 3 := by omega
  obtain ⟨hyear, hmonth, hday, hhour, hminute, hsecond'', hmilli''⟩ := hnumerals
  rw [secondsPerDay, ← hsecond, ← hmilli]
  refine shows_iff.2 ⟨⟨date, second / 3600, second / 60 % 60, second % 60, milli⟩,
    ⟨hdate, hyears.1, hyears.2, ?_, ?_, ?_, hmilli'⟩, ?_, ?_⟩
  · dsimp only
    omega
  · dsimp only
    omega
  · dsimp only
    omega
  · rw [Fields.milliseconds, Fields.millisecondsOn]
    dsimp only
    omega
  · simp only [List.append_assoc, List.singleton_append]
    exact .numerals (Text.numeral_ofNatPadded four_pos hyear)
      (Text.numeral_ofNatPadded two_pos hmonth) (Text.numeral_ofNatPadded two_pos hday)
      (Text.numeral_ofNatPadded two_pos hhour) (Text.numeral_ofNatPadded two_pos hminute)
      (Text.numeral_ofNatPadded two_pos hsecond'') (Text.numeral_ofNatPadded three_pos hmilli'')

/-! ### Order -/

/-- **The order of dates and times**, the date first. -/
theorem Fields.milliseconds_le_iff (hf : f.IsValid) (hg : g.IsValid) :
    f.milliseconds ≤ g.milliseconds ↔ f.date.Before g.date ∨ f.date = g.date ∧
      (f.hour < g.hour ∨ f.hour = g.hour ∧ (f.minute < g.minute ∨ f.minute = g.minute ∧
        (f.second < g.second ∨ f.second = g.second ∧ f.millisecond ≤ g.millisecond))) := by
  have hsame : f.date = g.date ↔ dayOf f.date = dayOf g.date := by
    refine ⟨congrArg dayOf, fun h => ?_⟩
    rw [← Calendar.dateOf_dayOf hf.date, h, Calendar.dateOf_dayOf hg.date]
  rw [Calendar.before_iff hf.date hg.date, hsame, Fields.milliseconds, Fields.milliseconds,
    Fields.millisecondsOn, Fields.millisecondsOn]
  obtain ⟨-, -, -, h₁, h₂, h₃, h₄⟩ := hf
  obtain ⟨-, -, -, h₁', h₂', h₃', h₄'⟩ := hg
  omega

/-- The order of the texts that write them. -/
theorem Fields.Written.le_iff (hs : f.Written s) (ht : g.Written t) (hf : f.IsValid)
    (hg : g.IsValid) : Text.le s t = true ↔ f.milliseconds ≤ g.milliseconds := by
  rw [Fields.milliseconds_le_iff hf hg]
  cases hs with
  | numerals hyear hmonth hday hhour hminute hsecond hmillisecond =>
    cases ht with
    | numerals hyear' hmonth' hday' hhour' hminute' hsecond' hmillisecond' =>
      rw [hyear.le_append_iff hyear', Text.le_cons_cons, hmonth.le_append_iff hmonth',
        Text.le_cons_cons, hday.le_append_iff hday', Text.le_cons_cons, hhour.le_append_iff hhour',
        Text.le_cons_cons, hminute.le_append_iff hminute', Text.le_cons_cons,
        hsecond.le_append_iff hsecond', Text.le_cons_cons,
        hmillisecond.le_append_iff hmillisecond', Text.le_refl, eq_self, and_true]
      have hdate : f.date = g.date ↔ f.date.year = g.date.year ∧ f.date.month = g.date.month ∧
          f.date.day = g.date.day := by
        cases f.date
        cases g.date
        exact Eq.to_iff (Calendar.Date.mk.injEq ..)
      have hpos := hf.year_pos
      have hpos' := hg.year_pos
      rw [hdate, Calendar.Date.Before]
      omega

/-- **Stamps are ordered as their moments are.** -/
theorem Shows.le_iff (hs : Shows s m) (ht : Shows t n) : Text.le s t = true ↔ m ≤ n := by
  obtain ⟨f, hf, rfl, hwritten⟩ := shows_iff.1 hs
  obtain ⟨g, hg, rfl, hwritten'⟩ := shows_iff.1 ht
  exact hwritten.le_iff hwritten' hf hg

/-- **Stamps are told apart as their moments are.** -/
theorem Shows.eq_iff (hs : Shows s m) (ht : Shows t n) : s = t ↔ m = n := by
  constructor
  · rintro rfl
    exact le_antisymm ((hs.le_iff ht).1 (Text.le_refl s)) ((ht.le_iff hs).1 (Text.le_refl s))
  · rintro rfl
    exact Text.le_antisymm ((hs.le_iff ht).2 (le_refl m)) ((ht.le_iff hs).2 (le_refl m))

/-! ### Clocks -/

/-- **A clock's reading** in these years has a stamp, which shows the whole milliseconds. -/
theorem Reading.exists_stamp {r : Reading} (h : InYears r.milliseconds) :
    ∃ stamp, r.stamp = .ok stamp ∧ Shows stamp r.milliseconds :=
  ⟨_, by rw [Reading.stamp, if_pos (hasStamp_of_inYears h)], shows_stampOfMilliseconds h⟩

end Clock
end TemplateBindings
