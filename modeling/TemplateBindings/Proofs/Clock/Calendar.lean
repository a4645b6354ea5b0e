import Mathlib.Tactic.IntervalCases
import TemplateBindings.Clock.Calendar

/-!
# The calendar counts days

Two functions make up the calendar, and neither of them looks like one. So it is checked against the
rules that everyone knows. The days of a month follow each other, and behind the last day of a month is
the first of the next one (`TemplateBindings.Calendar.dayOf_next`). The date of a day is a date of the
calendar, and its day is that day (`TemplateBindings.Calendar.dayOf_dateOf`). As the day says which of
two dates is earlier (`TemplateBindings.Calendar.before_iff`), there is no other such date. So the
day of a date is what is counted from the first of January 1970 on and back
(`TemplateBindings.Calendar.counted_iff`).

Years are counted from March here, so that the leap day is the last of its year. Four hundred of them
are four centuries, each century is twenty-five times four years, and only the last of such a group can
be a day longer than the others (`TemplateBindings.Calendar.IsPlace`).
-/

namespace TemplateBindings
namespace Calendar

variable {date a b : Date} {day year : Int} {month : Nat}
  {dayOfCycle century group inGroup dayOfYear : Int}

/-! ### Dates of the calendar -/

/-- **A date that the calendar has.** -/
structure Date.IsValid (date : Date) : Prop where
  /-- The months begin with the first. -/
  month_pos : 1 ≤ date.month
  /-- There are twelve of them. -/
  month_le : date.month ≤ 12
  /-- The days begin with the first. -/
  day_pos : 1 ≤ date.day
  /-- A month has so many of them. -/
  day_le : date.day ≤ daysInMonth date.year date.month

instance (date : Date) : Decidable date.IsValid :=
  decidable_of_iff (1 ≤ date.month ∧ date.month ≤ 12 ∧ 1 ≤ date.day ∧
      date.day ≤ daysInMonth date.year date.month)
    ⟨fun ⟨h₁, h₂, h₃, h₄⟩ => ⟨h₁, h₂, h₃, h₄⟩, fun ⟨h₁, h₂, h₃, h₄⟩ => ⟨h₁, h₂, h₃, h₄⟩⟩

/-- Every year begins with a date that it has. -/
theorem isValid_newYear (year : Int) : Date.IsValid ⟨year, 1, 1⟩ :=
  ⟨le_refl 1, Nat.le_add_left 1 11, le_refl 1, Nat.le_add_left 1 30⟩

/-- **The next date.** -/
def Date.next (date : Date) : Date :=
  if date.day < daysInMonth date.year date.month then { date with day := date.day + 1 }
  else if date.month < 12 then ⟨date.year, date.month + 1, 1⟩
  else ⟨date.year + 1, 1, 1⟩

/-- **Days are counted** from the first of January 1970: on from a date to the next one, and back. -/
inductive Counted : Date → Int → Prop where
  /-- The day that counting starts with. -/
  | epoch : Counted ⟨1970, 1, 1⟩ 0
  /-- The next date has the next number. -/
  | next {date : Date} {day : Int} (before : Counted date day) : Counted date.next (day + 1)
  /-- The date before has the number before. -/
  | back {date : Date} {day : Int} (valid : date.IsValid) (behind : Counted date.next (day + 1)) :
    Counted date day

/-- **One date is earlier than another.** -/
def Date.Before (a b : Date) : Prop :=
  a.year < b.year ∨ a.year = b.year ∧ (a.month < b.month ∨ a.month = b.month ∧ a.day < b.day)

theorem isLeapYear_iff (year : Int) : isLeapYear year = true ↔
    year % 4 = 0 ∧ (year % 100 ≠ 0 ∨ year % 400 = 0) := by
  simp [isLeapYear]

theorem daysInMonth_pos (year : Int) (month : Nat) : 0 < daysInMonth year month := by
  rw [daysInMonth]
  repeat' split
  all_goals decide

theorem daysInMonth_le (year : Int) (month : Nat) : daysInMonth year month ≤ 31 := by
  rw [daysInMonth]
  repeat' split
  all_goals decide

theorem isValid_next (h : date.IsValid) : date.next.IsValid := by
  obtain ⟨hmonth, hmonth', hday, hday'⟩ := h
  rw [Date.next]
  split
  · next hlt => exact ⟨hmonth, hmonth', Nat.le_add_left 1 _, hlt⟩
  · split
    · next hlt => exact ⟨Nat.le_add_left 1 _, hlt, le_refl 1, daysInMonth_pos _ _⟩
    · exact isValid_newYear _

/-! ### Years that start in March -/

/-- The days up to a year that starts in March. -/
def yearStart (year : Int) : Int := year * 365 + year / 4 - year / 100 + year / 400

/-- The days of such a year up to a month. -/
def monthStart (sinceMarch : Int) : Int := (153 * sinceMarch + 2) / 5

/-- A year ends with February, behind the 337 days from March to January. -/
theorem yearStart_eq (year : Int) :
    yearStart year = yearStart (year - 1) + 337 + daysInMonth year 2 := by
  have hleap := isLeapYear_iff year
  rw [yearStart, yearStart, daysInMonth, if_pos rfl]
  split
  · next h =>
    rw [hleap] at h
    rw [Nat.cast_ofNat]
    omega
  · next h =>
    rw [hleap] at h
    rw [Nat.cast_ofNat]
    omega

theorem monthStart_succ (year : Int) (h : 2 < month) (h' : month ≤ 12) :
    monthStart (month - 3 + 1) = monthStart (month - 3) + daysInMonth year month := by
  interval_cases month <;> rfl

/-- January and February are the last months. -/
theorem dayOf_winter (year : Int) (h : month ≤ 2) (d : Nat) : dayOf ⟨year, month, d⟩ =
    yearStart (year - 1) + monthStart (month + 9) + (d - 1) - epochOffset := by
  have h' : (month : Int) ≤ 2 := by omega
  simp only [dayOf, yearStart, monthStart, if_pos h']
  omega

theorem dayOf_summer (year : Int) (h : 2 < month) (d : Nat) : dayOf ⟨year, month, d⟩ =
    yearStart year + monthStart (month - 3) + (d - 1) - epochOffset := by
  have h' : ¬ (month : Int) ≤ 2 := by omega
  simp only [dayOf, yearStart, monthStart, if_neg h']
  omega

/-! ### The day of a date -/

/-- The days of a month follow each other. -/
theorem dayOf_eq_first (year : Int) (month d : Nat) :
    dayOf ⟨year, month, d⟩ = dayOf ⟨year, month, 1⟩ + (d - 1) := by
  simp only [dayOf]
  omega

/-- Behind the last day of a month is the first of the next month. -/
theorem dayOf_nextMonth (year : Int) (hpos : 1 ≤ month) (hmonth : month < 12) :
    dayOf ⟨year, month + 1, 1⟩ = dayOf ⟨year, month, 1⟩ + daysInMonth year month := by
  obtain rfl | rfl | h : month = 1 ∨ month = 2 ∨ 2 < month := by omega
  · have hdays : daysInMonth year 1 = 31 := rfl
    rw [dayOf_winter year (le_refl 2), dayOf_winter year (by decide), hdays]
    simp only [monthStart]
    omega
  · rw [dayOf_winter year (le_refl 2), dayOf_summer year (Nat.lt_succ_self 2), yearStart_eq year]
    simp only [monthStart]
    omega
  · have hnext : ((month + 1 : Nat) : Int) - 3 = month - 3 + 1 := by omega
    rw [dayOf_summer year h, dayOf_summer year (by omega), hnext, monthStart_succ year h hmonth.le]
    omega

/-- Behind the last day of a year is the first of the next year. -/
theorem dayOf_nextYear (year : Int) :
    dayOf ⟨year + 1, 1, 1⟩ = dayOf ⟨year, 12, 1⟩ + daysInMonth year 12 := by
  have hdays : daysInMonth year 12 = 31 := rfl
  rw [dayOf_winter _ (by decide), dayOf_summer _ (by decide), Int.add_sub_cancel, hdays]
  simp only [monthStart]
  omega

/-- **Days are counted**: the next date is the next day. -/
theorem dayOf_next (h : date.IsValid) : dayOf date.next = dayOf date + 1 := by
  obtain ⟨year, month, day⟩ := date
  obtain ⟨hmonth, hmonth', hday, hday'⟩ := h
  dsimp only at hmonth hmonth' hday hday'
  rw [Date.next, dayOf_eq_first year month day]
  dsimp only
  split
  · rw [dayOf_eq_first year month (day + 1)]
    omega
  · split
    · next hlt =>
      rw [dayOf_nextMonth year hmonth hlt]
      omega
    · obtain rfl : month = 12 := by omega
      rw [dayOf_nextYear]
      omega

/-! ### Which of two dates is earlier -/

/-- The first day of a month, the months of all years counted through. -/
def firstOf (months : Int) : Int := dayOf ⟨months / 12, (months % 12).toNat + 1, 1⟩

/-- The month of a date. -/
def Date.months (date : Date) : Int := 12 * date.year + (date.month - 1)

theorem firstOf_succ (months : Int) : firstOf (months + 1) =
    firstOf months + daysInMonth (months / 12) ((months % 12).toNat + 1) := by
  obtain ⟨month, hmonth⟩ : ∃ month : Nat, month = (months % 12).toNat := ⟨_, rfl⟩
  rw [firstOf, firstOf, ← hmonth]
  by_cases hlast : month = 11
  · have hyear : (months + 1) / 12 = months / 12 + 1 := by omega
    have hfirst : ((months + 1) % 12).toNat = 0 := by omega
    rw [hlast, hyear, hfirst, Nat.zero_add]
    exact dayOf_nextYear _
  · have hyear : (months + 1) / 12 = months / 12 := by omega
    have hnext : ((months + 1) % 12).toNat = month + 1 := by omega
    rw [hyear, hnext]
    exact dayOf_nextMonth _ (by omega) (by omega)

theorem firstOf_le_firstOf {months months' : Int} (h : months ≤ months') :
    firstOf months ≤ firstOf months' := by
  induction months', h using Int.leInduction with
  | base => exact Int.le_refl _
  | succ months' _ ih =>
    have hpos := daysInMonth_pos (months' / 12) ((months' % 12).toNat + 1)
    rw [firstOf_succ]
    omega

/-- A date is in its month. -/
theorem firstOf_le_dayOf (h : date.IsValid) :
    firstOf date.months ≤ dayOf date ∧ dayOf date < firstOf (date.months + 1) := by
  obtain ⟨year, month, day⟩ := date
  obtain ⟨hmonth, hmonth', hday, hday'⟩ := h
  dsimp only at hmonth hmonth' hday hday'
  have hyear : (12 * year + ((month : Int) - 1)) / 12 = year := by omega
  have hmonths : ((12 * year + ((month : Int) - 1)) % 12).toNat + 1 = month := by omega
  rw [firstOf_succ, firstOf, Date.months, hyear, hmonths, dayOf_eq_first year month day]
  omega

theorem dayOf_lt_of_before (ha : a.IsValid) (hb : b.IsValid) (h : a.Before b) :
    dayOf a < dayOf b := by
  have hmonths : a.months < b.months ∨ a.year = b.year ∧ a.month = b.month ∧ a.day < b.day := by
    have ha₁ := ha.month_pos
    have ha₂ := ha.month_le
    have hb₁ := hb.month_pos
    have hb₂ := hb.month_le
    simp only [Date.months]
    rcases h with h | ⟨hyear, h | h⟩
    · omega
    · omega
    · exact .inr ⟨hyear, h⟩
  rcases hmonths with hmonths | ⟨hyear, hmonth, hday⟩
  · calc dayOf a < firstOf (a.months + 1) := (firstOf_le_dayOf ha).2
      _ ≤ firstOf b.months := firstOf_le_firstOf hmonths
      _ ≤ dayOf b := (firstOf_le_dayOf hb).1
  · obtain ⟨year, month, day⟩ := a
    obtain ⟨year', month', day'⟩ := b
    obtain rfl : year = year' := hyear
    obtain rfl : month = month' := hmonth
    dsimp only at hday
    rw [dayOf_eq_first year month day, dayOf_eq_first year month day']
    omega

/-- **The earlier of two dates** is the one with the earlier day. -/
theorem before_iff (ha : a.IsValid) (hb : b.IsValid) : a.Before b ↔ dayOf a < dayOf b := by
  refine ⟨dayOf_lt_of_before ha hb, fun h => ?_⟩
  by_contra hnot
  by_cases hab : a = b
  · rw [hab] at h
    omega
  · have hba : b.Before a := by
      rw [Date.Before] at hnot ⊢
      have hne : ¬ (a.year = b.year ∧ a.month = b.month ∧ a.day = b.day) := fun ⟨hy, hm, hd⟩ =>
        hab (by cases a; cases b; simp_all)
      omega
    have hlt := dayOf_lt_of_before hb ha hba
    omega

/-! ### The date of a day -/

/-- **The place of a day in four hundred years** that start in March: the century, the group of four
years in it, the year in the group and the day of the year. -/
structure IsPlace (dayOfCycle century group inGroup dayOfYear : Int) : Prop where
  /-- The days that have passed. -/
  eq : dayOfCycle = 36524 * century + 1461 * group + 365 * inGroup + dayOfYear
  /-- There are four centuries. -/
  century_mem : 0 ≤ century ∧ century ≤ 3
  /-- A century has twenty-five groups. -/
  group_mem : 0 ≤ group ∧ group ≤ 24
  /-- A group has four years. -/
  inGroup_mem : 0 ≤ inGroup ∧ inGroup ≤ 3
  /-- A year has no more days than this. -/
  day_mem : 0 ≤ dayOfYear ∧ dayOfYear ≤ 365
  /-- Only the last year of a group has the last of them, and the last group only in the last century.
  -/
  last : dayOfYear = 365 → inGroup = 3 ∧ (group = 24 → century = 3)

theorem exists_isPlace (h : 0 ≤ dayOfCycle) (h' : dayOfCycle < daysPerCycle) :
    ∃ century group inGroup dayOfYear, IsPlace dayOfCycle century group inGroup dayOfYear := by
  rw [daysPerCycle] at h'
  obtain ⟨century, hcentury, x, hx, hx', hlast⟩ : ∃ century, (0 ≤ century ∧ century ≤ 3) ∧
      ∃ x, dayOfCycle = 36524 * century + x ∧ (0 ≤ x ∧ x ≤ 36524) ∧
        (x = 36524 → century = 3) :=
    ⟨min (dayOfCycle / 36524) 3, by omega, dayOfCycle - 36524 * min (dayOfCycle / 36524) 3,
      by omega⟩
  obtain ⟨group, hgroup, y, hy, hy'⟩ : ∃ group, (0 ≤ group ∧ group ≤ 24) ∧
      ∃ y, x = 1461 * group + y ∧ 0 ≤ y ∧ y < 1461 :=
    ⟨x / 1461, by omega, _, (Int.mul_ediv_add_emod ..).symm, by omega⟩
  obtain ⟨inGroup, hin, z, hz, hz', hlast'⟩ : ∃ inGroup, (0 ≤ inGroup ∧ inGroup ≤ 3) ∧
      ∃ z, y = 365 * inGroup + z ∧ (0 ≤ z ∧ z ≤ 365) ∧ (z = 365 → inGroup = 3) :=
    ⟨min (y / 365) 3, by omega, y - 365 * min (y / 365) 3, by omega⟩
  exact ⟨century, group, inGroup, z, by omega, hcentury, hgroup, hin, hz', by omega⟩

/-- **The year of a place** is found by taking leap days off and dividing. -/
theorem IsPlace.yearOfCycle (h : IsPlace dayOfCycle century group inGroup dayOfYear) :
    (dayOfCycle - dayOfCycle / 1460 + dayOfCycle / 36524 - dayOfCycle / 146096) / 365 =
      100 * century + 4 * group + inGroup := by
  obtain ⟨heq, hcentury, hgroup, hin, hday, hlast⟩ := h
  -- a leap day is taken off once for each group, and once more if the day is late enough
  obtain ⟨s, hs⟩ : ∃ s, s = 24 * century + group + 365 * inGroup + dayOfYear := ⟨_, rfl⟩
  obtain ⟨late, hlate, hday'⟩ : ∃ late, s / 1460 = late ∧ 0 ≤ dayOfYear - late ∧
      dayOfYear - late < 365 := by
    by_cases hlate : s < 1460
    · exact ⟨0, by omega⟩
    · exact ⟨1, by omega⟩
  have hleaps : dayOfCycle / 1460 = 25 * century + group + late := by
    have hsplit : dayOfCycle = 1460 * (25 * century + group) + s := by omega
    clear heq hlast hs
    omega
  -- the last day of all would count as one of a fifth century
  have hcenturies : dayOfCycle / 36524 - dayOfCycle / 146096 = century := by
    obtain ⟨x, hx⟩ : ∃ x, x = 1461 * group + 365 * inGroup + dayOfYear := ⟨_, rfl⟩
    have hx' : 0 ≤ x ∧ x ≤ 36524 ∧ (x = 36524 → century = 3) := by omega
    replace heq : dayOfCycle = 36524 * century + x := by omega
    clear hlate hlast hs hleaps
    by_cases hend : x = 36524
    · rw [heq, hx'.2.2 hend, hend]
      rfl
    · have h₁ : dayOfCycle / 36524 = century := by omega
      have h₂ : dayOfCycle / 146096 = 0 := by omega
      omega
  have hsum : dayOfCycle - dayOfCycle / 1460 + dayOfCycle / 36524 - dayOfCycle / 146096 =
      365 * (100 * century + 4 * group + inGroup) + (dayOfYear - late) := by
    rw [hleaps, Int.add_sub_assoc, hcenturies]
    clear hcenturies hleaps
    omega
  rw [hsum]
  clear heq hsum hcenturies hleaps hlast hs hlate
  omega

/-- The date of a day of a year that starts in March. -/
def ofMarch (year dayOfYear : Int) : Date :=
  let sinceMarch := (5 * dayOfYear + 2) / 153
  let month := if sinceMarch < 10 then sinceMarch + 3 else sinceMarch - 9
  ⟨if month ≤ 2 then year + 1 else year, month.toNat,
    (dayOfYear - monthStart sinceMarch + 1).toNat⟩

theorem dateOf_eq_ofMarch
    (h : IsPlace ((day + epochOffset) % daysPerCycle) century group inGroup dayOfYear) :
    dateOf day = ofMarch
      (100 * century + 4 * group + inGroup + 400 * ((day + epochOffset) / daysPerCycle))
      dayOfYear := by
  have hday : (day + epochOffset) % daysPerCycle -
      (365 * (100 * century + 4 * group + inGroup) + (100 * century + 4 * group + inGroup) / 4 -
        (100 * century + 4 * group + inGroup) / 100) = dayOfYear := by
    obtain ⟨heq, hcentury, hgroup, hin, -, -⟩ := h
    rw [heq]
    clear heq
    omega
  rw [dateOf, h.yearOfCycle, hday]
  rfl

/-- January and February are long enough for their days, if the last one is a leap day. -/
theorem le_daysInMonth_winter (hpos : 1 ≤ month) (h : month ≤ 2) {d : Nat}
    (hday : dayOfYear = monthStart (month + 9) + (d - 1))
    (hmonth : dayOfYear < monthStart (month + 9 + 1)) (hday' : dayOfYear ≤ 365)
    (hleap : dayOfYear = 365 → isLeapYear year = true) :
    d ≤ daysInMonth year month := by
  obtain rfl | rfl : month = 1 ∨ month = 2 := by omega
  · have h₁ : monthStart (((1 : Nat) : Int) + 9) = 306 := rfl
    have h₂ : monthStart (((1 : Nat) : Int) + 9 + 1) = 337 := rfl
    have h₃ : daysInMonth year 1 = 31 := rfl
    omega
  · have h₁ : monthStart (((2 : Nat) : Int) + 9) = 337 := rfl
    rw [daysInMonth, if_pos rfl]
    split
    · omega
    · next hcommon =>
      have hne : dayOfYear ≠ 365 := fun h => hcommon (hleap h)
      omega

/-- **The date of a day of such a year** is one of the calendar, and as many days from the start of the
year. -/
theorem ofMarch_spec (year : Int) (hday : 0 ≤ dayOfYear) (hday' : dayOfYear ≤ 365)
    (hleap : dayOfYear = 365 → isLeapYear (year + 1) = true) :
    (ofMarch year dayOfYear).IsValid ∧
      dayOf (ofMarch year dayOfYear) = yearStart year + dayOfYear - epochOffset := by
  obtain ⟨m, hm⟩ : ∃ m, m = (5 * dayOfYear + 2) / 153 := ⟨_, rfl⟩
  have hmonths : 0 ≤ m ∧ m ≤ 11 := by omega
  have hstart : monthStart m ≤ dayOfYear ∧ dayOfYear < monthStart (m + 1) := by
    simp only [monthStart]
    omega
  obtain ⟨d, hd⟩ : ∃ d : Nat, dayOfYear = monthStart m + ((d : Int) - 1) :=
    ⟨(dayOfYear - monthStart m + 1).toNat, by omega⟩
  have hd' : (dayOfYear - monthStart m + 1).toNat = d := by omega
  rw [ofMarch, ← hm, hd']
  clear hm hd'
  by_cases hsummer : m < 10
  · obtain ⟨month, rfl⟩ : ∃ month : Nat, m = (month : Int) - 3 := ⟨(m + 3).toNat, by omega⟩
    have hmonth : 2 < month ∧ month ≤ 12 := by omega
    have hlength := monthStart_succ year hmonth.1 hmonth.2
    rw [if_pos hsummer, Int.sub_add_cancel, if_neg (by omega), Int.toNat_natCast]
    refine ⟨⟨by dsimp only; omega, hmonth.2, by dsimp only; omega, by dsimp only; omega⟩, ?_⟩
    rw [dayOf_summer year hmonth.1]
    omega
  · obtain ⟨month, rfl⟩ : ∃ month : Nat, m = (month : Int) + 9 := ⟨(m - 9).toNat, by omega⟩
    have hmonth : 1 ≤ month ∧ month ≤ 2 := by omega
    have hlength := le_daysInMonth_winter hmonth.1 hmonth.2 hd hstart.2 hday' hleap
    rw [if_neg hsummer, Int.add_sub_cancel, if_pos (by omega), Int.toNat_natCast]
    refine ⟨⟨hmonth.1, by dsimp only; omega, by dsimp only; omega, hlength⟩, ?_⟩
    rw [dayOf_winter (year + 1) hmonth.2, Int.add_sub_cancel]
    omega

theorem dateOf_spec (day : Int) : (dateOf day).IsValid ∧ dayOf (dateOf day) = day := by
  obtain ⟨cycle, hcycle⟩ : ∃ cycle, cycle = (day + epochOffset) / daysPerCycle := ⟨_, rfl⟩
  have hrest : day + epochOffset = daysPerCycle * cycle + (day + epochOffset) % daysPerCycle := by
    rw [hcycle, Int.mul_ediv_add_emod]
  obtain ⟨century, group, inGroup, dayOfYear, hplace⟩ :=
    exists_isPlace (Int.emod_nonneg (day + epochOffset) (by decide))
      (Int.emod_lt_of_pos (day + epochOffset) (by decide))
  rw [dateOf_eq_ofMarch hplace, ← hcycle]
  obtain ⟨heq, hcentury, hgroup, hin, hday, hlast⟩ := hplace
  rw [heq] at hrest
  clear heq hcycle
  have hleap (h : dayOfYear = 365) :
      isLeapYear (100 * century + 4 * group + inGroup + 400 * cycle + 1) = true := by
    obtain ⟨h₁, h₂⟩ := hlast h
    rw [isLeapYear_iff]
    clear hrest hday hlast
    omega
  have hspec := ofMarch_spec _ hday.1 hday.2 hleap
  refine ⟨hspec.1, ?_⟩
  have hstart : yearStart (100 * century + 4 * group + inGroup + 400 * cycle) =
      daysPerCycle * cycle + 36524 * century + 1461 * group + 365 * inGroup := by
    rw [yearStart, daysPerCycle]
    clear hrest hspec hleap hday hlast
    omega
  rw [hspec.2, hstart]
  clear hstart hspec hleap hlast hday
  omega

theorem isValid_dateOf (day : Int) : (dateOf day).IsValid := (dateOf_spec day).1

/-- **The date of a day** has that day. -/
@[simp] theorem dayOf_dateOf (day : Int) : dayOf (dateOf day) = day := (dateOf_spec day).2

/-- **The date of a date's day** is the date. -/
theorem dateOf_dayOf (h : date.IsValid) : dateOf (dayOf date) = date := by
  have hvalid := isValid_dateOf (dayOf date)
  have hnot : ¬ (dateOf (dayOf date)).Before date := fun hb => by
    have hlt := (before_iff hvalid h).1 hb
    rw [dayOf_dateOf] at hlt
    omega
  have hnot' : ¬ date.Before (dateOf (dayOf date)) := fun hb => by
    have hlt := (before_iff h hvalid).1 hb
    rw [dayOf_dateOf] at hlt
    omega
  generalize dateOf (dayOf date) = found at hnot hnot'
  rw [Date.Before] at hnot hnot'
  obtain ⟨hyear, hmonth, hday⟩ : found.year = date.year ∧ found.month = date.month ∧
      found.day = date.day := by omega
  cases found
  cases date
  exact (Date.mk.injEq ..).mpr ⟨hyear, hmonth, hday⟩

/-- **The day of a date is its number**, and no other number is counted for it. -/
theorem counted_iff : Counted date day ↔ date.IsValid ∧ dayOf date = day := by
  constructor
  · intro h
    induction h with
    | epoch => decide
    | next _ ih => exact ⟨isValid_next ih.1, by rw [dayOf_next ih.1, ih.2]⟩
    | back valid _ ih =>
      refine ⟨valid, ?_⟩
      have hnext := ih.2
      rw [dayOf_next valid] at hnext
      omega
  · rintro ⟨hvalid, rfl⟩
    -- counting goes through all days, since the date of the next day is the next date
    have hnext (day : Int) : (dateOf day).next = dateOf (day + 1) := by
      have hday := dayOf_next (isValid_dateOf day)
      rw [dayOf_dateOf] at hday
      rw [← hday, dateOf_dayOf (isValid_next (isValid_dateOf day))]
    have hcounted (day : Int) : Counted (dateOf day) day := by
      induction day using Int.induction_on with
      | zero => exact .epoch
      | succ day ih =>
        rw [← hnext]
        exact ih.next
      | pred day ih =>
        refine .back (isValid_dateOf _) ?_
        rwa [hnext, Int.sub_add_cancel]
    have hdate := hcounted (dayOf date)
    rwa [dateOf_dayOf hvalid] at hdate

end Calendar
end TemplateBindings
