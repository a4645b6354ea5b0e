import TemplateBindings.Proofs.Build.Due
import TemplateBindings.Proofs.Clock.Modified

/-!
# Markers tell milliseconds apart

A marker is made of the later time of two: that of the source and that of its stylesheet
(`TemplateBindings.Build.timeOf`). Nanoseconds below the millisecond do not matter for it. But down to
the millisecond it is exact, although it is calculated in double precision, as long as the time is less
than `2 ^ 33` seconds away from the first of January 1970 (`TemplateBindings.Build.marker_exact`). So
inputs with different milliseconds have different markers, and the order of markers is that of time.
-/

namespace TemplateBindings
namespace Build

open Files

variable {files files' : Entry} {root root' : Path} {source source' : Source}
  {sheet sheet' : Option Source} {time time' : Int}

/-- **The time of inputs**: that of the later change, of the source or of its stylesheet. -/
def timeOf (files : Entry) (root : Path) (source : Source) (sheet : Option Source) :
    Except FileError Int := do
  let time ← modified files (source.path root)
  match sheet with
  | some sheet => return max time (← modified files (sheet.path root))
  | none => return time

/-- The marker of inputs is the stamp of their time. -/
theorem markerOf_of_timeOf (h : timeOf files root source sheet = .ok time) :
    markerOf files root source sheet = (Clock.stampOfNanoseconds time).mapError .clock := by
  rw [timeOf] at h
  obtain ⟨own, hown, h⟩ := of_bind_ok h
  rw [markerOf, hown]
  cases sheet with
  | none =>
    obtain rfl : own = time := Except.ok.inj h
    simp only [answerBeside, bind, Except.bind, pure, Except.pure, Except.mapError, markerOfTimes]
  | some sheet =>
    obtain ⟨other, hother, h⟩ := of_bind_ok h
    obtain rfl : max own other = time := Except.ok.inj h
    simp only [answerBeside, hother, bind, Except.bind, Except.map, Except.mapError, markerOfTimes]

/-- Inputs whose time is within the bound have a marker, which shows the millisecond. -/
theorem exists_markerOf (h : timeOf files root source sheet = .ok time)
    (hbound : |time| < 2 ^ 33 * 10 ^ 9) :
    ∃ marker, markerOf files root source sheet = .ok marker ∧
      Clock.Shows marker (time / 10 ^ 6) := by
  rw [abs_lt] at hbound
  have hlow : -Clock.exactBound ≤ time / 1000000 := by
    rw [Clock.exactBound]
    omega
  have hhigh : time / 1000000 < Clock.exactBound := by
    rw [Clock.exactBound]
    omega
  refine ⟨Clock.stampOfMilliseconds (time / 1000000), ?_,
    Clock.shows_stampOfMilliseconds (Clock.inYears_of_exactBound hlow hhigh)⟩
  rw [markerOf_of_timeOf h, Clock.stampOfNanoseconds_eq hlow hhigh]
  rfl

/-- **Markers are exact to the millisecond.** Let the time of a source's inputs, the later one if there
is a stylesheet, be less than `2 ^ 33` seconds away from the first of January 1970, before or after it.
Then the source has a marker, and what it shows is the date and the time of the millisecond that the
time is in, counted in whole numbers. So two sources, wherever they are, have the same marker if and only
if their times are in the same millisecond, and the order of their markers as texts is that of these
milliseconds. -/
theorem marker_exact (h : timeOf files root source sheet = .ok time)
    (h' : timeOf files' root' source' sheet' = .ok time') (hbound : |time| < 2 ^ 33 * 10 ^ 9)
    (hbound' : |time'| < 2 ^ 33 * 10 ^ 9) :
    ∃ marker marker', markerOf files root source sheet = .ok marker ∧
      markerOf files' root' source' sheet' = .ok marker' ∧
      Clock.Shows marker (time / 10 ^ 6) ∧ Clock.Shows marker' (time' / 10 ^ 6) ∧
      (marker = marker' ↔ time / 10 ^ 6 = time' / 10 ^ 6) ∧
      (Text.le marker marker' = true ↔ time / 10 ^ 6 ≤ time' / 10 ^ 6) := by
  obtain ⟨marker, hmarker, hshows⟩ := exists_markerOf h hbound
  obtain ⟨marker', hmarker', hshows'⟩ := exists_markerOf h' hbound'
  exact ⟨marker, marker', hmarker, hmarker', hshows, hshows', hshows.eq_iff hshows',
    hshows.le_iff hshows'⟩

/-- A page that is changed a nanosecond before the first of January 1970, with a stylesheet that is
changed a second before it. -/
def eveFiles : Entry :=
  .directory [("page.html".toList, .file [] (-1)), ("page.css".toList, .file [] (-1000000000))]

/-- The page. -/
def evePage : Source := ⟨[], "page".toList, .markup⟩

/-- Its stylesheet. -/
def eveSheet : Source := ⟨[], "page".toList, .stylesheet⟩

theorem marker_exact_eve :
    ∃ marker marker', markerOf eveFiles [] evePage (some eveSheet) = .ok marker ∧
      markerOf eveFiles [] eveSheet none = .ok marker' ∧
      Clock.Shows marker (-1) ∧ Clock.Shows marker' (-1000) ∧ marker ≠ marker' ∧
      Text.le marker' marker = true := by
  obtain ⟨marker, marker', hmarker, hmarker', hshows, hshows', hsame, -⟩ :=
    marker_exact (show timeOf eveFiles [] evePage (some eveSheet) = .ok (-1) by decide +kernel)
      (show timeOf eveFiles [] eveSheet none = .ok (-1000000000) by decide +kernel)
      (by decide) (by decide)
  exact ⟨marker, marker', hmarker, hmarker', hshows, hshows', fun h => absurd (hsame.1 h) (by decide),
    (hshows'.le_iff hshows).2 (by decide)⟩

/-- Behind the bound the first millisecond is lost. -/
example : markerOfTimes (2 ^ 33 * 10 ^ 9 + 10 ^ 6) none =
    .ok "2242-03-16T12:56:32.000Z".toList := by
  decide +kernel

end Build
end TemplateBindings
