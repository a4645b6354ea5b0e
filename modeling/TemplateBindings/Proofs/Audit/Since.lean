import TemplateBindings.Proofs.Audit.ReadBack
import TemplateBindings.Proofs.Clock.Order

/-!
# Reading a log from a moment on

A log is asked for the records that are not earlier than a stamp, and the stamps are compared as texts.
For moments of the years with four digits this is the order of time, in whatever zones their clocks
stand: one stamp is not behind another just when its millisecond is not later
(`TemplateBindings.Audit.since_exact`). So of the events with stamps of this kind those are read that are
not earlier than the moment that is asked for, and no others, whatever else the log holds.
-/

namespace TemplateBindings
namespace Audit

open Clock Files

variable {a b : Reading} {event : Event} {events : List Event} {lines : List Text}

/-! ### Lines -/

/-- **The line of an event** is its record, if the stamp is not earlier. -/
theorem objectOf?_print (since : Text) (event : Event) :
    objectOf? (some since) event.toJson.print =
      if Text.le since event.timestamp then some event.toJson else none := by
  rw [objectOf?, held_print, ← Json.le_ofText]
  rfl

/-- What is read of sound lines. -/
theorem recordsOf_of_isSound (since : Option Json.Symbols) (h : ∀ line ∈ lines, isSound line = true) :
    recordsOf since lines = .ok (lines.filterMap (objectOf? since)) := by
  rcases recordsOf_cases since lines with
    ⟨before, line, after, error, rfl, -, hstops, -⟩ | ⟨-, hok⟩
  · exact absurd hstops (not_stops_of_isSound (h line (by simp)) error)
  · rw [hok, List.filterMap_congr fun line hline => recordOf?_of_isSound (h line hline)]

theorem Tells.isSound (h : Tells lines events) : ∀ line ∈ lines, isSound line = true := by
  induction h with
  | nil => exact fun _ h => absurd h List.not_mem_nil
  | event event _ ih =>
    refine List.forall_mem_cons.2 ⟨?_, ih⟩
    rw [Audit.isSound, held_print]
    rfl
  | other holds _ ih =>
    refine List.forall_mem_cons.2 ⟨?_, ih⟩
    rw [Audit.isSound, holds]

/-- **The events that are not earlier than a stamp** are what is read of lines that tell of events. -/
theorem Tells.filterMap_objectOf? (h : Tells lines events) (since : Text) :
    lines.filterMap (objectOf? (some since)) =
      (events.filter fun event => Text.le since event.timestamp).map Event.toJson := by
  induction h with
  | nil => rfl
  | event event _ ih =>
    rw [List.filterMap_cons, objectOf?_print, List.filter_cons, ih]
    by_cases hlater : Text.le since event.timestamp = true
    · rw [if_pos hlater, if_pos hlater, List.map_cons]
    · rw [if_neg hlater, if_neg hlater]
  | other holds _ ih =>
    rw [List.filterMap_cons, objectOf?, holds, ih]

/-! ### Moments -/

/-- **The order of stamps is the order of time**, and a log is read accordingly. Take two clocks, in any
zones, at moments of the years with four digits. Each has a stamp, and the first stamp is not behind the
second as a text if and only if the first moment is not later, in whole milliseconds.

And let a log be asked for what is not earlier than the second stamp. If whatever is JSON in it is an
object that can be taken, it is read line by line; and of the lines that are events with the stamp of a
moment in these years those are taken whose moment is not earlier, in whole milliseconds. So if all of it
is such events, among lines that are no JSON, the last ones that are not earlier are what is read. -/
theorem since_exact (ha : InYears a.milliseconds) (hb : InYears b.milliseconds) :
    ∃ stamp since, a.stamp = .ok stamp ∧ b.stamp = .ok since ∧
      (Text.le stamp since = true ↔ a.milliseconds ≤ b.milliseconds) ∧
      (∀ (moment : Reading) (event : Event), InYears moment.milliseconds →
        moment.stamp = .ok event.timestamp →
        objectOf? (some since) event.toJson.print =
          if b.milliseconds ≤ moment.milliseconds then some event.toJson else none) ∧
      ∀ (files : Entry) (log : Path) (text : Text) (limit : Int),
        contents files log = .ok (Utf8.encode text) → 1 ≤ limit →
        ((∀ line ∈ Text.linesOf text, isSound line = true) →
          read files log (some since) limit =
            .ok (lastOf limit.toNat ((Text.linesOf text).filterMap (objectOf? (some since))))) ∧
        ∀ told : List (Reading × Event), Tells (Text.linesOf text) (told.map Prod.snd) →
          (∀ p ∈ told, InYears p.1.milliseconds ∧ p.1.stamp = .ok p.2.timestamp) →
          read files log (some since) limit =
            .ok (lastOf limit.toNat ((told.filter fun p =>
              b.milliseconds ≤ p.1.milliseconds).map fun p => p.2.toJson)) := by
  obtain ⟨stamp, hstamp, hshows⟩ := Reading.exists_stamp ha
  obtain ⟨since, hsince, hshows'⟩ := Reading.exists_stamp hb
  have hearlier (moment : Reading) (event : Event) (hmoment : InYears moment.milliseconds)
      (hevent : moment.stamp = .ok event.timestamp) :
      Text.le since event.timestamp = true ↔ b.milliseconds ≤ moment.milliseconds := by
    obtain ⟨own, hown, howns⟩ := Reading.exists_stamp hmoment
    obtain rfl : own = event.timestamp := Except.ok.inj (hown.symm.trans hevent)
    exact hshows'.le_iff howns
  refine ⟨stamp, since, hstamp, hsince, hshows.le_iff hshows', ?_, ?_⟩
  · intro moment event hmoment hevent
    rw [objectOf?_print]
    simp only [hearlier moment event hmoment hevent]
  · intro files log text limit hcontents hlimit
    refine ⟨fun hsound => ?_, fun told htells htold => ?_⟩
    · rw [read_of_contents hcontents hlimit, recordsOf_of_isSound _ hsound]
      rfl
    · rw [read_of_contents hcontents hlimit, recordsOf_of_isSound _ htells.isSound,
        htells.filterMap_objectOf?, List.filter_map, List.map_map]
      have hfilter : (told.filter fun p => Text.le since p.2.timestamp) =
          told.filter fun p => b.milliseconds ≤ p.1.milliseconds := by
        refine List.filter_congr fun p hp => ?_
        rw [Bool.eq_iff_iff, decide_eq_true_iff]
        exact hearlier p.1 p.2 (htold p hp).1 (htold p hp).2
      exact congrArg (fun found => Except.ok (lastOf limit.toNat (found.map fun p => p.2.toJson)))
        hfilter

/-- The last half hour of a leap day, an hour behind universal time. -/
def leapEvening : Reading := ⟨⟨2024, 2, 29⟩, 23, 30, 0, 999, ((-3600 : Int) : Offset)⟩

/-- The same millisecond a little earlier, on the next morning in another zone. -/
def nextMorning : Reading := ⟨⟨2024, 3, 1⟩, 6, 15, 0, 500, ((20700 : Int) : Offset)⟩

/-- The microsecond before that millisecond, in universal time. -/
def momentBefore : Reading := ⟨⟨2024, 3, 1⟩, 0, 29, 59, 999999, ((0 : Int) : Offset)⟩

/-- The event at a stamp. -/
def eventAt (stamp : Text) : Event := { trickyEvent with timestamp := stamp }

/-- A log of two of these moments, with a line between them that was broken off. -/
def leapLog : Text :=
  (eventAt "2024-03-01T00:29:59.999Z".toList).line ++ "\x7b\"action\"\n".toList ++
    (eventAt "2024-03-01T00:30:00.000Z".toList).line

theorem since_exact_leapLog :
    ∃ stamp since, leapEvening.stamp = .ok stamp ∧ nextMorning.stamp = .ok since ∧
      Text.le stamp since = true ∧
      read (diskWith leapLog).root ["log".toList] (some since) 5 =
        .ok [(eventAt "2024-03-01T00:30:00.000Z".toList).toJson] := by
  obtain ⟨stamp, since, hstamp, hsince, hle, -, hread⟩ :=
    since_exact (show InYears leapEvening.milliseconds by decide)
      (show InYears nextMorning.milliseconds by decide)
  have hlines : Text.linesOf leapLog =
      [(eventAt "2024-03-01T00:29:59.999Z".toList).toJson.print, "\x7b\"action\"".toList,
        (eventAt "2024-03-01T00:30:00.000Z".toList).toJson.print, []] := by
    decide +kernel
  have hfound := (hread (diskWith leapLog).root ["log".toList] leapLog 5 (by decide +kernel)
      (by decide)).2
    [(momentBefore, eventAt "2024-03-01T00:29:59.999Z".toList),
      (leapEvening, eventAt "2024-03-01T00:30:00.000Z".toList)]
    (by
      rw [hlines]
      exact .event _ (.other (by decide +kernel) (.event _ (.other held_nil .nil))))
    (by decide +kernel)
  exact ⟨stamp, since, hstamp, hsince, hle.2 (by decide), hfound.trans (by decide +kernel)⟩

end Audit
end TemplateBindings
