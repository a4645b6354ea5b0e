import TemplateBindings.Proofs.Audit.Lines
import TemplateBindings.Proofs.Audit.Tolerance
import TemplateBindings.Proofs.Files.Directories
import TemplateBindings.Proofs.Files.Growing

/-!
# A log reads back what was added to it

The events in a log stand on lines of their own, among lines of other origin that may be no JSON at
all (`TemplateBindings.Audit.Tells`). Adding events keeps it so, whatever their texts are, and a call
adds all of its events or none (`TemplateBindings.Audit.LogHolds.extend`). So after any number of calls
the last events of all are what is read (`TemplateBindings.Audit.read_extendAll`).

What is no JSON is said of a line *without the blanks around it*, as reading does. A line that is no
JSON only because of them is read as a record (`TemplateBindings.Audit.read_takes_indented`).
-/

namespace TemplateBindings
namespace Audit

open Files

variable {disk : Disk} {files : Entry} {log : Path} {line text : Text} {lines lines' : List Text}
  {event : Event} {events events' earlier : List Event} {limit : Int}

/-! ### Lines that tell of events -/

/-- **Lines tell of events**: there is one line for each of them, in their order, among lines that are
no JSON. -/
inductive Tells : List Text → List Event → Prop
  /-- No line tells of no event. -/
  | nil : Tells [] []
  /-- A line that is an event tells of it. -/
  | event (event : Event) {lines : List Text} {events : List Event} (rest : Tells lines events) :
    Tells (event.toJson.print :: lines) (event :: events)
  /-- A line that is no JSON tells of nothing. -/
  | other {line : Text} {lines : List Text} {events : List Event}
    (holds : held line = .error .malformed) (rest : Tells lines events) :
    Tells (line :: lines) events

theorem Tells.append (h : Tells lines events) (h' : Tells lines' events') :
    Tells (lines ++ lines') (events ++ events') := by
  induction h with
  | nil => exact h'
  | event event _ ih => exact .event event ih
  | other holds _ ih => exact .other holds ih

theorem print_toJson_ne_nil (event : Event) : event.toJson.print ≠ [] := List.cons_ne_nil _ _

/-- The empty line at the end does not matter. -/
theorem Tells.of_concat (h : Tells (lines ++ [line]) events) (hline : line = []) :
    Tells lines events := by
  induction lines generalizing events with
  | nil =>
    cases h with
    | event event rest => exact absurd hline (print_toJson_ne_nil event)
    | other _ rest => exact rest
  | cons first lines ih =>
    cases h with
    | event event rest => exact .event event (ih rest)
    | other holds rest => exact .other holds (ih rest)

/-- An event is read as itself. -/
theorem held_print (event : Event) : held event.toJson.print = .ok event.toJson := by
  have htrim : Text.trim event.toJson.print = event.toJson.print := by
    refine Text.trim_of_ends (fun c hc => ?_) fun c hc => ?_
    · cases hc
      rfl
    · rw [Event.toJson, Json.print, List.getLast?_concat] at hc
      cases hc
      rfl
  rw [held, htrim]
  exact Json.parse_print (numberless_toJson event 988)

/-- **The events that lines tell of are what is read of them.** -/
theorem Tells.recordsOf (h : Tells lines events) :
    recordsOf none lines = .ok (events.map Event.toJson) := by
  induction h with
  | nil => rfl
  | event event rest ih =>
    rw [Audit.recordsOf, recordOf_eq, held_print, ih]
    rfl
  | other holds rest ih =>
    rw [Audit.recordsOf, recordOf_eq, holds, ih]
    rfl

/-! ### Texts that more events are added to -/

theorem linesOf_line (event : Event) : Text.linesOf event.line = [event.toJson.print, []] :=
  Text.linesOf_line (fun h => absurd (isShown_of_mem_toJson event h) (by decide))
    fun h => absurd (isShown_of_mem_toJson event h) (by decide)

theorem endsLine_line (event : Event) : Text.EndsLine event.line := by
  intro c hc
  rw [Event.line, List.getLast?_concat] at hc
  cases hc
  exact .inl rfl

theorem held_nil : held [] = .error .malformed := rfl

/-- **An event that is added is told of** after those that were told of. -/
theorem Tells.append_line (hends : text.EndsLine) (h : Tells (Text.linesOf text) events) (event : Event) :
    Tells (Text.linesOf (text ++ event.line)) (events ++ [event]) := by
  obtain ⟨front, hfront⟩ := Text.linesOf_of_endsLine hends
  rw [Text.linesOf_append hends (by simp [Event.line, Event.toJson, Json.print]), linesOf_line]
  rw [hfront] at h ⊢
  rw [List.dropLast_concat]
  exact (h.of_concat rfl).append (.event event (.other held_nil .nil))

theorem Tells.flatMap_line (hends : text.EndsLine) (h : Tells (Text.linesOf text) earlier)
    (events : List Event) :
    (text ++ events.flatMap Event.line).EndsLine ∧
      Tells (Text.linesOf (text ++ events.flatMap Event.line)) (earlier ++ events) := by
  induction events generalizing text earlier with
  | nil =>
    rw [List.flatMap_nil, List.append_nil, List.append_nil]
    exact ⟨hends, h⟩
  | cons event events ih =>
    have hrest := ih (hends.append (endsLine_line event)) (h.append_line hends event)
    rwa [List.append_assoc, List.append_assoc, List.singleton_append] at hrest

/-! ### Logs that more events are added to -/

/-- **A log holds a text**, and more can be added to it: it is a file with that text, or it holds
nothing and there is a place for it. -/
structure LogHolds (files : Entry) (log : Path) (text : Text) : Prop where
  /-- The log is not the root directory. -/
  named : log ≠ []
  /-- The path leads to a file with the text, or to a place for a file. -/
  there : ∃ spot, locate files .file log = .ok spot ∧ spot.Writable (Utf8.encode text)

theorem LogHolds.ne_root (h : LogHolds files log text) : log ≠ [[]] := by
  rintro rfl
  obtain ⟨spot, hl, hw⟩ := h.there
  have hwalk : walk files .file linkLimit [] files [[]] = .ok spot := by
    rwa [locate, if_neg (by decide), if_neg (by decide)] at hl
  rw [linkLimit, walk_succ] at hwalk
  cases files with
  | directory members =>
    rw [walkWith, if_pos (by rfl), walkWith] at hwalk
    cases hwalk
    cases hw
  | file _ _ | link _ =>
    rw [walkWith] at hwalk
    · cases hwalk
    · simp

theorem LogHolds.exists_concat (h : LogHolds files log text) :
    ∃ names last, log = names ++ [last] ∧ log.parent = names ∧ names ++ [last] ≠ [[]] := by
  refine ⟨log.dropLast, log.getLast h.named, (List.dropLast_append_getLast h.named).symm, ?_, ?_⟩
  · rw [Path.parent]
    exact h.ne_root
  · rw [List.dropLast_append_getLast]
    exact h.ne_root

/-- The directory of a log that holds a text is there. -/
theorem LogHolds.prepare (h : LogHolds disk.root log text) (room : Nat) :
    (prepare room log).runOn disk = (.ok (), disk) := by
  obtain ⟨names, last, rfl, hparent, hne⟩ := h.exists_concat
  obtain ⟨spot, hl, -⟩ := h.there
  have htarget := locate_target_of_file hl
  rw [Audit.prepare, hparent]
  refine runOn_ensureDirectories_of_isDirectory room ?_ ?_
  · obtain ⟨way, entry, hl, -⟩ := locate_parent (show Goal.entry ≠ .file by simp) hne htarget
    refine Operation.apply_eq_error ?_
    rw [Operation.change, hl]
  · obtain ⟨way, entry, hl, hdir⟩ := locate_parent (show Goal.target ≠ .file by simp) hne htarget
    rw [isDirectory, satisfies, hl]
    exact congrArg Except.ok (hdir rfl)

/-- **Adding lines to a log** that holds a text goes well, and it holds the lines behind the text. -/
theorem LogHolds.addLines (h : LogHolds disk.root log text) (more : Text) :
    ∃ disk', (addLines log more).runOn disk = (.ok (), disk') ∧
      LogHolds disk'.root log (text ++ more) := by
  obtain ⟨spot, hl, hw⟩ := h.there
  have happend := Operation.apply_eq_ok.2
    (show (Operation.append log (Utf8.encode more)).change disk.now disk.root = .ok _ from
      writeWith_of_writable hw hl (· ++ Utf8.encode more))
  have hadd : (Audit.addLines log more).runOn disk = _ :=
    (Files.Work.runOn_bind_of_ok (h.prepare directoryRoom) _).trans (runOn_perform_ok happend)
  refine ⟨_, hadd, h.named, _, locate_put_file hw hl _ disk.now, ?_⟩
  rw [Utf8.encode_append]
  exact .file _ _ _

/-! ### One call -/

/-- What a call is told: that all is well, or what its first unknown event is about. -/
def verdict (events : List Event) : Except LogError Unit :=
  match events.find? fun event => !actions.contains event.action with
  | some event => .error (.unknownAction event.action)
  | none => .ok ()

/-- What a call adds: all of its events, if all are known, and else none. -/
def accepted (events : List Event) : List Event :=
  if events.all fun event => actions.contains event.action then events else []

/-- **A call with an unknown event changes nothing**, wherever the event stands in it. -/
theorem extend_of_unknown {before after : List Event}
    (hbefore : ∀ e ∈ before, e.action ∈ actions) (hevent : event.action ∉ actions) (log : Path)
    (disk : Disk) : (extend log (before ++ event :: after)).runOn disk =
      (.error (.unknownAction event.action), disk) := by
  have hfind : (before ++ event :: after).find? (fun e => !actions.contains e.action) =
      some event := by
    rw [List.find?_append, List.find?_eq_none.2 fun e he => by simp [hbefore e he],
      Option.none_or, List.find?_cons_of_pos (by simp [hevent])]
  rw [extend, hfind]
  rfl

/-- **What a call does** to a log that holds a text. -/
theorem LogHolds.extend (h : LogHolds disk.root log text) (events : List Event) :
    ∃ disk', (extend log events).runOn disk = (verdict events, disk') ∧
      LogHolds disk'.root log (text ++ (accepted events).flatMap Event.line) := by
  rw [Audit.extend, verdict, accepted]
  rcases hfind : events.find? fun event => !actions.contains event.action with _ | event
  · have hall : (events.all fun event => actions.contains event.action) = true := by
      rw [List.all_eq_true]
      intro event he
      simpa using List.find?_eq_none.1 hfind event he
    rw [if_pos hall, hfind]
    dsimp only
    by_cases hempty : events.isEmpty = true
    · rw [if_pos hempty, List.isEmpty_iff.1 hempty, List.flatMap_nil, List.append_nil]
      exact ⟨disk, rfl, h⟩
    · rw [if_neg hempty]
      obtain ⟨disk', hrun, hholds⟩ := h.addLines (events.flatMap Event.line)
      exact ⟨disk', by rw [Files.Work.runOn_mapError, hrun]; rfl, hholds⟩
  · have hnot : ¬ (events.all fun event => actions.contains event.action) = true := by
      intro hall
      have hknown := List.all_eq_true.1 hall event (List.mem_of_find?_eq_some hfind)
      have hunknown := List.find?_some hfind
      rw [hknown] at hunknown
      cases hunknown
    rw [if_neg hnot, hfind, List.flatMap_nil, List.append_nil]
    exact ⟨disk, rfl, h⟩

/-! ### Many calls -/

/-- **Adds events call by call**, whether or not a call fails: what each is told, and the disk
afterwards. -/
def extendAll (log : Path) : List (List Event) → Disk → List (Except LogError Unit) × Disk
  | [], disk => ([], disk)
  | events :: calls, disk =>
    let (told, mid) := (extend log events).runOn disk
    let (rest, last) := extendAll log calls mid
    (told :: rest, last)

/-- **What many calls do** to a log that holds a text. -/
theorem LogHolds.extendAll (h : LogHolds disk.root log text) (calls : List (List Event)) :
    (extendAll log calls disk).1 = calls.map verdict ∧
      LogHolds (extendAll log calls disk).2.root log
        (text ++ (calls.flatMap accepted).flatMap Event.line) := by
  induction calls generalizing disk text with
  | nil =>
    rw [List.flatMap_nil, List.flatMap_nil, List.append_nil]
    exact ⟨rfl, h⟩
  | cons events calls ih =>
    obtain ⟨mid, hrun, hholds⟩ := h.extend events
    obtain ⟨htold, hrest⟩ := ih hholds
    rw [Audit.extendAll, hrun, List.flatMap_cons, List.flatMap_append, ← List.append_assoc]
    exact ⟨by rw [List.map_cons, ← htold], hrest⟩

/-- What is read of a log that holds a text. -/
theorem LogHolds.read (h : LogHolds files log text) (hlimit : 1 ≤ limit) (since : Option Json.Symbols) :
    read files log since limit =
      ((recordsOf since (Text.linesOf text)).map (lastOf limit.toNat)).mapError .record := by
  obtain ⟨spot, hl, hw⟩ := h.there
  have htarget := locate_target_of_file hl
  obtain ⟨bytes, hbytes⟩ : ∃ bytes, bytes = Utf8.encode text := ⟨_, rfl⟩
  rw [← hbytes] at hw
  cases hw with
  | file way bytes time =>
    refine read_of_contents ?_ hlimit since
    rw [contents, htarget, hbytes]
  | vacant directory name =>
    have htext : text = [] := by
      have hdecode := Utf8.decode_encode text
      rw [← hbytes] at hdecode
      exact (Except.ok.inj hdecode).symm
    have hnone : recordsOf since (Text.linesOf []) = .ok [] := rfl
    rw [Audit.read, if_neg (by omega), isThere, satisfies, htarget, htext, hnone]
    simp [lastOf, Except.map, Except.mapError]

/-- **A log reads back what was added to it.** Let a log hold a text that is empty or ends with a line
end, whose lines are events added earlier and lines that are no JSON without the blanks around them.
Then any number of calls, with whatever texts in their events, are told what they should be, and the
last events of all, those of the calls that went well behind the earlier ones, are what is read, each
with its fields. A call with an unknown event anywhere in it is refused and changes nothing, on any
disk. -/
theorem read_extendAll (h : LogHolds disk.root log text) (hends : text.EndsLine)
    (htells : Tells (Text.linesOf text) earlier) (calls : List (List Event)) :
    (extendAll log calls disk).1 = calls.map verdict ∧
      (∀ limit : Int, 1 ≤ limit → read (extendAll log calls disk).2.root log none limit =
        .ok (lastOf limit.toNat ((earlier ++ calls.flatMap accepted).map Event.toJson))) ∧
      ∀ (other : Disk) (before after : List Event) (event : Event),
        (∀ e ∈ before, e.action ∈ actions) → event.action ∉ actions →
        (extend log (before ++ event :: after)).runOn other =
            (.error (.unknownAction event.action), other) ∧
          (LogError.unknownAction event.action).kind = "ValueError".toList := by
  obtain ⟨htold, hholds⟩ := h.extendAll calls
  refine ⟨htold, fun limit hlimit => ?_, fun other before after event hbefore hevent => ?_⟩
  · rw [hholds.read hlimit none, (htells.flatMap_line hends _).2.recordsOf]
    rfl
  · exact ⟨extend_of_unknown hbefore hevent log other, rfl⟩

/-- An event whose texts have what could end a line, or a text in it. -/
def trickyEvent : Event where
  timestamp := "2026\u2028".toList
  runId := "\"\\\n".toList
  path := "\r\n\x7b \x00 \x85 \u00e9 😀".toList
  action := written
  outputs := ["a\tb".toList, []]
  error := some "\x0b".toList

/-- An event in which nothing known happened. -/
def unknownEvent : Event := { trickyEvent with action := "Written".toList }

/-- A log with an event between a line that was broken off and a blank one. -/
def interruptedLog : Text :=
  "\x7b\"action\": \r".toList ++ trickyEvent.line ++ "\u2028\r\n".toList

theorem read_extendAll_interrupted :
    (extendAll ["log".toList] [[trickyEvent, unknownEvent], [], [trickyEvent]]
          (diskWith interruptedLog)).1 = [.error (.unknownAction "Written".toList), .ok (), .ok ()] ∧
      read (extendAll ["log".toList] [[trickyEvent, unknownEvent], [], [trickyEvent]]
          (diskWith interruptedLog)).2.root ["log".toList] none 5 =
        .ok [trickyEvent.toJson, trickyEvent.toJson] := by
  have hholds : LogHolds (diskWith interruptedLog).root ["log".toList] interruptedLog :=
    ⟨by decide, _, locate_found (by decide) (by decide) rfl (by simp), .file _ _ _⟩
  have hlines : Text.linesOf interruptedLog =
      ["\x7b\"action\": ".toList, trickyEvent.toJson.print, "\u2028".toList, []] := by
    decide +kernel
  have htells : Tells (Text.linesOf interruptedLog) [trickyEvent] := by
    rw [hlines]
    exact .other (by decide +kernel) (.event _ (.other (by decide +kernel) (.other held_nil .nil)))
  obtain ⟨htold, hread, -⟩ := read_extendAll hholds (by decide +kernel) htells
    [[trickyEvent, unknownEvent], [], [trickyEvent]]
  exact ⟨htold.trans (by decide +kernel), (hread 5 (by decide)).trans (by decide +kernel)⟩

/-- **A line that is no JSON only because of the blank in front of it** is read as a record. -/
theorem read_takes_indented :
    Json.parse nestingRoom "\x0b\x7b\x7d".toList = .error .malformed ∧
      Text.linesOf "\x0b\x7b\x7d\n".toList = ["\x0b\x7b\x7d".toList, []] ∧
      read (extendAll ["log".toList] [[trickyEvent]]
          (diskWith "\x0b\x7b\x7d\n".toList)).2.root ["log".toList] none 2 =
        .ok [.object [], trickyEvent.toJson] := by
  decide +kernel

end Audit
end TemplateBindings
