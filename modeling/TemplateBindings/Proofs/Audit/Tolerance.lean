import Mathlib.Data.List.Basic
import TemplateBindings.Audit.Log
import TemplateBindings.Proofs.Json.Equality
import TemplateBindings.Proofs.Text.Lines
import TemplateBindings.Proofs.Text.Utf8

/-!
# What a log may hold

A log is read line by line, and a line that is no JSON is passed over. What is made of one that is
JSON is its record, if it is asked for (`TemplateBindings.Audit.recordOf?`). But there are lines that
reading stops at (`TemplateBindings.Audit.Stops`): the ones whose JSON is beyond what a reader takes,
and, where a stamp is asked for, the ones that are no object. So not every log can be read, and what
is read need not be objects.

* `TemplateBindings.Audit.read_tolerates` – which logs are read, what is read of them, and which line
  reading stops at. If whatever is JSON is an object that can be taken, the log is read and the
  objects that are asked for are what is read.
* `TemplateBindings.Audit.read_stops_at_array` – a log that holds an array.
-/

namespace TemplateBindings
namespace Audit

open Files

variable {since : Option Json.Symbols} {line text : Text} {lines : List Text} {found : List Json}
  {files : Entry} {log : Path} {limit : Int} {error : RecordError}

/-! ### Lines -/

/-- What a line holds, blanks around it aside. -/
def held (line : Text) : Except Json.Fault Json := Json.parse nestingRoom (Text.trim line)

/-- **Whether a record is asked for**: every one is, or an object with a stamp that is not earlier. -/
def isAskedFor (since : Option Json.Symbols) (record : Json) : Bool :=
  match since with
  | none => true
  | some stamp =>
    match record.member? "timestamp".toList with
    | some (.text own) => Text.le stamp own
    | _ => false

/-- **The record of a line**, if it is asked for. -/
def recordOf? (since : Option Json.Symbols) (line : Text) : Option Json :=
  match held line with
  | .ok record => if isAskedFor since record then some record else none
  | .error _ => none

/-- **The object of a line**, if it is asked for. -/
def objectOf? (since : Option Json.Symbols) (line : Text) : Option Json :=
  match held line with
  | .ok (.object members) =>
    if isAskedFor since (.object members) then some (.object members) else none
  | _ => none

/-- **Reading stops at a line**, for a reason. -/
inductive Stops (since : Option Json.Symbols) (line : Text) : RecordError → Prop
  /-- It holds an integer with too many digits. -/
  | tooManyDigits {digits : Nat} (holds : held line = .error (.tooManyDigits digits)) :
    Stops since line (.tooManyDigits digits)
  /-- It holds arrays and objects too deep in each other. -/
  | tooDeep {nest : Json.Nest} (holds : held line = .error (.tooDeep nest)) :
    Stops since line (.tooDeep nest)
  /-- A stamp is asked for, and it holds something that is no object. -/
  | notAnObject {record : Json} (holds : held line = .ok record) (asked : since ≠ none)
    (other : ∀ members, record ≠ .object members) :
    Stops since line (.notAnObject (typeWord record))

/-- **A line that is an object or no JSON at all.** -/
def isSound (line : Text) : Bool :=
  match held line with
  | .ok (.object _) => true
  | .error .malformed => true
  | _ => false

/-! ### One line -/

theorem notBefore_object (stamp : Json.Symbols) (members : List (Json.Symbols × Json)) :
    notBefore stamp (.object members) = .ok (isAskedFor (some stamp) (.object members)) := by
  rw [notBefore, isAskedFor]
  rcases (Json.object members).member? "timestamp".toList with _ | _ | _ | _ | _ | _ | _ | _ <;> rfl

theorem notBefore_of_not_object (stamp : Json.Symbols) {record : Json}
    (h : ∀ members, record ≠ .object members) :
    notBefore stamp record = .error (.notAnObject (typeWord record)) := by
  cases record with
  | object members => exact absurd rfl (h members)
  | null | bool _ | integer _ | real _ | text _ | array _ => rfl

/-- A line without anything but blanks is no different from others. -/
theorem recordOf_eq (since : Option Json.Symbols) (line : Text) :
    recordOf since line =
      match held line with
      | .error .malformed => .ok none
      | .error (.tooManyDigits digits) => .error (.tooManyDigits digits)
      | .error (.tooDeep nest) => .error (.tooDeep nest)
      | .ok record =>
        (isWanted since record).map fun wanted => if wanted then some record else none := by
  rw [recordOf, held]
  split
  · next hempty =>
    rw [List.isEmpty_iff.1 hempty]
    rfl
  · rfl

/-- Reading stops at a line with the error that is the reason. -/
theorem Stops.recordOf_eq (h : Stops since line error) : recordOf since line = .error error := by
  rw [Audit.recordOf_eq]
  cases h with
  | tooManyDigits holds | tooDeep holds => rw [holds]
  | notAnObject holds asked other =>
    obtain ⟨stamp, rfl⟩ := Option.ne_none_iff_exists'.1 asked
    rw [holds]
    dsimp only
    rw [isWanted, notBefore_of_not_object stamp other]
    rfl

theorem stops_or_recordOf_eq (since : Option Json.Symbols) (line : Text) :
    (∃ error, Stops since line error) ∨ recordOf since line = .ok (recordOf? since line) := by
  rw [recordOf_eq, recordOf?]
  rcases hheld : held line with (_ | digits | nest) | record
  · exact .inr rfl
  · exact .inl ⟨_, .tooManyDigits hheld⟩
  · exact .inl ⟨_, .tooDeep hheld⟩
  · cases since with
    | none => exact .inr rfl
    | some stamp =>
      by_cases hobject : ∃ members, record = .object members
      · obtain ⟨members, rfl⟩ := hobject
        refine .inr ?_
        dsimp only
        rw [isWanted, notBefore_object]
        rfl
      · exact .inl ⟨_, .notAnObject hheld (by simp) fun members he => hobject ⟨members, he⟩⟩

/-- **What is made of a line**: reading stops at it, or its record is taken, if it is asked for. -/
theorem recordOf_cases (since : Option Json.Symbols) (line : Text) :
    (∃ error, Stops since line error ∧ recordOf since line = .error error) ∨
      (∀ error, ¬ Stops since line error) ∧ recordOf since line = .ok (recordOf? since line) := by
  rcases stops_or_recordOf_eq since line with ⟨error, hstops⟩ | hok
  · exact .inl ⟨error, hstops, hstops.recordOf_eq⟩
  · refine .inr ⟨fun error hstops => ?_, hok⟩
    cases hok.symm.trans hstops.recordOf_eq

/-! ### Many lines -/

theorem recordsOf_cons (since : Option Json.Symbols) (line : Text) (lines : List Text) :
    (∃ error, Stops since line error ∧ recordsOf since (line :: lines) = .error error) ∨
      (∀ error, ¬ Stops since line error) ∧ recordsOf since (line :: lines) =
        (recordsOf since lines).map ((recordOf? since line).toList ++ ·) := by
  rw [recordsOf]
  refine (recordOf_cases since line).imp ?_ ?_
  · rintro ⟨error, hstops, he⟩
    exact ⟨error, hstops, by rw [he]⟩
  · rintro ⟨hnot, he⟩
    exact ⟨hnot, by rw [he]⟩

/-- **What is read of lines**: reading stops at the first line that it stops at, or takes the records
that are asked for. -/
theorem recordsOf_cases (since : Option Json.Symbols) (lines : List Text) :
    (∃ before line after error, lines = before ++ line :: after ∧
        (∀ l ∈ before, ∀ e, ¬ Stops since l e) ∧ Stops since line error ∧
        recordsOf since lines = .error error) ∨
      (∀ line ∈ lines, ∀ error, ¬ Stops since line error) ∧
        recordsOf since lines = .ok (lines.filterMap (recordOf? since)) := by
  induction lines with
  | nil => exact .inr ⟨fun _ h => absurd h List.not_mem_nil, rfl⟩
  | cons line lines ih =>
    rcases recordsOf_cons since line lines with ⟨error, hstops, he⟩ | ⟨hnot, he⟩
    · exact .inl ⟨[], line, lines, error, rfl, fun _ h => absurd h List.not_mem_nil, hstops, he⟩
    · rw [he]
      rcases ih with ⟨before, bad, after, error, rfl, hbefore, hstops, herror⟩ | ⟨hrest, hok⟩
      · exact .inl ⟨line :: before, bad, after, error, rfl,
          List.forall_mem_cons.2 ⟨hnot, hbefore⟩, hstops, by rw [herror]; rfl⟩
      · refine .inr ⟨List.forall_mem_cons.2 ⟨hnot, hrest⟩, ?_⟩
        rw [hok, List.filterMap_cons]
        cases recordOf? since line <;> rfl

theorem recordsOf_of_stops {before after : List Text}
    (hbefore : ∀ l ∈ before, ∀ e, ¬ Stops since l e) (hstops : Stops since line error) :
    recordsOf since (before ++ line :: after) = .error error := by
  induction before with
  | nil => rw [List.nil_append, recordsOf, hstops.recordOf_eq]
  | cons first before ih =>
    obtain ⟨hfirst, hrest⟩ := List.forall_mem_cons.1 hbefore
    rcases recordsOf_cons since first (before ++ line :: after) with ⟨e, he, -⟩ | ⟨-, he⟩
    · exact absurd he (hfirst e)
    · rw [List.cons_append, he, ih hrest]
      rfl

/-- Reading does not stop at sound lines, and takes their objects. -/
theorem not_stops_of_isSound (h : isSound line = true) (error : RecordError) :
    ¬ Stops since line error := by
  rw [isSound] at h
  intro hstops
  cases hstops with
  | tooManyDigits holds | tooDeep holds =>
    rw [holds] at h
    cases h
  | @notAnObject record holds _ other =>
    rw [holds] at h
    cases record with
    | object members => exact other members rfl
    | null | bool _ | integer _ | real _ | text _ | array _ => cases h

theorem recordOf?_of_isSound (h : isSound line = true) :
    recordOf? since line = objectOf? since line := by
  rw [isSound] at h
  rw [recordOf?, objectOf?]
  rcases hheld : held line with fault | record
  · rfl
  · rw [hheld] at h
    cases record with
    | object members => rfl
    | null | bool _ | integer _ | real _ | text _ | array _ => cases h

/-! ### Logs -/

/-- What is read of a log with a text. -/
theorem read_of_contents (h : contents files log = .ok (Utf8.encode text)) (hlimit : 1 ≤ limit)
    (since : Option Json.Symbols) :
    read files log since limit =
      ((recordsOf since (Text.linesOf text)).map (lastOf limit.toNat)).mapError .record := by
  have hthere : isThere files log = .ok true := by
    rw [contents] at h
    rw [isThere, satisfies]
    split at h
    · next hl => rw [hl]
    · cases h
    · cases h
    · cases h
  rw [read, if_neg (by omega), hthere, h]
  dsimp only
  rw [Utf8.decode_encode]
  rfl

/-- **What a log may hold.** For every text that a log can hold, every stamp or none, and every limit
of at least one record: the log is read if and only if there is no line that reading stops at, and
then the last records that are asked for are what is read, in the order of the file; else the reason
is that of the first such line. If whatever is JSON in it is an object that can be taken, the log is
read, and what is read are objects. -/
theorem read_tolerates (h : contents files log = .ok (Utf8.encode text)) (hlimit : 1 ≤ limit)
    (since : Option Json.Symbols) :
    (∀ found, read files log since limit = .ok found ↔
        (∀ line ∈ Text.linesOf text, ∀ error, ¬ Stops since line error) ∧
          found = lastOf limit.toNat ((Text.linesOf text).filterMap (recordOf? since))) ∧
      (∀ e, read files log since limit = .error e ↔
        ∃ before line after error, Text.linesOf text = before ++ line :: after ∧
          (∀ l ∈ before, ∀ other, ¬ Stops since l other) ∧ Stops since line error ∧
          e = .record error) ∧
      ((∀ line ∈ Text.linesOf text, isSound line = true) → read files log since limit =
        .ok (lastOf limit.toNat ((Text.linesOf text).filterMap (objectOf? since)))) := by
  rw [read_of_contents h hlimit since]
  have hsound (hs : ∀ line ∈ Text.linesOf text, isSound line = true) :
      (∀ line ∈ Text.linesOf text, ∀ error, ¬ Stops since line error) ∧
        (Text.linesOf text).filterMap (recordOf? since) =
          (Text.linesOf text).filterMap (objectOf? since) :=
    ⟨fun line hl error => not_stops_of_isSound (hs line hl) error,
      List.filterMap_congr fun line hl => recordOf?_of_isSound (hs line hl)⟩
  rcases recordsOf_cases since (Text.linesOf text) with
    ⟨before, line, after, error, hlines, hbefore, hstops, herror⟩ | ⟨hnot, hok⟩
  · have hline : line ∈ Text.linesOf text := by simp [hlines]
    rw [herror]
    refine ⟨fun found => iff_of_false (fun h => by cases h) fun ⟨hnot, _⟩ => ?_, fun e => ?_,
      fun hs => ?_⟩
    · exact hnot line hline error hstops
    · constructor
      · intro he
        cases he
        exact ⟨before, line, after, error, hlines, hbefore, hstops, rfl⟩
      · rintro ⟨before', line', after', error', hlines', hbefore', hstops', rfl⟩
        have herror' : recordsOf since (Text.linesOf text) = .error error' := by
          rw [hlines']
          exact recordsOf_of_stops hbefore' hstops'
        cases herror.symm.trans herror'
        rfl
    · exact absurd hstops ((hsound hs).1 line hline error)
  · rw [hok]
    refine ⟨fun found => ?_, fun e => iff_of_false (fun h => by cases h) ?_, fun hs => ?_⟩
    · constructor
      · intro hfound
        exact ⟨hnot, (Except.ok.inj hfound).symm⟩
      · rintro ⟨-, rfl⟩
        rfl
    · rintro ⟨before, line, after, error, hlines, -, hstops, -⟩
      exact hnot line (by simp [hlines]) error hstops
    · rw [(hsound hs).2]
      rfl

/-- A log with lines of each kind that is passed over, ended in each way. -/
def mixedLog : Text :=
  "\x7b\"timestamp\": \"2026\"\x7d\n".toList ++ "broken off \x7b\n\n".toList ++
    "\x7b\"timestamp\": 2027\x7d\r\n".toList ++ "\x7b\"n\": [1]\x7d\r".toList ++
    "\x7b\"timestamp\": \"2023\"\x7d\n".toList ++
    " \x7b\"timestamp\": \"2025\"\x7d\u2028\n".toList ++
    "\x7b\"timestamp\": \"2024\"\x7d".toList

/-- A disk with a log that holds a text. -/
def diskWith (text : Text) : Disk where
  root := .directory [("log".toList, .file (Utf8.encode text) 0)]
  now := 0

theorem read_tolerates_mixed :
    read (diskWith mixedLog).root ["log".toList] (some "2024".toList) 2 =
      .ok [.object [("timestamp".toList, .text "2025".toList)],
        .object [("timestamp".toList, .text "2024".toList)]] := by
  have hcontents : contents (diskWith mixedLog).root ["log".toList] =
      .ok (Utf8.encode mixedLog) := by
    decide +kernel
  have hread := (read_tolerates hcontents (show (1 : Int) ≤ 2 by decide)
    (some "2024".toList)).2.2 (by decide +kernel)
  rw [hread]
  decide +kernel

/-- **Reading stops at an array** where a stamp is asked for, and takes it for a record where none
is. -/
theorem read_stops_at_array :
    read (diskWith "[]\n".toList).root ["log".toList] (some "2024".toList) 1 =
        .error (.record (.notAnObject "list".toList)) ∧
      read (diskWith "[]\n".toList).root ["log".toList] none 1 = .ok [.array []] := by
  decide +kernel

end Audit
end TemplateBindings
