import TemplateBindings.Audit.Event
import TemplateBindings.Json.Parse
import TemplateBindings.Room
import TemplateBindings.Text.Blank
import TemplateBindings.Text.Lines

/-!
# Reading the audit log

The log is read line by line. Blanks around a line mean nothing, and lines that are not JSON are
passed over, so that a line broken off by a crash does not hide the others. Only the last records
are wanted, and those of them that are not earlier than a stamp: stamps are compared as texts, which
is the order of time.
-/

namespace TemplateBindings
namespace Audit

/-- **Why a log cannot be read**. -/
inductive RecordError where
  /-- A record that should have a stamp is no object; what it is instead. -/
  | notAnObject (type : Text)
  /-- A record has an integer with too many digits. -/
  | tooManyDigits (digits : Nat)
  /-- An array or object in a record stands in too many others. -/
  | tooDeep (nest : Json.Nest)
  deriving DecidableEq, Repr

/-- The kind of error that a report names. -/
def RecordError.kind : RecordError → Text
  | .notAnObject _ => "AttributeError".toList
  | .tooManyDigits _ => "ValueError".toList
  | .tooDeep _ => "RecursionError".toList

/-- The word for an array or an object. -/
def nestWord : Json.Nest → Text
  | .array => "array".toList
  | .object => "object".toList

/-- The wording of an error. -/
def RecordError.message : RecordError → Text
  | .notAnObject type =>
    '\'' :: type ++ "' object has no attribute 'get'".toList
  | .tooManyDigits digits => Text.tooManyDigits digits
  | .tooDeep nest =>
    "maximum recursion depth exceeded while decoding a JSON ".toList ++ nestWord nest
      ++ " from a unicode string".toList

/-- The word for the type of a record. -/
def typeWord : Json → Text
  | .null => "NoneType".toList
  | .bool _ => "bool".toList
  | .integer _ => "int".toList
  | .real _ => "float".toList
  | .text _ => "str".toList
  | .array _ => "list".toList
  | .object _ => "dict".toList

/-- Whether a record is not earlier than a stamp. -/
def notBefore (since : Json.Symbols) (record : Json) : Except RecordError Bool :=
  match record with
  | .object _ =>
    match record.member? "timestamp".toList with
    | some (.text stamp) => .ok (Text.le since stamp)
    | _ => .ok false
  | other => .error (.notAnObject (typeWord other))

/-- Whether a record is wanted. -/
def isWanted (since : Option Json.Symbols) (record : Json) : Except RecordError Bool :=
  match since with
  | none => .ok true
  | some stamp => notBefore stamp record

/-- How many arrays and objects may stand in each other in a record. -/
def nestingRoom : Nat := roomInside 10

/-- The record of a line, if the line has one and it is wanted. -/
def recordOf (since : Option Json.Symbols) (line : Text) : Except RecordError (Option Json) :=
  let content := Text.trim line
  if content.isEmpty then .ok none
  else
    match Json.parse nestingRoom content with
    | .error .malformed => .ok none
    | .error (.tooManyDigits digits) => .error (.tooManyDigits digits)
    | .error (.tooDeep nest) => .error (.tooDeep nest)
    | .ok record => (isWanted since record).map fun wanted => if wanted then some record else none

/-- The wanted records of some lines. -/
def recordsOf (since : Option Json.Symbols) : List Text → Except RecordError (List Json)
  | [] => .ok []
  | line :: rest =>
    match recordOf since line with
    | .error e => .error e
    | .ok record => (recordsOf since rest).map (record.toList ++ ·)

/-- The last members of a list. -/
def lastOf {α : Type} (limit : Nat) (xs : List α) : List α := xs.drop (xs.length - limit)

/-- **The last wanted records** in the text of a log, at most `limit` of them. -/
def records (text : Text) (since : Option Json.Symbols) (limit : Nat) :
    Except RecordError (List Json) :=
  (recordsOf since (Text.lines (Text.unifyLineEnds text))).map (lastOf limit)

end Audit
end TemplateBindings
