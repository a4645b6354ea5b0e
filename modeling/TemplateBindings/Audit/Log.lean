import TemplateBindings.Audit.Records
import TemplateBindings.Files.Disk
import TemplateBindings.Room
import TemplateBindings.Text.Utf8

/-!
# The audit log on disk

The log is a file that is only ever added to. Events are added all or none: an event that is none of
the known ones is refused before anything is written.
-/

namespace TemplateBindings
namespace Audit

open Files

/-! ### Adding events -/

/-- **Why events are not added**. -/
inductive LogError where
  /-- Nothing known happened in one of them. -/
  | unknownAction (action : Text)
  /-- The file cannot be written. -/
  | file (error : FileError)
  deriving DecidableEq, Repr

/-- The kind of error that a report names. -/
def LogError.kind : LogError → Text
  | .unknownAction _ => "ValueError".toList
  | .file e => e.kind

/-- The wording of an error. -/
def LogError.message : LogError → Text
  | .unknownAction action => "Unknown build action '".toList ++ action ++ "'.".toList
  | .file e => e.message

/-- The room for making the directories above that of a log. -/
def directoryRoom : Nat := roomInside 12

/-- The directory of a log, made if it is missing and there is room for those above it. -/
def prepare (room : Nat) (log : Path) : Work FileError Unit := ensureDirectories room log.parent

/-- Adds lines to a log; its directory is made again if it is gone. -/
def addLines (log : Path) (lines : Text) : Work FileError Unit := do
  prepare directoryRoom log
  perform (.append log (Utf8.encode lines))

/-- **Adds events to a log**. -/
def extend (log : Path) (events : List Event) : Work LogError Unit :=
  match events.find? fun event => !actions.contains event.action with
  | some event => throw (.unknownAction event.action)
  | none =>
    if events.isEmpty then pure ()
    else (addLines log (events.flatMap Event.line)).mapError .file

/-! ### Reading -/

/-- **Why a log on disk cannot be read**. -/
inductive ReadError where
  /-- The file cannot be read. -/
  | file (error : FileError)
  /-- Its bytes are no text. -/
  | undecodable (fault : Utf8.Fault)
  /-- Its records cannot be read. -/
  | record (error : RecordError)
  deriving DecidableEq, Repr

/-- The kind of error that a report names. -/
def ReadError.kind : ReadError → Text
  | .file e => e.kind
  | .undecodable _ => "UnicodeDecodeError".toList
  | .record e => e.kind

/-- The wording of an error. -/
def ReadError.message : ReadError → Text
  | .file e => e.message
  | .undecodable fault => fault.message
  | .record e => e.message

/-- **The last records of a log** that are not earlier than a stamp. A log that does not exist has
none, and a limit below one asks for none. -/
def read (files : Entry) (log : Path) (since : Option Json.Symbols) (limit : Int) :
    Except ReadError (List Json) :=
  if limit < 1 then .ok []
  else
    match isThere files log with
    | .error e => .error (.file e)
    | .ok false => .ok []
    | .ok true =>
      match contents files log with
      | .error e => .error (.file e)
      | .ok bytes =>
        match Utf8.decode bytes with
        | .error fault => .error (.undecodable fault)
        | .ok text => (records text since limit.toNat).mapError .record

end Audit
end TemplateBindings
