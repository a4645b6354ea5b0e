import TemplateBindings.Json.Basic

/-!
# Events of the audit log

The audit log of builds has one event for every source of a run and every output that the run
removed. An event is one line of JSON with its keys in order, so that the log can be cut into lines
and its lines compared as text.
-/

namespace TemplateBindings
namespace Audit

/-- **An event**. -/
structure Event where
  /-- When it happened, as a stamp. -/
  timestamp : Text
  /-- The run it happened in. -/
  runId : Text
  /-- The label of the source, or the path of the removed output. -/
  path : Str
  /-- What happened, one of `Audit.actions`. -/
  action : Text
  /-- The outputs that were written. -/
  outputs : List Str := []
  /-- The text of the error, if there was one. -/
  error : Option Text := none
  deriving DecidableEq, Repr

/-- What happens to a source that is written. -/
def written : Text := "written".toList

/-- What happens to a source that is current. -/
def cached : Text := "cached".toList

/-- What happens to a source with an error. -/
def failed : Text := "failed".toList

/-- What happens to an output that no run kept. -/
def removed : Text := "removed".toList

/-- **What can happen**. -/
def actions : List Text := [written, cached, failed, removed]

/-- An event as a value, its keys in order. -/
def Event.toJson (event : Event) : Json :=
  .object
    [("action".toList, .text event.action),
     ("error".toList, (event.error.map fun e : Text => Json.text e).getD .null),
     ("outputs".toList, .array (event.outputs.map fun output : Str => Json.text output)),
     ("path".toList, .text event.path),
     ("run_id".toList, .text event.runId),
     ("timestamp".toList, .text event.timestamp)]

/-- **The line of an event**, with the line feed that ends it. -/
def Event.line (event : Event) : Text := event.toJson.print ++ ['\n']

end Audit
end TemplateBindings
