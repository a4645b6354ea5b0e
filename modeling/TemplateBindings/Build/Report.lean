import TemplateBindings.Text.Str

/-!
# Reports

What a run says in the end: which sources were written, which were current, what was removed, and
which sources failed and why.
-/

namespace TemplateBindings
namespace Build

/-- A source that failed, by its label, and the text of its error. -/
structure Failure where
  /-- The label of the source. -/
  path : Str
  /-- The text of the error. -/
  error : Text
  deriving DecidableEq, Repr

/-- **The report of a run**. -/
structure Report where
  /-- The sources that were written. -/
  written : List Str
  /-- The sources that were current. -/
  cached : List Str
  /-- The outputs that were removed. -/
  removed : List Str
  /-- The sources that failed. -/
  failures : List Failure
  deriving DecidableEq, Repr

/-- Whether no source failed. -/
def Report.ok (report : Report) : Bool := report.failures.isEmpty

/-- The counts of a report on one line. -/
def Report.summary (report : Report) : Text :=
  "written=".toList ++ Text.ofNat report.written.length ++ " cached=".toList
    ++ Text.ofNat report.cached.length ++ " removed=".toList ++ Text.ofNat report.removed.length
    ++ " failed=".toList ++ Text.ofNat report.failures.length

end Build
end TemplateBindings
