import TemplateBindings.Files.Path

/-!
# Configurations

Everything that decides what a build does: where the sources are, where the outputs go, how many
sources are worked on at a time, and where the audit log is, if there is one.
-/

namespace TemplateBindings

/-- **A configuration** of builds. -/
structure Config where
  /-- The root of the sources. -/
  inputRoot : Files.Path
  /-- The root of the outputs. -/
  outputRoot : Files.Path
  /-- How many sources are worked on at a time. -/
  workers : Int
  /-- The audit log. -/
  auditLog : Option Files.Path
  deriving DecidableEq, Repr

end TemplateBindings
