import TemplateBindings.Config.Basic
import TemplateBindings.Files.Error
import TemplateBindings.Settings.Value
import TemplateBindings.Text.Blank

/-!
# Merging configurations

A configuration is put together in layers: the defaults for a project, then the settings of the
project, then the overrides of the caller. What the layers say is checked as they are merged, so
that every configuration that comes out is one that a build can be run with: its paths are resolved,
its workers are within bounds, and its outputs are not above its sources, where removing stale
outputs would remove sources.

Resolving paths is left to a function, because it may look at the file system.
-/

namespace TemplateBindings
namespace Config

open Files Settings

/-! ### Errors -/

/-- **What is wrong with a configuration**. -/
inductive Fault where
  /-- The section of the build is no table. -/
  | notATable
  /-- A key of the section means nothing. -/
  | unknownKey (key : Text)
  /-- A field should be a text that is not blank. -/
  | noPath (field : Text)
  /-- A field should be an integer from one on. -/
  | notPositive (field : Text)
  /-- A field is above its bound. -/
  | tooLarge (field : Text)
  /-- The outputs are at or above the sources. -/
  | outputsAboveSources
  /-- Nobody can say where a path leads. -/
  | path (fault : PathFault)
  deriving DecidableEq, Repr

/-- The most workers. -/
def maxWorkers : Int := 256

/-- The section of the build. -/
def buildSection : Text := "build".toList

/-- A message on a field. -/
def fieldMessage (field rest : Text) : Text :=
  "Config field '".toList ++ field ++ "' ".toList ++ rest

/-- The wording of a fault. -/
def Fault.message : Fault → Text
  | .notATable => "Config section '".toList ++ buildSection ++ "' must be a table.".toList
  | .unknownKey key => fieldMessage (buildSection ++ '.' :: key) "is not supported.".toList
  | .noPath field => fieldMessage field "must be a non-empty string.".toList
  | .notPositive field => fieldMessage field "must be a positive integer.".toList
  | .tooLarge field => fieldMessage field ("must be <= ".toList ++ Text.ofInt maxWorkers ++ ['.'])
  | .outputsAboveSources =>
    fieldMessage "output_dir".toList
      "must not contain input_dir; stale output removal would delete sources.".toList
  | .path fault => fault.message

/-- The kind of error that a report names. -/
def Fault.kind : Fault → Text
  | .path fault => fault.kind
  | _ => "ValueError".toList

/-! ### Layers -/

/-- The name of the directory that outputs go to by default. -/
def defaultOutputName : Text := "generated".toList

/-- **The defaults** for a project with a resolved root, on a machine with a number of processors
that may be unknown. -/
def default (root : Path) (processors : Option Nat) : Config where
  inputRoot := root
  outputRoot := root ++ [(defaultOutputName : Str)]
  workers := min (max 1 (processors.getD 1)) maxWorkers
  auditLog := none

/-- **Overrides** of the caller. -/
structure Overrides where
  /-- The root of the sources. -/
  inputRoot : Option Path := none
  /-- The root of the outputs. -/
  outputRoot : Option Path := none
  /-- How many sources are worked on at a time. -/
  workers : Value := .nothing
  /-- The audit log. -/
  auditLog : Option Path := none

/-- The keys of the section of the build. -/
def keys : List Text :=
  ["input_dir".toList, "output_dir".toList, "workers".toList, "audit_log".toList]

/-- The section of the build in the settings of a project. -/
def sectionOf (settings : Table) : Except Fault Table :=
  match settings.lookup buildSection with
  | none => .ok []
  | some (.table table) => .ok table
  | some _ => .error .notATable

/-- The first key, in the order of texts, that means nothing. -/
def unknownKey? (table : Table) : Option Text :=
  (Text.sorted ((table.map Prod.fst).filter fun key => !keys.contains key)).head?

/-! ### Fields -/

/-- The resolved path of a setting, seen from the root of the project. -/
def pathOf (resolve : Path → Except PathFault Path) (root : Path) (field : Text) :
    Value → Except Fault (Option Path)
  | .nothing => .ok none
  | .text s =>
    if Text.isAllBlank s then .error (.noPath field)
    else ((resolve (Path.under root s)).mapError .path).map some
  | _ => .error (.noPath field)

/-- The number of workers of a setting. -/
def workersOf (field : Text) (fallback : Int) : Value → Except Fault Int
  | .nothing => .ok fallback
  | .integer n =>
    if n < 1 then .error (.notPositive field)
    else if maxWorkers < n then .error (.tooLarge field)
    else .ok n
  | _ => .error (.notPositive field)

/-- The full name of a field of the section of the build. -/
def sectionField (key : Text) : Text := buildSection ++ '.' :: key

/-! ### Merging -/

/-- **A configuration with overrides**, checked. -/
def override (resolve : Path → Except PathFault Path) (config : Config) (overrides : Overrides) :
    Except Fault Config := do
  let workers ← workersOf "overrides.workers".toList config.workers overrides.workers
  let input ← (resolve (overrides.inputRoot.getD config.inputRoot)).mapError .path
  let output ← (resolve (overrides.outputRoot.getD config.outputRoot)).mapError .path
  if Path.isWithin output input then throw .outputsAboveSources
  let log ← match overrides.auditLog.or config.auditLog with
    | some log => ((resolve log).mapError .path).map some
    | none => pure none
  return ⟨input, output, workers, log⟩

/-- A configuration with the settings of a project with a root. -/
def withSettings (resolve : Path → Except PathFault Path) (config : Config) (settings : Table)
    (root : Path) : Except Fault Config := do
  let table ← sectionOf settings
  if let some key := unknownKey? table then throw (.unknownKey key)
  let path (key : Text) := pathOf resolve root (sectionField key) (table.get key)
  let input ← path "input_dir".toList
  let output ← path "output_dir".toList
  let log ← path "audit_log".toList
  let workers ←
    workersOf (sectionField "workers".toList) config.workers (table.get "workers".toList)
  return ⟨input.getD config.inputRoot, output.getD config.outputRoot, workers,
    log.or config.auditLog⟩

/-- **The merged configuration** of all layers. -/
def merge (resolve : Path → Except PathFault Path) (base : Config) (settings : Table)
    (overrides : Overrides) (root : Path) : Except Fault Config := do
  let config ← withSettings resolve base settings root
  override resolve config overrides

end Config
end TemplateBindings
