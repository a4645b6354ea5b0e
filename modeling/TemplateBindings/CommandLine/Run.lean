import TemplateBindings.Build.Run
import TemplateBindings.CommandLine.Arguments
import TemplateBindings.Config.Load

/-!
# Running the command

One call of the command: its arguments are read, the configuration is loaded, and one build is run.
The exit code says how it went: 0 if all sources were built, 1 if some failed, and 2 if nothing
could be built because of what was asked for.
-/

namespace TemplateBindings
namespace CommandLine

open Files

/-- **How a call ends**. -/
structure Exit where
  /-- The exit code. -/
  code : Nat
  /-- What is written to the standard output. -/
  output : Text := []
  /-- What is written to the standard error output. -/
  error : Text := []
  deriving DecidableEq, Repr

/-- **Why a call ends without an exit code**. -/
inductive Crash where
  /-- Nothing is given for an option that takes a path. -/
  | noPath
  /-- Nobody can say where a path among the arguments leads. -/
  | path (fault : PathFault)
  /-- The file of settings cannot be read. -/
  | load (error : Config.LoadError)
  /-- The build cannot be run. -/
  | run (error : Build.RunError)
  deriving DecidableEq, Repr

/-- The kind of error that a report names. -/
def Crash.kind : Crash → Text
  | .noPath => "TypeError".toList
  | .path fault => fault.kind
  | .load e => e.kind
  | .run e => e.kind

/-- The wording of a crash. -/
def Crash.message : Crash → Text
  | .noPath => "expected str, bytes or os.PathLike object, not list".toList
  | .path fault => fault.message
  | .load e => e.message
  | .run e => e.message

/-- **The surroundings of a call**. -/
structure Surroundings where
  /-- The directory that relative paths start at, if it is not gone. -/
  directory : Option Path
  /-- The number of processors, if it is known. -/
  processors : Option Nat
  /-- What a run takes from them. -/
  occasion : Build.Occasion

/-- The path that a text writes, seen from a directory that may be gone. -/
def pathFrom (directory : Option Path) (s : Text) : Except PathFault Path :=
  match directory with
  | some directory => .ok (Path.under directory s)
  | none =>
    if Path.isAbsolute s then .ok (Path.under [] s)
    else if s.contains '\x00' then .error .nullCharacter
    else .error .noStart

/-- The resolved path that an argument writes. -/
def pathArgument (files : Entry) (directory : Option Path) :
    Option (Given Text) → Except Crash (Option Path)
  | none => .ok none
  | some .nothing => .error .noPath
  | some (.value s) => ((pathFrom directory s >>= resolve files).mapError .path).map some

/-- The workers of an argument as a setting; nothing given is no integer. -/
def workersArgument : Option (Given Int) → Settings.Value
  | none => .nothing
  | some (.value n) => .integer n
  | some .nothing => .list []

/-- The overrides that the arguments say. -/
def overridesOf (files : Entry) (directory : Option Path) (arguments : Arguments) :
    Except Crash Config.Overrides := do
  let input ← pathArgument files directory arguments.inputRoot
  let output ← pathArgument files directory arguments.outputRoot
  let log ← pathArgument files directory arguments.auditLog
  return ⟨input, output, workersArgument arguments.workers, log⟩

/-- The configuration of the project that an argument names. -/
def configOf (files : Entry) (surroundings : Surroundings) (project : Text)
    (overrides : Config.Overrides) : Except Config.LoadError Config := do
  let root ← (pathFrom surroundings.directory project).mapError fun fault => .config (.path fault)
  Config.load files root surroundings.processors overrides

/-- The exit of a call whose configuration is refused. -/
def refusedExit (e : Config.LoadError) : Exit :=
  ⟨2, [], "Invalid configuration: ".toList ++ e.message ++ ['\n']⟩

/-- The exit of a call whose build has a report. -/
def reportExit (report : Build.Report) : Exit where
  code := if report.ok then 0 else 1
  output := report.summary ++ ['\n']
  error := report.failures.flatMap fun f => f.path.shown ++ ": ".toList ++ f.error ++ ['\n']

/-- The exit of a call whose build cannot be run because something is missing. -/
def missingExit (e : Build.RunError) : Exit := ⟨2, [], e.message ++ ['\n']⟩

/-- Whether an error of a run says that something is missing. -/
def isMissing (e : Build.RunError) : Bool := e.kind = Cause.missing.kind

/-- Runs the build of a configuration. -/
def build (config : Config) (occasion : Build.Occasion) : Work Crash Exit := do
  match ← (Build.run config occasion).run with
  | .ok report => return reportExit report
  | .error e => if isMissing e then return missingExit e else throw (.run e)

/-- Loads the configuration that the arguments ask for, and runs its build. -/
def buildWith (surroundings : Surroundings) (arguments : Arguments) : Work Crash Exit := do
  let overrides ← ask fun files => overridesOf files surroundings.directory arguments
  match arguments.projectRoot with
  | .nothing => throw .noPath
  | .value project =>
    match ← ask fun files => .ok (configOf files surroundings project overrides) with
    | .ok config => build config surroundings.occasion
    | .error e => if e.isRefusal then return refusedExit e else throw (.load e)

/-- **One call of the command**. -/
def run (surroundings : Surroundings) (line : List Text) : Work Crash Exit :=
  match readArguments line with
  | .ok arguments => buildWith surroundings arguments
  | .error .help => return ⟨0, helpText, []⟩
  | .error (.refused e) => return ⟨2, [], e.report⟩

end CommandLine
end TemplateBindings
