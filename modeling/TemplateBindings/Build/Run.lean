import TemplateBindings.Audit.Log
import TemplateBindings.Build.Batch
import TemplateBindings.Build.Discovery
import TemplateBindings.Build.Outcome
import TemplateBindings.Build.Stale
import TemplateBindings.Config.Basic

/-!
# Runs

A run brings the outputs up to date with the sources: each source is compiled or found to be
current, and then every output that no source kept is removed. Failing sources do not stop a run.
What does stop it is that there are no sources to look for, or that a directory it needs cannot be
made or read.
-/

namespace TemplateBindings
namespace Build

open Files

/-! ### Errors -/

/-- **Why a run stops**. -/
inductive RunError where
  /-- The root of the sources is no directory. -/
  | noInput (root : Path)
  /-- A file or directory cannot be worked on. -/
  | file (error : FileError)
  /-- Nobody can say where a path leads. -/
  | path (fault : PathFault)
  /-- The events cannot be logged. -/
  | log (error : Audit.LogError)
  deriving DecidableEq, Repr

/-- The kind of error that a report names. -/
def RunError.kind : RunError → Text
  | .noInput _ => Cause.missing.kind
  | .file e => e.kind
  | .path fault => fault.kind
  | .log e => e.kind

/-- The wording of an error. -/
def RunError.message : RunError → Text
  | .noInput root => "Input directory does not exist: ".toList ++ root.render.shown
  | .file e => e.message
  | .path fault => fault.message
  | .log e => e.message

/-! ### Working through the sources -/

/-- Puts a directory of outputs among those that the run has tried to make, and says whether it is
new there. -/
def claim (directory : Path) : Thread (Disk × List Path) Bool :=
  .step (fun s => (s.1, if s.2.contains directory then s.2 else directory :: s.2))
    fun s => .done (!s.2.contains directory)

/-- **Works on one source**. A directory of outputs is tried once in a run, whether it can be made
or not. -/
def workOn (roots : Roots) (sources : List Source) (source : Source) :
    Thread (Disk × List Path) Outcome := do
  let sheet := source.stylesheet? sources
  match ← (takeStaleMarker roots source sheet).run.beside with
  | .error e => return .failed e
  | .ok none => return .cached
  | .ok (some marker) =>
    let ensure ← claim (roots.output ++ source.place)
    match ← (makeOutputs roots source sheet marker ensure).run.beside with
    | .ok artifacts => return .written artifacts
    | .error e => return .failed e

/-- **Works on sources in batches**. Those of a batch are worked on at the same time. The outcomes
are in the order in which work on the sources ended. -/
def workThrough (roots : Roots) (sources : List Source) (turns : List (List Nat))
    (plan : List (List Source)) : Thread Disk (List (Source × Outcome)) :=
  (Thread.inBatches turns
    (plan.map fun batch => batch.map fun s => (s, workOn roots sources s))).keeping []

/-! ### Reports -/

/-- What the outcomes of a run keep. -/
def kept (outputRoot : Path) (outcomes : List (Source × Outcome)) : List Path :=
  outcomes.flatMap fun o => o.2.keeps (o.1.outputs outputRoot)

/-- The failure of a source, if it failed. -/
def failure? (source : Source) : Outcome → Option Failure
  | .failed e => some ⟨source.label, e.report⟩
  | _ => none

/-- Whether an outcome is that of a source that was written. -/
def Outcome.isWritten : Outcome → Bool
  | .written _ => true
  | _ => false

/-- **The report** on outcomes and removed outputs. -/
def reportOn (outcomes : List (Source × Outcome)) (removed : List Str) : Report where
  written := Text.sorted ((outcomes.filter (·.2.isWritten)).map (·.1.label))
  cached := Text.sorted ((outcomes.filter (·.2 = .cached)).map (·.1.label))
  removed := removed
  failures := Text.orderedBy Failure.path (outcomes.filterMap fun o => failure? o.1 o.2)

/-- The events of a run: its sources in the order of their outcomes, then what was removed. -/
def eventsOf (occasion : Occasion) (outputRoot : Path) (outcomes : List (Source × Outcome))
    (removed : List Str) : List Audit.Event :=
  outcomes.map (fun o => eventOf occasion outputRoot o.1 o.2) ++ removed.map (removalEvent occasion)

/-! ### The run -/

/-- The room for making the directories above that of a run's log. -/
def logRoom : Nat := roomInside 24

/-- The room for removing what is stale from directories in each other. -/
def sweepRoom : Nat := roomInside 24

/-- The roots of a run, where there is a directory of sources. The directory of a log is made before
anything else, and that of the outputs as soon as there are sources to look for. -/
def openRoots (config : Config) : Work RunError Roots := do
  match config.auditLog with
  | some log => (Audit.prepare logRoom log).mapError .file
  | none => pure ()
  let input ← ask fun files => (resolve files config.inputRoot).mapError .path
  let output ← ask fun files => (resolve files config.outputRoot).mapError .path
  let hasInput ← ask fun files => (isDirectory files input).mapError .file
  if !hasInput then throw (.noInput input)
  (ensureDirectories directoryRoom output).mapError .file
  return ⟨input, output⟩

/-- The path of the log that a run must not remove. -/
def keptLog (config : Config) : Work RunError (List Path) :=
  match config.auditLog with
  | some log => return [← ask fun files => (resolve files log).mapError .path]
  | none => return []

/-- Adds the events of a run to its log, if it has one. -/
def logEvents (config : Config) (events : List Audit.Event) : Work RunError Unit :=
  match config.auditLog with
  | some log => (Audit.extend log events).mapError .log
  | none => pure ()

/-- **A run** that has a plan for the batches in which the sources are worked on. -/
def runBy (plan : List Source → List (List Source)) (config : Config) (occasion : Occasion) :
    Work RunError Report := do
  let roots ← openRoots config
  let log ← keptLog config
  let sources ← ask fun files => (discover files roots.input [roots.output]).mapError .file
  let outcomes ← workThrough roots sources occasion.turns (plan (markupOf sources))
  let keep := log ++ kept roots.output outcomes
  let removals ← (removeStale sweepRoom roots.output keep).mapError .file
  let removed := removals.map (outputLabel roots.output)
  logEvents config (eventsOf occasion roots.output outcomes removed)
  return reportOn outcomes removed

/-- **A run**: as many sources are worked on at the same time as the configuration says. -/
def run (config : Config) (occasion : Occasion) : Work RunError Report :=
  runBy (batches config.workers) config occasion

end Build
end TemplateBindings
