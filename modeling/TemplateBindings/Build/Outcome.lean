import TemplateBindings.Audit.Event
import TemplateBindings.Build.Marker
import TemplateBindings.Build.Outputs
import TemplateBindings.Build.Report
import TemplateBindings.Files.Disk
import TemplateBindings.Room

/-!
# One source

What a run does with one source. A source whose module is current is not read. Any other is
compiled, and its outputs are written, the module last: its marker says that the others are there
too. An error is the outcome of its source and of no other, and leaves the outputs of the source as
they are.
-/

namespace TemplateBindings
namespace Build

open Files

/-- **The roots** of a run, resolved. -/
structure Roots where
  /-- The root of the sources. -/
  input : Path
  /-- The root of the outputs. -/
  output : Path
  deriving DecidableEq, Repr

/-! ### Errors -/

/-- **Why a source fails**. -/
inductive SourceError where
  /-- A file cannot be read or written. -/
  | file (error : FileError)
  /-- The time of a last change has no stamp. -/
  | clock (error : Clock.ClockError)
  /-- A file is no text. -/
  | undecodable (fault : Utf8.Fault)
  /-- The markup is refused. -/
  | markup (error : Template.FragmentError)
  /-- An output is no text, because of the name of its source. -/
  | unencodable (fault : Str.Fault)
  deriving DecidableEq, Repr

/-- The kind of error that a report names. -/
def SourceError.kind : SourceError → Text
  | .file e => e.kind
  | .clock e => e.kind
  | .undecodable _ => "UnicodeDecodeError".toList
  | .markup e => e.kind
  | .unencodable _ => "UnicodeEncodeError".toList

/-- The wording of an error. -/
def SourceError.message : SourceError → Text
  | .file e => e.message
  | .clock e => e.message
  | .undecodable fault => fault.message
  | .markup e => e.message
  | .unencodable fault => fault.message

/-- An error in a report: its kind and its wording. -/
def SourceError.report (e : SourceError) : Text := e.kind ++ ": ".toList ++ e.message

/-! ### Outcomes -/

/-- **The outcome of a source**. -/
inductive Outcome where
  /-- It was compiled, and these outputs were written. -/
  | written (artifacts : List Path)
  /-- Its module is current. -/
  | cached
  /-- It has an error. -/
  | failed (error : SourceError)
  deriving DecidableEq, Repr

/-- The outputs that an outcome keeps: those written, or any that may be there from before. -/
def Outcome.keeps (outputs : Outputs) : Outcome → List Path
  | .written artifacts => artifacts
  | .cached | .failed _ => outputs.all

/-! ### Is a module current? -/

/-- A question about the stylesheet beside a source, if there is one. -/
def askBeside {α : Type} (sheet : Option Source)
    (question : Entry → Source → Except SourceError α) : Work SourceError (Option α) :=
  match sheet with
  | some sheet => ask fun files => (question files sheet).map some
  | none => return none

/-- Takes the marker of a source with the stylesheet beside it. -/
def takeMarker (root : Path) (source : Source) (sheet : Option Source) :
    Work SourceError Text := do
  let time ← ask fun files => (modified files (source.path root)).mapError .file
  let sheetTime ← askBeside sheet fun files sheet =>
    (modified files (sheet.path root)).mapError .file
  MonadExcept.ofExcept ((markerOfTimes time sheetTime).mapError .clock)

/-- **Takes the marker for a new module**, or none if there is a module that is current. -/
def takeStaleMarker (roots : Roots) (source : Source) (sheet : Option Source) :
    Work SourceError (Option Text) := do
  let marker ← takeMarker roots.input source sheet
  let module := (source.outputs roots.output).module
  let existing ← ask fun files => (existingMarker files module).mapError .file
  return if existing = some marker then none else some marker

/-! ### Making outputs -/

/-- The text of a source, with every line end made a line feed. -/
def readText (files : Entry) (path : Path) : Except SourceError Text :=
  match contents files path with
  | .error e => .error (.file e)
  | .ok bytes => ((Utf8.decode bytes).mapError .undecodable).map Text.unifyLineEnds

/-- Compiles one source. -/
def compileInputs (root : Path) (source : Source) (sheet : Option Source) (marker : Text) :
    Work SourceError GeneratedModule.Artifacts := do
  let html ← ask fun files => readText files (source.path root)
  let css ← askBeside sheet fun files sheet => readText files (sheet.path root)
  MonadExcept.ofExcept ((GeneratedModule.compile html marker source.name css).mapError .markup)

/-- The outputs to write with their texts, the module last. -/
def artifactTexts (outputs : Outputs) (artifacts : GeneratedModule.Artifacts) :
    List (Path × Str) :=
  (artifacts.classModule.map fun text => (outputs.classModule, (text : Str))).toList
    ++ (artifacts.stylesheet.map fun text => (outputs.stylesheet, (text : Str))).toList
    ++ [(outputs.module, artifacts.module)]

/-- Writes an output. One that is no text leaves an empty file under its other name. -/
def writeArtifact (path : Path) (text : Str) : Work SourceError Unit :=
  match text.encode with
  | .ok bytes => (replaceFile path bytes).mapError .file
  | .error fault => do
    (beginFile path).mapError .file
    throw (.unencodable fault)

/-- Writes outputs one after another. -/
def writeArtifacts (artifacts : List (Path × Str)) : Work SourceError Unit :=
  artifacts.forM fun artifact => writeArtifact artifact.1 artifact.2

/-- The room for making the directories above that of an output. -/
def directoryRoom : Nat := roomInside 23

/-- Makes a directory of outputs, if it is to be made. -/
def enter (directory : Path) (ensure : Bool) : Work SourceError Unit :=
  if ensure then (ensureDirectories directoryRoom directory).mapError .file else pure ()

/-- **Makes the outputs of a source**, and says which ones were written. `ensure` says whether their
directory is to be made. -/
def makeOutputs (roots : Roots) (source : Source) (sheet : Option Source) (marker : Text)
    (ensure : Bool) : Work SourceError (List Path) := do
  enter (roots.output ++ source.place) ensure
  let artifacts ← compileInputs roots.input source sheet marker
  let texts := artifactTexts (source.outputs roots.output) artifacts
  writeArtifacts texts
  return texts.map Prod.fst

/-! ### Events -/

/-- What an output is called in reports. -/
def outputLabel (root path : Path) : Str := Path.renderBelow ((Path.below? root path).getD path)

/-- **What a run takes from its surroundings** besides the files. That all its events have one stamp
is a simplification: each is stamped when it happens, but stamps are only ever written down. -/
structure Occasion where
  /-- The name of the run. -/
  id : Text
  /-- The stamp of its events. -/
  stamp : Text
  /-- For each batch of sources the turns that they take. -/
  turns : List (List Nat) := []
  deriving DecidableEq, Repr

/-- **The event of a source** with its outcome. -/
def eventOf (occasion : Occasion) (outputRoot : Path) (source : Source) : Outcome → Audit.Event
  | .written artifacts =>
    ⟨occasion.stamp, occasion.id, source.label, Audit.written,
      Text.sorted (artifacts.map (outputLabel outputRoot)), none⟩
  | .cached => ⟨occasion.stamp, occasion.id, source.label, Audit.cached, [], none⟩
  | .failed e => ⟨occasion.stamp, occasion.id, source.label, Audit.failed, [], some e.report⟩

/-- The event of a removed output. -/
def removalEvent (occasion : Occasion) (path : Str) : Audit.Event :=
  ⟨occasion.stamp, occasion.id, path, Audit.removed, [], none⟩

end Build
end TemplateBindings
