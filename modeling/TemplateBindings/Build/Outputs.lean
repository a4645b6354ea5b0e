import TemplateBindings.Build.Source
import TemplateBindings.GeneratedModule

/-!
# Outputs

The outputs of a source have the place below the root of the outputs that the source has below the
root of the sources, and its name with other suffixes, so that they can be found without reading
anything.
-/

namespace TemplateBindings
namespace Build

open Files

/-- **The outputs of one source**. -/
structure Outputs where
  /-- The module. -/
  module : Path
  /-- The module of class constants. -/
  classModule : Path
  /-- The stylesheet. -/
  stylesheet : Path
  deriving DecidableEq, Repr

/-- The suffix of modules. -/
def moduleSuffix : Str := ".ts".toList

/-- The suffix of stylesheets. -/
def stylesheetSuffix : Str := ".css".toList

/-- The outputs under a name in a directory. -/
def Outputs.inDirectory (directory : Path) (name : Str) : Outputs where
  module := Path.under directory (name ++ moduleSuffix)
  classModule := Path.under directory (name ++ GeneratedModule.classModuleSuffix)
  stylesheet := Path.under directory (name ++ stylesheetSuffix)

/-- All outputs. -/
def Outputs.all (outputs : Outputs) : List Path :=
  [outputs.module, outputs.classModule, outputs.stylesheet]

/-- **The outputs of a source** below the root of the outputs. -/
def Source.outputs (root : Path) (source : Source) : Outputs :=
  Outputs.inDirectory (root ++ source.place) source.name

/-- A directory of sources that does not lie below the root of the sources. -/
structure OutsideError where
  /-- The directory. -/
  directory : Path
  /-- The root of the sources. -/
  root : Path
  deriving DecidableEq, Repr

/-- The wording of the error. -/
def OutsideError.message (e : OutsideError) : Text :=
  Str.quoted e.directory.render ++ " is not in the subpath of ".toList ++ Str.quoted e.root.render
    ++ " OR one path is relative and the other is absolute.".toList

/-- The outputs of a source with a name in a directory, both roots given. -/
def outputsFor (sourceRoot outputRoot directory : Path) (name : Str) :
    Except OutsideError Outputs :=
  match Path.below? sourceRoot directory with
  | some place => .ok (Outputs.inDirectory (outputRoot ++ place) name)
  | none => .error ⟨directory, sourceRoot⟩

end Build
end TemplateBindings
