import TemplateBindings.Template.Render
import TemplateBindings.Document.Ids
import TemplateBindings.Stylesheet.Constants
import TemplateBindings.Text.Lines
import TemplateBindings.Text.Str

/-!
# Generated modules

What one source is compiled to: a module, and beside it, where there is something to put in them, a
module of class constants and a stylesheet. The first line of a module is a comment with its
*marker*, by which a later build recognises a module that is still current.
-/

namespace TemplateBindings
namespace GeneratedModule

/-! ### Markers -/

/-- The line that carries a marker. -/
def markerLine (marker : Text) : Text := "// ".toList ++ marker

/-- **The marker of a module**, from its text: what follows the comment sign on the first line, if
the line is complete. -/
def readMarker? (text : Text) : Option Text :=
  match Text.firstLine text with
  | (line, true) => Text.after? "// ".toList line
  | (_, false) => none

/-! ### Artifacts -/

/-- **The artifacts of one source**. -/
structure Artifacts where
  /-- The module, which holds the name of its source. -/
  module : Str
  /-- The module of class constants, if there are any. -/
  classModule : Option Text
  /-- The stylesheet, if the source has one inside. -/
  stylesheet : Option Text
  deriving DecidableEq, Repr

/-- The suffix of the file that a module of class constants is in. -/
def classModuleSuffix : Str := ".css.ts".toList

/-- The name under which a module passes on its class constants. -/
def classNamespace : Text := "css".toList

/-- The line that passes on the class constants of a module. -/
def reexportLine (moduleName : Str) : Str :=
  Str.ofText ("export * as ".toList ++ classNamespace ++ " from \"./".toList) ++ moduleName
    ++ classModuleSuffix ++ Str.ofText "\";".toList

/-- The module of class constants. -/
def classModule (bindings : List Stylesheet.ClassBinding) : Option Text :=
  if bindings.isEmpty then none else some (Stylesheet.renderConstants bindings ++ ['\n'])

/-- The first block of a module with class constants. -/
def reexportBlock (bindings : List Stylesheet.ClassBinding) (moduleName : Str) : List Str :=
  if bindings.isEmpty then [] else [reexportLine moduleName]

/-- A module from its blocks. -/
def assemble (marker : Text) (blocks : List Str) (separator : Text) : Str :=
  let body := Text.joined (separator : Str) blocks
  let first := Str.ofText (markerLine marker ++ ['\n'])
  if body.isEmpty then first else first ++ body ++ Str.ofText ['\n']

/-! ### Compiling -/

/-- **A document compiled** to constants for its ids. -/
def ofDocument (html marker : Text) (moduleName : Str) (css : Option Text) : Artifacts :=
  let bindings := (css.map Stylesheet.bindings).getD []
  let lookups := Document.renderBindings (Document.bindings html)
  let blocks := reexportBlock bindings moduleName ++ if lookups.isEmpty then [] else [(lookups : Str)]
  ⟨assemble marker blocks ['\n'], classModule bindings, none⟩

/-- The class constants of a fragment with a stylesheet beside it. -/
def fragmentBindings (styles : List Text) (css : Option Text) : List Stylesheet.ClassBinding :=
  Stylesheet.merge ((styles ++ css.toList).map Stylesheet.bindings)

/-- **A fragment compiled** to one class for each of its templates. -/
def ofFragment (html marker : Text) (moduleName : Str) (css : Option Text) :
    Except Template.FragmentError Artifacts :=
  match Template.Fragment.parse html with
  | .error e => .error e
  | .ok fragment =>
    let bindings := fragmentBindings fragment.styles css
    let classes : List Text :=
      if fragment.templates.isEmpty then []
      else Template.renderRegistry :: fragment.templates.map Template.Compiled.render
    let stylesheet := fragment.styles.flatten
    .ok
      ⟨assemble marker (reexportBlock bindings moduleName ++ classes.map Str.ofText) "\n\n".toList,
        classModule bindings,
        if stylesheet.isEmpty then none else some stylesheet⟩

/-- **A source compiled**: as a document if it declares to be one, else as a fragment. -/
def compile (html marker : Text) (moduleName : Str) (css : Option Text) :
    Except Template.FragmentError Artifacts :=
  if Document.isDocument html then .ok (ofDocument html marker moduleName css)
  else ofFragment html marker moduleName css

end GeneratedModule
end TemplateBindings
