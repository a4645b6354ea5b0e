import TemplateBindings.Identifier
import TemplateBindings.Stylesheet.ClassNames

/-!
# Constants for class names

One constant for each class name: its name is the class name in camel case, its value the class
name. Two class names can ask for one constant; the first keeps it and the second gets none.
-/

namespace TemplateBindings
namespace Stylesheet

/-- **A class name and the constant that stands for it**. -/
structure ClassBinding where
  /-- The class name as the stylesheet has it. -/
  source : Text
  /-- The name of the constant. -/
  generated : Text
  deriving DecidableEq, Repr

/-- The constant of a class name. -/
def ClassBinding.ofName (name : Text) : ClassBinding := ⟨name, Identifier.camel name⟩

/-! ### Merging -/

/-- Whether a binding repeats the class name or the constant of one that is kept. -/
def ClassBinding.clashes (b : ClassBinding) (kept : List ClassBinding) : Bool :=
  kept.any fun k => k.source = b.source || k.generated = b.generated

/-- The bindings that are kept, given those kept before, in their order. -/
def mergeOnto : (kept : List ClassBinding) → List ClassBinding → List ClassBinding
  | kept, [] => kept
  | kept, b :: rest => if b.clashes kept then mergeOnto kept rest else mergeOnto (kept ++ [b]) rest

/-- **Merging groups of bindings**: the first binding of a class name and of a constant wins. -/
def merge (groups : List (List ClassBinding)) : List ClassBinding := mergeOnto [] groups.flatten

/-- The bindings of one stylesheet. -/
def bindings (css : Text) : List ClassBinding :=
  merge [(classNames css).map ClassBinding.ofName]

/-! ### Rendering -/

/-- The declaration of one constant. -/
def ClassBinding.render (b : ClassBinding) : Text :=
  "export const ".toList ++ b.generated ++ " = \"".toList ++ b.source ++ "\";".toList

/-- **The declarations of all constants**, a line each. -/
def renderConstants (bindings : List ClassBinding) : Text :=
  Text.joined ['\n'] (bindings.map ClassBinding.render)

end Stylesheet
end TemplateBindings
