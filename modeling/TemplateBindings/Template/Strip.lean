import TemplateBindings.Markup.Node
import TemplateBindings.Text.Blank

/-!
# Stripping a template

What a template loses before it is stored: its comments, and the plain texts of blanks alone, except
inside the elements whose blanks matter. Everything else stays, in its order and place; texts that
become neighbours are not joined.
-/

namespace TemplateBindings
namespace Template

open Markup

/-- Whether the blanks inside an element with this tag matter. -/
def preservesBlanks (tag : Text) : Bool :=
  tag = "pre".toList || tag = "textarea".toList || tag = "script".toList || tag = "style".toList

/-- Whether a text is dropped; `preserved` says whether it stands inside an element whose blanks
matter. -/
def isDropped (preserved : Bool) (kind : TextKind) (content : Text) : Bool :=
  kind = .comment || (kind = .plain && Text.isAllBlank content && !preserved)

mutual

/-- A tree stripped below its root. -/
def stripNode (preserved : Bool) : Node → Node
  | .text kind content => .text kind content
  | .element tag attributes children =>
    .element tag attributes (stripNodes (preserved || preservesBlanks tag) children)

/-- A list of siblings, stripped. -/
def stripNodes (preserved : Bool) : List Node → List Node
  | [] => []
  | .text kind content :: rest =>
    if isDropped preserved kind content then stripNodes preserved rest
    else .text kind content :: stripNodes preserved rest
  | .element tag attributes children :: rest =>
    stripNode preserved (.element tag attributes children) :: stripNodes preserved rest

end

/-- **A template stripped** below its root. -/
def strip (root : Node) : Node := stripNode false root

end Template
end TemplateBindings
