import TemplateBindings.Text.Case

/-!
# Identifiers

The names that generated code declares. A text can be used as it stands when it is an identifier,
and a hyphenated text is turned into one name by camel case: the first segment in small letters,
every further one with a capital at its front.
-/

namespace TemplateBindings
namespace Identifier

/-! ### Which texts are identifiers -/

/-- Whether a character may open an identifier. -/
def isOpening (c : Char) : Bool := Text.isAsciiLetter c || c == '_' || c == '$'

/-- Whether a character may stand inside an identifier. -/
def isInner (c : Char) : Bool := isOpening c || Text.isAsciiDigit c

/-- **Identifiers**: an ASCII letter, underscore or dollar sign, then any of these and digits. -/
def isIdentifier : Text → Bool
  | [] => false
  | c :: cs => isOpening c && cs.all isInner

@[simp] theorem isIdentifier_nil : isIdentifier [] = false := rfl

/-! ### Camel case -/

/-- A segment with its first character in capitals and the others in small letters. -/
def capitalised (segment : Text) : Text :=
  Text.upper (segment.take 1) ++ Text.lower (segment.drop 1)

/-- **Camel case**: hyphens are dropped, and the segment after each is capitalised. -/
def camel (s : Text) : Text :=
  match Text.pieces '-' s with
  | [] => []
  | first :: rest => Text.lower first ++ rest.flatMap capitalised

end Identifier
end TemplateBindings
