import TemplateBindings.Text.Basic

/-!
# Line ends

A text file may end its lines with a line feed, a carriage return, or the two together. Reading
turns each of these into one line feed, and only then are lines cut, so that nothing else that a
script may call a line separator ends a line.
-/

namespace TemplateBindings
namespace Text

/-- **A text with every line end made a line feed**. -/
def unifyLineEnds : Text → Text
  | [] => []
  | '\r' :: '\n' :: rest => '\n' :: unifyLineEnds rest
  | '\r' :: rest => '\n' :: unifyLineEnds rest
  | c :: rest => c :: unifyLineEnds rest

/-- The first line, and whether a line feed ends it. -/
def firstLine (s : Text) : Text × Bool :=
  match cutAt '\n' s with
  | some (line, _) => (line, true)
  | none => (s, false)

/-- The lines of a text: what stands between line feeds. -/
def lines (s : Text) : List Text := pieces '\n' s

end Text
end TemplateBindings
