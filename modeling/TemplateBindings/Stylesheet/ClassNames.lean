import TemplateBindings.Text.Basic

/-!
# Class names in a stylesheet

The class names that the selectors of a stylesheet mention, found without parsing it. A *selector
region* is what stands between a closing brace, or the start of the text, and the last opening brace
before the next closing one; every dot in it may introduce a class name. Rules are read from the
last to the first, and so are the dots of a region: this order is the order of the generated
constants.
-/

namespace TemplateBindings
namespace Stylesheet

/-! ### Selector regions -/

/-- The selector regions of a text that is given backwards, each region given backwards too, the
last one of the text first. -/
def regionsBackwards (reversed : Text) : List Text :=
  match _h : reversed.dropWhile (· ≠ '{') with
  | [] => []
  | _ :: beforeBrace =>
    beforeBrace.takeWhile (· ≠ '}') :: regionsBackwards (beforeBrace.dropWhile (· ≠ '}'))
termination_by reversed.length
decreasing_by
  have h₁ := (List.dropWhile_sublist (l := reversed) (· ≠ '{')).length_le
  have h₂ := (List.dropWhile_sublist (l := beforeBrace) (· ≠ '}')).length_le
  rw [_h] at h₁
  simp only [List.length_cons] at h₁
  omega

/-- **The selector regions** of a stylesheet, the last one first. -/
def regions (css : Text) : List Text := (regionsBackwards css.reverse).map List.reverse

/-! ### Class names in a region -/

/-- The characters of class names. -/
def isNameChar (c : Char) : Bool :=
  Text.isAsciiLetter c || Text.isAsciiDigit c || c == '_' || c == '-'

/-- What follows the dots of a region as far as it can be a class name, the last dot first. -/
def dottedRuns (region : Text) : List Text :=
  ((Text.pieces '.' region).tail.map (·.takeWhile isNameChar)).reverse

/-- Whether a run starts like a number. -/
def startsWithNumber : Text → Bool
  | c :: d :: _ => Text.isAsciiDigit c || ((c == '+' || c == '-') && Text.isAsciiDigit d)
  | [c] => Text.isAsciiDigit c
  | [] => false

/-- **Pixel decoys**: what follows the point of a length such as `40.5px`. -/
def isPixelDecoy (run : Text) : Bool := "px".toList.isSuffixOf run && startsWithNumber run

/-- Whether a run after a dot is a class name. -/
def isClassName (run : Text) : Bool := !run.isEmpty && !isPixelDecoy run

/-- **The class names of a stylesheet**, each at its first place in the order of reading. -/
def classNames (css : Text) : List Text :=
  Text.distinct (((regions css).flatMap dottedRuns).filter isClassName)

end Stylesheet
end TemplateBindings
