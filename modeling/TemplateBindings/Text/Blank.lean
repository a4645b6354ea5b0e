import TemplateBindings.Text.Basic

/-!
# Blank characters

The white space of Unicode as this library means it wherever a text is trimmed, tested for being
blank or cut into words: the ASCII controls from tab to carriage return, the four information
separators, and the spaces of Unicode. The zero-width space and the byte order mark are no blanks.
-/

namespace TemplateBindings
namespace Text

/-- **Blank characters**. -/
def isBlank (c : Char) : Bool :=
  let n := c.toNat
  (0x09 ≤ n && n ≤ 0x0D) || (0x1C ≤ n && n ≤ 0x20) || n == 0x85 || n == 0xA0 || n == 0x1680
    || (0x2000 ≤ n && n ≤ 0x200A) || n == 0x2028 || n == 0x2029 || n == 0x202F || n == 0x205F
    || n == 0x3000

/-- Whether a text has nothing but blanks. -/
def isAllBlank (s : Text) : Bool := s.all isBlank

/-- The text without its leading blanks. -/
def dropBlanks (s : Text) : Text := s.dropWhile isBlank

/-- Dropping leading blanks makes no text longer. -/
theorem length_dropBlanks_le (s : Text) : (dropBlanks s).length ≤ s.length :=
  (List.dropWhile_sublist isBlank).length_le

/-- The text without its blanks at either end. -/
def trim (s : Text) : Text := (dropBlanks (dropBlanks s).reverse).reverse

/-- **Words**: the maximal runs without a blank. -/
def words : Text → List Text
  | [] => []
  | c :: cs =>
    if isBlank c then words cs
    else
      match cs with
      | [] => [[c]]
      | d :: _ => if isBlank d then [c] :: words cs else (words cs).modifyHead (c :: ·)

end Text
end TemplateBindings
