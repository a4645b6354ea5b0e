import TemplateBindings.Markup.Reference.Names
import TemplateBindings.Text.Integer

/-!
# Character references

What `&…;` stands for, in running text and in attribute values. The two differ: in running text the
tokenizer has already cut out the name or the number and every known name counts, while a value is
searched for references here, and a name without its semicolon counts only if it is an old one, of
which the longest that fits is taken.
-/

namespace TemplateBindings
namespace Reference

/-! ### Numbers -/

/-- What the numbers from 0x80 to 0x9F stand for: the characters that a widespread eight-bit code
has there, where it has any. -/
def controlImages : List Nat :=
  [0x20AC, 0x81, 0x201A, 0x192, 0x201E, 0x2026, 0x2020, 0x2021, 0x2C6, 0x2030, 0x160, 0x2039, 0x152,
   0x8D, 0x17D, 0x8F, 0x90, 0x2018, 0x2019, 0x201C, 0x201D, 0x2022, 0x2013, 0x2014, 0x2DC, 0x2122,
   0x161, 0x203A, 0x153, 0x9D, 0x17E, 0x178]

/-- The character shown for a number that is none. -/
def replacement : Char := Char.ofNat 0xFFFD

/-- Whether a number belongs to a surrogate or lies behind the last character. -/
def isNoCharacter (n : Nat) : Bool := (0xD800 ≤ n && n ≤ 0xDFFF) || 0x10FFFF < n

/-- The character that a number stands for, zero and the numbers of no character excepted. -/
def ofCode (n : Nat) : Char :=
  if n = 0 || isNoCharacter n then replacement
  else if 0x80 ≤ n && n ≤ 0x9F then Char.ofNat (controlImages.getD (n - 0x80) n)
  else Char.ofNat n

/-- Whether a number in an attribute value is dropped: controls that no text should hold, and the
numbers that Unicode keeps free of characters. -/
def isDropped (n : Nat) : Bool :=
  (0x1 ≤ n && n ≤ 0x8) || n == 0xB || (0xE ≤ n && n ≤ 0x1F) || n == 0x7F
    || (0xFDD0 ≤ n && n ≤ 0xFDEF) || (n % 0x10000 == 0xFFFE) || (n % 0x10000 == 0xFFFF)

/-- What a number in an attribute value stands for. -/
def ofCodeInValue (n : Nat) : Text :=
  if isNoCharacter n then [replacement]
  else if isDropped n then []
  else [ofCode n]

/-! ### Names -/

/-- What a name in running text stands for; an unknown one stands for itself. -/
def ofNameInText (name : Text) : Text := (named? name).getD ('&' :: name)

/-- The characters of the longest front of a name that is an old name of at least two characters,
and the rest of the name. Fronts of at most `length` characters are tried. -/
def oldFront? (name : Text) : (length : Nat) → Option (Text × Text)
  | 0 => none
  | 1 => none
  | n + 2 =>
    if isOldName (name.take (n + 2)) then
      (named? (name.take (n + 2))).map fun characters => (characters, name.drop (n + 2))
    else oldFront? name (n + 1)

/-- What a name in an attribute value stands for, whether or not a semicolon ends it. -/
def ofNameInValue (name : Text) (ended : Bool) : Text :=
  let unchanged := if ended then name ++ [';'] else name
  match if ended then named? name else none with
  | some characters => characters
  | none =>
    match oldFront? name name.length with
    | some (characters, rest) => characters ++ rest ++ if ended then [';'] else []
    | none => '&' :: unchanged

/-! ### Limits -/

/-- How many digits a reference has from behind its number sign, if that is a decimal number with
more digits than an integer is read with. -/
def tooManyDigits? (s : Text) : Option Nat :=
  let digits := (s.takeWhile Text.isAsciiDigit).length
  if Text.maxDigits < digits then some digits else none

/-- The same of the first such reference in an attribute value. -/
def tooManyDigitsIn? : (value : Text) → Option Nat
  | [] => none
  | '&' :: '#' :: rest => (tooManyDigits? rest).or (tooManyDigitsIn? rest)
  | _ :: rest => tooManyDigitsIn? rest

/-! ### Attribute values -/

/-- The most characters that a name in an attribute value has. -/
def maxNameLength : Nat := 32

/-- Whether a character may belong to a name in an attribute value. -/
def isValueNameChar (c : Char) : Bool :=
  !(c == '\t' || c == '\n' || c == '\x0c' || c == ' '
    || c == '<' || c == '&' || c == '#' || c == ';')

/-- How many characters a run takes up together with a semicolon right after it. -/
def extent (run s : Text) : Nat :=
  run.length + if (s.drop run.length).head? = some ';' then 1 else 0

/-- The reference that follows an ampersand: what it stands for and how many characters it takes. -/
def inValue? (s : Text) : Option (Text × Nat) :=
  match s with
  | '#' :: digits =>
    let decimal := digits.takeWhile Text.isAsciiDigit
    if decimal.isEmpty then
      match digits with
      | x :: digits =>
        let hex := digits.takeWhile fun c => (Text.hexDigit? c).isSome
        if (x = 'x' || x = 'X') && !hex.isEmpty then
          some (ofCodeInValue (Text.hexValue hex), extent hex digits + 2)
        else none
      | [] => none
    else some (ofCodeInValue (Text.decimalValue decimal), extent decimal digits + 1)
  | _ =>
    let name := (s.take maxNameLength).takeWhile isValueNameChar
    if name.isEmpty then none
    else some (ofNameInValue name (extent name s ≠ name.length), extent name s)

/-- **An attribute value with its references resolved**. -/
def resolve (value : Text) : Text :=
  match value with
  | [] => []
  | '&' :: rest =>
    match inValue? rest with
    | some (characters, extent) => characters ++ resolve (rest.drop extent)
    | none => '&' :: resolve rest
  | c :: rest => c :: resolve rest
termination_by value.length
decreasing_by all_goals simp only [List.length_drop, List.length_cons]; omega

end Reference
end TemplateBindings
