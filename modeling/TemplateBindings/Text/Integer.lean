import TemplateBindings.Text.Blank

/-!
# Integers as text

Integers are written in decimal with no leading zero and a minus sign in front of the negative ones.
They are read more freely: blanks around, the information separators excepted, a sign of either
kind, leading zeros, single underscores between digits, and the digits of any script.
-/

namespace TemplateBindings
namespace Text

/-! ### Writing -/

/-- A natural number in decimal. -/
def ofNat (n : Nat) : Text := Nat.toDigits 10 n

/-- An integer in decimal. -/
def ofInt : Int → Text
  | .ofNat n => ofNat n
  | .negSucc n => '-' :: ofNat (n + 1)

/-- A text filled up on the left to a width. -/
def padLeft (width : Nat) (fill : Char) (s : Text) : Text :=
  List.replicate (width - s.length) fill ++ s

/-- A natural number in decimal with at least `width` digits. -/
def ofNatPadded (width n : Nat) : Text := padLeft width '0' (ofNat n)

/-- A natural number in small hexadecimal digits, at least `width` of them. -/
def ofNatHex (width n : Nat) : Text := padLeft width '0' (Nat.toDigits 16 n)

/-! ### Reading -/

/-- The zeros of Unicode 14; the nine characters after each are the other digits of its script. -/
def digitZeros : List Nat :=
  [0x30, 0x660, 0x6F0, 0x7C0, 0x966, 0x9E6, 0xA66, 0xAE6, 0xB66, 0xBE6, 0xC66, 0xCE6, 0xD66,
   0xDE6, 0xE50, 0xED0, 0xF20, 0x1040, 0x1090, 0x17E0, 0x1810, 0x1946, 0x19D0, 0x1A80, 0x1A90,
   0x1B50, 0x1BB0, 0x1C40, 0x1C50, 0xA620, 0xA8D0, 0xA900, 0xA9D0, 0xA9F0, 0xAA50, 0xABF0, 0xFF10,
   0x104A0, 0x10D30, 0x11066, 0x110F0, 0x11136, 0x111D0, 0x112F0, 0x11450, 0x114D0, 0x11650,
   0x116C0, 0x11730, 0x118E0, 0x11950, 0x11C50, 0x11D50, 0x11DA0, 0x16A60, 0x16AC0, 0x16B50,
   0x1D7CE, 0x1D7D8, 0x1D7E2, 0x1D7EC, 0x1D7F6, 0x1E140, 0x1E2F0, 0x1E950, 0x1FBF0]

/-- The value of a decimal digit of any script. -/
def digitValue? (c : Char) : Option Nat :=
  (digitZeros.find? fun z => z ≤ c.toNat && c.toNat ≤ z + 9).map (c.toNat - ·)

/-- The most digits an integer is read with. -/
def maxDigits : Nat := 4300

/-- The wording of the refusal of an integer with more digits. -/
def tooManyDigits (digits : Nat) : Text :=
  "Exceeds the limit (".toList ++ ofNat maxDigits
    ++ " digits) for integer string conversion: value has ".toList ++ ofNat digits
    ++ " digits; use sys.set_int_max_str_digits() to increase the limit".toList

/-- The values of digits that may be parted by single underscores. -/
def digitValues? : Text → Option (List Nat)
  | [] => none
  | [c] => (digitValue? c).map ([·])
  | c :: '_' :: rest =>
    match digitValue? c with
    | some d => (digitValues? rest).map (d :: ·)
    | none => none
  | c :: rest =>
    match digitValue? c with
    | some d => (digitValues? rest).map (d :: ·)
    | none => none

/-- The natural number that digits write. -/
def readNat? (s : Text) : Option Nat :=
  match digitValues? s with
  | some ds => if ds.length ≤ maxDigits then some (ds.foldl (fun n d => 10 * n + d) 0) else none
  | none => none

/-- The blanks that may stand around an integer. -/
def isNumberBlank (c : Char) : Bool := isBlank c && !(0x1C ≤ c.toNat && c.toNat ≤ 0x1F)

/-- **Reading an integer**, with the freedoms this file opens with. -/
def readInt? (s : Text) : Option Int :=
  match ((s.dropWhile isNumberBlank).reverse.dropWhile isNumberBlank).reverse with
  | '-' :: rest => (readNat? rest).map fun n => -(n : Int)
  | '+' :: rest => (readNat? rest).map fun n => (n : Int)
  | rest => (readNat? rest).map fun n => (n : Int)

end Text
end TemplateBindings
