import TemplateBindings.Text.Integer

/-!
# UTF-8

Files hold bytes, and this library reads and writes them as UTF-8. Writing never fails. Reading
stops at the first fault and says where it is and which bytes it covers: a byte that starts no
character is a fault of its own, and a character that is broken off covers the longest part of it
that some character starts with.
-/

namespace TemplateBindings
namespace Utf8

/-! ### Writing -/

/-- The bytes of one character: one to four, by the size of its number. -/
def encodeChar (c : Char) : List UInt8 :=
  let n := c.toNat
  if n < 0x80 then [UInt8.ofNat n]
  else if n < 0x800 then [UInt8.ofNat (0xC0 + n / 64), UInt8.ofNat (0x80 + n % 64)]
  else if n < 0x10000 then
    [UInt8.ofNat (0xE0 + n / 4096), UInt8.ofNat (0x80 + n / 64 % 64), UInt8.ofNat (0x80 + n % 64)]
  else
    [UInt8.ofNat (0xF0 + n / 262144), UInt8.ofNat (0x80 + n / 4096 % 64),
      UInt8.ofNat (0x80 + n / 64 % 64), UInt8.ofNat (0x80 + n % 64)]

/-- **Writing a text as UTF-8**. -/
def encode (s : Text) : List UInt8 := s.flatMap encodeChar

@[simp] theorem encode_nil : encode [] = [] := rfl

@[simp] theorem encode_append (s t : Text) : encode (s ++ t) = encode s ++ encode t := by
  simp [encode]

/-! ### Faults -/

/-- Why bytes cannot be read on. -/
inductive Reason where
  /-- The byte starts no character. -/
  | badStart
  /-- A character is interrupted by a byte that does not continue it. -/
  | badContinuation
  /-- The bytes end inside a character. -/
  | truncated
  deriving DecidableEq, Repr

/-- The wording of a reason. -/
def Reason.message : Reason → Text
  | .badStart => "invalid start byte".toList
  | .badContinuation => "invalid continuation byte".toList
  | .truncated => "unexpected end of data".toList

/-- **A fault**: the bytes at a position that cannot be read. -/
structure Fault where
  /-- Why they cannot be read. -/
  reason : Reason
  /-- How many bytes stand before them. -/
  position : Nat
  /-- The first of them. -/
  first : UInt8
  /-- How many they are. -/
  count : Nat
  deriving DecidableEq, Repr

/-- The wording of a fault: a single byte is shown, several are given by their positions. -/
def Fault.message (fault : Fault) : Text :=
  let place :=
    if fault.count = 1 then
      "byte 0x".toList ++ Text.ofNatHex 2 fault.first.toNat ++ " in position ".toList
        ++ Text.ofNat fault.position
    else
      "bytes in position ".toList ++ Text.ofNat fault.position ++ ['-']
        ++ Text.ofNat (fault.position + fault.count - 1)
  "'utf-8' codec can't decode ".toList ++ place ++ ": ".toList ++ fault.reason.message

/-! ### Reading -/

/-- Whether a byte continues a character that another one started. -/
def isTail (b : UInt8) : Bool := 0x80 ≤ b && b ≤ 0xBF

/-- The bytes that may come second after a first byte of a character of three or four bytes: not all
of them, so that no character has a second, longer form and none is a surrogate or out of range. -/
def isSecond (first b : UInt8) : Bool :=
  isTail b &&
    (if first = 0xE0 then 0xA0 ≤ b
    else if first = 0xED then b < 0xA0
    else if first = 0xF0 then 0x90 ≤ b
    else if first = 0xF4 then b < 0x90
    else true)

/-- The number in the low six bits of a byte that continues a character. -/
def tailValue (b : UInt8) : Nat := b.toNat % 64

/-- **Reading from the front**: the characters before the first fault, and the fault if there is
one. The position counts the bytes already read. -/
def scan (position : Nat) : List UInt8 → Text × Option Fault
  | [] => ([], none)
  | a :: rest =>
    let fault (reason : Reason) (count : Nat) : Text × Option Fault :=
      ([], some ⟨reason, position, a, count⟩)
    let read (n : Nat) (following : Text × Option Fault) : Text × Option Fault :=
      (Char.ofNat n :: following.1, following.2)
    if a < 0x80 then read a.toNat (scan (position + 1) rest)
    else if a < 0xC2 then fault .badStart 1
    else if a < 0xE0 then
      match rest with
      | [] => fault .truncated 1
      | b :: rest =>
        if isTail b then
          read (a.toNat % 32 * 64 + tailValue b) (scan (position + 2) rest)
        else fault .badContinuation 1
    else if a < 0xF0 then
      match rest with
      | [] => fault .truncated 1
      | b :: rest =>
        if isSecond a b then
          match rest with
          | [] => fault .truncated 2
          | c :: rest =>
            if isTail c then
              read (a.toNat % 16 * 4096 + tailValue b * 64 + tailValue c)
                (scan (position + 3) rest)
            else fault .badContinuation 2
        else fault .badContinuation 1
    else if a < 0xF5 then
      match rest with
      | [] => fault .truncated 1
      | b :: rest =>
        if isSecond a b then
          match rest with
          | [] => fault .truncated 2
          | c :: rest =>
            if isTail c then
              match rest with
              | [] => fault .truncated 3
              | d :: rest =>
                if isTail d then
                  read (a.toNat % 8 * 262144 + tailValue b * 4096 + tailValue c * 64 + tailValue d)
                    (scan (position + 4) rest)
                else fault .badContinuation 3
            else fault .badContinuation 2
        else fault .badContinuation 1
    else fault .badStart 1

/-- **Reading bytes as UTF-8**: all of them, or the first fault. -/
def decode (bytes : List UInt8) : Except Fault Text :=
  match scan 0 bytes with
  | (s, none) => .ok s
  | (_, some fault) => .error fault

/-- The text that bytes hold, if they are UTF-8. -/
def decode? (bytes : List UInt8) : Option Text := (decode bytes).toOption

/-- The text so far of bytes that more may follow: a character broken off by their end is left for
later, any other fault refuses them. -/
def decodeSoFar? (bytes : List UInt8) : Option Text :=
  match scan 0 bytes with
  | (s, none) => some s
  | (s, some fault) => if fault.reason = .truncated then some s else none

end Utf8
end TemplateBindings
