import TemplateBindings.Text.Quoted
import TemplateBindings.Text.Utf8

/-!
# Strings

The name of a file is bytes, and they need not be UTF-8. So that every name can be taken apart and put
together like a text, and the file still be found by it (`TemplateBindings.Str.bytes`), a byte that
cannot be read is a point of its own, with the number of a surrogate that no character has. Messages
show such a point as an escape, and a string can be written to a file only if it has none
(`TemplateBindings.Str.encode`).
-/

namespace TemplateBindings

/-- **A point of a string**. -/
inductive Point where
  /-- A character. -/
  | char (c : Char)
  /-- A byte that is not UTF-8, by its place among those above the ASCII ones. -/
  | byte (place : Fin 0x80)
  deriving DecidableEq, Repr

/-- **A string**: points in reading order. -/
abbrev Str := List Point

namespace Point

/-- The number of a point. -/
def number : Point → Nat
  | char c => c.toNat
  | byte place => 0xDC80 + place.val

/-- No character has the number of a surrogate. -/
theorem toNat_ne_byte (c : Char) (place : Fin 0x80) : c.toNat ≠ 0xDC80 + place.val := by
  have h := c.valid
  have hc : c.toNat = c.val.toNat := rfl
  rcases h with h | ⟨h, -⟩ <;> omega

theorem number_injective : ∀ a b : Point, a.number = b.number → a = b
  | char _, char _, h => congrArg char (Char.ext (UInt32.toNat_inj.1 h))
  | char c, byte place, h => absurd h (toNat_ne_byte c place)
  | byte place, char c, h => absurd h.symm (toNat_ne_byte c place)
  | byte _, byte _, h => congrArg byte (Fin.ext (Nat.add_left_cancel h))

instance : Numbered Point := ⟨number, number_injective⟩

/-- The bytes of a point. -/
def bytes : Point → List UInt8
  | char c => Utf8.encodeChar c
  | byte place => [UInt8.ofNat (0x80 + place.val)]

/-- A point where only text can be shown. -/
def shown : Point → Text
  | char c => [c]
  | byte place => "\\u".toList ++ Text.ofNatHex 4 (byte place).number

/-- Whether a point is no character. -/
def isByte : Point → Bool
  | char _ => false
  | byte _ => true

end Point

namespace Str

/-! ### Texts as strings -/

/-- **A text as a string**. -/
@[coe] def ofText (s : Text) : Str := s.map .char

instance : Coe Text Str := ⟨ofText⟩

@[simp] theorem ofText_nil : ofText [] = [] := rfl

@[simp] theorem ofText_cons (c : Char) (s : Text) : ofText (c :: s) = .char c :: ofText s := rfl

@[simp] theorem ofText_append (s t : Text) : ofText (s ++ t) = ofText s ++ ofText t :=
  List.map_append

theorem ofText_prefix {s t : Text} (h : s <+: t) : ofText s <+: ofText t := h.map _

theorem ofText_joined (sep : Text) (texts : List Text) :
    ofText (Text.joined sep texts) = Text.joined (ofText sep) (texts.map ofText) := by
  induction texts with
  | nil => rfl
  | cons s texts ih =>
    cases texts with
    | nil => rfl
    | cons t texts =>
      have hjoined : Text.joined sep (s :: t :: texts) = s ++ sep ++ Text.joined sep (t :: texts) :=
        rfl
      rw [hjoined, ofText_append, ofText_append, ih]
      rfl

theorem ofText_injective {s t : Text} (h : ofText s = ofText t) : s = t :=
  (List.map_inj_right fun _ _ h => Point.char.inj h).1 h

/-! ### Showing -/

/-- A string where only text can be shown. -/
def shown (s : Str) : Text := s.flatMap Point.shown

/-- How one point is shown between the given quotes. -/
def quotedPoint (quote : Char) : Point → Text
  | .char c => Text.quotedChar quote c
  | .byte place => (Point.byte place).shown

/-- **A string between quotes**, with the quotes, backslashes and all that is invisible escaped. -/
def quoted (s : Str) : Text :=
  let quote := if s.contains (.char '\'') && !s.contains (.char '"') then '"' else '\''
  quote :: s.flatMap (quotedPoint quote) ++ [quote]

/-! ### Bytes -/

/-- **The bytes of a string** in the name of a file. -/
def bytes (s : Str) : List UInt8 := s.flatMap Point.bytes

@[simp] theorem bytes_nil : bytes [] = [] := rfl

@[simp] theorem bytes_append (s t : Str) : bytes (s ++ t) = bytes s ++ bytes t := by
  simp [bytes]

/-- **Why a string cannot be written as UTF-8**: points in a row that are no characters. -/
structure Fault where
  /-- How many points stand before them. -/
  position : Nat
  /-- The first of them. -/
  first : Fin 0x80
  /-- How many follow it. -/
  more : Nat
  deriving DecidableEq, Repr

/-- The wording of a fault: a single point is shown, several are given by their positions. -/
def Fault.message (fault : Fault) : Text :=
  let place :=
    if fault.more = 0 then
      "character '".toList ++ (Point.byte fault.first).shown ++ "' in position ".toList
        ++ Text.ofNat fault.position
    else
      "characters in position ".toList ++ Text.ofNat fault.position ++ ['-']
        ++ Text.ofNat (fault.position + fault.more)
  "'utf-8' codec can't encode ".toList ++ place ++ ": surrogates not allowed".toList

/-- The text of a string from a position on, or the first fault. -/
def textFrom (position : Nat) : Str → Except Fault Text
  | [] => .ok []
  | .char c :: rest => (textFrom (position + 1) rest).map (c :: ·)
  | .byte place :: rest => .error ⟨position, place, (rest.takeWhile Point.isByte).length⟩

/-- **The text of a string**, if it is one. -/
def text (s : Str) : Except Fault Text := textFrom 0 s

/-- **A string written as UTF-8**. -/
def encode (s : Str) : Except Fault (List UInt8) := (text s).map Utf8.encode

/-- The text at the front of a string is part of its text. -/
theorem textFrom_append (s : Text) (position : Nat) (rest : Str) :
    textFrom position (ofText s ++ rest) =
      (textFrom (position + s.length) rest).map (s ++ ·) := by
  induction s generalizing position with
  | nil =>
    rw [ofText_nil, List.nil_append, List.length_nil, Nat.add_zero]
    cases textFrom position rest <;> rfl
  | cons c s ih =>
    rw [ofText_cons, List.cons_append, textFrom, ih, List.length_cons, Nat.add_assoc,
      Nat.add_comm 1]
    cases textFrom (position + (s.length + 1)) rest <;> rfl

@[simp] theorem text_ofText (s : Text) : text (ofText s) = .ok s := by
  rw [text, ← List.append_nil (ofText s), textFrom_append]
  exact congrArg Except.ok (List.append_nil s)

@[simp] theorem encode_ofText (s : Text) : encode (ofText s) = .ok (Utf8.encode s) := by
  rw [encode, text_ofText]
  rfl

/-- A string with a text is that text. -/
theorem eq_ofText_of_textFrom {position : Nat} {s : Str} {t : Text}
    (h : textFrom position s = .ok t) : s = ofText t := by
  induction s generalizing position t with
  | nil =>
    cases h
    rfl
  | cons p s ih =>
    cases p with
    | byte place => cases h
    | char c =>
      rw [textFrom] at h
      cases ht : textFrom (position + 1) s with
      | error fault => rw [ht] at h; cases h
      | ok rest =>
        rw [ht] at h
        cases h
        rw [ofText_cons, ← ih ht]

@[simp] theorem bytes_ofText (s : Text) : bytes (ofText s) = Utf8.encode s := by
  rw [bytes, ofText, List.flatMap_map]
  rfl

/-- What is written of a string is its bytes. -/
theorem bytes_of_encode {s : Str} {written : List UInt8} (h : encode s = .ok written) :
    s.bytes = written := by
  rw [encode] at h
  cases ht : text s with
  | error fault => rw [ht] at h; cases h
  | ok t =>
    rw [ht] at h
    cases h
    rw [eq_ofText_of_textFrom ht, bytes_ofText]

/-- A string that can be written begins with the text that was put in front. -/
theorem encode_append_eq_ok {s : Text} {rest : Str} {bytes : List UInt8}
    (h : encode (ofText s ++ rest) = .ok bytes) : ∃ t, bytes = Utf8.encode (s ++ t) := by
  rw [encode, text, textFrom_append] at h
  cases ht : textFrom (0 + s.length) rest with
  | error fault => rw [ht] at h; cases h
  | ok t =>
    rw [ht] at h
    cases h
    exact ⟨t, rfl⟩

end Str
end TemplateBindings
