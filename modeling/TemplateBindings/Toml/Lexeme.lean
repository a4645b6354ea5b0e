import TemplateBindings.Text.Integer

/-!
# The words of TOML

Blanks, comments, quoted texts and keys. A reader gives what it read and the text that follows.
Texts come in four forms: with or without escapes, on one line or on several; in none of them may a
control character stand, but for the tab and, where there are several lines, the line feed.
-/

namespace TemplateBindings
namespace Toml

/-! ### Refusals -/

/-- **Why a text is refused**. -/
inductive Fault where
  /-- It is not TOML. -/
  | malformed
  /-- It has an integer with too many digits, before any place where it would not be TOML. -/
  | tooManyDigits (digits : Nat)
  /-- Lists and inline tables in it stand too deep in each other, before any place where it would
  not be TOML. -/
  | tooDeep
  deriving DecidableEq, Repr

/-- What a reader gives: what it read and the text that follows, or why it refuses the text. -/
abbrev Reading (α : Type) : Type := Except Fault (α × Text)

/-- The refusal of a text that is not TOML. -/
def malformed {α : Type} : Reading α := .error .malformed

/-! ### Blanks and comments -/

/-- The blanks within a line. -/
def isInlineBlank (c : Char) : Bool := c == ' ' || c == '\t'

/-- The blanks where lines mean nothing. -/
def isAnyBlank (c : Char) : Bool := isInlineBlank c || c == '\n'

/-- The text without its leading blanks. -/
def skipInline (s : Text) : Text := s.dropWhile isInlineBlank

/-- The characters that stand in no text of one line and in no comment. -/
def isControl (c : Char) : Bool := (c.toNat < 0x20 && c != '\t') || c.toNat == 0x7F

/-- The characters that stand in no text of several lines. -/
def isMultilineControl (c : Char) : Bool := isControl c && c != '\n'

/-- What follows a comment, if the text starts with one. -/
def skipComment (s : Text) : Except Fault Text :=
  match s with
  | '#' :: rest =>
    if (rest.takeWhile (· ≠ '\n')).any isControl then .error .malformed
    else .ok (rest.dropWhile (· ≠ '\n'))
  | _ => .ok s

/-- What follows any number of blanks, line feeds and comments. -/
def skipLines : (steps : Nat) → Text → Except Fault Text
  | 0, s => .ok s
  | steps + 1, s =>
    match s.dropWhile isAnyBlank with
    | '#' :: rest =>
      match skipComment ('#' :: rest) with
      | .error fault => .error fault
      | .ok rest => skipLines steps rest
    | rest => .ok rest

/-! ### Texts -/

/-- The character of an escape by `count` hexadecimal digits. -/
def readCharacter (count : Nat) (s : Text) : Reading Text :=
  let digits := s.take count
  let value := Text.hexValue digits
  if digits.length < count || digits.any (fun c => (Text.hexDigit? c).isNone) then malformed
  else if value < 0xD800 || (0xE000 ≤ value && value ≤ 0x10FFFF) then
    .ok ([Char.ofNat value], s.drop count)
  else malformed

/-- What an escape stands for, from behind its backslash. Where there are several lines, a backslash
at the end of a line takes away all blanks up to the next character. -/
def readEscape (multiline : Bool) (s : Text) : Reading Text :=
  match s with
  | 'b' :: rest => .ok (['\x08'], rest)
  | 't' :: rest => .ok (['\t'], rest)
  | 'n' :: rest => .ok (['\n'], rest)
  | 'f' :: rest => .ok (['\x0c'], rest)
  | 'r' :: rest => .ok (['\r'], rest)
  | '"' :: rest => .ok (['"'], rest)
  | '\\' :: rest => .ok (['\\'], rest)
  | 'u' :: rest => readCharacter 4 rest
  | 'U' :: rest => readCharacter 8 rest
  | rest =>
    if multiline then
      match skipInline rest with
      | '\n' :: rest => .ok ([], rest.dropWhile isAnyBlank)
      | _ => malformed
    else malformed

/-- A text with escapes from behind its opening quotes, and what follows its closing ones. -/
def readEscaped (multiline : Bool) : (steps : Nat) → Text → Reading Text
  | 0, _ => malformed
  | steps + 1, s =>
    match s with
    | [] => malformed
    | '"' :: rest =>
      if multiline then
        match rest with
        | '"' :: '"' :: rest => .ok ([], rest)
        | _ => (readEscaped multiline steps rest).map fun r => ('"' :: r.1, r.2)
      else .ok ([], rest)
    | '\\' :: rest =>
      match readEscape multiline rest with
      | .error fault => .error fault
      | .ok (piece, rest) => (readEscaped multiline steps rest).map fun r => (piece ++ r.1, r.2)
    | c :: rest =>
      if (if multiline then isMultilineControl c else isControl c) then malformed
      else (readEscaped multiline steps rest).map fun r => (c :: r.1, r.2)

/-- A text of one line with escapes, from behind its opening quote. -/
def readBasic (s : Text) : Reading Text := readEscaped false (s.length + 1) s

/-- A text of one line without escapes, from behind its opening quote. -/
def readLiteral (s : Text) : Reading Text :=
  match Text.cutAt '\'' s with
  | some (content, rest) => if content.any isControl then malformed else .ok (content, rest)
  | none => malformed

/-- A text of several lines with up to two more quotes than those that end it, which belong to it.
-/
def withTrailingQuotes (quote : Char) (content rest : Text) : Text × Text :=
  match rest with
  | a :: b :: behind =>
    if a = quote && b = quote then (content ++ [quote, quote], behind)
    else if a = quote then (content ++ [quote], b :: behind)
    else (content, rest)
  | [a] => if a = quote then (content ++ [quote], []) else (content, rest)
  | [] => (content, [])

/-- The text without the line feed that may stand at its start. -/
def skipFirstLineFeed (s : Text) : Text :=
  match s with
  | '\n' :: rest => rest
  | _ => s

/-- A text of several lines with escapes, from behind its opening quotes. -/
def readMultilineBasic (s : Text) : Reading Text :=
  let s := skipFirstLineFeed s
  (readEscaped true (s.length + 1) s).map fun r => withTrailingQuotes '"' r.1 r.2

/-- A text of several lines without escapes, from behind its opening quotes. -/
def readMultilineLiteral (s : Text) : Reading Text :=
  match Text.cutAtText "'''".toList (skipFirstLineFeed s) with
  | some (content, rest) =>
    if content.any isMultilineControl then malformed
    else .ok (withTrailingQuotes '\'' content rest)
  | none => malformed

/-! ### Keys -/

/-- The characters of a key without quotes. -/
def isBareKeyChar (c : Char) : Bool :=
  Text.isAsciiLetter c || Text.isAsciiDigit c || c == '-' || c == '_'

/-- One part of a key. -/
def readKeyPart (s : Text) : Reading Text :=
  match s with
  | '\'' :: rest => readLiteral rest
  | '"' :: rest => readBasic rest
  | _ =>
    let name := s.takeWhile isBareKeyChar
    if name.isEmpty then malformed else .ok (name, s.dropWhile isBareKeyChar)

/-- **A key**: its parts, with dots between them, and the blanks behind it. -/
def readKey : (steps : Nat) → Text → Reading (List Text)
  | 0, _ => malformed
  | steps + 1, s =>
    match readKeyPart s with
    | .error fault => .error fault
    | .ok (part, rest) =>
      match skipInline rest with
      | '.' :: rest => (readKey steps (skipInline rest)).map fun r => (part :: r.1, r.2)
      | rest => .ok ([part], rest)

end Toml
end TemplateBindings
