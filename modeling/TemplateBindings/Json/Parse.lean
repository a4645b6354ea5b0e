import TemplateBindings.Json.Basic

/-!
# Reading JSON

A reader that takes exactly the texts of the standard, with two freedoms: the words for numbers that
are not finite are numbers, and of two members with one key the last one counts. A text that has
anything behind its value is refused, and so is one that has more arrays and objects in each other
than there is room for.

The functions for values call each other in a circle, so each is given a number of steps. Twice the
length of the text is enough: of two calls in a row at least one reads on.
-/

namespace TemplateBindings
namespace Json

/-! ### Refusals -/

/-- **A value that holds others**. -/
inductive Nest where
  /-- An array. -/
  | array
  /-- An object. -/
  | object
  deriving DecidableEq, Repr

/-- **Why a text is refused**. -/
inductive Fault where
  /-- It is not JSON. -/
  | malformed
  /-- It has an integer with too many digits, before any place where it would not be JSON. -/
  | tooManyDigits (digits : Nat)
  /-- An array or object in it stands in too many others, before any place where it would not be
  JSON. -/
  | tooDeep (nest : Nest)
  deriving DecidableEq, Repr

/-! ### Blanks and numbers -/

/-- The blanks between the parts of a value. -/
def isJsonBlank (c : Char) : Bool := c == ' ' || c == '\t' || c == '\n' || c == '\r'

/-- The text without its leading blanks. -/
def skipBlanks (s : Text) : Text := s.dropWhile isJsonBlank

/-- The integer part of a number and what follows: a zero, or digits that do not start with one. -/
def integerPart? (s : Text) : Option (Text × Text) :=
  match s with
  | '0' :: rest => some (['0'], rest)
  | c :: _ =>
    if Text.isAsciiDigit c then
      some (s.takeWhile Text.isAsciiDigit, s.dropWhile Text.isAsciiDigit)
    else none
  | [] => none

/-- The fraction at the front of a text, empty if there is none, and what follows. -/
def fractionPart (s : Text) : Text × Text :=
  match s with
  | '.' :: rest =>
    let digits := rest.takeWhile Text.isAsciiDigit
    if digits.isEmpty then ([], s) else ('.' :: digits, rest.dropWhile Text.isAsciiDigit)
  | _ => ([], s)

/-- The sign at the front of a text, empty if there is none, and what follows. -/
def signPart (s : Text) : Text × Text :=
  match s with
  | '+' :: rest => (['+'], rest)
  | '-' :: rest => (['-'], rest)
  | _ => ([], s)

/-- The exponent at the front of a text, empty if there is none, and what follows. -/
def exponentPart (s : Text) : Text × Text :=
  match s with
  | c :: rest =>
    if c = 'e' || c = 'E' then
      let (sign, behind) := signPart rest
      let digits := behind.takeWhile Text.isAsciiDigit
      if digits.isEmpty then ([], s)
      else (c :: sign ++ digits, behind.dropWhile Text.isAsciiDigit)
    else ([], s)
  | [] => ([], s)

/-- An unsigned number and what follows; `negative` says whether a minus sign stood before it. -/
def readNumber (negative : Bool) (s : Text) : Except Fault (Json × Text) :=
  match integerPart? s with
  | none => .error .malformed
  | some (digits, rest) =>
    let (fraction, rest) := fractionPart rest
    let (exponent, rest) := exponentPart rest
    if !fraction.isEmpty || !exponent.isEmpty then
      .ok (real ((if negative then ['-'] else []) ++ digits ++ fraction ++ exponent), rest)
    else if Text.maxDigits < digits.length then .error (.tooManyDigits digits.length)
    else
      let n : Int := Text.decimalValue digits
      .ok (integer (if negative then -n else n), rest)

/-! ### Strings -/

/-- The number that four hexadecimal digits write, and what follows. -/
def unit? : Text → Option (Nat × Text)
  | a :: b :: c :: d :: rest =>
    match Text.hexDigit? a, Text.hexDigit? b, Text.hexDigit? c, Text.hexDigit? d with
    | some a, some b, some c, some d => some (a * 4096 + b * 256 + c * 16 + d, rest)
    | _, _, _, _ => none
  | _ => none

/-- The symbol of an escape by number, and what follows: the numbers of two surrogates make one
character, and a surrogate without its partner stays what it is. -/
def escapedUnit? (s : Text) : Option (Symbol × Text) :=
  match unit? s with
  | none => none
  | some (n, rest) =>
    if 0xD800 ≤ n && n ≤ 0xDBFF then
      match rest with
      | '\\' :: 'u' :: behind =>
        match unit? behind with
        | none => none
        | some (m, behind) =>
          if 0xDC00 ≤ m && m ≤ 0xDFFF then
            some (.char (Char.ofNat (0x10000 + (n - 0xD800) * 0x400 + (m - 0xDC00))), behind)
          else some (.ofNumber n, rest)
      | _ => some (.ofNumber n, rest)
    else some (.ofNumber n, rest)

/-- The symbol of an escape, from behind its backslash, and what follows. -/
def escaped? (s : Text) : Option (Symbol × Text) :=
  match s with
  | '"' :: rest => some (.char '"', rest)
  | '\\' :: rest => some (.char '\\', rest)
  | '/' :: rest => some (.char '/', rest)
  | 'b' :: rest => some (.char '\x08', rest)
  | 'f' :: rest => some (.char '\x0c', rest)
  | 'n' :: rest => some (.char '\n', rest)
  | 'r' :: rest => some (.char '\r', rest)
  | 't' :: rest => some (.char '\t', rest)
  | 'u' :: rest => escapedUnit? rest
  | _ => none

/-- A string from behind its opening quote, and what follows its closing one. -/
def string? : (steps : Nat) → Text → Option (Symbols × Text)
  | 0, _ => none
  | steps + 1, s =>
    match s with
    | [] => none
    | '"' :: rest => some ([], rest)
    | '\\' :: rest =>
      match escaped? rest with
      | none => none
      | some (c, rest) => (string? steps rest).map fun r => (c :: r.1, r.2)
    | c :: rest =>
      if c.toNat < 0x20 then none
      else (string? steps rest).map fun r => (.char c :: r.1, r.2)

/-! ### Values -/

/-- A word, standing for a value. -/
def readWord (word : Text) (value : Json) (s : Text) : Except Fault (Json × Text) :=
  match Text.after? word s with
  | some rest => .ok (value, rest)
  | none => .error .malformed

mutual

/-- A value and what follows it; `room` is how many more arrays and objects may be opened in each
other. -/
def readValue : (steps room : Nat) → Text → Except Fault (Json × Text)
  | 0, _, _ => .error .malformed
  | steps + 1, room, s =>
    match s with
    | '"' :: rest =>
      match string? (rest.length + 1) rest with
      | some (value, rest) => .ok (text value, rest)
      | none => .error .malformed
    | '[' :: rest =>
      match room with
      | 0 => .error (.tooDeep .array)
      | room + 1 =>
        match skipBlanks rest with
        | ']' :: rest => .ok (array [], rest)
        | rest => (readItems steps room rest).map fun r => (array r.1, r.2)
    | '{' :: rest =>
      match room with
      | 0 => .error (.tooDeep .object)
      | room + 1 =>
        match skipBlanks rest with
        | '}' :: rest => .ok (object [], rest)
        | rest => (readMembers steps room [] rest).map fun r => (object r.1, r.2)
    | '-' :: rest =>
      match Text.after? "Infinity".toList rest with
      | some rest => .ok (real "-Infinity".toList, rest)
      | none => readNumber true rest
    | 'n' :: _ => readWord "null".toList null s
    | 't' :: _ => readWord "true".toList (bool true) s
    | 'f' :: _ => readWord "false".toList (bool false) s
    | 'N' :: _ => readWord "NaN".toList (real "NaN".toList) s
    | 'I' :: _ => readWord "Infinity".toList (real "Infinity".toList) s
    | _ => readNumber false s

/-- The items of an array from the first one on, and what follows the array. -/
def readItems : (steps room : Nat) → Text → Except Fault (List Json × Text)
  | 0, _, _ => .error .malformed
  | steps + 1, room, s =>
    match readValue steps room s with
    | .error fault => .error fault
    | .ok (value, rest) =>
      match skipBlanks rest with
      | ']' :: rest => .ok ([value], rest)
      | ',' :: rest => (readItems steps room (skipBlanks rest)).map fun r => (value :: r.1, r.2)
      | _ => .error .malformed

/-- The members of an object from the next one on, put to those read before, and what follows the
object. -/
def readMembers :
    (steps room : Nat) → List (Symbols × Json) → Text → Except Fault (List (Symbols × Json) × Text)
  | 0, _, _, _ => .error .malformed
  | steps + 1, room, before, s =>
    match s with
    | '"' :: rest =>
      match string? (rest.length + 1) rest with
      | none => .error .malformed
      | some (key, rest) =>
        match skipBlanks rest with
        | ':' :: rest =>
          match readValue steps room (skipBlanks rest) with
          | .error fault => .error fault
          | .ok (value, rest) =>
            let members := setMember before key value
            match skipBlanks rest with
            | '}' :: rest => .ok (members, rest)
            | ',' :: rest => readMembers steps room members (skipBlanks rest)
            | _ => .error .malformed
        | _ => .error .malformed
    | _ => .error .malformed

end

/-- **The value that a text holds**, blanks around it aside, if there is room for as many arrays and
objects as it has in each other. -/
def parse (room : Nat) (s : Text) : Except Fault Json :=
  match readValue (2 * s.length + 2) room (skipBlanks s) with
  | .error fault => .error fault
  | .ok (value, rest) => if (skipBlanks rest).isEmpty then .ok value else .error .malformed

/-- The value that a text holds, if it holds one. -/
def parse? (s : Text) : Option Json := (parse s.length s).toOption

end Json
end TemplateBindings
