import TemplateBindings.Markup.Reference
import TemplateBindings.Markup.StartTag
import TemplateBindings.Text.Quoted

/-!
# Tokens

Markup as the sequence of its tags, its comments and the like, and the text between them. Almost any
text is a sequence of tokens: a construct that is never closed is read as text. Only a marked
section with no keyword, or with one nobody knows, is refused, and a reference to a character by a
number with more digits than an integer is read with.

A text is read in two runs. The first stops where a construct may still be incomplete; the second
goes on from there with the knowledge that nothing more will come. Text that is left over after the
second run is given out as it stands, except inside an element with raw text that is never closed,
where it is lost.
-/

namespace TemplateBindings
namespace Markup

/-! ### Types -/

/-- **A token**. -/
inductive Token where
  /-- Text, its references resolved. -/
  | characters (data : Text)
  /-- A start tag. -/
  | startTag (name : Text) (attributes : List Attribute)
  /-- A start tag that is closed at once by a slash. -/
  | closedTag (name : Text) (attributes : List Attribute)
  /-- An end tag. -/
  | endTag (name : Text)
  /-- A comment. -/
  | comment (data : Text)
  /-- A processing instruction. -/
  | instruction (data : Text)
  /-- A document type declaration, from its keyword. -/
  | doctype (data : Text)
  /-- A marked section, from its keyword. -/
  | section (data : Text)
  deriving DecidableEq, Repr

/-- The elements whose text is read raw, up to their end tag. -/
inductive RawElement where
  /-- A script. -/
  | script
  /-- A stylesheet. -/
  | style
  deriving DecidableEq, Repr

/-- The tag of an element with raw text. -/
def RawElement.tag : RawElement → Text
  | .script => "script".toList
  | .style => "style".toList

/-- The element with raw text that has a tag. -/
def RawElement.ofTag? (tag : Text) : Option RawElement :=
  if tag = "script".toList then some .script
  else if tag = "style".toList then some .style
  else none

/-- **Why markup is refused**. -/
inductive Rejection where
  /-- A marked section has no keyword; the text from its start is given. -/
  | noKeyword (context : Text)
  /-- The keyword of a marked section is unknown. -/
  | unknownKeyword (keyword : Text)
  /-- The number of a reference has too many digits. -/
  | tooManyDigits (digits : Nat)
  deriving DecidableEq, Repr

/-- What is said of markup that is refused as a whole, before the reason. -/
def rejectionMessage (reason : Text) : Text :=
  ("The markup you provided was rejected by the parser. Trying a different parser or a different " ++
    "encoding may help.\n\nOriginal exception(s) from parser:\n AssertionError: ").toList ++ reason

/-- The wording of a refusal. -/
def Rejection.message : Rejection → Text
  | .noKeyword context =>
    rejectionMessage ("expected name token at ".toList ++ Text.quoted context)
  | .unknownKeyword keyword =>
    rejectionMessage
      ("unknown status keyword ".toList ++ Text.quoted keyword ++ " in marked section".toList)
  | .tooManyDigits digits => Text.tooManyDigits digits

/-- The kind of error that a report names. -/
def Rejection.kind : Rejection → Text
  | .noKeyword _ | .unknownKeyword _ => "ParserRejectedMarkup".toList
  | .tooManyDigits _ => "ValueError".toList

/-- **One construct** at the front of a text. -/
inductive Construct where
  /-- Its end is missing. -/
  | incomplete
  /-- It is refused. -/
  | refused (rejection : Rejection)
  /-- Its token, if it makes one, the element whose raw text follows, and the text behind it. -/
  | read (token : Option Token) (raw : Option RawElement) (rest : Text)

/-! ### Tags -/

/-- The construct that a start tag makes if the references in its attributes can be resolved. -/
def Construct.withAttributes (written : List Attribute) (make : List Attribute → Construct) :
    Construct :=
  match written.findSome? fun a => Reference.tooManyDigitsIn? a.value with
  | some digits => .refused (.tooManyDigits digits)
  | none => make (written.map fun a => ⟨a.name, Reference.resolve a.value⟩)

/-- The start tag behind an opening angle bracket. If what follows the attributes ends no tag, the
tag is text. -/
def Construct.startTag (s : Text) : Construct :=
  let name := s.takeWhile isTagNameChar
  let behind := s.dropWhile isTagNameChar
  let start := skipSeparators behind
  let (written, rest) :=
    attributesFrom (start != behind || mayPrecedeName (name.getLastD ' ')) start
  let tag := Text.lower name
  match rest with
  | [] => .incomplete
  | '>' :: rest =>
    withAttributes written fun attributes =>
      .read (some (.startTag tag attributes)) (RawElement.ofTag? tag) rest
  | '/' :: '>' :: rest =>
    withAttributes written fun attributes => .read (some (.closedTag tag attributes)) none rest
  | c :: rest =>
    if Text.isAsciiLetter c || c == '=' || c == '/' then .incomplete
    else
      withAttributes written fun _ =>
        .read (some (.characters ('<' :: s.take (s.length - (c :: rest).length)))) none (c :: rest)

/-- The characters of the name in a well-formed end tag, behind its first letter. -/
def isEndNameChar (c : Char) : Bool :=
  Text.isAsciiLetter c || Text.isAsciiDigit c || c == '-' || c == '.' || c == ':' || c == '_'

/-- Whether a text starts with an ASCII letter. -/
def startsWithLetter : Text → Bool
  | c :: _ => Text.isAsciiLetter c
  | [] => false

/-- The end tag in a text, between its slash and its closing angle bracket. A well-formed one has
only blanks around its name. Else a name right behind the slash counts and the rest is passed over;
with no such name the tag is a comment, or nothing at all if it is empty. -/
def endTagToken? (inner : Text) : Option Token :=
  let start := Text.dropBlanks inner
  let name := start.takeWhile isEndNameChar
  if startsWithLetter start && Text.isAllBlank (start.dropWhile isEndNameChar) then
    some (.endTag (Text.lower name))
  else if startsWithLetter inner then
    some (.endTag (Text.lower (inner.takeWhile isTagNameChar)))
  else if inner.isEmpty then none
  else some (.comment inner)

/-- The end tag behind its slash. -/
def Construct.endTag (s : Text) : Construct :=
  match Text.cutAt '>' s with
  | some (inner, rest) => .read (endTagToken? inner) none rest
  | none => .incomplete

/-! ### Comments, instructions and declarations -/

/-- What follows two hyphens, blanks and a closing angle bracket. -/
def afterCommentEnd? : Text → Option Text
  | '-' :: '-' :: rest =>
    match Text.dropBlanks rest with
    | '>' :: rest => some rest
    | _ => none
  | _ => none

/-- What follows a closing square bracket, blanks and a closing angle bracket. -/
def afterConditionEnd? : Text → Option Text
  | ']' :: rest =>
    match Text.dropBlanks rest with
    | '>' :: rest => some rest
    | _ => none
  | _ => none

/-- What follows two closing square brackets and a closing angle bracket, with blanks between. -/
def afterSectionEnd? : Text → Option Text
  | ']' :: rest => afterConditionEnd? (Text.dropBlanks rest)
  | _ => none

/-- The construct that a cut makes: what stands before the cut is its data. -/
def Construct.ofCut (token : Text → Token) : Option (Text × Text) → Construct
  | some (data, rest) => .read (some (token data)) none rest
  | none => .incomplete

/-- The characters of a keyword behind its first letter. -/
def isKeywordChar (c : Char) : Bool :=
  Text.isAsciiLetter c || Text.isAsciiDigit c || c == '-' || c == '_' || c == '.'

/-- The keywords of sections that end with two square brackets. -/
def sectionKeywords : List Text :=
  ["temp".toList, "cdata".toList, "ignore".toList, "include".toList, "rcdata".toList]

/-- The keywords of sections that end with one square bracket. -/
def conditionKeywords : List Text := ["if".toList, "else".toList, "endif".toList]

/-- The marked section behind its opening square bracket. -/
def Construct.markedSection (s : Text) : Construct :=
  if s.isEmpty then .incomplete
  else if !startsWithLetter s then .refused (.noKeyword (("<![".toList ++ s).take 20))
  else
    let keyword := s.takeWhile isKeywordChar
    let behind := s.dropWhile isKeywordChar
    if Text.isAllBlank behind then .incomplete
    else if sectionKeywords.contains (Text.lower keyword) then
      .ofCut .section (Text.cutWhere afterSectionEnd? s)
    else if conditionKeywords.contains (Text.lower keyword) then
      .ofCut .section (Text.cutWhere afterConditionEnd? s)
    else .refused (.unknownKeyword (keyword ++ behind.takeWhile Text.isBlank))

/-- Whether a text starts with a word in ASCII letters of either case; the word is in small letters.
-/
def startsWithWord : (word : Text) → Text → Bool
  | [], _ => true
  | _ :: _, [] => false
  | p :: ps, c :: cs => c.toLower = p && startsWithWord ps cs

/-- What stands behind an opening angle bracket and an exclamation mark: a comment, a marked
section, a document type declaration, or else a comment up to the next closing angle bracket. -/
def Construct.declaration (s : Text) : Construct :=
  match s with
  | '-' :: '-' :: rest => .ofCut .comment (Text.cutWhere afterCommentEnd? rest)
  | '[' :: rest => .markedSection rest
  | _ =>
    if startsWithWord "doctype".toList s then
      match Text.cutAt '>' (s.drop 7) with
      | some (data, rest) => .read (some (.doctype (s.take 7 ++ data))) none rest
      | none => .incomplete
    else .ofCut .comment (Text.cutAt '>' s)

/-- **The construct behind an opening angle bracket**, or none if the bracket is text. -/
def Construct.ofBracket? (s : Text) : Option Construct :=
  match s with
  | '/' :: rest => some (.endTag rest)
  | '!' :: rest => some (.declaration rest)
  | '?' :: rest => some (.ofCut .instruction (Text.cutAt '>' rest))
  | c :: rest => if Text.isAsciiLetter c then some (.startTag (c :: rest)) else none
  | [] => none

/-- How an unfinished construct behind an opening angle bracket is read once it is known that no
more text will come: it is text up to the next closing angle bracket, or before the next opening
one, or else only the bracket itself is. -/
def unfinished (s : Text) : Text × Text :=
  match Text.cutAt '>' s with
  | some (inner, rest) => ('<' :: inner ++ ['>'], rest)
  | none =>
    if s.contains '<' then ('<' :: s.takeWhile (· != '<'), s.dropWhile (· != '<'))
    else (['<'], s)

/-! ### References -/

/-- The text behind a numbered reference, from behind its digits. Something has to follow them, and
it is no hexadecimal digit; a semicolon belongs to the reference. -/
def afterCode? : Text → Option Text
  | ';' :: rest => some rest
  | c :: rest => if (Text.hexDigit? c).isSome then none else some (c :: rest)
  | [] => none

/-- The number of a reference behind its number sign, and the text behind the reference. -/
def codeReference? (s : Text) : Option (Nat × Text) :=
  let decimal := s.takeWhile Text.isAsciiDigit
  if decimal.isEmpty then
    match s with
    | x :: digits =>
      let isHex (c : Char) := (Text.hexDigit? c).isSome
      let hex := digits.takeWhile isHex
      if (x == 'x' || x == 'X') && !hex.isEmpty then
        (afterCode? (digits.dropWhile isHex)).map fun rest => (Text.hexValue hex, rest)
      else none
    | [] => none
  else
    (afterCode? (s.dropWhile Text.isAsciiDigit)).map fun rest => (Text.decimalValue decimal, rest)

/-- The characters of the name in a reference behind its first letter. -/
def isReferenceNameChar (c : Char) : Bool :=
  Text.isAsciiLetter c || Text.isAsciiDigit c || c == '-' || c == '.'

/-- The name of a reference behind its ampersand, and the text behind the reference. Something has
to follow the name: at the end of the text, the last hyphen or point does. -/
def nameReference? (s : Text) : Option (Text × Text) :=
  if startsWithLetter s then
    let name := s.takeWhile isReferenceNameChar
    match s.dropWhile isReferenceNameChar with
    | ';' :: rest => some (name, rest)
    | c :: rest => some (name, c :: rest)
    | [] =>
      let ending := (name.reverse.takeWhile fun c => c != '-' && c != '.').length + 1
      if ending ≤ name.length then
        some (name.take (name.length - ending), name.drop (name.length - ending))
      else none
  else none

/-! ### Raw text -/

/-- Whether two characters agree when case is disregarded; the first is a small ASCII letter. The
letters outside ASCII that count as one of these without being written the same give `some false`.
-/
def agreesWith? (p c : Char) : Option Bool :=
  if c.toLower = p then some true
  else if (p = 's' && c = 'ſ') || (p = 'i' && (c = 'İ' || c = 'ı')) then some false
  else none

/-- The text behind a word that disregards case, and whether the word was written in ASCII letters.
-/
def afterWord? : (word : Text) → Text → Option (Bool × Text)
  | [], s => some (true, s)
  | _ :: _, [] => none
  | p :: ps, c :: cs =>
    match agreesWith? p c with
    | some exact => (afterWord? ps cs).map fun r => (exact && r.1, r.2)
    | none => none

/-- What follows the end tag of an element with raw text, and whether the tag is written in ASCII.
-/
def afterRawEnd? (raw : RawElement) (s : Text) : Option (Bool × Text) :=
  match s with
  | '<' :: '/' :: rest =>
    match afterWord? raw.tag (Text.dropBlanks rest) with
    | some (exact, behind) =>
      match Text.dropBlanks behind with
      | '>' :: rest => some (exact, rest)
      | _ => none
    | none => none
  | _ => none

/-! ### One step -/

/-- **One step of the reading**. -/
inductive Step where
  /-- Tokens are read, and reading goes on behind them. -/
  | next (tokens : List Token) (raw : Option RawElement) (rest : Text)
  /-- Tokens are read, and the run ends there. -/
  | stop (tokens : List Token) (rest : Text)
  /-- The markup is refused. -/
  | refused (rejection : Rejection)

/-- A text as a token, unless it is empty. -/
def textToken (data : Text) : List Token := if data.isEmpty then [] else [.characters data]

/-- A step in raw text: up to the end tag of the element. If that is not written in ASCII it is text
like the rest. -/
def rawStep (raw : RawElement) (s : Text) : Step :=
  match Text.cutWhere (fun t => (afterRawEnd? raw t).map (·.2)) s with
  | none => .stop [] s
  | some (before, rest) =>
    let ending := (s.drop before.length).take (s.length - before.length - rest.length)
    match afterRawEnd? raw (s.drop before.length) with
    | some (true, _) => .next (textToken before ++ [.endTag raw.tag]) none rest
    | _ => .next [.characters (before ++ ending)] (some raw) rest

/-- A step at an opening angle bracket, from behind it. -/
def bracketStep (final : Bool) (s : Text) : Step :=
  match Construct.ofBracket? s with
  | some (.read token raw rest) => .next token.toList raw rest
  | some (.refused rejection) => .refused rejection
  | some .incomplete =>
    if final then .next [.characters (unfinished s).1] none (unfinished s).2
    else .stop [] ('<' :: s)
  | none => if s.isEmpty then .stop [] ('<' :: s) else .next [.characters ['<']] none s

/-- A step at an ampersand, from behind it. -/
def ampersandStep (final : Bool) (s : Text) : Step :=
  match s with
  | '#' :: digits =>
    match codeReference? digits with
    | some (code, rest) =>
      match Reference.tooManyDigits? digits with
      | some count => .refused (.tooManyDigits count)
      | none => .next [.characters [Reference.ofCode code]] none rest
    | none =>
      if digits.contains ';' then .stop [.characters "&#".toList] digits else .stop [] ('&' :: s)
  | _ =>
    match nameReference? s with
    | some (name, rest) => .next [.characters (Reference.ofNameInText name)] none rest
    | none =>
      if startsWithLetter s then
        if final && s.length = 1 then .stop [] s else .stop [] ('&' :: s)
      else if s.isEmpty then .stop [] ('&' :: s)
      else .next [.characters ['&']] none s

/-- Whether a character is plain text outside raw text. -/
def isDataChar (c : Char) : Bool := !(c == '<' || c == '&')

/-- A step at the front of a text. -/
def step (final : Bool) (raw : Option RawElement) (s : Text) : Step :=
  match raw, s with
  | _, [] => .stop [] []
  | some raw, c :: cs => rawStep raw (c :: cs)
  | none, '<' :: rest => bracketStep final rest
  | none, '&' :: rest => ampersandStep final rest
  | none, c :: cs =>
    .next [.characters ((c :: cs).takeWhile isDataChar)] none ((c :: cs).dropWhile isDataChar)

end Markup
end TemplateBindings
