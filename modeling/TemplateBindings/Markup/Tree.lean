import TemplateBindings.Markup.Node
import TemplateBindings.Markup.Token.Scan

/-!
# From tokens to trees

Markup becomes a list of trees. Every start tag opens an element inside the one opened last. An end
tag closes the innermost open element of its name with all that is open inside; with no such element
it does nothing, and no other tag closes anything. The elements that never have content are closed
as soon as they are opened, and one later end tag for each is passed over.

Text between two tags is one node, however many tokens it came in; text of blanks alone shrinks to
one blank unless it stands inside an element that keeps its blanks.
-/

namespace TemplateBindings
namespace Markup

/-! ### What is known of a tag -/

/-- The elements that never have content. -/
def voidTags : List Text :=
  ["area", "base", "br", "col", "embed", "hr", "img", "input", "keygen", "link", "menuitem", "meta",
   "param", "source", "track", "wbr", "basefont", "bgsound", "command", "frame", "image", "isindex",
   "nextid", "spacer"].map String.toList

/-- Whether an element with this tag never has content. -/
def isVoid (tag : Text) : Bool := voidTags.contains tag

/-- Whether an element with this tag keeps the blanks in it. -/
def keepsBlanks (tag : Text) : Bool := tag = "pre".toList || tag = "textarea".toList

/-- The attributes that hold a list of words: those of every element, and those of some. -/
def wordListAttributes : List (Text × List Text) :=
  [("a".toList, ["rel".toList, "rev".toList]),
   ("link".toList, ["rel".toList, "rev".toList]),
   ("td".toList, ["headers".toList]),
   ("th".toList, ["headers".toList]),
   ("form".toList, ["accept-charset".toList]),
   ("object".toList, ["archive".toList]),
   ("area".toList, ["rel".toList]),
   ("icon".toList, ["sizes".toList]),
   ("iframe".toList, ["sandbox".toList]),
   ("output".toList, ["for".toList])]

/-- Whether an attribute of an element holds a list of words. -/
def isWordList (tag name : Text) : Bool :=
  name = "class".toList || name = "accesskey".toList || name = "dropzone".toList
    || ((wordListAttributes.lookup tag).getD []).contains name

/-- The attributes of an element from those of its tag: distinct, and with one blank between the
words of a list. -/
def elementAttributes (tag : Text) (written : List Attribute) : List Attribute :=
  (Attribute.ofWritten written).map fun a =>
    if isWordList tag a.name then ⟨a.name, Text.joined [' '] (Text.words a.value)⟩ else a

/-! ### Building -/

/-- An element that is not closed yet. -/
structure OpenElement where
  /-- Its tag. -/
  tag : Text
  /-- Its attributes. -/
  attributes : List Attribute
  /-- Its children so far, the last one first. -/
  children : List Node

/-- The element, closed. -/
def OpenElement.close (e : OpenElement) : Node := .element e.tag e.attributes e.children.reverse

/-- **A forest that grows**. -/
structure Builder where
  /-- The open elements, the innermost one first. -/
  opened : List OpenElement
  /-- The nodes at the top level so far, the last one first. -/
  top : List Node
  /-- The text read since the last node, if any was read. -/
  pending : Option Text
  /-- The tags of elements that were closed at once and whose end tag may still come. -/
  closedEarly : List Text

namespace Builder

/-- Nothing is read yet. -/
def empty : Builder := ⟨[], [], none, []⟩

/-- A node put at the end of the innermost open element. -/
def add (b : Builder) (node : Node) : Builder :=
  match b.opened with
  | [] => { b with top := node :: b.top }
  | e :: outer => { b with opened := { e with children := node :: e.children } :: outer }

/-- More text at the end of what was read since the last node. -/
def addText (b : Builder) (data : Text) : Builder :=
  { b with pending := some (b.pending.getD [] ++ data) }

/-- The blanks that alone make no text. -/
def isSpace (c : Char) : Bool :=
  c == ' ' || c == '\n' || c == '\t' || c == '\x0c' || c == '\r'

/-- A text as its node has it: text of spaces alone is one line feed if it has one, else one space.
-/
def shrunk (data : Text) : Text :=
  if data.all isSpace then (if data.contains '\n' then ['\n'] else [' ']) else data

/-- The kind of plain text: the innermost open element that gives its text a meaning decides. -/
def textKind (b : Builder) : TextKind :=
  match b.opened.findSome? fun e => Holder.ofTag? e.tag with
  | some holder => .held holder
  | none => .plain

/-- The text since the last node made a node of a kind. -/
def flushAs (b : Builder) (kind : TextKind) : Builder :=
  match b.pending with
  | none => b
  | some data =>
    let content := if b.opened.any fun e => keepsBlanks e.tag then data else shrunk data
    { b with pending := none }.add (.text kind content)

/-- The text since the last node made a node. -/
def flush (b : Builder) : Builder := b.flushAs b.textKind

/-- A node of its own kind, between the texts around it. -/
def addApart (b : Builder) (kind : TextKind) (data : Text) : Builder :=
  (b.flush.addText data).flushAs kind

/-- An element opened inside the innermost open one. -/
def openElement (b : Builder) (tag : Text) (written : List Attribute) : Builder :=
  let b := b.flush
  { b with opened := ⟨tag, elementAttributes tag written, []⟩ :: b.opened }

/-- The innermost open element closed. -/
def closeInnermost (b : Builder) : Builder :=
  match b.opened with
  | [] => b
  | e :: outer => { b with opened := outer }.add e.close

/-- As many of the innermost open elements closed. -/
def closeMany (b : Builder) : (count : Nat) → Builder
  | 0 => b
  | n + 1 => b.closeInnermost.closeMany n

/-- The innermost open element with a tag closed, and all that is open inside. -/
def closeElement (b : Builder) (tag : Text) : Builder :=
  let b := b.flush
  if b.opened.any (·.tag = tag) then
    b.closeMany ((b.opened.takeWhile (·.tag ≠ tag)).length + 1)
  else b

/-- Whether a marked section holds data: its keyword is right before a bracket. -/
def isDataSection (data : Text) : Bool := startsWithWord "cdata[".toList data

/-- **One token taken in**. -/
def take (b : Builder) : Token → Builder
  | .characters data => b.addText data
  | .startTag tag written =>
    let opened := b.openElement tag written
    if isVoid tag then
      let closed := opened.closeElement tag
      { closed with closedEarly := tag :: closed.closedEarly }
    else opened
  | .closedTag tag written => (b.openElement tag written).closeElement tag
  | .endTag tag =>
    if b.closedEarly.contains tag then { b with closedEarly := b.closedEarly.erase tag }
    else b.closeElement tag
  | .comment data => b.addApart .comment data
  | .instruction data => b.addApart .instruction data
  | .doctype data => b.addApart .doctype (data.drop 8)
  | .section data =>
    if isDataSection data then b.addApart .data (data.drop 6) else b.addApart .declaration data

/-- The finished forest: the last text is made a node and all open elements are closed. -/
def finish (b : Builder) : List Node :=
  let b := b.flush
  (b.closeMany b.opened.length).top.reverse

end Builder

/-- **The trees of a markup text**. -/
def parse (html : Text) : Except Rejection (List Node) :=
  match tokens html with
  | .ok tokens => .ok (tokens.foldl Builder.take .empty).finish
  | .error rejection => .error rejection

/-- The elements at the top level of a markup text. -/
def parseElements (html : Text) : Except Rejection (List Node) :=
  match parse html with
  | .ok nodes => .ok (nodes.filter Node.isElement)
  | .error rejection => .error rejection

end Markup
end TemplateBindings
