import TemplateBindings.Markup.Attribute

/-!
# Markup trees

A tree of elements with the texts between them. A text knows its kind: plain text, text inside one
of the elements that give their text a meaning of its own, or one of the constructs that are no text
at all, such as comments. The functions here look at a tree; they take the list of children of an
element along, since a tree is built of lists of trees.
-/

namespace TemplateBindings
namespace Markup

/-- The elements that give the text in them a meaning of its own. -/
inductive Holder where
  /-- The pronunciation in a ruby annotation. -/
  | rubyText
  /-- The parenthesis around a ruby annotation. -/
  | rubyParenthesis
  /-- A stylesheet. -/
  | style
  /-- A script. -/
  | script
  /-- A template. -/
  | template
  deriving DecidableEq, Repr

/-- The holder with a tag. -/
def Holder.ofTag? (tag : Text) : Option Holder :=
  if tag = "rt".toList then some .rubyText
  else if tag = "rp".toList then some .rubyParenthesis
  else if tag = "style".toList then some .style
  else if tag = "script".toList then some .script
  else if tag = "template".toList then some .template
  else none

/-- **The kind of a text** in a tree. -/
inductive TextKind where
  /-- Text of the page. -/
  | plain
  /-- Text inside an element that gives it a meaning of its own. -/
  | held (holder : Holder)
  /-- A comment. -/
  | comment
  /-- A section whose text is data. -/
  | data
  /-- A processing instruction. -/
  | instruction
  /-- Any other marked section. -/
  | declaration
  /-- A document type declaration. -/
  | doctype
  deriving DecidableEq, Repr

/-- **A node of a tree**. -/
inductive Node where
  /-- An element with its tag, its attributes and its children. -/
  | element (tag : Text) (attributes : List Attribute) (children : List Node)
  /-- A text of some kind. -/
  | text (kind : TextKind) (content : Text)
  deriving Repr

namespace Node

/-! ### Elements -/

/-- Whether a node is an element. -/
def isElement : Node → Bool
  | element .. => true
  | text .. => false

/-- The tag of an element; a text has none. -/
def tag : Node → Text
  | element tag _ _ => tag
  | text .. => []

/-- The attributes of an element; a text has none. -/
def attributes : Node → List Attribute
  | element _ attributes _ => attributes
  | text .. => []

/-- The children of an element; a text has none. -/
def children : Node → List Node
  | element _ _ children => children
  | text .. => []

/-- The children that are elements. -/
def elementChildren (node : Node) : List Node := node.children.filter isElement

/-- The value of an attribute of an element. -/
def attribute? (node : Node) (name : Text) : Option Text := Attribute.get? node.attributes name

/-! ### Paths -/

/-- A member of a list by its index; negative indexes count from the end. -/
def memberAt? {α : Type} (xs : List α) (index : Int) : Option α :=
  if 0 ≤ index then xs[index.toNat]?
  else if -index ≤ xs.length then xs[(xs.length + index).toNat]?
  else none

theorem memberAt?_map {α β : Type} (f : α → β) (xs : List α) (index : Int) :
    memberAt? (xs.map f) index = (memberAt? xs index).map f := by
  rw [memberAt?, memberAt?, List.length_map]
  split
  · exact List.getElem?_map ..
  · split
    · exact List.getElem?_map ..
    · rfl

/-- **The element at a path**: each index picks one of the children that are elements. -/
def at? (node : Node) : (path : List Int) → Option Node
  | [] => some node
  | index :: path =>
    match memberAt? node.elementChildren index with
    | some child => child.at? path
    | none => none

/-! ### The text of a stylesheet -/

mutual

/-- The stylesheet text in a tree. -/
def styleText : Node → Text
  | text kind content => if kind = .held .style then content else []
  | element _ _ children => styleTexts children

/-- The stylesheet text in a list of trees. -/
def styleTexts : List Node → Text
  | [] => []
  | node :: rest => styleText node ++ styleTexts rest

end

end Node
end Markup
end TemplateBindings
