import TemplateBindings.Markup.Node
import TemplateBindings.ElementType
import TemplateBindings.Text.Case

/-!
# Named elements of a template

The elements below the root of a template that carry a name become *refs*: typed fields of the
generated class, each found again by the path of its element. The name is the attribute `id`, which
is taken away; the attribute `id_` stands for an `id` that is meant for the page and is turned into
one, without naming anything. Reading the refs and taking the names away are two functions, since
each looks at an element by itself.
-/

namespace TemplateBindings
namespace Template

open Markup

/-- The attribute that names an element. -/
def nameAttribute : Text := "id".toList

/-- The attribute that becomes an `id` of the page. -/
def literalAttribute : Text := "id_".toList

/-! ### Refs -/

/-- **A ref**: a named element below the root of a template. -/
structure Ref where
  /-- The name of the field. -/
  name : Text
  /-- The type of the element. -/
  type : Text
  /-- The indexes that lead from the root to the element, each among the children that are elements.
  -/
  path : List Int
  deriving DecidableEq, Repr

/-- The name that an element carries: its naming attribute, if that is not empty. -/
def name? (attributes : List Attribute) : Option Text :=
  match Attribute.get? attributes nameAttribute with
  | some name => if name.isEmpty then none else some name
  | none => none

/-- The type of an element by its tag in small letters. -/
def typeOf (tag : Text) : Text := ElementType.ofTag (Text.upper tag)

mutual

/-- The refs in a tree, its root included, in the order of their start tags. The path of the root is
given. -/
def refsAt (path : List Int) : Node → List Ref
  | .text .. => []
  | .element tag attributes children =>
    ((name? attributes).map fun name => ⟨name, typeOf tag, path⟩).toList
      ++ refsBelow path 0 children

/-- The refs in a list of siblings. The path of their parent is given, and how many elements come
before them. -/
def refsBelow (path : List Int) (index : Nat) : List Node → List Ref
  | [] => []
  | .text .. :: rest => refsBelow path index rest
  | .element tag attributes children :: rest =>
    refsAt (path ++ [(index : Int)]) (.element tag attributes children)
      ++ refsBelow path (index + 1) rest

end

/-- **The refs of a template** with the given root, which is no ref itself. -/
def refs (root : Node) : List Ref := refsBelow [] 0 root.children

/-! ### Taking the names away -/

/-- The attributes of an element without its name, and with the `id` that is meant for the page. -/
def unnamedAttributes (attributes : List Attribute) : List Attribute :=
  let unnamed :=
    if (name? attributes).isSome then Attribute.erase attributes nameAttribute else attributes
  match Attribute.get? unnamed literalAttribute with
  | some value => Attribute.set (Attribute.erase unnamed literalAttribute) nameAttribute value
  | none => unnamed

mutual

/-- A tree with the names of all its elements taken away. -/
def unname : Node → Node
  | .text kind content => .text kind content
  | .element tag attributes children =>
    .element tag (unnamedAttributes attributes) (unnameAll children)

/-- A list of trees with the names of all their elements taken away. -/
def unnameAll : List Node → List Node
  | [] => []
  | node :: rest => unname node :: unnameAll rest

end

/-- A root with the names of all elements below it taken away, its own left as it is. -/
def unnameBelow : Node → Node
  | .text kind content => .text kind content
  | .element tag attributes children => .element tag attributes (unnameAll children)

end Template
end TemplateBindings
