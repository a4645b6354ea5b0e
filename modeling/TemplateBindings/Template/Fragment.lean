import TemplateBindings.Template.Refs
import TemplateBindings.Template.Strip
import TemplateBindings.Markup.Print
import TemplateBindings.Identifier

/-!
# Fragments

A fragment is markup whose top-level elements are templates, except for its stylesheets. A template
needs a name that is an identifier and that no other template of the fragment has; the names of its
refs have to be identifiers, distinct, and other than the field of the template itself. The first
element at which one of these rules is broken is the one that is reported.
-/

namespace TemplateBindings
namespace Template

open Markup

/-- The field of a generated class that holds the element of the template itself. -/
def baseField : Text := "base".toList

/-! ### Errors -/

/-- **Why a template is refused**. -/
inductive Fault where
  /-- The root has no name; its tag is given. -/
  | unnamed (tag : Text)
  /-- The name of the template is no identifier. -/
  | badName
  /-- An earlier template has the name. -/
  | repeatedName
  /-- A ref has the name of the field of the template itself. -/
  | reservedRef
  /-- The name of a ref is no identifier. -/
  | badRef (name : Text)
  /-- An earlier ref has the name. -/
  | repeatedRef (name : Text)
  deriving DecidableEq, Repr

/-- The wording of a reason. -/
def Fault.message : Fault → Text
  | .unnamed tag =>
    '<' :: tag ++ "> template root requires a non-empty '".toList ++ nameAttribute
      ++ "' attribute.".toList
  | .badName => "template name is not a valid identifier.".toList
  | .repeatedName => "template name is declared more than once.".toList
  | .reservedRef => '\'' :: baseField ++ "' is reserved for the template root.".toList
  | .badRef name => "ref '".toList ++ name ++ "' is not a valid identifier.".toList
  | .repeatedRef name => "ref '".toList ++ name ++ "' is declared more than once.".toList

/-- **A refused template**: its name, empty if it has none, and what is wrong with it. -/
structure TemplateError where
  /-- The name of the template. -/
  template : Text
  /-- What is wrong with it. -/
  fault : Fault
  deriving DecidableEq, Repr

/-- The wording of an error. -/
def TemplateError.message (e : TemplateError) : Text :=
  (if e.template.isEmpty then "<unnamed>".toList else e.template) ++ ": ".toList ++ e.fault.message

/-! ### Templates -/

/-- **A template**, ready to be rendered. -/
structure Compiled where
  /-- The name of the generated class. -/
  name : Text
  /-- The type of its element. -/
  type : Text
  /-- Its refs, in the order of their start tags. -/
  refs : List Ref
  /-- Its markup. -/
  html : Text
  deriving DecidableEq, Repr

/-- The first fault among refs, given the names of the refs before them. -/
def refFault? (seen : List Text) : List Ref → Option Fault
  | [] => none
  | ref :: rest =>
    if ref.name = baseField then some .reservedRef
    else if !Identifier.isIdentifier ref.name then some (.badRef ref.name)
    else if seen.contains ref.name then some (.repeatedRef ref.name)
    else refFault? (ref.name :: seen) rest

/-- **The template with a given root**. -/
def ofRoot (root : Node) : Except TemplateError Compiled :=
  match name? root.attributes with
  | none => .error ⟨[], .unnamed root.tag⟩
  | some name =>
    if !Identifier.isIdentifier name then .error ⟨name, .badName⟩
    else
      match refFault? [] (refs root) with
      | some fault => .error ⟨name, fault⟩
      | none => .ok ⟨name, typeOf root.tag, refs root, printRoot (strip (unname root))⟩

/-! ### Fragments -/

/-- **A fragment**: its templates and its stylesheets, each in the order of the markup. -/
structure Fragment where
  /-- The templates. -/
  templates : List Compiled
  /-- The texts of the stylesheets. -/
  styles : List Text
  deriving DecidableEq, Repr

/-- Whether a top-level element is a stylesheet. -/
def isStyle (node : Node) : Bool := node.tag = "style".toList

/-- The fragment of a list of top-level elements, given the names of the templates before them. -/
def fragmentOfElements (seen : List Text) : List Node → Except TemplateError Fragment
  | [] => .ok ⟨[], []⟩
  | node :: rest =>
    if isStyle node then
      match fragmentOfElements seen rest with
      | .ok fragment => .ok { fragment with styles := node.styleText :: fragment.styles }
      | .error e => .error e
    else
      match ofRoot node with
      | .error e => .error e
      | .ok template =>
        if seen.contains template.name then .error ⟨template.name, .repeatedName⟩
        else
          match fragmentOfElements (template.name :: seen) rest with
          | .ok fragment => .ok { fragment with templates := template :: fragment.templates }
          | .error e => .error e

/-- **Why a fragment is refused**. -/
inductive FragmentError where
  /-- Its markup is refused. -/
  | rejected (rejection : Rejection)
  /-- One of its templates is. -/
  | template (error : TemplateError)
  deriving DecidableEq, Repr

/-- The wording of an error. -/
def FragmentError.message : FragmentError → Text
  | .rejected rejection => rejection.message
  | .template e => e.message

/-- The kind of error that a report names. -/
def FragmentError.kind : FragmentError → Text
  | .rejected rejection => rejection.kind
  | .template _ => "TemplateError".toList

/-- **The fragment of a markup text**. -/
def Fragment.parse (html : Text) : Except FragmentError Fragment :=
  match parseElements html with
  | .error rejection => .error (.rejected rejection)
  | .ok elements =>
    match fragmentOfElements [] elements with
    | .ok fragment => .ok fragment
    | .error e => .error (.template e)

end Template
end TemplateBindings
