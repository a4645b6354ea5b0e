import TemplateBindings.Identifier
import TemplateBindings.ElementType
import TemplateBindings.Text.Blank

/-!
# Ids of a document

A full document is not parsed. Its ids are found by reading the text once for `id="`, and each is
typed by the tag that was last opened before it. Two steps are kept apart: the occurrences of ids in
reading order, and the bindings made of them, where the first id with a constant's name keeps it and
the last occurrence of an id decides its type.
-/

namespace TemplateBindings
namespace Document

/-! ### Documents -/

/-- Whether two texts agree up to the case of ASCII letters, the first being in capitals. -/
def startsWithCapitals : (front : Text) → Text → Bool
  | [], _ => true
  | _ :: _, [] => false
  | p :: ps, c :: cs => c.toUpper = p && startsWithCapitals ps cs

/-- **Documents** are the texts that start with a document type declaration. -/
def isDocument (html : Text) : Bool := startsWithCapitals "<!DOCTYPE".toList html

/-! ### Occurrences of ids -/

/-- **An occurrence of an id**: its value, and the tag before it. -/
structure Occurrence where
  /-- The text between the quotes. -/
  id : Text
  /-- The name of the nearest tag before it, as written. -/
  tag : Text
  deriving DecidableEq, Repr

/-- The name of the tag opened last in a text that is given backwards, if it has one. -/
def openedTag? (before : Text) : Option Text :=
  if before.contains '<' then
    some ((before.takeWhile (· ≠ '<')).reverse.takeWhile
      fun c => !(Text.isBlank c || c == '/' || c == '>'))
  else none

/-- Whether an attribute name may start after a text that is given backwards. -/
def atNameStart : (before : Text) → Bool
  | [] => true
  | c :: _ => Text.isBlank c

/-- The occurrence that a value makes, if it counts: the value is not empty, no attribute name such
as `data-id` runs into it, and a tag was opened before. -/
def occurrence? (before value : Text) : Option Occurrence :=
  if value.isEmpty || !atNameStart before then none
  else (openedTag? before).map fun tag => ⟨value, tag⟩

/-- The occurrences in a text, given the text before it backwards. Reading goes on behind the
closing quote of each value and ends at a value that is not closed. -/
def occurrencesFrom (before : Text) (s : Text) : List Occurrence :=
  match s with
  | [] => []
  | c :: cs =>
    match _h : Text.after? "id=\"".toList (c :: cs) with
    | none => occurrencesFrom (c :: before) cs
    | some rest =>
      match _hc : Text.cutAt '"' rest with
      | none => []
      | some (value, following) =>
        (occurrence? before value).toList
          ++ occurrencesFrom ('"' :: value.reverse ++ "\"=di".toList ++ before) following
termination_by s.length
decreasing_by
  · simp
  · have h₁ := Text.length_of_cutAt _hc
    have h₂ := congrArg List.length (Text.eq_append_of_after? _h)
    simp only [List.length_append, List.length_cons] at h₂ ⊢
    omega

/-- **The occurrences of ids** in a document, in reading order. -/
def occurrences (html : Text) : List Occurrence := occurrencesFrom [] html

/-! ### Bindings -/

/-- **A constant for an element of a document**. -/
structure Binding where
  /-- The name of the constant. -/
  name : Text
  /-- The id that the element is looked up by. -/
  elementId : Text
  /-- The type of the element. -/
  type : Text
  deriving DecidableEq, Repr

/-- The name of the constant for an id: the id itself if it is an identifier, else its camel case.
-/
def constantName (id : Text) : Text :=
  if Identifier.isIdentifier id then id else Identifier.camel id

/-- The binding of an occurrence. -/
def Binding.ofOccurrence (o : Occurrence) : Binding :=
  ⟨constantName o.id, o.id, ElementType.ofTag (Text.upper o.tag)⟩

/-- A binding added to those before it: it replaces the one of the same id where that stands, it is
dropped when another id has its name, and else it comes last. -/
def Binding.addTo (b : Binding) (bindings : List Binding) : List Binding :=
  match bindings.find? (·.name = b.name) with
  | none => bindings ++ [b]
  | some owner =>
    if owner.elementId = b.elementId then
      bindings.map fun other => if other.elementId = b.elementId then b else other
    else bindings

/-- **The bindings of occurrences** in reading order. -/
def bindingsOf (occurrences : List Occurrence) : List Binding :=
  occurrences.foldl (fun bindings o => (Binding.ofOccurrence o).addTo bindings) []

/-- **The bindings of a document**. -/
def bindings (html : Text) : List Binding := bindingsOf (occurrences html)

/-! ### Rendering -/

/-- The declaration of one constant. -/
def Binding.render (b : Binding) : Text :=
  "export const ".toList ++ b.name ++ " = document.getElementById(\"".toList ++ b.elementId
    ++ "\") as ".toList ++ b.type ++ ";".toList

/-- **The declarations of all constants**, a line each. -/
def renderBindings (bindings : List Binding) : Text :=
  Text.joined ['\n'] (bindings.map Binding.render)

end Document
end TemplateBindings
