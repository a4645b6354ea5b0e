import TemplateBindings.Text.Basic

/-!
# Element types

The type that generated code gives to an element of the page, by its tag. Tags that are not listed
have the type of all elements.
-/

namespace TemplateBindings
namespace ElementType

/-- The type of an element whose tag says no more. -/
def generic : Text := "HTMLElement".toList

/-- The tags with a type of their own, in capitals. -/
def byTag : List (Text × Text) :=
  [("INPUT".toList, "HTMLInputElement".toList),
   ("SELECT".toList, "HTMLSelectElement".toList),
   ("FORM".toList, "HTMLFormElement".toList),
   ("TEXTAREA".toList, "HTMLTextAreaElement".toList),
   ("CANVAS".toList, "HTMLCanvasElement".toList),
   ("AUDIO".toList, "HTMLAudioElement".toList),
   ("BUTTON".toList, "HTMLButtonElement".toList),
   ("A".toList, "HTMLAnchorElement".toList),
   ("DIALOG".toList, "HTMLDialogElement".toList)]

/-- **The narrowest known type** of an element whose tag, in capitals, is given. -/
def ofTag (tag : Text) : Text := (byTag.lookup tag).getD generic

end ElementType
end TemplateBindings
