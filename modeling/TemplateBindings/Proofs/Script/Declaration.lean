import TemplateBindings.Proofs.Script.Literal

/-!
# Declarations of string constants

A line of a generated module that declares a constant for a string. It is valid only if the name can be
declared: an identifier may still be a word that the language keeps for itself. The name and the string
can be found again in the line (`TemplateBindings.Script.eq_of_declaration`).
-/

namespace TemplateBindings
namespace Script

variable {name other rest rest' : Text}

/-- The words that no declaration of a module can take for a name. -/
def reservedWords : List Text :=
  ["arguments".toList, "await".toList, "break".toList, "case".toList, "catch".toList,
   "class".toList, "const".toList, "continue".toList, "debugger".toList, "default".toList,
   "delete".toList, "do".toList, "else".toList, "enum".toList, "eval".toList, "export".toList,
   "extends".toList, "false".toList, "finally".toList, "for".toList, "function".toList, "if".toList,
   "implements".toList, "import".toList, "in".toList, "instanceof".toList, "interface".toList,
   "let".toList, "new".toList, "null".toList, "package".toList, "private".toList,
   "protected".toList, "public".toList, "return".toList, "static".toList, "super".toList,
   "switch".toList, "this".toList, "throw".toList, "true".toList, "try".toList, "typeof".toList,
   "var".toList, "void".toList, "while".toList, "with".toList, "yield".toList]

/-- Whether a name can be declared. -/
def IsDeclarable (name : Text) : Prop := Identifier.isIdentifier name = true ∧ name ∉ reservedWords

/-- **The declaration of a string constant**: a name that can be declared, and a literal. -/
def DeclaresString (line name : Text) (value : List Nat) : Prop :=
  IsDeclarable name ∧ ∃ rest, line = "export const ".toList ++ name ++ " = \"".toList ++ rest ∧
    readString? rest = some (value, [';'])

/-- **Names without a blank are found again in a declaration**, and so is what follows them. -/
theorem eq_of_declaration (hname : ' ' ∉ name) (hother : ' ' ∉ other)
    (h : "export const ".toList ++ name ++ " = \"".toList ++ rest =
      "export const ".toList ++ other ++ " = \"".toList ++ rest') : name = other ∧ rest = rest' := by
  have hblank (t : Text) : " = \"".toList ++ t = ' ' :: ("= \"".toList ++ t) := rfl
  rw [List.append_assoc, List.append_assoc, List.append_assoc, List.append_assoc,
    List.append_cancel_left_eq, hblank, hblank] at h
  have hcut := congrArg (Text.cutAt ' ') h
  rw [Text.cutAt_append hname, Text.cutAt_append hother, Option.some.injEq, Prod.mk.injEq,
    List.append_cancel_left_eq] at hcut
  exact hcut

end Script
end TemplateBindings
