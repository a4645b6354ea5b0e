import TemplateBindings.Template.Fragment
import TemplateBindings.Text.Integer

/-!
# Generated classes

The class that is generated for a template. Its constructor keeps the markup of the template in a
registry of the module, makes a deep copy of it, and finds the element of each ref in the copy by
its path. The markup stands in the class as a template literal, in which three things have to be
escaped.
-/

namespace TemplateBindings
namespace Template

/-! ### Template literals -/

/-- **A text inside a template literal**: a backslash goes before every backslash, before every
backtick, and before every dollar sign that would open an interpolation. -/
def escapeLiteral : Text → Text
  | [] => []
  | '\\' :: rest => '\\' :: '\\' :: escapeLiteral rest
  | '\x60' :: rest => '\\' :: '\x60' :: escapeLiteral rest
  | '$' :: '{' :: rest => '\\' :: '$' :: '{' :: escapeLiteral rest
  | c :: rest => c :: escapeLiteral rest

/-! ### Classes -/

/-- The name of the registry of a module. -/
def registryName : Text := "_fragments".toList

/-- The declaration of the registry. -/
def renderRegistry : Text :=
  "const ".toList ++ registryName ++ " = new Map<string, HTMLElement>();".toList

/-- The expression that leads to the element at a path. -/
def accessor (path : List Int) : Text :=
  "this.".toList ++ baseField
    ++ path.flatMap fun index => ".children[".toList ++ Text.ofInt index ++ "]!".toList

/-- The declaration of a field. -/
def renderField (name type : Text) : Text :=
  "  ".toList ++ name ++ ": ".toList ++ type ++ ";".toList

/-- The assignment of the element of a ref to its field. -/
def renderAssignment (ref : Ref) : Text :=
  "    this.".toList ++ ref.name ++ " = ".toList ++ accessor ref.path ++ " as ".toList ++ ref.type
    ++ ";".toList

/-- The lines of a generated class. -/
def classLines (t : Compiled) : List Text :=
  ["export class ".toList ++ t.name ++ " \x7b".toList, renderField baseField t.type]
    ++ t.refs.map (fun ref => renderField ref.name ref.type)
    ++ [[],
      "  constructor() \x7b".toList,
      "    let fragment = ".toList ++ registryName ++ ".get(\"".toList ++ t.name ++ "\");".toList,
      "    if (!fragment) \x7b".toList,
      "      const tmp = document.createElement(\"div\");".toList,
      "      tmp.innerHTML = ".toList ++ '\x60' :: escapeLiteral t.html ++ ['\x60', ';'],
      "      fragment = tmp.children[0]! as HTMLElement;".toList,
      "      ".toList ++ registryName ++ ".set(\"".toList ++ t.name ++ "\", fragment);".toList,
      "    \x7d".toList,
      "    this.".toList ++ baseField ++ " = fragment.cloneNode(true) as ".toList ++ t.type
        ++ ";".toList]
    ++ t.refs.map renderAssignment
    ++ ["  \x7d".toList, "\x7d".toList]

/-- **The class generated for a template**. -/
def Compiled.render (t : Compiled) : Text := Text.joined ['\n'] (classLines t)

end Template
end TemplateBindings
