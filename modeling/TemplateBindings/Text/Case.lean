import TemplateBindings.Text.Basic
import TemplateBindings.Text.Case.Mappings
import TemplateBindings.Text.Case.Classes

/-!
# Capital and small letters

The full case mappings of Unicode: one character may become several, and a capital sigma becomes a
final sigma at the end of a word. On ASCII they are the mappings everyone expects, and the tables
are not looked at.
-/

namespace TemplateBindings
namespace Text

/-! ### One character -/

/-- The image of a character outside ASCII under a table of runs and a table of expansions. -/
def mapByTables (runs : List CaseRun) (expansions : List (Nat × List Nat)) (c : Char) : Text :=
  match expansions.lookup c.toNat with
  | some images => images.map Char.ofNat
  | none =>
    match runs.findSome? (·.image? c.toNat) with
    | some n => [Char.ofNat n]
    | none => [c]

/-- The capital form of a character. -/
def upperChar (c : Char) : Text :=
  if c.toNat < 128 then [c.toUpper] else mapByTables upperRuns upperExpansions c

/-- The small form of a character that is not a capital sigma. -/
def lowerChar (c : Char) : Text :=
  if c.toNat < 128 then [c.toLower] else mapByTables lowerRuns lowerExpansions c

/-! ### Whole texts -/

/-- **A text in capital letters**. -/
def upper (s : Text) : Text := s.flatMap upperChar

/-- Whether a text, read from a sigma outwards, meets a cased letter before anything that is neither
cased nor case-ignorable. -/
def meetsCased (s : Text) : Bool :=
  match s.dropWhile isCaseIgnorable with
  | c :: _ => isCased c
  | [] => false

/-- The small forms of the characters of a text, given the characters before it, nearest first. A
capital sigma with a letter before it and none after it is final. -/
def lowerFrom (before : Text) : Text → Text
  | [] => []
  | c :: rest =>
    let image :=
      if c = 'Σ' then
        if meetsCased before && !meetsCased rest then ['ς'] else ['σ']
      else lowerChar c
    image ++ lowerFrom (c :: before) rest

/-- **A text in small letters**. -/
def lower (s : Text) : Text := lowerFrom [] s

@[simp] theorem upper_nil : upper [] = [] := rfl

@[simp] theorem lower_nil : lower [] = [] := rfl

end Text
end TemplateBindings
