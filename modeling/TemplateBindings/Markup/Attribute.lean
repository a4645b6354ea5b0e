import TemplateBindings.Text.Basic

/-!
# Attributes

The attributes of an element, in the order in which they were written. Names are distinct: setting
an attribute that is there changes its value where it stands.
-/

namespace TemplateBindings
namespace Markup

/-- **An attribute**: a name and a value, empty if none was written. -/
structure Attribute where
  /-- The name, in small letters. -/
  name : Text
  /-- The value. -/
  value : Text
  deriving DecidableEq, Repr

namespace Attribute

/-- The value of an attribute by its name. -/
def get? (attributes : List Attribute) (name : Text) : Option Text :=
  (attributes.find? (·.name = name)).map (·.value)

/-- The attributes without one. -/
def erase (attributes : List Attribute) (name : Text) : List Attribute :=
  attributes.filter (·.name ≠ name)

/-- The attributes with a value for a name: in its place if the name is there, else at the end. -/
def set (attributes : List Attribute) (name value : Text) : List Attribute :=
  match attributes with
  | [] => [⟨name, value⟩]
  | a :: rest => if a.name = name then ⟨name, value⟩ :: rest else a :: set rest name value

/-- Attributes as written, made distinct: the last value of a name counts, in its first place. -/
def ofWritten (written : List Attribute) : List Attribute :=
  written.foldl (fun attributes a => set attributes a.name a.value) []

@[simp] theorem get?_set_self (attributes : List Attribute) (name value : Text) :
    get? (set attributes name value) name = some value := by
  induction attributes with
  | nil => simp [set, get?]
  | cons a rest ih =>
    simp only [set]
    split
    · simp [get?]
    · next h => simpa [get?, List.find?_cons, h] using ih

@[simp] theorem get?_erase_self (attributes : List Attribute) (name : Text) :
    get? (erase attributes name) name = none := by
  simp [get?, erase]

end Attribute
end Markup
end TemplateBindings
