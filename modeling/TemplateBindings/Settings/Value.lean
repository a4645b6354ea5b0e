import TemplateBindings.Text.Basic

/-!
# Values of settings

What a settings file can say, as far as this library asks: texts, integers and truth values are
kept, lists and tables are kept so that they can be added to, and of numbers with a fraction and of
dates it is only known that they are none of these.
-/

namespace TemplateBindings
namespace Settings

/-- **A value of a setting**. -/
inductive Value where
  /-- No value, as if the setting were not there. -/
  | nothing
  /-- A truth value. -/
  | truth (value : Bool)
  /-- An integer. -/
  | integer (value : Int)
  /-- A text. -/
  | text (value : Text)
  /-- A number with a fraction, a date or a time. -/
  | other
  /-- A list. -/
  | list (items : List Value)
  /-- A table: values with their keys, which are distinct. -/
  | table (members : List (Text × Value))
  deriving Inhabited, Repr

/-- **A table**. -/
abbrev Table := List (Text × Value)

/-- The value of a key; a key that is not there has none. -/
def Table.get (table : Table) (key : Text) : Value := (table.lookup key).getD .nothing

/-- A table with a value for a key: in its place if the key is there, else at the end. -/
def Table.set (table : Table) (key : Text) (value : Value) : Table :=
  match table with
  | [] => [(key, value)]
  | m :: rest => if m.1 = key then (key, value) :: rest else m :: Table.set rest key value

/-- The value that was set is there. -/
@[simp] theorem Table.get_set_self (table : Table) (key : Text) (value : Value) :
    (table.set key value).get key = value := by
  induction table with
  | nil => simp [Table.set, Table.get]
  | cons m rest ih =>
    obtain ⟨other, old⟩ := m
    by_cases h : other = key
    · simp [Table.set, Table.get, h]
    · have hne : (key == other) = false := by simpa using fun e => h e.symm
      simpa [Table.set, Table.get, List.lookup_cons, h, hne] using ih

end Settings
end TemplateBindings
