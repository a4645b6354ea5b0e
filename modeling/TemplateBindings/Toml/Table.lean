import TemplateBindings.Settings.Value

/-!
# Tables within tables

Keys with several parts lead through tables, which are made on the way where they are missing. Where
a list of tables stands on the way, the way goes on in its last table.
-/

namespace TemplateBindings
namespace Toml

open Settings

/-- **A table changed at the end of a way**. `lists` says whether the way may go through lists of
tables. There is no result if something on the way is no table, or if the change has none. -/
def changeAt (lists : Bool) (change : Table → Option Table) :
    (way : List Text) → Table → Option Table
  | [], table => change table
  | key :: way, table =>
    match table.lookup key with
    | none => (changeAt lists change way []).map fun inner => table.set key (.table inner)
    | some (.table inner) =>
      (changeAt lists change way inner).map fun inner => table.set key (.table inner)
    | some (.list items) =>
      match lists, items.getLast? with
      | true, some (.table last) =>
        (changeAt lists change way last).map fun last =>
          table.set key (.list (items.dropLast ++ [.table last]))
      | _, _ => none
    | some _ => none

/-- The table with a value under a new key. -/
def addNew (key : Text) (value : Value) (table : Table) : Option Table :=
  if (table.lookup key).isSome then none else some (table.set key value)

/-- The table with one more empty table in the list under a key, which is made if it is missing. -/
def addTable (key : Text) (table : Table) : Option Table :=
  match table.lookup key with
  | none => some (table.set key (.list [.table []]))
  | some (.list items) => some (table.set key (.list (items ++ [.table []])))
  | some _ => none

/-- Whether some way in a list is at or above a key. -/
def coversKey (ways : List (List Text)) (key : List Text) : Bool :=
  ways.any fun way => way.isPrefixOf key

end Toml
end TemplateBindings
