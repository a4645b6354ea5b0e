import TemplateBindings.Room
import TemplateBindings.Toml.Scalar
import TemplateBindings.Toml.Table

/-!
# Values of TOML

Lists and inline tables hold values, so the readers of this file call each other, and each is given
a number of steps. Twice the length of the text is enough: of two calls in a row at least one reads
on. They are also given the room that is left for opening lists and inline tables in each other,
which take two and three parts of it.
-/

namespace TemplateBindings
namespace Toml

open Settings

/-- A text of any form, if there is one at the front. -/
def readText? (s : Text) : Option (Reading Text) :=
  match s with
  | '"' :: '"' :: '"' :: rest => some (readMultilineBasic rest)
  | '"' :: rest => some (readBasic rest)
  | '\'' :: '\'' :: '\'' :: rest => some (readMultilineLiteral rest)
  | '\'' :: rest => some (readLiteral rest)
  | _ => none

/-- A truth value, if there is one at the front. -/
def truth? (s : Text) : Option (Bool × Text) :=
  match Text.after? "true".toList s with
  | some rest => some (true, rest)
  | none => (Text.after? "false".toList s).map fun rest => (false, rest)

/-- A value that holds no others. -/
def readSimple (s : Text) : Reading Value :=
  match readText? s with
  | some reading => reading.map fun r => (.text r.1, r.2)
  | none =>
    match truth? s with
    | some (value, rest) => .ok (.truth value, rest)
    | none => readScalar s

/-- Whether a value holds others. -/
def isNested : Value → Bool
  | .list _ => true
  | .table _ => true
  | _ => false

/-- A table with a value under a key of several parts, none of which is closed. -/
def addInline (closed : List (List Text)) (key : List Text) (value : Value) (table : Table) :
    Option Table :=
  if coversKey closed key then none
  else changeAt false (addNew (key.getLast?.getD []) value) key.dropLast table

/-- The room for lists and inline tables in each other. -/
def nestingRoom : Nat := roomInside 14

mutual

/-- **A value** and what follows it. -/
def readValue : (steps room : Nat) → Text → Reading Value
  | 0, _, _ => malformed
  | steps + 1, room, s =>
    match s with
    | '[' :: rest =>
      match room with
      | room + 2 =>
        match skipLines (rest.length + 1) rest with
        | .error fault => .error fault
        | .ok (']' :: rest) => .ok (.list [], rest)
        | .ok rest => (readItems steps room rest).map fun r => (.list r.1, r.2)
      | _ => .error .tooDeep
    | '{' :: rest =>
      match room with
      | room + 3 =>
        match skipInline rest with
        | '}' :: rest => .ok (.table [], rest)
        | rest => (readInline steps room [] [] rest).map fun r => (.table r.1, r.2)
      | _ => .error .tooDeep
    | _ => readSimple s

/-- The items of a list from the first one on. -/
def readItems : (steps room : Nat) → Text → Reading (List Value)
  | 0, _, _ => malformed
  | steps + 1, room, s =>
    match readValue steps room s with
    | .error fault => .error fault
    | .ok (value, rest) =>
      match skipLines (rest.length + 1) rest with
      | .error fault => .error fault
      | .ok (']' :: rest) => .ok ([value], rest)
      | .ok (',' :: rest) =>
        match skipLines (rest.length + 1) rest with
        | .error fault => .error fault
        | .ok (']' :: rest) => .ok ([value], rest)
        | .ok rest => (readItems steps room rest).map fun r => (value :: r.1, r.2)
      | .ok _ => malformed

/-- An inline table from its next key on, given what was read of it before and the keys whose values
are closed. -/
def readInline : (steps room : Nat) → (closed : List (List Text)) → Table → Text → Reading Table
  | 0, _, _, _, _ => malformed
  | steps + 1, room, closed, table, s =>
    match readPair steps room s with
    | .error fault => .error fault
    | .ok ((key, value), rest) =>
      match addInline closed key value table with
      | none => malformed
      | some table =>
        match skipInline rest with
        | '}' :: rest => .ok (table, rest)
        | ',' :: rest =>
          let closed := if isNested value then key :: closed else closed
          readInline steps room closed table (skipInline rest)
        | _ => malformed

/-- A key with its value. -/
def readPair : (steps room : Nat) → Text → Reading (List Text × Value)
  | 0, _, _ => malformed
  | steps + 1, room, s =>
    match readKey (s.length + 1) s with
    | .error fault => .error fault
    | .ok (key, '=' :: rest) =>
      (readValue steps room (skipInline rest)).map fun r => ((key, r.1), r.2)
    | .ok _ => malformed

end

end Toml
end TemplateBindings
