import TemplateBindings.Files.Entry
import TemplateBindings.Files.Error

/-!
# Where a path leads

`locate` walks a path as the operations on files do: name by name through what the directories hold,
links followed as they come, up to a limit. `resolve` answers the same question ahead of any
operation, and so that it has an answer for a path whose end does not exist: from the first name on
that is not there, the rest of the path stands for itself. Where nothing exists at all, `resolve` is
`normalise` (`TemplateBindings.Files.lexical`).
-/

namespace TemplateBindings
namespace Files

/-! ### Limits -/

/-- How many bytes a name may have. -/
def nameLimit : Nat := 255

/-- How many bytes the text of a path may have. -/
def pathLimit : Nat := 4095

/-- How many links one walk may follow. -/
def linkLimit : Nat := 40

/-! ### Walking -/

/-- **What a path is to lead to**. -/
inductive Goal where
  /-- What stands at its end, be it a link. -/
  | entry
  /-- What a link at its end leads to. -/
  | target
  /-- The same, or the place there for a new file. -/
  | file
  deriving DecidableEq, Repr

/-- **The end of a walk**, by its way through real directories. -/
inductive Spot where
  /-- An entry. -/
  | found (way : Path) (entry : Entry)
  /-- A directory without the last name of the path. -/
  | vacant (directory : Path) (name : Str)
  deriving Repr

/-- The names in the text of a link, single dots among them. A slash at its end is kept as an empty
name: it asks for a directory, as the dot does, and there is no place for a new file in front of it.
-/
def linkNames (target : Str) : List Str :=
  (Text.pieces slash target).filter (!·.isEmpty) ++ if target.getLast? = some slash then [[]] else []

/-- A walk along names that goes on behind a link as `follow` says, from an entry with the way to it,
the last name first. -/
def walkWith (root : Entry) (goal : Goal)
    (follow : (wayRev : List Str) → (here : Entry) → List Str → Except Cause Spot) :
    (wayRev : List Str) → (here : Entry) → List Str → Except Cause Spot
  | wayRev, here, [] => .ok (.found wayRev.reverse here)
  | wayRev, .directory members, name :: rest =>
    if name.isEmpty || name = stay then walkWith root goal follow wayRev (.directory members) rest
    else if name = back then
      match root.at? wayRev.tail.reverse with
      | some above => walkWith root goal follow wayRev.tail above rest
      | none => .error .missing
    else if goal = .file && !rest.isEmpty && rest.all (·.isEmpty) then .error .isDirectory
    else if nameLimit < name.bytes.length then .error .nameTooLong
    else
      match members.lookup name with
      | none => if rest.isEmpty then .ok (.vacant wayRev.reverse name) else .error .missing
      | some (.link target) =>
        if rest.isEmpty && goal = .entry then
          .ok (.found (name :: wayRev).reverse (.link target))
        else if Path.isAbsolute target then follow [] root (linkNames target ++ rest)
        else follow wayRev (.directory members) (linkNames target ++ rest)
      | some entry => walkWith root goal follow (name :: wayRev) entry rest
  | _, _, _ :: _ => .error .notDirectory

/-- **A walk** along names that follows up to `links` links, from an entry with the way to it, the
last name first. -/
def walk (root : Entry) (goal : Goal) :
    (links : Nat) → (wayRev : List Str) → (here : Entry) → List Str → Except Cause Spot
  | 0 => walkWith root goal fun _ _ _ => .error .tooManyLinks
  | links + 1 => walkWith root goal (walk root goal links)

theorem walk_zero (root : Entry) (goal : Goal) :
    walk root goal 0 = walkWith root goal fun _ _ _ => .error .tooManyLinks := rfl

theorem walk_succ (root : Entry) (goal : Goal) (links : Nat) :
    walk root goal (links + 1) = walkWith root goal (walk root goal links) := rfl

-- a question about files is not to be answered by unfolding forty walks
attribute [irreducible] walk

/-- **Where a path leads** in a file system. -/
def locate (root : Entry) (goal : Goal) (path : Path) : Except Cause Spot :=
  if path.hasNull then .error .nullCharacter
  else if pathLimit < path.render.bytes.length then .error .nameTooLong
  else walk root goal linkLimit [] root path

/-- The entry that a path leads to, links followed. -/
def entryAt? (root : Entry) (path : Path) : Option Entry :=
  match locate root .target path with
  | .ok (.found _ entry) => some entry
  | _ => none

/-! ### Resolving -/

/-- A path with the rest of a text behind it. A rest that starts with a slash starts at the root
directory. -/
def withRest (path : Path) : (rest : List Str) → Path
  | [] :: name :: rest => name :: rest
  | rest => path ++ rest

/-- **How far a path can be settled** ahead of any operation. -/
inductive Settling where
  /-- To its end. -/
  | done (path : Path)
  /-- Up to a link that leads back to itself; the rest of the path is put behind it as it stands. -/
  | stuck (path : Path)
  /-- Up to a name that no file can have. -/
  | invalid
  deriving DecidableEq, Repr

/-- The settling of further names behind a settled path. Empty names and single dots say nothing. What
a link leads to, from the directory that its text starts at, is as `follow` says; `active` holds the
links that are being followed. -/
def settleWith (root : Entry) (active : List Path)
    (follow : (link start : Path) → List Str → Settling) :
    (settled : Path) → List Str → Settling
  | settled, [] => .done settled
  | settled, name :: rest =>
    if name.isEmpty || name = stay then settleWith root active follow settled rest
    else if name = back then settleWith root active follow settled.dropLast rest
    else if name.contains null then .invalid
    else
      let next := settled ++ [name]
      match root.at? next with
      | some (.link target) =>
        if active.contains next then .stuck (withRest next rest)
        else
          match follow next (if Path.isAbsolute target then [] else settled)
              (Text.pieces slash target) with
          | .done path => settleWith root active follow path rest
          | .stuck path => .stuck (withRest path rest)
          | .invalid => .invalid
      | _ => settleWith root active follow next rest

/-- **The settling** of names behind a settled path. Each link that is being followed is another one,
so that `depth`, the number of the other links, is never used up. -/
def settle (root : Entry) :
    (depth : Nat) → (active : List Path) → (settled : Path) → List Str → Settling
  | 0, active => settleWith root active fun link _ _ => .stuck link
  | depth + 1, active =>
    settleWith root active fun link start names => settle root depth (link :: active) start names

theorem settle_zero (root : Entry) (active : List Path) :
    settle root 0 active = settleWith root active fun link _ _ => .stuck link := rfl

theorem settle_succ (root : Entry) (depth : Nat) (active : List Path) :
    settle root (depth + 1) active = settleWith root active fun link start names =>
      settle root depth (link :: active) start names := rfl

attribute [irreducible] settle

/-- A settled path, if it leads anywhere. -/
def checked (root : Entry) (settled : Path) : Except PathFault Path :=
  match locate root .target settled with
  | .error .nullCharacter => .error .nullCharacter
  | .error .tooManyLinks => .error (.linkLoop settled)
  | _ => .ok settled

/-- **The path without links and steps back** that a path leads to. -/
def resolve (root : Entry) (path : Path) : Except PathFault Path :=
  match settle root root.linkCount [] [] path.plain with
  | .invalid => .error .nullCharacter
  | .done settled | .stuck settled => checked root settled.normalise

/-- Resolving a path where nothing exists. -/
def lexical (path : Path) : Except PathFault Path :=
  if path.hasNull then .error .nullCharacter else .ok path.normalise

end Files
end TemplateBindings
