import TemplateBindings.Text.Str

/-!
# Paths

A path is the list of names on the way from the root directory. Text that writes a path is read
against a base directory, and is as free as people are: repeated slashes and single dots say
nothing. A name of two dots is kept, because where it leads can depend on what the directories hold
(`TemplateBindings.Files.locate`); only `TemplateBindings.Files.Path.normalise` takes it as a step
back.

A text with exactly two slashes in front is shown with both of them again, although it leads where
one slash leads. Its path starts with an empty name, which no other path has.
-/

namespace TemplateBindings
namespace Files

/-- **A path** from the root directory: the names on the way, behind an empty one if the path was
written with two slashes in front. -/
abbrev Path := List Str

/-- What stands between the names of a path that is written. -/
abbrev slash : Point := .char '/'

/-- What no name can hold. -/
abbrev null : Point := .char '\x00'

/-- The name that stays in its directory. -/
def stay : Str := [.char '.']

/-- The name that steps back to the directory above. -/
def back : Str := [.char '.', .char '.']

namespace Path

/-! ### Reading and writing -/

/-- The names in a text, without the empty ones and the single dots. -/
def names (s : Str) : List Str :=
  (Text.pieces slash s).filter fun name => !name.isEmpty && name != stay

/-- Whether a text starts at the root directory. -/
def isAbsolute (s : Str) : Bool := Text.startsWith [slash] s

/-- The slashes in front of a text that a path keeps: those of exactly two, as an empty name. -/
def frontOf : Str → Path
  | .char '/' :: .char '/' :: .char '/' :: _ => []
  | .char '/' :: .char '/' :: _ => [[]]
  | _ => []

/-- **The path that a text writes**, seen from a base directory. -/
def under (base : Path) (s : Str) : Path :=
  if isAbsolute s then frontOf s ++ names s else base ++ names s

/-- A path as text. -/
def render : Path → Str
  | [[]] => [slash, slash]
  | path => slash :: Text.joined [slash] path

/-- The path with one slash in front. -/
def plain (path : Path) : Path := path.filter (!·.isEmpty)

/-- The way down from a directory as text; a dot if it stays there. -/
def renderBelow (names : List Str) : Str :=
  if names.isEmpty then stay else Text.joined [slash] names

/-! ### Parts -/

/-- The directory that a path is in; the root directory is in itself. -/
def parent : Path → Path
  | [[]] => [[]]
  | path => path.dropLast

/-- The way down from `base` to a path that starts with it. -/
def below? : (base : Path) → Path → Option (List Str)
  | [], [] :: _ => none
  | [], path => some path
  | _ :: _, [] => none
  | b :: base, name :: path => if b = name then below? base path else none

/-- Whether a path is a directory or lies below it. -/
def isWithin (base path : Path) : Bool := (below? base path).isSome

theorem below?_nil {path : Path} (h : path.head? ≠ some []) : below? [] path = some path := by
  rcases path with _ | ⟨_ | ⟨c, cs⟩, path⟩
  · rfl
  · exact absurd rfl h
  · rfl

/-- The way down is what was put behind the base. -/
theorem below?_append (base : Path) {names : List Str} (h : names.head? ≠ some []) :
    below? base (base ++ names) = some names := by
  induction base with
  | nil => exact below?_nil h
  | cons b base ih => simpa [below?] using ih

/-- The path behind one more name: a step back cancels the last name, and the root directory is
above itself. -/
def goOn (done : Path) (name : Str) : Path :=
  if name.isEmpty || name = stay then done
  else if name = back then done.dropLast
  else done ++ [name]

/-- **The path without steps back**, and without the names that say nothing. -/
def normalise (path : Path) : Path := path.foldl goOn []

/-! ### Names with a suffix -/

/-- **A name cut before its suffix**: the last dot and what follows it. There is no suffix if the
dot stands at either end of the name. -/
def splitName (name : Str) : Str × Str :=
  let tail := (name.reverse.takeWhile (· ≠ .char '.')).reverse
  let stem := name.take (name.length - tail.length - 1)
  if tail.isEmpty || stem.isEmpty then (name, []) else (stem, name.drop stem.length)

/-- Cutting a name loses nothing. -/
theorem splitName_append (name : Str) : (splitName name).1 ++ (splitName name).2 = name := by
  unfold splitName
  dsimp only
  split
  · simp
  · dsimp only
    rw [List.length_take_of_le (by omega)]
    exact List.take_append_drop _ _

/-- The path with something added to its last name, if it has one. -/
def extended? (path : Path) (addition : Str) : Option Path :=
  match path.getLast? with
  | some name => if name.isEmpty then none else some (path.dropLast ++ [name ++ addition])
  | none => none

/-- Whether some name holds the character that no name may hold. -/
def hasNull (path : Path) : Bool := path.any (·.contains null)

end Path
end Files
end TemplateBindings
