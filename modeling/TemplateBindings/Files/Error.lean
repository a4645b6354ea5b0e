import TemplateBindings.Files.Path

/-!
# What can go wrong with files

An operation on files fails for one of a few causes. Most have a number, and the message shows the
paths that the operation was asked to work on; the others say that what was given is no path to work
on at all. Finding out where a path really leads can fail too, without being an operation: on a name
that no file can have, on links that lead to each other for ever, and if it starts at a directory
that is gone.
-/

namespace TemplateBindings
namespace Files

/-! ### Operations -/

/-- **Why an operation on files fails**. -/
inductive Cause where
  /-- Nothing is there. -/
  | missing
  /-- The place cannot be moved or taken away. -/
  | busy
  /-- Something is there already. -/
  | exists
  /-- Something that is no directory stands where a directory is needed. -/
  | notDirectory
  /-- A directory stands where a file is needed. -/
  | isDirectory
  /-- A name, or the path as a whole, is longer than names and paths may be. -/
  | nameTooLong
  /-- A directory is not empty. -/
  | notEmpty
  /-- More links had to be followed than are allowed. -/
  | tooManyLinks
  /-- A name holds the null character, which no name can hold. -/
  | nullCharacter
  /-- A file is to be written, and the path has no name for it. -/
  | unnamed
  /-- Directories stand in each other deeper than there is room to work on them. -/
  | tooDeep
  deriving DecidableEq, Repr

/-- The number of a cause, if it has one. -/
def Cause.number? : Cause → Option Nat
  | .missing => some 2
  | .busy => some 16
  | .exists => some 17
  | .notDirectory => some 20
  | .isDirectory => some 21
  | .nameTooLong => some 36
  | .notEmpty => some 39
  | .tooManyLinks => some 40
  | .nullCharacter | .unnamed | .tooDeep => none

/-- The words of a cause. -/
def Cause.words : Cause → Text
  | .missing => "No such file or directory".toList
  | .busy => "Device or resource busy".toList
  | .exists => "File exists".toList
  | .notDirectory => "Not a directory".toList
  | .isDirectory => "Is a directory".toList
  | .nameTooLong => "File name too long".toList
  | .notEmpty => "Directory not empty".toList
  | .tooManyLinks => "Too many levels of symbolic links".toList
  | .nullCharacter => "embedded null byte".toList
  | .unnamed => "has an empty name".toList
  | .tooDeep => "maximum recursion depth exceeded while calling a Python object".toList

/-- A cause with its number. -/
def Cause.message (cause : Cause) : Text :=
  match cause.number? with
  | some number => "[Errno ".toList ++ Text.ofNat number ++ "] ".toList ++ cause.words
  | none => cause.words

/-- The kind of error that a report names. -/
def Cause.kind : Cause → Text
  | .missing => "FileNotFoundError".toList
  | .exists => "FileExistsError".toList
  | .notDirectory => "NotADirectoryError".toList
  | .isDirectory => "IsADirectoryError".toList
  | .nullCharacter | .unnamed => "ValueError".toList
  | .tooDeep => "RecursionError".toList
  | .busy | .nameTooLong | .notEmpty | .tooManyLinks => "OSError".toList

/-- Whether a cause only says that nothing is to be found at a path: the question what is there is
then answered, and does not fail. -/
def Cause.isAbsence : Cause → Bool
  | .missing | .notDirectory | .tooManyLinks | .nullCharacter => true
  | _ => false

/-- **A failed operation**: its cause, the path it worked on, and the path it moved something to. -/
structure FileError where
  /-- The cause. -/
  cause : Cause
  /-- The path. -/
  path : Path
  /-- Where something was to be moved. -/
  target : Option Path := none
  deriving DecidableEq, Repr

/-- The kind of error that a report names. -/
def FileError.kind (e : FileError) : Text := e.cause.kind

/-- The wording of a failed operation. -/
def FileError.message (e : FileError) : Text :=
  match e.cause with
  | .nullCharacter | .tooDeep => e.cause.message
  | .unnamed => "PosixPath(".toList ++ Str.quoted e.path.render ++ ") ".toList ++ e.cause.message
  | cause =>
    cause.message ++ ": ".toList ++ Str.quoted e.path.render
      ++ match e.target with
        | some target => " -> ".toList ++ Str.quoted target.render
        | none => []

/-! ### Paths -/

/-- **Why nobody can say where a path leads**. -/
inductive PathFault where
  /-- A name holds the null character. -/
  | nullCharacter
  /-- Links lead to each other for ever. -/
  | linkLoop (path : Path)
  /-- The directory that the path starts at is gone. -/
  | noStart
  deriving DecidableEq, Repr

/-- The kind of error that a report names. -/
def PathFault.kind : PathFault → Text
  | .nullCharacter => Cause.nullCharacter.kind
  | .linkLoop _ => "RuntimeError".toList
  | .noStart => Cause.missing.kind

/-- The wording of a path's fault. -/
def PathFault.message : PathFault → Text
  | .nullCharacter => Cause.nullCharacter.message
  | .noStart => Cause.missing.message
  | .linkLoop path => "Symlink loop from ".toList ++ Str.quoted path.render

end Files
end TemplateBindings
