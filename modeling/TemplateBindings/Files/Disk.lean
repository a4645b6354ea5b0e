import TemplateBindings.Files.Operation
import TemplateBindings.Thread

/-!
# Working on a disk

A disk is a file system with a clock that stands still and a record of the operations performed on
it, so that what was done can be done again: on another disk, or only up to a point. Work on a disk
is a thread that asks one question or performs one operation in a step, so that others may work on
the disk at the same time. That a file is read or written in one step is a simplification, for no
thread meets a file here that another one has written in part. Work may fail, and leaves behind what
it did until then. Work that goes from one directory into the next takes room at each step, and
whoever asks for it says how much there is.
-/

namespace TemplateBindings
namespace Files

/-- **A disk**. -/
structure Disk where
  /-- The root directory. -/
  root : Entry
  /-- The time, in nanoseconds, that files written now are given. -/
  now : Int
  /-- The operations performed, the latest first. -/
  performed : List Operation := []
  deriving Repr

/-- **Work on a disk** that ends with a value or an error. -/
abbrev Work (ε α : Type) : Type := ExceptT ε (Thread Disk) α

/-- Work done on a disk without others: its end, and the disk afterwards. -/
def Work.runOn {ε α : Type} (work : Work ε α) (disk : Disk) : Except ε α × Disk :=
  (ExceptT.run work).run disk

/-- How work ends can be compared. -/
instance (priority := high) instDecidableEqEnd {ε α : Type} [DecidableEq ε] [DecidableEq α] :
    DecidableEq (Except ε α)
  | .ok a, .ok b =>
    if h : a = b then isTrue (congrArg _ h) else isFalse fun he => h (Except.ok.inj he)
  | .error e, .error e' =>
    if h : e = e' then isTrue (congrArg _ h) else isFalse fun he => h (Except.error.inj he)
  | .ok _, .error _ => isFalse nofun
  | .error _, .ok _ => isFalse nofun

/-- Work with its errors seen as errors of another type. -/
def Work.mapError {ε δ α : Type} (f : ε → δ) (work : Work ε α) : Work δ α := work.adapt f

/-- A question about the file system. -/
def ask {ε α : Type} (question : Entry → Except ε α) : Work ε α :=
  ExceptT.mk (.step id fun disk => .done (question disk.root))

/-- The disk after an attempt at an operation; one that succeeds is recorded. -/
def Disk.attempt (disk : Disk) (operation : Operation) : Disk :=
  match operation.apply disk.now disk.root with
  | .ok root => { disk with root, performed := operation :: disk.performed }
  | .error _ => disk

/-- **One operation**. -/
def perform (operation : Operation) : Work FileError Unit :=
  ExceptT.mk (.step (·.attempt operation) fun disk =>
    .done ((operation.apply disk.now disk.root).map fun _ => ()))

/-- Passes over an error in making a directory if there is a directory already. -/
def allowDirectory (path : Path) (e : FileError) : Work FileError Unit := do
  if e.cause = .missing then throw e
  if !(← ask fun files => isDirectory files path) then throw e

/-- Makes a directory, without regard to one that is there. -/
def ensureDirectory (path : Path) : Work FileError Unit :=
  tryCatch (perform (.makeDirectory path)) (allowDirectory path)

/-- **Makes a directory and those above it** that are missing. The names of the path are given from
the last one on, and `room` is how many directories above may be missing. -/
def ensureDirectoriesRev : (room : Nat) → (namesRev : List Str) → Work FileError Unit
  | _, [] => ensureDirectory []
  | room, name :: above =>
    let path := (name :: above).reverse
    tryCatch (perform (.makeDirectory path)) fun e =>
      if e.cause = .missing then
        match room with
        | 0 => throw ⟨.tooDeep, path, none⟩
        | room + 1 => do
          ensureDirectoriesRev room above
          ensureDirectory path
      else allowDirectory path e

/-- Makes a directory and those above it that are missing, if there is room for as many. -/
def ensureDirectories (room : Nat) (path : Path) : Work FileError Unit :=
  ensureDirectoriesRev room path.reverse

/-- What the file at the end of a path is called while it is being written. -/
def draftOf? (path : Path) : Option Path := path.extended? ".tmp".toList

/-- **Writes a file as a whole**: under another name first, so that the old file stays until the new
one is complete. -/
def replaceFile (path : Path) (bytes : List UInt8) : Work FileError Unit := do
  match draftOf? path with
  | some draft => do
    perform (.write draft bytes)
    perform (.move draft path)
  | none => throw ⟨.unnamed, path, none⟩

/-- Begins to write a file as a whole: it is there under the other name, and empty. -/
def beginFile (path : Path) : Work FileError Unit :=
  match draftOf? path with
  | some draft => perform (.write draft [])
  | none => throw ⟨.unnamed, path, none⟩

end Files
end TemplateBindings
