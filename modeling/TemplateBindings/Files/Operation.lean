import TemplateBindings.Files.Locate

/-!
# Operations on files

The few operations by which this library changes a file system, each a function on its root
directory, and the questions it asks of one. An operation that fails changes nothing. Writing goes
through links, to the file they lead to; moving and taking away work on the links themselves.
-/

namespace TemplateBindings
namespace Files

/-! ### Changes -/

/-- **An operation** that changes a file system. -/
inductive Operation where
  /-- Makes a directory in an existing one. -/
  | makeDirectory (path : Path)
  /-- Writes a file: a new one, or an existing one from its start. -/
  | write (path : Path) (bytes : List UInt8)
  /-- Adds to the end of a file, which may be new. -/
  | append (path : Path) (bytes : List UInt8)
  /-- Moves a file, in the place of a file that may be there. -/
  | move (source target : Path)
  /-- Takes a file away. -/
  | removeFile (path : Path)
  /-- Takes an empty directory away. -/
  | removeDirectory (path : Path)
  deriving DecidableEq, Repr

/-- The file system with a file written to: what the file is to hold is said from what it holds. -/
def writeWith (now : Int) (root : Entry) (path : Path) (change : List UInt8 → List UInt8) :
    Except Cause Entry :=
  match locate root .file path with
  | .ok (.found way (.file bytes _)) => .ok (root.put (some (.file (change bytes) now)) way)
  | .ok (.found _ _) => .error .isDirectory
  | .ok (.vacant way name) => .ok (root.put (some (.file (change []) now)) (way ++ [name]))
  | .error cause => .error cause

/-- The file system with a file moved. -/
def moveFile (root : Entry) (source target : Path) : Except Cause Entry :=
  match locate root .entry source with
  | .error cause => .error cause
  | .ok (.vacant _ _) => .error .missing
  | .ok (.found sourceWay entry) =>
    match locate root .entry target with
    | .error cause => .error cause
    | .ok spot =>
      if target.getLast? = some back then .error .busy
      else
        let moved (way : Path) := (root.put none sourceWay).put (some entry) way
        match entry, spot with
        | .directory _, _ => .error .isDirectory
        | _, .found _ (.directory _) => .error .isDirectory
        | _, .found way _ => .ok (moved way)
        | _, .vacant way name => .ok (moved (way ++ [name]))

/-- The file system after an operation, at the time `now`. -/
def Operation.change (now : Int) (root : Entry) : Operation → Except Cause Entry
  | .makeDirectory path =>
    match locate root .entry path with
    | .ok (.vacant way name) => .ok (root.put (some (.directory [])) (way ++ [name]))
    | .ok (.found _ _) => .error .exists
    | .error cause => .error cause
  | .write path bytes => writeWith now root path fun _ => bytes
  | .append path bytes => writeWith now root path fun before => before ++ bytes
  | .move source target => moveFile root source target
  | .removeFile path =>
    match locate root .entry path with
    | .ok (.found _ (.directory _)) => .error .isDirectory
    | .ok (.found way _) => .ok (root.put none way)
    | .ok (.vacant _ _) => .error .missing
    | .error cause => .error cause
  | .removeDirectory path =>
    match locate root .entry path with
    | .ok (.found [] _) => .error .busy
    | .ok (.found way (.directory [])) => .ok (root.put none way)
    | .ok (.found _ (.directory _)) => .error .notEmpty
    | .ok (.found _ _) => .error .notDirectory
    | .ok (.vacant _ _) => .error .missing
    | .error cause => .error cause

/-- The error of an operation that fails for a cause. -/
def Operation.failure (cause : Cause) : Operation → FileError
  | .makeDirectory path => ⟨cause, path, none⟩
  | .write path _ => ⟨cause, path, none⟩
  | .append path _ => ⟨cause, path, none⟩
  | .move source target => ⟨cause, source, some target⟩
  | .removeFile path => ⟨cause, path, none⟩
  | .removeDirectory path => ⟨cause, path, none⟩

/-- **The file system after an operation**, or the operation's error. -/
def Operation.apply (now : Int) (root : Entry) (operation : Operation) : Except FileError Entry :=
  (operation.change now root).mapError operation.failure

/-! ### Questions -/

/-- The bytes of a file. -/
def contents (root : Entry) (path : Path) : Except FileError (List UInt8) :=
  match locate root .target path with
  | .ok (.found _ (.file bytes _)) => .ok bytes
  | .ok (.found _ _) => .error ⟨.isDirectory, path, none⟩
  | .ok (.vacant _ _) => .error ⟨.missing, path, none⟩
  | .error cause => .error ⟨cause, path, none⟩

/-- The time of the last change of a file. -/
def modified (root : Entry) (path : Path) : Except FileError Int :=
  match locate root .target path with
  | .ok (.found _ (.file _ time)) => .ok time
  | .ok (.found _ _) => .error ⟨.isDirectory, path, none⟩
  | .ok (.vacant _ _) => .error ⟨.missing, path, none⟩
  | .error cause => .error ⟨cause, path, none⟩

/-- Whether a path leads to a file. That nothing is there is an answer; that links or files stand in
the way is an error. -/
def isFile (root : Entry) (path : Path) : Except FileError Bool :=
  match locate root .target path with
  | .ok (.found _ (.file _ _)) => .ok true
  | .ok _ => .ok false
  | .error .missing => .ok false
  | .error cause => .error ⟨cause, path, none⟩

/-- Whether something is where a path leads, and something that passes a test. That a path is too
long is an error, and no answer. -/
def satisfies (test : Entry → Bool) (root : Entry) (path : Path) : Except FileError Bool :=
  match locate root .target path with
  | .ok (.found _ entry) => .ok (test entry)
  | .ok (.vacant _ _) => .ok false
  | .error cause => if cause.isAbsence then .ok false else .error ⟨cause, path, none⟩

/-- Whether something is where a path leads. -/
def isThere : Entry → Path → Except FileError Bool := satisfies fun _ => true

/-- Whether a path leads to a directory. -/
def isDirectory : Entry → Path → Except FileError Bool := satisfies Entry.isDirectory

/-- The directory that a path leads to. -/
def openDirectory (root : Entry) (path : Path) : Except FileError Entry :=
  match locate root .target path with
  | .ok (.found _ (.directory members)) => .ok (.directory members)
  | .ok (.found _ _) => .error ⟨.notDirectory, path, none⟩
  | .ok (.vacant _ _) => .error ⟨.missing, path, none⟩
  | .error cause => .error ⟨cause, path, none⟩

end Files
end TemplateBindings
