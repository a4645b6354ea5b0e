import Std.Time.DateTime.Timestamp
import TemplateBindings.CommandLine.Run

/-!
# The command

The command works on a picture of the file system: what a call may ask for is read into an entry,
the call is run on that entry, and the operations it performed are performed on the machine. Of
files whose contents no call asks for, only that they are there is read.
-/

namespace TemplateBindings
namespace Command

open Files

/-! ### The picture of the file system -/

/-- A path as the machine takes it. -/
def machinePath (path : Path) : String := String.ofList path.render.shown

/-- The suffixes of the files whose contents are read. -/
def readSuffixes : List String := [".html", ".css", ".ts", ".toml"]

/-- The target of a link that leads nowhere: a name that no picture has. -/
def nowhere : Str := [.char '\x01']

/-- The path that a link leads to in the end. -/
def linkTarget (path : String) : IO Str := do
  try return Str.ofText (← IO.FS.realPath path).toString.toList
  catch _ => return nowhere

/-- The file at a path, with its contents if a call may ask for them. -/
def fileEntry (path : String) (info : IO.FS.Metadata) : IO Entry := do
  let modified := info.modified.sec * 1000000000 + info.modified.nsec.toNat
  if readSuffixes.any (fun suffix => path.endsWith suffix) then
    return .file (← IO.FS.readBinFile path).toList modified
  else return .file [] modified

/-- What is at a path, if anything is. -/
def kindAt (path : String) : IO (Option IO.FS.FileType) := do
  try return some (← ((← IO.currentDir) / path).symlinkMetadata).type
  catch _ => return none

/-- A picture with an entry at the end of a way, and directories on it where nothing was. -/
def graft (files : Entry) (way : Path) (entry : Entry) : Entry :=
  let above := (List.range way.length).map way.take
  let files := above.foldl
    (fun files way =>
      if (files.at? way).isSome then files else files.put (some (.directory [])) way)
    files
  files.put (some entry) way

/-- The picture with everything below a real directory. -/
partial def readBelow (files : Entry) (way : Path) : IO Entry := do
  let here ← IO.currentDir
  let path := machinePath way
  let info ← (here / path).symlinkMetadata
  match info.type with
  | .dir => do
    let mut files := graft files way (.directory [])
    for member in ← (here / path).readDir do
      files ← readBelow files (way ++ [Str.ofText member.fileName.toList])
    return files
  | .symlink => do
    let target ← linkTarget path
    let files := graft files way (.link target)
    let targetWay := Path.names target
    if target = nowhere || (files.at? targetWay).isSome then return files
    let info ← (here / String.ofList target.shown).metadata
    match info.type with
    | .dir => return graft files targetWay (.directory [])
    | _ => return graft files targetWay (← fileEntry (String.ofList target.shown) info)
  | _ => return graft files way (← fileEntry path info)

/-- The picture with what a path leads to and the links on the way to it. -/
partial def readAlong (files : Entry) (way : Path) : List Str → IO Entry
  | [] => readBelow files way
  | name :: rest => do
    if name.isEmpty then readAlong files way rest
    else if name = back then readAlong files way.dropLast rest
    else
      let next := way ++ [name]
      let path := machinePath next
      let kind ← kindAt path
      match kind with
      | none => return files
      | some .symlink => do
        let target ← linkTarget path
        let files := graft files next (.link target)
        if target = nowhere then return files
        readAlong files [] (Path.names target ++ rest)
      | some .dir =>
        let files := if (files.at? next).isSome then files else graft files next (.directory [])
        readAlong files next rest
      | some _ => readBelow files next

/-- The text that is given for an option; nothing given is as good as the directory itself. -/
def textOf : CommandLine.Given Text → Text
  | .value s => s
  | .nothing => []

/-- The picture of all that a call may ask for. -/
def picture (directory : Path) (arguments : CommandLine.Arguments) : IO Entry := do
  let project := Path.under directory (textOf arguments.projectRoot)
  let files ← readAlong (.directory []) [] (project ++ [Str.ofText Config.settingsName])
  let settings := (Config.projectSettings files project).toOption.getD []
  let table := (Config.sectionOf settings).toOption.getD []
  let pathOf (argument : Option (CommandLine.Given Text)) (key : String) (fallback : Path) : Path :=
    match argument, table.get key.toList with
    | some given, _ => Path.under directory (textOf given)
    | none, .text s => Path.under project s
    | none, _ => fallback
  let files ← readAlong files [] (pathOf arguments.inputRoot "input_dir" project)
  let files ← readAlong files []
    (pathOf arguments.outputRoot "output_dir" (project ++ [Str.ofText Config.defaultOutputName]))
  readAlong files [] (pathOf arguments.auditLog "audit_log" project)

/-! ### The surroundings -/

/-- The working directory, if it is not gone. -/
def workingDirectory : IO (Option Path) := do
  try return some (Path.names (← IO.FS.realPath (← IO.currentDir)).toString.toList)
  catch _ => return none

/-- The number of processors, where the machine says it. -/
def processorCount : IO (Option Nat) := do
  try
    let lines ← IO.FS.lines "/proc/cpuinfo"
    return some (lines.toList.filter (·.startsWith "processor")).length
  catch _ => return none

/-- A name for a run that no other run has. -/
def newRunId : IO Text := do
  let bytes ← IO.getRandomBytes 16
  return bytes.toList.flatMap fun b => Text.ofNatHex 2 b.toNat

/-- The nanoseconds since the first of January 1970. -/
def currentTime : IO Int := do
  return (← Std.Time.Timestamp.now).toNanosecondsSinceUnixEpoch.val

/-! ### The machine -/

/-- Performs an operation on the machine. -/
def performHere : Operation → IO Unit
  | .makeDirectory path => IO.FS.createDir (machinePath path)
  | .write path bytes => IO.FS.writeBinFile (machinePath path) ⟨bytes.toArray⟩
  | .append path bytes => do
    let handle ← IO.FS.Handle.mk (machinePath path) .append
    handle.write ⟨bytes.toArray⟩
  | .move source target => IO.FS.rename (machinePath source) (machinePath target)
  | .removeFile path => IO.FS.removeFile (machinePath path)
  | .removeDirectory path => IO.FS.removeDir (machinePath path)

/-- One call of the command, with its exit code. -/
def call (line : List Text) : IO UInt32 := do
  let directory ← workingDirectory
  let files ← match CommandLine.readArguments line with
    | .ok arguments => picture (directory.getD []) arguments
    | .error _ => pure (.directory [])
  let now ← currentTime
  let occasion := ⟨← newRunId, Clock.stampOfMilliseconds (now / 1000000), []⟩
  let (result, disk) :=
    (CommandLine.run ⟨directory, ← processorCount, occasion⟩ line).runOn { root := files, now }
  disk.performed.reverse.forM performHere
  match result with
  | .ok exit =>
    (← IO.getStdout).putStr (String.ofList exit.output)
    (← IO.getStderr).putStr (String.ofList exit.error)
    return exit.code.toUInt32
  | .error crash =>
    (← IO.getStderr).putStrLn (String.ofList (crash.kind ++ ": ".toList ++ crash.message))
    return 1

end Command
end TemplateBindings

/-- The command. -/
def main (arguments : List String) : IO UInt32 :=
  TemplateBindings.Command.call (arguments.map String.toList)
