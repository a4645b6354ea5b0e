import TemplateBindings.Build.Source
import TemplateBindings.Clock.Stamp
import TemplateBindings.Files.Operation
import TemplateBindings.GeneratedModule
import TemplateBindings.Text.Utf8

/-!
# Markers

A module carries the time stamp of the inputs it was made from. If it is the stamp that the inputs
have now, the module is current and its source need not be read. Of an existing module only the
first line is looked at: its bytes are read in blocks until the line is complete, and a block that
is not UTF-8 makes the module one without a marker, even behind the line.
-/

namespace TemplateBindings
namespace Build

open Files

/-! ### The marker of a source -/

/-- **The marker of inputs** by the times of their last changes: the stamp of the later time. -/
def markerOfTimes (markup : Int) (stylesheet : Option Int) : Except Clock.ClockError Text :=
  Clock.stampOfNanoseconds (match stylesheet with
    | some time => max markup time
    | none => markup)

/-! ### The marker of a module -/

/-- How many bytes are read at a time. -/
def blockSize : Nat := 8192

/-- The text of the blocks read so far while there may be more: a carriage return at its end may be
half of a line end, and is left for later. -/
def settledText? (bytes : List UInt8) : Option Text :=
  (Utf8.decodeSoFar? bytes).map fun s => if s.getLast? = some '\r' then s.dropLast else s

/-- The first line of a file, with the line feed that ends it, if the line is complete and all
blocks up to its end are UTF-8. The first `size` bytes are read to start with. -/
def firstLine? (bytes : List UInt8) (size : Nat) : Option Text :=
  match settledText? (bytes.take size) with
  | none => none
  | some s =>
    match Text.firstLine (Text.unifyLineEnds s) with
    | (line, true) => some (line ++ ['\n'])
    | (_, false) =>
      if _h : size < bytes.length then firstLine? bytes (size + blockSize)
      else
        match (Utf8.decode? bytes).map fun s => Text.firstLine (Text.unifyLineEnds s) with
        | some (line, true) => some (line ++ ['\n'])
        | _ => none
  termination_by bytes.length - size
  decreasing_by simp only [blockSize]; omega

/-- The marker in the bytes of a module. -/
def markerIn? (bytes : List UInt8) : Option Text :=
  (firstLine? bytes blockSize).bind GeneratedModule.readMarker?

/-- **The marker of the module at a path**; a module that is not there has none. -/
def existingMarker (files : Entry) (path : Path) : Except FileError (Option Text) :=
  match contents files path with
  | .ok bytes => .ok (markerIn? bytes)
  | .error e => if e.cause = .missing then .ok none else .error e

end Build
end TemplateBindings
