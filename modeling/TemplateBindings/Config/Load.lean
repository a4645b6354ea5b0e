import TemplateBindings.Config.Merge
import TemplateBindings.Files.Operation
import TemplateBindings.Text.Utf8
import TemplateBindings.Toml.Document

/-!
# Loading the configuration of a project

A project may have a file of settings in its root directory. Without one, the defaults hold.
-/

namespace TemplateBindings
namespace Config

open Files Settings

/-- The name of the file of settings. -/
def settingsName : Text := "bindgen.toml".toList

/-- **Why a configuration cannot be loaded**. -/
inductive LoadError where
  /-- The file of settings cannot be read. -/
  | file (error : FileError)
  /-- It is no text. -/
  | undecodable (fault : Utf8.Fault)
  /-- It is no TOML. -/
  | notToml
  /-- It has an integer with too many digits. -/
  | tooManyDigits (digits : Nat)
  /-- Lists and inline tables in it stand too deep in each other. -/
  | tooDeep
  /-- The configuration itself is wrong. -/
  | config (fault : Fault)
  deriving DecidableEq, Repr

/-- The kind of error that a report names. -/
def LoadError.kind : LoadError → Text
  | .file e => e.kind
  | .undecodable _ => "UnicodeDecodeError".toList
  | .notToml => "TOMLDecodeError".toList
  | .tooManyDigits _ => "ValueError".toList
  | .tooDeep => "RecursionError".toList
  | .config fault => fault.kind

/-- The wording of an error. -/
def LoadError.message : LoadError → Text
  | .file e => e.message
  | .undecodable fault => fault.message
  | .notToml => settingsName ++ " is not a valid TOML document".toList
  | .tooManyDigits digits => Text.tooManyDigits digits
  | .tooDeep => "maximum recursion depth exceeded".toList
  | .config fault => fault.message

/-- Whether an error says that what was configured is wrong, and not that the files are. -/
def LoadError.isRefusal : LoadError → Bool
  | .file _ | .tooDeep => false
  | .config (.path fault) => fault = .nullCharacter
  | _ => true

/-- The settings in the bytes of a file. -/
def settingsIn (bytes : List UInt8) : Except LoadError Table :=
  match Utf8.decode bytes with
  | .error fault => .error (.undecodable fault)
  | .ok text =>
    match Toml.read text with
    | .ok table => .ok table
    | .error .malformed => .error .notToml
    | .error (.tooManyDigits digits) => .error (.tooManyDigits digits)
    | .error .tooDeep => .error .tooDeep

/-- **The settings of a project**; without a file there are none. -/
def projectSettings (files : Entry) (root : Path) : Except LoadError Table :=
  let path := root ++ [(settingsName : Str)]
  match isThere files path with
  | .error e => .error (.file e)
  | .ok false => .ok []
  | .ok true =>
    match contents files path with
    | .error e => .error (.file e)
    | .ok bytes => settingsIn bytes

/-- **The configuration of a project** with overrides. -/
def load (files : Entry) (root : Path) (processors : Option Nat) (overrides : Overrides) :
    Except LoadError Config := do
  let root ← (resolve files root).mapError fun fault => .config (.path fault)
  let settings ← projectSettings files root
  (merge (resolve files) (default root processors) settings overrides root).mapError .config

end Config
end TemplateBindings
