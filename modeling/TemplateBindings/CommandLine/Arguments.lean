import TemplateBindings.CommandLine.Flag

/-!
# Reading the command line

Arguments are read in two passes. The first says of each argument what it is by its form alone: an
option, perhaps with its value behind an equals sign, or a plain argument. The second gives every
option its value, in order, so that the last of several values counts and the first mistake is the
one reported; arguments that belong to no option are reported in the end.

In three corners the releases of the standard reader of arguments differ, and what is followed here is
release 3.11.2. Two hyphens behind an equals sign are no value and stand for none (`--opt=--`). What is
written behind the short spelling of help must be more of the same letter (`-hx` is refused), and an
equals sign in front of it makes no difference (`-h=h` asks for help).
-/

namespace TemplateBindings
namespace CommandLine

/-! ### What an argument is -/

/-- **What an argument is** by its form. -/
inductive Part where
  /-- A plain argument. -/
  | plain
  /-- The sign that only plain arguments follow. -/
  | separator
  /-- An option by a long spelling, with the value behind its equals sign. -/
  | option (flag : Flag) (value : Option Text)
  /-- The short spelling of help, with what is written behind it. -/
  | shortHelp (tail : Option Text)
  /-- An option that there is not. -/
  | unknown
  deriving DecidableEq, Repr

/-- Whether an argument is a negative number, perhaps with a fraction, and so no option. -/
def isNegativeNumber (argument : Text) : Bool :=
  let isDigit (c : Char) : Bool := (Text.digitValue? c).isSome
  let number := if argument.getLast? = some '\n' then argument.dropLast else argument
  match number with
  | '-' :: digits =>
    match digits.dropWhile isDigit with
    | [] => !digits.isEmpty
    | '.' :: fraction => !fraction.isEmpty && fraction.all isDigit
    | _ => false
  | _ => false

/-- An argument cut at its first equals sign. -/
def cutValue (argument : Text) : Text × Option Text :=
  match Text.cutAt '=' argument with
  | some (spelling, value) => (spelling, some value)
  | none => (argument, none)

/-- What an argument is that starts with a dash and spells no option in full. -/
def partByForm (argument : Text) : Part :=
  if isNegativeNumber argument || argument.contains ' ' then .plain else .unknown

/-- What an argument is that starts with two dashes. -/
def longPart (argument : Text) : Except UsageError Part :=
  let (spelling, value) := cutValue argument
  match Flag.ofLong? spelling with
  | some flag => .ok (.option flag value)
  | none =>
    match Flag.completions spelling with
    | [] => .ok (partByForm argument)
    | [flag] => .ok (.option flag value)
    | candidates => .error (.ambiguous argument candidates)

/-- What an argument is that starts with one dash, from behind the dash. -/
def shortPart (argument behind : Text) : Part :=
  match behind with
  | [] => .plain
  | ['h'] => .shortHelp none
  | 'h' :: '=' :: tail => .shortHelp (some tail)
  | 'h' :: tail => .shortHelp (some tail)
  | _ => partByForm argument

/-- What an argument is. -/
def partOf (argument : Text) : Except UsageError Part :=
  match argument with
  | '-' :: '-' :: _ => longPart argument
  | '-' :: behind => .ok (shortPart argument behind)
  | _ => .ok .plain

/-- **The arguments with what they are**. -/
def partsOf : List Text → Except UsageError (List (Text × Part))
  | [] => .ok []
  | argument :: rest =>
    if argument = ['-', '-'] then
      .ok ((argument, .separator) :: rest.map fun other => (other, .plain))
    else
      match partOf argument with
      | .error e => .error e
      | .ok part => (partsOf rest).map ((argument, part) :: ·)

/-! ### What the options say -/

/-- **What is given for an option** that takes one value. -/
inductive Given (α : Type) where
  /-- A value. -/
  | value (value : α)
  /-- The separator behind the equals sign, which is no value and stands for none. -/
  | nothing
  deriving DecidableEq, Repr

/-- **What the options say**. -/
structure Arguments where
  /-- The root of the project. -/
  projectRoot : Given Text := .value ['.']
  /-- The root of the sources. -/
  inputRoot : Option (Given Text) := none
  /-- The root of the outputs. -/
  outputRoot : Option (Given Text) := none
  /-- How many sources are worked on at a time. -/
  workers : Option (Given Int) := none
  /-- The audit log. -/
  auditLog : Option (Given Text) := none
  deriving DecidableEq, Repr

/-- **Why nothing is built** after reading the command line. -/
inductive Stop where
  /-- The options are to be explained. -/
  | help
  /-- The arguments are refused. -/
  | refused (error : UsageError)
  deriving DecidableEq, Repr

/-- What a text gives for an option. -/
def givenText (s : Text) : Given Text := if s = ['-', '-'] then .nothing else .value s

/-- What a text gives for an option that takes an integer. -/
def givenInteger (flag : Flag) (s : Text) : Except UsageError (Given Int) :=
  match givenText s with
  | .nothing => .ok .nothing
  | .value s =>
    match Text.readInt? s with
    | some n => .ok (.value n)
    | none => .error (.notAnInteger flag s)

/-- The arguments with a text for an option. -/
def Arguments.set (arguments : Arguments) (flag : Flag) (s : Text) : Except UsageError Arguments :=
  match flag with
  | .help => .error (.extraValue flag s)
  | .projectRoot => .ok { arguments with projectRoot := givenText s }
  | .inputRoot => .ok { arguments with inputRoot := some (givenText s) }
  | .outputRoot => .ok { arguments with outputRoot := some (givenText s) }
  | .auditLog => .ok { arguments with auditLog := some (givenText s) }
  | .workers => (givenInteger flag s).map fun n => { arguments with workers := some n }

/-- What comes of help by its short spelling: behind it only more of the same letter may stand. -/
def shortHelpStop (tail : Option Text) : Stop :=
  match tail with
  | none => .help
  | some tail =>
    let other := tail.dropWhile (· == 'h')
    if !tail.isEmpty && other.isEmpty then .help else .refused (.extraValue .help other)

/-- The arguments behind some more parts; `extras` are those that belong to no option so far. -/
def Arguments.takeIn (arguments : Arguments) (extras : List Text) :
    List (Text × Part) → Except Stop Arguments
  | [] => if extras.isEmpty then .ok arguments else .error (.refused (.unrecognized extras))
  | (_, .shortHelp tail) :: _ => .error (shortHelpStop tail)
  | (_, .option .help none) :: _ => .error .help
  | (_, .option .help (some value)) :: _ => .error (.refused (.extraValue .help value))
  | (_, .option flag (some value)) :: rest =>
    match arguments.set flag value with
    | .error e => .error (.refused e)
    | .ok arguments => arguments.takeIn extras rest
  | (_, .option flag none) :: (value, .plain) :: rest =>
    match arguments.set flag value with
    | .error e => .error (.refused e)
    | .ok arguments => arguments.takeIn extras rest
  | (_, .option flag none) :: _ => .error (.refused (.noValue flag))
  | (argument, _) :: rest => arguments.takeIn (extras ++ [argument]) rest

/-- **Reading the command line**. -/
def readArguments (line : List Text) : Except Stop Arguments :=
  match partsOf line with
  | .error e => .error (.refused e)
  | .ok parts => Arguments.takeIn {} [] parts

end CommandLine
end TemplateBindings
