import TemplateBindings.Text.Quoted

/-!
# The options of the command line

The options, how they may be spelled, and the texts that explain them. A long option may be cut
short as long as it stays clear which one is meant.
-/

namespace TemplateBindings
namespace CommandLine

/-! ### Options -/

/-- **An option**. -/
inductive Flag where
  /-- Explains the options. -/
  | help
  /-- The root of the project, in which the file of settings is looked for. -/
  | projectRoot
  /-- The root of the sources. -/
  | inputRoot
  /-- The root of the outputs. -/
  | outputRoot
  /-- How many sources are worked on at a time. -/
  | workers
  /-- The audit log. -/
  | auditLog
  deriving DecidableEq, Repr

/-- The full spelling of an option. -/
def Flag.long : Flag → Text
  | .help => "--help".toList
  | .projectRoot => "--project-root".toList
  | .inputRoot => "--input-dir".toList
  | .outputRoot => "--output-dir".toList
  | .workers => "--workers".toList
  | .auditLog => "--audit-log".toList

/-- The short spelling of the one option that has one. -/
def shortHelp : Text := "-h".toList

/-- All options, in the order in which they are explained. -/
def flags : List Flag := [.help, .projectRoot, .inputRoot, .outputRoot, .workers, .auditLog]

/-- What an option is called in messages: all its spellings. -/
def Flag.title : Flag → Text
  | .help => shortHelp ++ '/' :: Flag.long .help
  | flag => flag.long

/-- The option with a full spelling. -/
def Flag.ofLong? (spelling : Text) : Option Flag := flags.find? fun flag => flag.long = spelling

/-- The options that a spelling may be short for. -/
def Flag.completions (spelling : Text) : List Flag :=
  flags.filter fun flag => Text.startsWith spelling flag.long

/-! ### Explanations -/

/-- The name of the command. -/
def commandName : Text := "bindgen".toList

/-- How the command is called. -/
def usage : Text :=
  Text.joined ['\n']
    ["usage: bindgen [-h] [--project-root PROJECT_ROOT] [--input-dir INPUT_DIR]".toList,
     "               [--output-dir OUTPUT_DIR] [--workers WORKERS]".toList,
     "               [--audit-log AUDIT_LOG]".toList,
     []]

/-- The explanation of the options. -/
def helpText : Text :=
  usage ++ Text.joined ['\n']
    [[],
     "Generate typed TypeScript bindings for HTML templates and CSS classes.".toList,
     [],
     "options:".toList,
     "  -h, --help            show this help message and exit".toList,
     "  --project-root PROJECT_ROOT".toList,
     "  --input-dir INPUT_DIR".toList,
     "  --output-dir OUTPUT_DIR".toList,
     "  --workers WORKERS".toList,
     "  --audit-log AUDIT_LOG".toList,
     []]

/-! ### Misuse -/

/-- **Why arguments are refused**. -/
inductive UsageError where
  /-- A spelling is short for several options. -/
  | ambiguous (argument : Text) (candidates : List Flag)
  /-- An option lacks its value. -/
  | noValue (flag : Flag)
  /-- The value of an option should be an integer. -/
  | notAnInteger (flag : Flag) (value : Text)
  /-- An option that takes no value has one. -/
  | extraValue (flag : Flag) (value : Text)
  /-- Arguments mean nothing. -/
  | unrecognized (arguments : List Text)
  deriving DecidableEq, Repr

/-- A message on an option. -/
def flagMessage (flag : Flag) (rest : Text) : Text :=
  "argument ".toList ++ flag.title ++ ": ".toList ++ rest

/-- The wording of a refusal. -/
def UsageError.message : UsageError → Text
  | .ambiguous argument candidates =>
    "ambiguous option: ".toList ++ argument ++ " could match ".toList
      ++ Text.joined ", ".toList (candidates.map Flag.long)
  | .noValue flag => flagMessage flag "expected one argument".toList
  | .notAnInteger flag value => flagMessage flag ("invalid int value: ".toList ++ Text.quoted value)
  | .extraValue flag value =>
    flagMessage flag ("ignored explicit argument ".toList ++ Text.quoted value)
  | .unrecognized arguments =>
    "unrecognized arguments: ".toList ++ Text.joined [' '] arguments

/-- What is shown to someone whose arguments are refused. -/
def UsageError.report (e : UsageError) : Text :=
  usage ++ commandName ++ ": error: ".toList ++ e.message ++ ['\n']

end CommandLine
end TemplateBindings
