import RiscvFacts.CommandLine.Code
import RiscvFacts.Log
import RiscvFacts.Report

/-!
# What a level of the command line has been given

A command line that runs no command is answered with usage text: because it asks for
it, or because it is at fault.

No switch or option may stand twice on one level. The value of an option is only
examined when the scan meets the next switch, option or operand, or the end; until
then the option is pending. So an unknown argument that follows a bad value is
reported in its place.
-/

namespace RiscvFacts

/-- Why a command line is answered with usage text. -/
inductive Usage where
  | help
  | version
  | emptyLine
  | missingSubcommand
  | invalidSubcommand
  | unknownArgument
  | invalidValue
  | unexpectedValue
  | conflict
  deriving DecidableEq

namespace Usage

/-- The exit code, which is zero only when the text was asked for. -/
def exitCode : Usage → Nat
  | .help | .version => 0
  | .emptyLine | .missingSubcommand | .invalidSubcommand | .unknownArgument | .invalidValue
  | .unexpectedValue | .conflict => 2

/-- A short explanation of the answer. -/
def explanation : Usage → String
  | .help => "facts about RISC-V instructions"
  | .version => "0.1.0"
  | .emptyLine => "no command given"
  | .missingSubcommand => "a subcommand is required"
  | .invalidSubcommand => "unrecognized subcommand"
  | .unknownArgument => "unexpected argument"
  | .invalidValue => "an option has no value or an invalid one"
  | .unexpectedValue => "a flag takes no value"
  | .conflict => "arguments cannot be used together, or one was given twice"

/-- The accepted command lines. -/
def synopsis : List String :=
  ["usage: [-v|-s] analyze [--xlen 32|64] [--format text|kv] (WORD... | --bin FILE)",
   "       [-v|-s] opcodes [--xlen 32|64]",
   "       help [COMMAND] | --help | --version"]

/-- The lines that answer the command line. -/
def lines (usage : Usage) : List String :=
  match usage with
  | .version => [usage.explanation]
  | _ => usage.explanation :: synopsis

end Usage

/-- A switch, which is on when it is given. -/
inductive Switch where
  | verbose
  | silent
  | help
  | version
  deriving DecidableEq

namespace Switch

/-- The word of a switch. -/
def word : Switch → String
  | .verbose => "verbose"
  | .silent => "silent"
  | .help => "help"
  | .version => "version"

/-- The letter of a switch. -/
def letter : Switch → Char
  | .verbose => 'v'
  | .silent => 's'
  | .help => 'h'
  | .version => 'V'

end Switch

/-- An option, which takes a value. -/
inductive ValueOption where
  | file
  | xlen
  | format
  deriving DecidableEq

/-- The word of an option. -/
def ValueOption.word : ValueOption → String
  | .file => "bin"
  | .xlen => "xlen"
  | .format => "format"

/-- What has been given on a level so far. An option that awaits its value, or whose value
has not been examined yet, is pending. -/
structure Given where
  verbose : Bool := false
  silent : Bool := false
  file? : Option String := none
  xlen? : Option Xlen := none
  format? : Option ReportFormat := none
  words : List String := []
  pending? : Option (ValueOption × Option String) := none
  deriving DecidableEq

namespace Given

/-- The register width that a value names. -/
def xlenValue? : String → Option Xlen
  | "32" => some .rv32
  | "64" => some .rv64
  | _ => none

/-- The report format that a value names. -/
def formatValue? : String → Option ReportFormat
  | "text" => some .text
  | "kv" => some .keyValue
  | _ => none

/-- The file that a value names. -/
def fileValue? (value : String) : Option String := if value = "" then none else some value

/-- The value of an option that may be given once. -/
def once {α : Type} (before? : Option α) (value? : Option α) : Except Usage (Option α) :=
  match before?, value? with
  | some _, _ => .error .conflict
  | none, none => .error .invalidValue
  | none, some value => .ok (some value)

/-- Give an option its value. -/
def settle (given : Given) (option : ValueOption) (value : String) : Except Usage Given :=
  match option with
  | .file => (once given.file? (fileValue? value)).map fun file? => { given with file? }
  | .xlen => (once given.xlen? (xlenValue? value)).map fun xlen? => { given with xlen? }
  | .format => (once given.format? (formatValue? value)).map fun format? => { given with format? }

/-- Examine the pending option. -/
def resolve (given : Given) : Except Usage Given :=
  match given.pending? with
  | none => .ok given
  | some (_, none) => .error .invalidValue
  | some (option, some value) => { given with pending? := none }.settle option value

/-- Turn a switch on. Help and version end the scan at once. -/
def turnOn (given : Given) (switch : Switch) : Except Usage Given := do
  let given ← given.resolve
  match switch with
  | .help => .error .help
  | .version => .error .version
  | .verbose => if given.verbose then .error .conflict else .ok { given with verbose := true }
  | .silent => if given.silent then .error .conflict else .ok { given with silent := true }

/-- Meet an option, with its value when that was attached to it. -/
def meet (given : Given) (option : ValueOption) (value? : Option String) :
    Except Usage Given := do
  let given ← given.resolve
  match value? with
  | some value => given.settle option value
  | none => .ok { given with pending? := some (option, none) }

/-- How much of the log is shown when switches are given on two levels. Verbose outweighs
silent. -/
def verbosity (outer inner : Given) : Verbosity :=
  if outer.verbose || inner.verbose then .verbose
  else if outer.silent || inner.silent then .silent
  else .normal

/-- Where the code comes from. -/
def source (given : Given) : CodeSource :=
  match given.file? with
  | some path => .file path
  | none => .words given.words

/-- Check that no two things given on a level exclude each other. -/
def check (given : Given) : Except Usage Unit :=
  if given.verbose && given.silent then .error .conflict
  else if !given.words.isEmpty && given.file?.isSome then .error .conflict
  else .ok ()

end Given

end RiscvFacts
