import RiscvFacts.CommandLine.Given

/-!
# Invocations

An argument is a name behind two dashes, letters behind one dash, two dashes alone,
or plain text. A command line has two levels: global switches up to a subcommand, and
the arguments of the subcommand. Each level is scanned from left to right.

* A switch is a letter or a word: letters may stand together behind one dash, and a
  word behind two dashes takes no value.
* An option takes one value, after an equals sign or as the next argument unless
  that starts with a dash.
* Behind two dashes alone every argument is an operand.

An invocation is a command with its settings and its verbosity.
`Invocation.ofArguments` scans both levels of a command line. Faults of the
subcommand's level are reported before those of the line as a whole.
-/

namespace RiscvFacts

/-- What an argument looks like. -/
inductive ArgumentForm where
  | separator
  | word (name : String) (value? : Option String)
  | letters (chars : List Char)
  | plain (text : String)
  deriving DecidableEq

namespace ArgumentForm

/-- The name and the value of an argument behind two dashes, split at the first equals sign. -/
def ofDashedWord (chars : List Char) : ArgumentForm :=
  .word (String.ofList (chars.takeWhile fun char => char ≠ '='))
    (match chars.dropWhile fun char => char ≠ '=' with
      | [] => none
      | _ :: value => some (String.ofList value))

/-- What an argument looks like. A lone dash is plain text. -/
def ofText (text : String) : ArgumentForm :=
  match text.toList with
  | ['-', '-'] => .separator
  | '-' :: '-' :: chars => ofDashedWord chars
  | ['-'] => .plain text
  | '-' :: chars => .letters chars
  | _ => .plain text

end ArgumentForm

/-- A subcommand. -/
inductive Subcommand where
  | analyze
  | opcodes
  | help
  deriving DecidableEq

/-- The name of a subcommand. -/
def Subcommand.name : Subcommand → String
  | .analyze => "analyze"
  | .opcodes => "opcodes"
  | .help => "help"

/-- What the arguments of a level may be. -/
structure Level where
  switches : List Switch
  options : List ValueOption
  subcommands : List Subcommand
  takesWords : Bool

namespace Level

/-- The level before the subcommand. -/
def root : Level :=
  ⟨[.verbose, .silent, .help, .version], [], [.analyze, .opcodes, .help], false⟩

/-- The arguments of `analyze`. -/
def analyze : Level := ⟨[.verbose, .silent, .help], [.file, .xlen, .format], [], true⟩

/-- The arguments of `opcodes`. -/
def opcodes : Level := ⟨[.verbose, .silent, .help], [.xlen], [], false⟩

/-- The subcommand with a name. -/
def subcommand? (level : Level) (name : String) : Option Subcommand :=
  level.subcommands.find? fun subcommand => subcommand.name = name

/-- Take an argument behind two dashes. -/
def takeWord (level : Level) (given : Given) (name : String) (value? : Option String) :
    Except Usage Given :=
  match level.options.find? fun option => option.word = name,
      level.switches.find? fun switch => switch.word = name with
  | some option, _ => given.meet option value?
  | none, some switch => if value?.isSome then .error .unexpectedValue else given.turnOn switch
  | none, none => .error .unknownArgument

/-- Take an argument of letters behind one dash. -/
def takeLetters (level : Level) : Given → List Char → Except Usage Given
  | given, [] => .ok given
  | given, letter :: letters =>
      match level.switches.find? fun switch => switch.letter = letter with
      | none => .error .unknownArgument
      | some switch => do level.takeLetters (← given.turnOn switch) letters

/-- Take an operand. Where only a subcommand may stand, a text that names none is an invalid
subcommand, and the name of one is out of place behind the separator. -/
def takeOperand (level : Level) (separated : Bool) (given : Given) (text : String) :
    Except Usage Given :=
  if level.takesWords then do
    let given ← given.resolve
    .ok { given with words := given.words ++ [text] }
  else if level.subcommands.isEmpty || (separated && (level.subcommand? text).isSome) then
    .error .unknownArgument
  else .error .invalidSubcommand

/-- Scan arguments up to the subcommand or the end. -/
def scan (level : Level) (separated : Bool) (given : Given) :
    List String → Except Usage (Given × Option (Subcommand × List String))
  | [] => given.resolve.map fun given => (given, none)
  | text :: rest =>
      if separated then do level.scan true (← level.takeOperand true given text) rest
      else match level.subcommand? text with
        | some subcommand => .ok (given, some (subcommand, rest))
        | none =>
            match ArgumentForm.ofText text, given.pending? with
            | .separator, _ => level.scan true given rest
            | .word name value?, _ => do
                level.scan false (← level.takeWord given name value?) rest
            | .letters letters, _ => do
                level.scan false (← level.takeLetters given letters) rest
            | .plain text, some (option, none) =>
                level.scan false { given with pending? := some (option, some text) } rest
            | .plain text, _ => do
                level.scan false (← level.takeOperand false given text) rest

/-- Scan the arguments of a subcommand and check them. -/
def read (level : Level) (arguments : List String) : Except Usage Given := do
  let (given, _) ← level.scan false {} arguments
  given.check
  return given

end Level

/-- A command with its settings. -/
inductive Command where
  | analyze (source : CodeSource) (xlen : Xlen) (format : ReportFormat)
  | opcodes (xlen : Xlen)
  deriving DecidableEq

/-- A command and how much of its log is shown. -/
structure Invocation where
  verbosity : Verbosity
  command : Command
  deriving DecidableEq

namespace Invocation

/-- The answer to `help` and the names after it. No subcommand has subcommands of its own. -/
def helpOn : List String → Usage
  | [] => .help
  | [name] => if (Level.root.subcommand? name).isSome then .help else .invalidSubcommand
  | _ :: _ :: _ => .invalidSubcommand

/-- The invocation that the arguments of a command line spell. -/
def ofArguments (arguments : List String) : Except Usage Invocation := do
  let (root, subcommand?) ← Level.root.scan false {} arguments
  match subcommand? with
  | none => .error (if root.verbose || root.silent then .missingSubcommand else .emptyLine)
  | some (.help, rest) => .error (helpOn rest)
  | some (.analyze, rest) => do
      let given ← Level.analyze.read rest
      root.check
      return ⟨root.verbosity given,
        .analyze given.source (given.xlen?.getD .rv64) (given.format?.getD .text)⟩
  | some (.opcodes, rest) => do
      let given ← Level.opcodes.read rest
      root.check
      return ⟨root.verbosity given, .opcodes (given.xlen?.getD .rv64)⟩

end Invocation

end RiscvFacts
