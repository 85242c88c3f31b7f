import RiscvFacts.Failure
import RiscvFacts.Instr.Decode
import RiscvFacts.Query.Answer

/-!
# The log

An event of a run has a level, a message and fields, and the record of these is handed
to a logger. A message is handed over as it is: a failure repeats what was typed,
character by character.

The logger is no part of the program. How it writes a record is up to it, and so is the
filter that a variable of the environment may set for it. The filter is consulted before
the switches of the command line: only if there is none, a run shows the events up to
its verbosity.
-/

namespace RiscvFacts

/-- How grave an event is, gravest first. -/
inductive LogLevel where
  | error
  | warn
  | info
  | debug
  | trace
  deriving DecidableEq

namespace LogLevel

/-- The name of a level at the start of a log line. -/
def name : LogLevel → String
  | .error => "ERROR"
  | .warn => "WARN"
  | .info => "INFO"
  | .debug => "DEBUG"
  | .trace => "TRACE"

/-- The distance from the gravest level. -/
def depth : LogLevel → Nat
  | .error => 0
  | .warn => 1
  | .info => 2
  | .debug => 3
  | .trace => 4

end LogLevel

/-- How much of the log a run shows, unless the environment sets a filter. -/
inductive Verbosity where
  | silent
  | normal
  | verbose
  deriving DecidableEq

namespace Verbosity

/-- The least grave level that is shown. -/
def limit : Verbosity → LogLevel
  | .silent => .error
  | .normal => .info
  | .verbose => .trace

/-- Whether events of a level are shown. -/
def shows (verbosity : Verbosity) (level : LogLevel) : Bool :=
  decide (level.depth ≤ verbosity.limit.depth)

end Verbosity

/-- The value of a field: a number, a string, or the text in which something is displayed. -/
inductive FieldValue where
  | number (value : Nat)
  | string (value : String)
  | display (text : String)
  deriving DecidableEq

/-- What a logger is handed of an event. -/
structure LogRecord where
  level : LogLevel
  message : String
  fields : List (String × FieldValue)
  deriving DecidableEq

/-- The message of a decline. -/
def Decline.message : Decline → String
  | .notAvailable _ _ => "opcode not available"
  | .addImmediateShape _ => "add-immediate operand shape mismatch"
  | .vectorAccess _ => "vector memory access not supported"
  | .operandCount _ _ _ => "memory operand count mismatch"
  | .baseNotInteger _ _ => "base is not an integer register"
  | .offsetNotImmediate _ => "non-immediate offset"

/-- The fields of a decline. The opcode comes first. -/
def Decline.fields : Decline → List (String × FieldValue)
  | .notAvailable opcode xlen =>
      [("opcode", .display opcode.mnemonic), ("target", .string xlen.name)]
  | .addImmediateShape opcode | .vectorAccess opcode | .offsetNotImmediate opcode =>
      [("opcode", .display opcode.mnemonic)]
  | .operandCount opcode expected actual =>
      [("opcode", .display opcode.mnemonic), ("expected", .number expected),
       ("actual", .number actual)]
  | .baseNotInteger opcode base =>
      [("opcode", .display opcode.mnemonic), ("base", .display base.text)]

/-- How many instructions a run saw, and how many of them had a fact of each kind. -/
structure Totals where
  instructions : Nat
  decoded : Nat
  addImmediates : Nat
  memoryAccesses : Nat
  deriving DecidableEq

/-- Something that a run logs. -/
inductive LogEvent where
  | analyzing (xlen : Xlen) (words : Nat)
  | decoded (word : Word) (opcode : Opcode)
  | declined (reason : Decline)
  | undecodable (error : DecodeError) (address : Nat)
  | complete (totals : Totals)
  | failed (failure : Failure)
  deriving DecidableEq

namespace LogEvent

/-- The level of an event. -/
def level : LogEvent → LogLevel
  | .analyzing _ _ => .debug
  | .decoded _ _ => .trace
  | .declined _ => .trace
  | .undecodable _ _ => .warn
  | .complete _ => .info
  | .failed _ => .error

/-- The message of an event. -/
def message : LogEvent → String
  | .analyzing _ _ => "analyzing"
  | .decoded _ _ => "decoded"
  | .declined reason => reason.message
  | .undecodable error _ => error.message
  | .complete _ => "analysis complete"
  | .failed failure => failure.message

/-- The fields of an event. -/
def fields : LogEvent → List (String × FieldValue)
  | .analyzing xlen words => [("target_xlen", .string xlen.name), ("words", .number words)]
  | .decoded word opcode =>
      [("raw", .number word.toNat), ("opcode", .display opcode.mnemonic)]
  | .declined reason => reason.fields
  | .undecodable _ address => [("address", .number address)]
  | .complete totals =>
      [("instructions", .number totals.instructions), ("decoded", .number totals.decoded),
       ("add_imm", .number totals.addImmediates), ("memory", .number totals.memoryAccesses)]
  | .failed _ => []

/-- The record of an event. -/
def record (event : LogEvent) : LogRecord := ⟨event.level, event.message, event.fields⟩

end LogEvent

/-- A logger: the filter that the environment sets for it, if there is one, and how it writes a
record, apart from the time. -/
structure Logger where
  filter? : Option (LogEvent → Bool)
  write : LogRecord → String

namespace Logger

/-- Whether an event is shown. A filter of the environment takes the place of the verbosity. -/
def shows (logger : Logger) (verbosity : Verbosity) (event : LogEvent) : Bool :=
  match logger.filter? with
  | some keeps => keeps event
  | none => verbosity.shows event.level

/-- What a logger writes of a log. -/
def lines (logger : Logger) (verbosity : Verbosity) (log : List LogEvent) : List String :=
  (log.filter (logger.shows verbosity)).map fun event => logger.write event.record

/-- Whether the environment leaves it to the verbosity of a run what is shown. -/
def IsUnfiltered (logger : Logger) : Prop := logger.filter? = none

/-- Without a filter, the events up to the verbosity are written. -/
theorem lines_of_isUnfiltered {logger : Logger} (unfiltered : logger.IsUnfiltered)
    (verbosity : Verbosity) (log : List LogEvent) :
    logger.lines verbosity log =
      (log.filter fun event => verbosity.shows event.level).map fun event =>
        logger.write event.record := by
  have same : logger.shows verbosity = fun event => verbosity.shows event.level := by
    funext event
    rw [shows, unfiltered]
  rw [lines, same]

end Logger

/-- The text of a field's value. Strings stand in quotes. -/
def FieldValue.text : FieldValue → String
  | .number value => Numeral.natural value
  | .string value => "\"" ++ value ++ "\""
  | .display text => text

/-- The text of some fields, each behind a blank. -/
def LogRecord.fieldsText : List (String × FieldValue) → String
  | [] => ""
  | (name, value) :: fields => " " ++ name ++ "=" ++ value.text ++ fieldsText fields

/-- A record as its level, its message and its fields, all of them as they are. -/
def LogRecord.line (record : LogRecord) : String :=
  record.level.name ++ " " ++ record.message ++ fieldsText record.fields

/-- The logger that writes records as they are and has no filter. -/
def Logger.plain : Logger := ⟨none, LogRecord.line⟩

end RiscvFacts
