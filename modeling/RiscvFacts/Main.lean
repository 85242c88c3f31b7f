import RiscvFacts.CommandLine.Run

/-!
# The program

The program reads its arguments and, if it is asked to, one file. It prints the
output of the command, writes the log to the standard error stream, and ends with
the command's exit code. It analyses the words of some code on one thread, and its
logger writes records as they are and reads no filter from the environment.
-/

namespace RiscvFacts

/-- The system error with a number, which some calls return negated in 32 bits. -/
def numberedError (code : UInt32) (details : String) : SystemError :=
  let number := if code.toNat < 0x80000000 then code.toNat else UInt32.size - code.toNat
  (SystemError.common.find? fun error => error.code == number).getD ⟨number, details⟩

/-- The system error behind an input error. -/
def systemError : IO.Error → SystemError
  | .alreadyExists _ code details | .inappropriateType _ code details
  | .invalidArgument _ code details | .noSuchThing _ code details
  | .permissionDenied _ code details | .resourceExhausted _ code details
  | .interrupted _ code details | .noFileOrDirectory _ code details
  | .hardwareFault code details | .illegalOperation code details | .otherError code details
  | .protocolError code details | .resourceBusy code details | .resourceVanished code details
  | .timeExpired code details | .unsatisfiedConstraints code details
  | .unsupportedOperation code details => numberedError code details
  | .unexpectedEof => ⟨0, "unexpected end of file"⟩
  | .userError details => ⟨0, details⟩

/-- The bytes of a file. -/
def readBytes (path : String) : IO (Except ReadError (List UInt8)) := do
  if path.toList.contains '\x00' then return .error .nullInPath
  match ← (IO.FS.readBinFile path).toBaseIO with
  | .ok bytes => return .ok bytes.toList
  | .error error => return .error (.system (systemError error))

/-- Carry out a command with the file that it asks for. -/
def perform (schedule : Schedule) (command : Command) : IO Outcome := do
  match command with
  | .analyze (.file path) _ _ =>
      let bytes ← readBytes path
      return command.run schedule fun _ => bytes
  | _ => return command.run schedule fun _ => .error (.system .noSuchFile)

/-- Answer with usage text, on the error stream unless it was asked for. -/
def answerUsage (usage : Usage) : IO UInt32 := do
  let stream ← if usage.exitCode = 0 then IO.getStdout else IO.getStderr
  for line in usage.lines do stream.putStrLn line
  return usage.exitCode.toUInt32

/-- Carry out an invocation and show what it leaves behind. -/
def carryOut (schedule : Schedule) (logger : Logger) (invocation : Invocation) : IO UInt32 := do
  let outcome ← perform schedule invocation.command
  for line in outcome.output do IO.println line
  for line in logger.lines invocation.verbosity outcome.log do IO.eprintln line
  return outcome.exitCode.toUInt32

end RiscvFacts

/-- Run the program on its arguments, with one thread and the plain logger. -/
def main (arguments : List String) : IO UInt32 :=
  match RiscvFacts.Invocation.ofArguments arguments with
  | .error usage => RiscvFacts.answerUsage usage
  | .ok invocation => RiscvFacts.carryOut .oneThread .plain invocation
