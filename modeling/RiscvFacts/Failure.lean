import RiscvFacts.Text

/-!
# Failures

A command fails as a whole when its input cannot be read or spells no
instructions. A word that merely does not decode is no failure.
-/

namespace RiscvFacts

/-- An error of the operating system: its number and its description. -/
structure SystemError where
  code : Nat
  description : String
  deriving DecidableEq

namespace SystemError

/-- A path names no file. -/
def noSuchFile : SystemError := ⟨2, "No such file or directory"⟩

/-- A device fails to deliver what was asked for. -/
def inputOutput : SystemError := ⟨5, "Input/output error"⟩

/-- A file stands for a device that is not there. -/
def noSuchDevice : SystemError := ⟨6, "No such device or address"⟩

/-- A file may not be read. -/
def permissionDenied : SystemError := ⟨13, "Permission denied"⟩

/-- A path goes on behind a file. -/
def notADirectory : SystemError := ⟨20, "Not a directory"⟩

/-- A directory is read like a file. -/
def isADirectory : SystemError := ⟨21, "Is a directory"⟩

/-- A path or a name in it is longer than the system allows. -/
def nameTooLong : SystemError := ⟨36, "File name too long"⟩

/-- A path leads through too many links. -/
def tooManyLinks : SystemError := ⟨40, "Too many levels of symbolic links"⟩

/-- The errors that reading a file meets most often. -/
def common : List SystemError :=
  [noSuchFile, inputOutput, noSuchDevice, permissionDenied, notADirectory, isADirectory,
   nameTooLong, tooManyLinks]

/-- The wording of a system error. -/
def message (error : SystemError) : String :=
  error.description ++ " (os error " ++ Numeral.natural error.code ++ ")"

end SystemError

/-- Why a file cannot be read: its path holds a null character, so that the system is not
asked at all, or the system refuses. -/
inductive ReadError where
  | nullInPath
  | system (error : SystemError)
  deriving DecidableEq

/-- The wording of a read error. -/
def ReadError.message : ReadError → String
  | .nullInPath => "file name contained an unexpected NUL byte"
  | .system error => error.message

/-- Why a command fails before it looks at any instruction. -/
inductive Failure where
  | unreadable (error : ReadError)
  | invalidWord (text : String)
  | noInstructions
  | unalignedCode (size : Nat)
  deriving DecidableEq

/-- The wording of a failure. -/
def Failure.message : Failure → String
  | .unreadable error => "IO error: " ++ error.message
  | .invalidWord text =>
      "invalid instruction word '" ++ text ++ "': expected up to 8 hex digits"
  | .noInstructions => "no instructions given: pass hex words or --bin FILE"
  | .unalignedCode size =>
      "code size " ++ Numeral.natural size ++ " is not a multiple of 4 bytes"

end RiscvFacts
