import RiscvFacts.Failure
import RiscvFacts.Word.Basic

/-!
# Code to analyse

Code is given as hexadecimal words on the command line or as a file of
little-endian words. A hexadecimal word may start with `0x` and may hold
underscores anywhere after it. It has one to eight digits; a plus sign in front of
the digits takes the place of one of them.
-/

namespace RiscvFacts

/-- The value of a hexadecimal digit of either case. -/
def hexDigit? (char : Char) : Option Nat :=
  if '0' ≤ char ∧ char ≤ '9' then some (char.toNat - '0'.toNat)
  else if 'a' ≤ char ∧ char ≤ 'f' then some (char.toNat - 'a'.toNat + 10)
  else if 'A' ≤ char ∧ char ≤ 'F' then some (char.toNat - 'A'.toNat + 10)
  else none

/-- The value that hexadecimal digits spell after a number read so far. -/
def hexValue? : Nat → List Char → Option Nat
  | value, [] => some value
  | value, char :: chars =>
      match hexDigit? char with
      | some digit => hexValue? (value * 16 + digit) chars
      | none => none

namespace Word

/-- The characters of a hexadecimal word after its mark, if it has one, and without
underscores. -/
def hexBody (text : List Char) : List Char :=
  let unmarked := match text with
    | '0' :: 'x' :: rest | '0' :: 'X' :: rest => rest
    | _ => text
  unmarked.filter fun char => char ≠ '_'

/-- The number of bytes that characters take in UTF-8. -/
def utf8Length (text : List Char) : Nat :=
  text.foldr (fun character length => character.utf8Size + length) 0

/-- The number that the body of a hexadecimal word spells. It takes at most eight bytes. -/
def bodyValue? (body : List Char) : Option Nat :=
  if utf8Length body > 8 then none
  else match body with
    | [] | ['+'] => none
    | '+' :: digits => hexValue? 0 digits
    | digits => hexValue? 0 digits

/-- The word that a text spells. -/
def ofText (text : String) : Except Failure Word :=
  match bodyValue? (hexBody text.toList) with
  | some value => .ok (BitVec.ofNat 32 value)
  | none => .error (.invalidWord text)

/-- The words that bytes spell in groups of four; an incomplete last group is dropped. -/
def listOfBytes : List UInt8 → List Word
  | byte0 :: byte1 :: byte2 :: byte3 :: rest =>
      ofBytes byte0 byte1 byte2 byte3 :: listOfBytes rest
  | _ => []

end Word

/-- Where the code comes from. -/
inductive CodeSource where
  | words (texts : List String)
  | file (path : String)
  deriving DecidableEq

/-- The words of some bytes, which have to fill a whole number of words. -/
def wordsOfFile (bytes : List UInt8) : Except Failure (List Word) :=
  if bytes.length % 4 = 0 then .ok (Word.listOfBytes bytes)
  else .error (.unalignedCode bytes.length)

/-- The words that texts spell, or the failure of the first text that spells none. -/
def wordsOfTexts : List String → Except Failure (List Word)
  | [] => .ok []
  | text :: texts =>
      match Word.ofText text with
      | .error failure => .error failure
      | .ok word => (wordsOfTexts texts).map (word :: ·)

namespace CodeSource

/-- The words of a source, given what reading a file yields. -/
def read (contentsOf : String → Except ReadError (List UInt8)) :
    CodeSource → Except Failure (List Word)
  | .words texts => wordsOfTexts texts
  | .file path =>
      match contentsOf path with
      | .error error => .error (.unreadable error)
      | .ok bytes => wordsOfFile bytes

end CodeSource

end RiscvFacts
