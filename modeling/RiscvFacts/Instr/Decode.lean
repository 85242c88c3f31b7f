import RiscvFacts.Instr.Check
import RiscvFacts.Word.Opcode

/-!
# Decoded instructions

Decoding a word takes three steps: the word selects an opcode, the layout of the
opcode names the fields of the word that are read as its operands, and the result
passes the same check as a written instruction. The mask bit of a vector access is
not kept. A recognised opcode that the target lacks is reported apart from an
unrecognised word.
-/

namespace RiscvFacts

namespace Word

/-- The immediate of an arithmetic opcode: a shift amount or a signed 12-bit value. -/
def arithmeticImm (opcode : Opcode) (word : Word) : Int :=
  match opcode with
  | .slli | .srli | .srai => field word 20 6
  | .slliw | .srliw | .sraiw => field word 20 5
  | _ => iImm word

/-- The operands of an opcode in a word. The value of a scalar store is the second source;
every other value, also the data of a vector store, stands in the destination field. -/
def operands (opcode : Opcode) (word : Word) : List Operand :=
  let value (number : Nat) : Operand :=
    .register (.physical opcode.info.valueFile (UInt8.ofNat number))
  let immediate (value : Int) : Operand := .immediate (Int64.ofInt value)
  let base : Operand := .register (.x (rs1 word))
  match opcode.info.layout with
  | .regImm => [value (rd word), immediate (uField word)]
  | .regRegImm => [value (rd word), base, immediate (arithmeticImm opcode word)]
  | .regRegReg => [value (rd word), value (rs1 word), value (rs2 word)]
  | .valueBaseOffset =>
      if opcode.info.mayStore then [value (rs2 word), base, immediate (sImm word)]
      else [value (rd word), base, immediate (iImm word)]
  | .vectorUnitStride => [value (rd word), base]
  | .vectorStrided => [value (rd word), base, .register (.x (rs2 word))]
  | .vectorIndexed => [value (rd word), base, .register (.v (rs2 word))]

end Word

namespace Instr

/-- The accesses that a decoded instruction records: one of the opcode's width for a scalar
load or store, and none otherwise. -/
def decodedDescriptors (opcode : Opcode) : List Descriptor :=
  match opcode.info.scalarWidth? with
  | some width => if opcode.info.mayStore then [.store width] else [.load width]
  | none => []

/-- The instruction that a word spells with an opcode, before any check. -/
def ofWord (opcode : Opcode) (word : Word) : Instr :=
  ⟨opcode, word.operands opcode, decodedDescriptors opcode⟩

end Instr

/-- Why bytes or a word do not spell an instruction. -/
inductive DecodeError where
  | truncated (available : Nat)
  | compressed (halfword : BitVec 16)
  | unrecognized (word : Word)
  | notAvailable (opcode : Opcode) (xlen : Xlen)
  | malformed (fault : Fault)
  deriving DecidableEq

/-- The wording of a decoding error. -/
def DecodeError.message : DecodeError → String
  | .truncated available =>
      "truncated instruction: " ++ Numeral.natural available ++ " bytes available"
  | .compressed halfword =>
      "compressed instructions are not supported: 0x" ++ Numeral.hex 4 halfword.toNat
  | .unrecognized word => "unrecognized encoding 0x" ++ Numeral.hex 8 word.toNat
  | .notAvailable opcode xlen => opcode.mnemonic ++ " is not available on " ++ xlen.name
  | .malformed fault => "invalid instruction: " ++ fault.message

namespace Instr

/-- The instruction that a word spells on a target. -/
def decodeWord (xlen : Xlen) (word : Word) : Except DecodeError Instr :=
  match word.opcode? xlen with
  | none => .error (.unrecognized word)
  | some opcode =>
      match (ofWord opcode word).build xlen with
      | .error fault => .error (.malformed fault)
      | .ok instr =>
          if opcode.isAvailable xlen then .ok instr else .error (.notAvailable opcode xlen)

/-- The instruction at the start of some bytes, least significant byte first. A first byte
that does not end in two ones starts a compressed instruction. -/
def decode (xlen : Xlen) (bytes : List UInt8) : Except DecodeError Instr :=
  match bytes with
  | byte0 :: byte1 :: rest =>
      if byte0.toNat % 4 ≠ 3 then
        .error (.compressed (BitVec.ofNat 16 (byte0.toNat + 0x100 * byte1.toNat)))
      else match rest with
        | byte2 :: byte3 :: _ => decodeWord xlen (.ofBytes byte0 byte1 byte2 byte3)
        | _ => .error (.truncated bytes.length)
  | _ => .error (.truncated bytes.length)

end Instr

end RiscvFacts
