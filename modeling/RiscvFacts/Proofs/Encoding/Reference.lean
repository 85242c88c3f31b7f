import RiscvFacts.Proofs.Encoding.Recognised
import RiscvFacts.Proofs.Instr.Decode

/-!
# Decoding as the manual states it

The manual describes an encoding by bit ranges: which bits are constant, which
ones number a register and which ones hold an immediate in two's complement. Here
that description stands on its own, in terms of extracted bits (`Spells`), beside
the table of constant bits. Decoding follows it on every word
(`decodeWord_follows_manual`).
-/

namespace RiscvFacts

/-- The accesses that belong to a decoded instruction: one of the opcode's width for a scalar
load or store. -/
def Opcode.accesses (opcode : Opcode) : List Descriptor :=
  match opcode.info.kind, opcode.info.memory with
  | .load, .scalar width => [.load width]
  | .store, .scalar width => [.store width]
  | _, _ => []

/-- The accesses that decoding records are those of the opcode. -/
theorem Instr.decodedDescriptors_eq_accesses (opcode : Opcode) :
    decodedDescriptors opcode = opcode.accesses := by
  cases opcode with
  | vector direction addressing width => cases direction <;> rfl
  | _ => rfl

/-- Whether an opcode shifts a whole register by a constant. -/
def Opcode.IsWideShift (opcode : Opcode) : Prop :=
  opcode = .slli ∨ opcode = .srli ∨ opcode = .srai

namespace Word

/-- The register of a file whose number stands in the bits from `high` down to `low`. -/
def registerAt (word : Word) (file : RegisterFile) (high low : Nat) : Operand :=
  .register (.physical file (UInt8.ofNat (bits word high low)))

/-- The defined or stored value. Only a scalar store has it in the second source. -/
def valueOperand (opcode : Opcode) (word : Word) : Operand :=
  if opcode.info.kind = .store then registerAt word opcode.info.valueFile 24 20
  else registerAt word opcode.info.valueFile 11 7

/-- The first source, which the upper immediates lack. -/
def sourceOperand? (opcode : Opcode) (word : Word) : Option Operand :=
  match opcode.info.kind with
  | .upperImm => none
  | .fpSignInject => some (registerAt word .fpr 19 15)
  | _ => some (registerAt word .gpr 19 15)

/-- The two's complement reading of the top twelve bits. -/
def topImmediate (word : Word) : Int := (word.extractLsb 31 20).toInt

/-- The two's complement reading of the top seven bits and the five of the destination. -/
def splitImmediate (word : Word) : Int := (word.extractLsb 31 25 ++ word.extractLsb 11 7).toInt

/-- The operand after the sources: a further register, or an immediate. Shift amounts and upper
immediates have no sign; all other immediates are the two's complement reading of twelve bits. -/
def lastOperand? (opcode : Opcode) (word : Word) : Option Operand :=
  let immediate (value : Int) : Operand := .immediate (Int64.ofInt value)
  match opcode with
  | .lui | .auipc => some (immediate (bits word 31 12))
  | .slli | .srli | .srai => some (immediate (bits word 25 20))
  | .slliw | .srliw | .sraiw => some (immediate (bits word 24 20))
  | .fsgnjH | .fsgnjS | .fsgnjD => some (registerAt word .fpr 24 20)
  | .vector _ .unitStride _ => none
  | .vector _ .strided _ => some (registerAt word .gpr 24 20)
  | .vector _ .unordered _ | .vector _ .ordered _ => some (registerAt word .vr 24 20)
  | .sb | .sh | .sw | .sd | .fsh | .fsw | .fsd | .fsq =>
      some (immediate (splitImmediate word))
  | _ => some (immediate (topImmediate word))

end Word

/-- Whether a word spells an instruction: the target has the opcode, the word has the constant
bits of the opcode, and the operands stand in the other bits. -/
structure Spells (xlen : Xlen) (word : Word) (instr : Instr) : Prop where
  available : instr.opcode.isAvailable xlen = true
  constants : instr.opcode.diagram.Matches word
  amount : instr.opcode.IsWideShift → Word.bits word 25 20 < xlen.bits
  operands : instr.operands =
    Word.valueOperand instr.opcode word :: ((Word.sourceOperand? instr.opcode word).toList ++
      (Word.lastOperand? instr.opcode word).toList)
  descriptors : instr.descriptors = instr.opcode.accesses

namespace Word

variable {xlen : Xlen} {word : Word}

/-- The signed immediate is the two's complement reading of the top twelve bits. -/
theorem topImmediate_eq_iImm : topImmediate word = iImm word := by
  have same : (word.extractLsb 31 20).toNat = field word 20 12 := bits_eq_field word 31 20
  rw [topImmediate, BitVec.toInt_eq_toNat_cond, same, iImm, signed12]
  split <;> split <;> omega

/-- The signed immediate of a store is the two's complement reading of its two parts. -/
theorem splitImmediate_eq_sImm : splitImmediate word = sImm word := by
  have high : (word.extractLsb 31 25).toNat = field word 25 7 := bits_eq_field word 31 25
  have low : (word.extractLsb 11 7).toNat = field word 7 5 := bits_eq_field word 11 7
  have joined : (word.extractLsb 31 25 ++ word.extractLsb 11 7).toNat =
      field word 25 7 * 32 + field word 7 5 := by
    have bound : (word.extractLsb 11 7).toNat < 2 ^ 5 := BitVec.isLt _
    rw [BitVec.toNat_append, ← Nat.shiftLeft_add_eq_or_of_lt bound, Nat.shiftLeft_eq, high, low]
  rw [splitImmediate, BitVec.toInt_eq_toNat_cond, joined, sImm, signed12]
  split <;> split <;> omega

/-- The operands in a word are where the manual puts them. -/
theorem operands_eq (opcode : Opcode) (word : Word) :
    word.operands opcode =
      valueOperand opcode word ::
        ((sourceOperand? opcode word).toList ++ (lastOperand? opcode word).toList) := by
  cases opcode with
  | vector direction addressing width =>
      cases direction <;> cases addressing <;>
        simp [operands, valueOperand, sourceOperand?, lastOperand?, registerAt, Opcode.info,
          OpcodeInfo.vector, rd, rs1, rs2, Register.x, Register.v]
  | _ =>
      simp [operands, valueOperand, sourceOperand?, lastOperand?, registerAt, Opcode.info,
        OpcodeInfo.upper, OpcodeInfo.arithmetic, OpcodeInfo.load, OpcodeInfo.store,
        OpcodeInfo.signInject, OpcodeInfo.wide, OpcodeInfo.mayStore, arithmeticImm, rd, rs1, rs2,
        uField, Register.x, topImmediate_eq_iImm, splitImmediate_eq_sImm]

/-- The amounts that the table limits are those of the shifts of whole registers. -/
theorem amountFits_iff {opcode : Opcode} :
    opcode.format.AmountFits xlen word ↔ (opcode.IsWideShift → bits word 25 20 < xlen.bits) := by
  cases opcode with
  | vector direction addressing width =>
      cases addressing <;> simp [Opcode.format, Format.AmountFits, Opcode.IsWideShift]
  | _ => simp [Opcode.format, Format.AmountFits, Opcode.IsWideShift]

end Word

namespace Instr

variable {xlen : Xlen} {word : Word} {instr : Instr}

/-- A word decodes to exactly the instruction that it spells. -/
theorem decodeWord_eq_ok_iff_spells :
    decodeWord xlen word = .ok instr ↔ Spells xlen word instr := by
  rw [decodeWord_eq_ok_iff_ofWord, Word.opcode?_eq_some_iff, Word.amountFits_iff]
  constructor
  · rintro ⟨⟨constants, amount⟩, available, spelled⟩
    have operands := congrArg Instr.operands spelled
    have descriptors := congrArg Instr.descriptors spelled
    exact ⟨available, constants, amount, operands.trans (Word.operands_eq _ _),
      descriptors.trans (decodedDescriptors_eq_accesses _)⟩
  · intro spells
    refine ⟨⟨spells.constants, spells.amount⟩, spells.available, ?_⟩
    have operands := spells.operands.trans (Word.operands_eq _ _).symm
    have descriptors := spells.descriptors.trans (decodedDescriptors_eq_accesses _).symm
    obtain ⟨opcode, _, _⟩ := instr
    exact congrArg₂ (Instr.mk opcode) operands descriptors

/-- Every opcode is available with 64-bit registers. -/
theorem isAvailable_rv64 (opcode : Opcode) : opcode.isAvailable .rv64 = true := by
  simp [Opcode.isAvailable, OpcodeInfo.isAvailable, Xlen.is64, Xlen.bits]

/-- With 64-bit registers exactly the words of the list decode. -/
theorem exists_decodeWord_iff :
    (∃ instr, decodeWord .rv64 word = .ok instr) ↔ word.Recognised := by
  rw [← Word.isSome_opcode?_iff]
  constructor
  · rintro ⟨instr, decoded⟩
    rw [(decodeWord_eq_ok_iff_ofWord.mp decoded).1]
    rfl
  · intro recognised
    obtain ⟨opcode, selected⟩ := Option.isSome_iff_exists.mp recognised
    refine ⟨ofWord opcode word, ?_⟩
    rw [decodeWord_of_selected selected, if_pos (isAvailable_rv64 opcode)]

/-- With 64-bit registers all other words are unrecognised. -/
theorem decodeWord_eq_unrecognized_iff :
    decodeWord .rv64 word = .error (.unrecognized word) ↔ ¬ word.Recognised := by
  constructor
  · intro refused recognised
    obtain ⟨instr, decoded⟩ := exists_decodeWord_iff.mpr recognised
    rw [refused] at decoded
    cases decoded
  · intro unrecognised
    rw [← Word.isSome_opcode?_iff, Bool.not_eq_true, Option.isSome_eq_false_iff,
      Option.isNone_iff_eq_none] at unrecognised
    simp only [decodeWord, unrecognised]

/-- Decoding is what the manual says: the words that a target with 64-bit registers accepts are
those of the list, all others are unrecognised, and on every target a word decodes to exactly
the instruction that it spells. -/
theorem decodeWord_follows_manual (word : Word) :
    ((∃ instr, decodeWord .rv64 word = .ok instr) ↔ word.Recognised) ∧
      (decodeWord .rv64 word = .error (.unrecognized word) ↔ ¬ word.Recognised) ∧
      ∀ xlen instr, decodeWord xlen word = .ok instr ↔ Spells xlen word instr :=
  ⟨exists_decodeWord_iff, decodeWord_eq_unrecognized_iff,
    fun _ _ => decodeWord_eq_ok_iff_spells⟩

end Instr

end RiscvFacts
