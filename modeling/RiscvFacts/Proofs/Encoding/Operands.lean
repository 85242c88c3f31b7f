import Mathlib.Tactic.Tauto
import RiscvFacts.Instr.Decode
import RiscvFacts.Proofs.Encoding.Selection
import RiscvFacts.Proofs.Instr.Place

/-!
# The operands in a word

Reading operands out of a word and writing them into it are inverse to each
other. Of the operands that a word has room for, exactly those that are read from
the word are the ones whose bits it holds (`describes_iff`), and those that are
read always fit (`admits_read`). Both are shown for formats, which are few, and
`operands_eq_read` carries them over to opcodes.
-/

namespace RiscvFacts

namespace Word

variable {word : Word} {value : Int64}

/-- A register is read back from the field that holds its number. -/
theorem eq_ofNat_field_iff {index : UInt8} {low : Nat} :
    index = UInt8.ofNat (field word low 5) ↔ field word low 5 = index.toNat := by
  have bound := field_lt word low 5
  rw [← UInt8.toNat_inj, UInt8.toNat_ofNat', Nat.mod_eq_of_lt (by omega), eq_comm]

/-- An immediate equals a small number exactly when its value does. -/
theorem eq_ofInt_iff {small : Int} (isSmall : -2048 ≤ small ∧ small < 1048576) :
    value = Int64.ofInt small ↔ value.toInt = small := by
  rw [← Int64.toInt_inj, Int64.toInt_ofInt_of_le (by omega) (by omega)]

/-- A signed immediate is read back from its lowest twelve bits. -/
theorem eq_iImm_iff (inRange : ImmediateRange.signed12.contains value.toInt = true) :
    value = Int64.ofInt (iImm word) ↔ field word 20 12 = (value.toInt % 2 ^ 12).toNat := by
  have bound := field_lt word 20 12
  obtain ⟨atLeast, below⟩ := ImmediateRange.contains_iff.mp inRange
  rw [eq_ofInt_iff (by have := iImm_bounds word; omega)]
  simp only [ImmediateRange.signed12] at atLeast below
  unfold iImm signed12
  split <;> omega

/-- A signed immediate of a store is read back from its five lowest and its seven next bits. -/
theorem eq_sImm_iff (inRange : ImmediateRange.signed12.contains value.toInt = true) :
    value = Int64.ofInt (sImm word) ↔
      field word 7 5 = (value.toInt % 2 ^ 5).toNat ∧
        field word 25 7 = (value.toInt / 2 ^ 5 % 2 ^ 7).toNat := by
  have lowBound := field_lt word 7 5
  have highBound := field_lt word 25 7
  obtain ⟨atLeast, below⟩ := ImmediateRange.contains_iff.mp inRange
  rw [eq_ofInt_iff (by have := sImm_bounds word; omega)]
  simp only [ImmediateRange.signed12] at atLeast below
  unfold sImm signed12
  split <;> omega

/-- An unsigned immediate is read back from its lowest bits. -/
theorem eq_field_iff {low width : Nat} (narrow : width ≤ 20)
    (inRange : 0 ≤ value.toInt ∧ value.toInt < 2 ^ width) :
    value = Int64.ofInt (field word low width) ↔
      field word low width = (value.toInt % 2 ^ width).toNat := by
  have bound := field_lt word low width
  have small : 2 ^ width ≤ 2 ^ 20 := Nat.pow_le_pow_right (by decide) narrow
  rw [eq_ofInt_iff (by omega), Int.emod_eq_of_lt inRange.1 inRange.2]
  omega

end Word

namespace Format

/-- The operands of a format in a word, with registers of the given files. -/
@[simp] def read (file : Nat → RegisterFile) (word : Word) (format : Format) : List Operand :=
  let register (operand number : Nat) : Operand :=
    .register (.physical (file operand) (UInt8.ofNat number))
  let immediate (value : Int) : Operand := .immediate (Int64.ofInt value)
  match format with
  | .upper _ => [register 0 (Word.rd word), immediate (Word.uField word)]
  | .immediate _ _ =>
      [register 0 (Word.rd word), register 1 (Word.rs1 word), immediate (Word.iImm word)]
  | .shift _ _ =>
      [register 0 (Word.rd word), register 1 (Word.rs1 word), immediate (Word.field word 20 6)]
  | .narrowShift _ _ =>
      [register 0 (Word.rd word), register 1 (Word.rs1 word), immediate (Word.field word 20 5)]
  | .store _ _ =>
      [register 0 (Word.rs2 word), register 1 (Word.rs1 word), immediate (Word.sImm word)]
  | .unitStride _ _ => [register 0 (Word.rd word), register 1 (Word.rs1 word)]
  | .signInject _ | .vector _ _ _ =>
      [register 0 (Word.rd word), register 1 (Word.rs1 word), register 2 (Word.rs2 word)]

/-- The places for the operands of a format, with registers of the given files. -/
@[simp] def places (xlen : Xlen) (file : Nat → RegisterFile) : Format → List Place
  | .upper _ => [.register (file 0), .immediate .upper20]
  | .immediate _ _ | .store _ _ =>
      [.register (file 0), .register (file 1), .immediate .signed12]
  | .shift _ _ => [.register (file 0), .register (file 1), .immediate (.shift xlen.bits)]
  | .narrowShift _ _ => [.register (file 0), .register (file 1), .immediate (.shift 32)]
  | .unitStride _ _ => [.register (file 0), .register (file 1)]
  | .signInject _ | .vector _ _ _ =>
      [.register (file 0), .register (file 1), .register (file 2)]

variable {xlen : Xlen} {file : Nat → RegisterFile} {word : Word} {operands : List Operand}

/-- A shift amount that is less than the register width has six bits. -/
theorem shift_bounds {amount : Int}
    (inRange : (ImmediateRange.shift xlen.bits).contains amount = true) :
    0 ≤ amount ∧ amount < 2 ^ 6 := by
  obtain ⟨atLeast, below⟩ := ImmediateRange.contains_iff.mp inRange
  cases xlen <;> simp only [ImmediateRange.shift, Xlen.bits] at atLeast below <;> omega

/-- Of the operands that a word has room for, a format describes those that are read from the
word, and those only. The immediate of an upper immediate has to be read without a sign. -/
theorem describes_iff {format : Format}
    (admitted : List.Forall₂ Place.Admits (format.places xlen file) operands)
    (unsigned : ∀ major, format = .upper major → ∀ value, .immediate value ∈ operands →
      0 ≤ value.toInt) :
    format.diagram.Describes word operands ↔
      format.HasConstants word ∧ operands = format.read file word := by
  cases format with
  | upper major =>
      obtain ⟨_, _, rfl, ⟨value, -, rfl⟩, ⟨addend, inRange, rfl⟩⟩ :=
        Place.forall₂_pair_iff.mp admitted
      have atLeast := unsigned major rfl addend (by simp)
      have below := (ImmediateRange.contains_iff.mp inRange).2
      have held := @Word.eq_field_iff word addend 12 20 (by decide) ⟨atLeast, below⟩
      simp [Diagram.Describes, Word.major, Word.rd, Word.uField, Word.eq_ofNat_field_iff, held]
  | immediate major funct3 =>
      obtain ⟨_, _, _, rfl, ⟨value, -, rfl⟩, ⟨base, -, rfl⟩, ⟨addend, inRange, rfl⟩⟩ :=
        Place.forall₂_triple_iff.mp admitted
      have held := @Word.eq_iImm_iff word addend inRange
      simp [Diagram.Describes, Word.major, Word.rd, Word.funct3, Word.rs1,
        Word.eq_ofNat_field_iff, held]
      tauto
  | shift funct3 above =>
      obtain ⟨_, _, _, rfl, ⟨value, -, rfl⟩, ⟨base, -, rfl⟩, ⟨addend, inRange, rfl⟩⟩ :=
        Place.forall₂_triple_iff.mp admitted
      have held := @Word.eq_field_iff word addend 20 6 (by decide) (shift_bounds inRange)
      simp [Diagram.Describes, Word.major, Word.rd, Word.funct3, Word.rs1,
        Word.eq_ofNat_field_iff, held]
      tauto
  | narrowShift funct3 funct7 =>
      obtain ⟨_, _, _, rfl, ⟨value, -, rfl⟩, ⟨base, -, rfl⟩, ⟨addend, inRange, rfl⟩⟩ :=
        Place.forall₂_triple_iff.mp admitted
      have held := @Word.eq_field_iff word addend 20 5 (by decide)
        (ImmediateRange.contains_iff.mp inRange)
      simp [Diagram.Describes, Word.major, Word.rd, Word.funct3, Word.rs1, Word.funct7,
        Word.eq_ofNat_field_iff, held]
      tauto
  | store major funct3 =>
      obtain ⟨_, _, _, rfl, ⟨value, -, rfl⟩, ⟨base, -, rfl⟩, ⟨addend, inRange, rfl⟩⟩ :=
        Place.forall₂_triple_iff.mp admitted
      have held := @Word.eq_sImm_iff word addend inRange
      simp [Diagram.Describes, Word.major, Word.funct3, Word.rs1, Word.rs2,
        Word.eq_ofNat_field_iff, held]
      tauto
  | signInject funct7 =>
      obtain ⟨_, _, _, rfl, ⟨value, -, rfl⟩, ⟨base, -, rfl⟩, ⟨source, -, rfl⟩⟩ :=
        Place.forall₂_triple_iff.mp admitted
      simp [Diagram.Describes, Word.major, Word.rd, Word.funct3, Word.rs1, Word.rs2, Word.funct7,
        Word.eq_ofNat_field_iff]
      tauto
  | unitStride major funct3 =>
      obtain ⟨_, _, rfl, ⟨value, -, rfl⟩, ⟨base, -, rfl⟩⟩ := Place.forall₂_pair_iff.mp admitted
      simp [Diagram.Describes, Word.major, Word.rd, Word.funct3, Word.rs1, Word.rs2, Word.mop,
        Word.mew, Word.nf, Word.eq_ofNat_field_iff]
      tauto
  | vector major funct3 mop =>
      obtain ⟨_, _, _, rfl, ⟨value, -, rfl⟩, ⟨base, -, rfl⟩, ⟨source, -, rfl⟩⟩ :=
        Place.forall₂_triple_iff.mp admitted
      simp [Diagram.Describes, Word.major, Word.rd, Word.funct3, Word.rs1, Word.rs2, Word.mop,
        Word.mew, Word.nf, Word.eq_ofNat_field_iff]
      tauto

/-- A register that is read from five bits of a word is an architectural one. -/
theorem admits_register (held : RegisterFile) (word : Word) (low : Nat) :
    (Place.register held).Admits
      (.register (.physical held (UInt8.ofNat (Word.field word low 5)))) := by
  have bound := Word.field_lt word low 5
  refine ⟨_, ?_, rfl⟩
  rw [UInt8.toNat_ofNat', Nat.mod_eq_of_lt (by omega)]
  omega

/-- A small immediate fits where its value is in range. -/
theorem admits_immediate {low high small : Int} (isSmall : -2048 ≤ small ∧ small < 1048576)
    (inRange : low ≤ small ∧ small < high) :
    (Place.immediate ⟨low, high⟩).Admits (.immediate (Int64.ofInt small)) := by
  refine ⟨_, ImmediateRange.contains_iff.mpr ?_, rfl⟩
  rwa [Word.eq_ofInt_iff isSmall |>.mp rfl]

/-- The operands that are read from a word fit, if the amount of a shift does. -/
theorem admits_read {format : Format} (amountFits : format.AmountFits xlen word) :
    List.Forall₂ Place.Admits (format.places xlen file) (format.read file word) := by
  have register (operand low : Nat) := admits_register (file operand) word low
  cases format with
  | upper major =>
      have bound := Word.field_lt word 12 20
      exact Place.forall₂_pair_iff.mpr ⟨_, _, rfl, register 0 7,
        admits_immediate (by simp only [Word.uField]; omega) (by simp only [Word.uField]; omega)⟩
  | immediate major funct3 =>
      have bounds := Word.iImm_bounds word
      exact Place.forall₂_triple_iff.mpr ⟨_, _, _, rfl, register 0 7, register 1 15,
        admits_immediate (by omega) bounds⟩
  | shift funct3 above =>
      have bound := Word.field_lt word 20 6
      have amountFits : Word.field word 20 6 < xlen.bits := amountFits
      exact Place.forall₂_triple_iff.mpr ⟨_, _, _, rfl, register 0 7, register 1 15,
        admits_immediate (by omega) (by omega)⟩
  | narrowShift funct3 funct7 =>
      have bound := Word.field_lt word 20 5
      exact Place.forall₂_triple_iff.mpr ⟨_, _, _, rfl, register 0 7, register 1 15,
        admits_immediate (by omega) (by omega)⟩
  | store major funct3 =>
      have bounds := Word.sImm_bounds word
      exact Place.forall₂_triple_iff.mpr ⟨_, _, _, rfl, register 0 20, register 1 15,
        admits_immediate (by omega) bounds⟩
  | unitStride major funct3 =>
      exact Place.forall₂_pair_iff.mpr ⟨_, _, rfl, register 0 7, register 1 15⟩
  | signInject funct7 =>
      exact Place.forall₂_triple_iff.mpr ⟨_, _, _, rfl, register 0 7, register 1 15, register 2 20⟩
  | vector major funct3 mop =>
      exact Place.forall₂_triple_iff.mpr ⟨_, _, _, rfl, register 0 7, register 1 15, register 2 20⟩

/-- The amount of a shift fits, if the operands that are read from the word do. -/
theorem amountFits_of_admits_read {format : Format}
    (admitted : List.Forall₂ Place.Admits (format.places xlen file) (format.read file word)) :
    format.AmountFits xlen word := by
  cases format with
  | shift funct3 above =>
      obtain ⟨_, _, _, same, -, -, ⟨amount, inRange, rfl⟩⟩ := Place.forall₂_triple_iff.mp admitted
      have bound := Word.field_lt word 20 6
      have same := same.symm
      simp only [read, List.cons.injEq, Operand.immediate.injEq] at same
      have held := (Word.eq_ofInt_iff (by omega)).mp same.2.2.1
      have fits := (ImmediateRange.contains_iff.mp inRange).2
      simp only [ImmediateRange.shift] at fits
      show Word.field word 20 6 < xlen.bits
      omega
  | _ => trivial

/-- The immediate of an upper immediate is read without a sign. -/
theorem unsigned_read {major : BitVec 7} {value : Int64}
    (member : .immediate value ∈ (Format.upper major).read file word) : 0 ≤ value.toInt := by
  have bound := Word.field_lt word 12 20
  have same : value = Int64.ofInt (Word.uField word) := by simpa using member
  rw [same, Word.eq_ofInt_iff (by simp only [Word.uField]; omega) |>.mp rfl]
  exact Int.natCast_nonneg _

end Format

namespace Opcode

/-- The register file of each operand of an opcode that is a register on the machine. -/
def operandFile (opcode : Opcode) (operand : Nat) : RegisterFile :=
  match operand, opcode.info.layout with
  | 0, _ => opcode.info.valueFile
  | _, .regRegReg => opcode.info.valueFile
  | 2, .vectorIndexed => .vr
  | _, _ => .gpr

/-- The places of an opcode's operands are those of its format. -/
theorem places_eq (xlen : Xlen) (opcode : Opcode) :
    (opcode.slots xlen).map Slot.place = opcode.format.places xlen opcode.operandFile := by
  cases opcode with
  | vector direction addressing width => cases addressing <;> rfl
  | _ => rfl

/-- The operands of an opcode in a word are those of its format. -/
theorem operands_eq_read (opcode : Opcode) (word : Word) :
    word.operands opcode = opcode.format.read opcode.operandFile word := by
  cases opcode with
  | vector direction addressing width => cases addressing <;> rfl
  | _ => rfl

end Opcode

end RiscvFacts
