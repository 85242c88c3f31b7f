import RiscvFacts.Proofs.Word.Bits
import RiscvFacts.Word.Opcode

/-!
# Which words are recognised

`Word.Recognised` lists, bit range by bit range, the words that spell an
instruction of a target with 64-bit registers. Each group of instructions
recognises exactly its part of the list, and together they recognise all of it
(`isSome_opcode?_iff`).
-/

namespace RiscvFacts.Word

/-- The words that spell an instruction of a target with 64-bit registers. -/
def Recognised (word : Word) : Prop :=
  let major := bits word 6 0
  let funct3 := bits word 14 12
  let funct7 := bits word 31 25
  major = 0x37 ∨ major = 0x17 ∨
    major = 0x03 ∧ funct3 ≤ 6 ∨
    major = 0x23 ∧ funct3 ≤ 3 ∨
    major = 0x13 ∧
      (funct3 ≠ 1 ∧ funct3 ≠ 5 ∨
        funct3 = 1 ∧ bits word 31 26 = 0 ∨
        funct3 = 5 ∧ (bits word 31 26 = 0 ∨ bits word 31 26 = 0x10)) ∨
    major = 0x1B ∧
      (funct3 = 0 ∨
        funct3 = 1 ∧ funct7 = 0 ∨
        funct3 = 5 ∧ (funct7 = 0 ∨ funct7 = 0x20)) ∨
    (major = 0x07 ∨ major = 0x27) ∧
      (1 ≤ funct3 ∧ funct3 ≤ 4 ∨
        (funct3 = 0 ∨ funct3 = 5 ∨ funct3 = 6 ∨ funct3 = 7) ∧ bits word 31 28 = 0 ∧
          (bits word 27 26 ≠ 0 ∨ bits word 24 20 = 0)) ∨
    major = 0x53 ∧ funct3 = 0 ∧ (funct7 = 0x10 ∨ funct7 = 0x11 ∨ funct7 = 0x12)

variable {word : Word}

/-- The third function field has three bits. -/
theorem funct3_lt (word : Word) : funct3 word < 8 := field_lt word 12 3

/-- A load is selected by all values of `funct3` but the last. -/
theorem isSome_loadOpcode? : (loadOpcode? word).isSome = true ↔ funct3 word ≤ 6 := by
  have bound := funct3_lt word
  unfold loadOpcode?
  split <;> simp_all
  omega

/-- A store is selected by the first four values of `funct3`. -/
theorem isSome_storeOpcode? : (storeOpcode? word).isSome = true ↔ funct3 word ≤ 3 := by
  unfold storeOpcode?
  split <;> simp_all
  omega

/-- A right shift is selected by no bit above the amount, or by the mark. -/
theorem isSome_rightShift? {above mark : Nat} {logical arithmetic : Opcode} :
    (rightShift? above mark logical arithmetic).isSome = true ↔ above = 0 ∨ above = mark := by
  unfold rightShift?
  split
  · simp_all
  · split <;> simp_all

/-- With 64-bit registers every amount of a shift fits, and only the bits above it matter. -/
theorem isSome_immediateOpcode? :
    (immediateOpcode? .rv64 word).isSome = true ↔
      funct3 word ≠ 1 ∧ funct3 word ≠ 5 ∨
        funct3 word = 1 ∧ field word 26 6 = 0 ∨
        funct3 word = 5 ∧ (field word 26 6 = 0 ∨ field word 26 6 = 0x10) := by
  have bound := funct3_lt word
  have fits : field word 20 6 < Xlen.rv64.bits := field_lt word 20 6
  unfold immediateOpcode?
  simp only [fits, if_true]
  split
  case h_2 shifts => simp [shifts]
  case h_6 shifts => simp [shifts, isSome_rightShift?]
  all_goals simp_all
  all_goals omega

/-- Narrow arithmetic is an addition or a shift, whose kind is in `funct7`. -/
theorem isSome_narrowOpcode? :
    (narrowOpcode? word).isSome = true ↔
      funct3 word = 0 ∨
        funct3 word = 1 ∧ funct7 word = 0 ∨
        funct3 word = 5 ∧ (funct7 word = 0 ∨ funct7 word = 0x20) := by
  unfold narrowOpcode?
  split
  case h_3 shifts => simp [shifts, isSome_rightShift?]
  all_goals simp_all

/-- A vector access has its reserved bits clear and no variant of the unit-stride form. -/
theorem isSome_vectorOpcode? {direction : Direction} {width : ElementWidth} :
    (vectorOpcode? direction width word).isSome = true ↔
      field word 28 4 = 0 ∧ (mop word ≠ 0 ∨ rs2 word = 0) := by
  have bound : mop word < 4 := field_lt word 26 2
  have joined : field word 28 4 = 2 * nf word + mew word := by
    rw [nf, mew, field_eq_div_mod, field_eq_div_mod, field_eq_div_mod]
    omega
  unfold vectorOpcode?
  split
  · simp
    omega
  · split <;> simp_all
    omega

/-- Four values of `funct3` select a floating-point load, and four a vector load. -/
theorem isSome_floatLoadOpcode? :
    (floatLoadOpcode? word).isSome = true ↔
      1 ≤ funct3 word ∧ funct3 word ≤ 4 ∨
        (funct3 word = 0 ∨ funct3 word = 5 ∨ funct3 word = 6 ∨ funct3 word = 7) ∧
          field word 28 4 = 0 ∧ (mop word ≠ 0 ∨ rs2 word = 0) := by
  have bound := funct3_lt word
  unfold floatLoadOpcode?
  split <;> simp_all [isSome_vectorOpcode?]
  omega

/-- Stores are selected as loads are, value by value of `funct3`. -/
theorem isSome_floatStoreOpcode? :
    (floatStoreOpcode? word).isSome = (floatLoadOpcode? word).isSome := by
  have sameVector (width : ElementWidth) :
      (vectorOpcode? .store width word).isSome = (vectorOpcode? .load width word).isSome :=
    Bool.eq_iff_iff.mpr (isSome_vectorOpcode?.trans isSome_vectorOpcode?.symm)
  unfold floatStoreOpcode? floatLoadOpcode?
  split <;> simp [sameVector]

/-- A sign injection is selected by three values of `funct7`. -/
theorem isSome_floatOpcode? :
    (floatOpcode? word).isSome = true ↔
      funct3 word = 0 ∧ (funct7 word = 0x10 ∨ funct7 word = 0x11 ∨ funct7 word = 0x12) := by
  unfold floatOpcode?
  split
  · simp_all
  · split <;> simp_all

/-- With 64-bit registers an opcode is selected exactly by the words in the list. -/
theorem isSome_opcode?_iff : (word.opcode? .rv64).isSome = true ↔ Recognised word := by
  have spelled : Recognised word ↔
      major word = 0x37 ∨ major word = 0x17 ∨
        major word = 0x03 ∧ (loadOpcode? word).isSome = true ∨
        major word = 0x23 ∧ (storeOpcode? word).isSome = true ∨
        major word = 0x13 ∧ (immediateOpcode? .rv64 word).isSome = true ∨
        major word = 0x1B ∧ (narrowOpcode? word).isSome = true ∨
        (major word = 0x07 ∨ major word = 0x27) ∧ (floatLoadOpcode? word).isSome = true ∨
        major word = 0x53 ∧ (floatOpcode? word).isSome = true := by
    rw [isSome_loadOpcode?, isSome_storeOpcode?, isSome_immediateOpcode?, isSome_narrowOpcode?,
      isSome_floatLoadOpcode?, isSome_floatOpcode?]
    simp only [Recognised, bits_eq_field, major, funct3, funct7, mop, rs2]
  rw [spelled]
  unfold opcode?
  split <;> simp_all [isSome_floatStoreOpcode?]

end RiscvFacts.Word
