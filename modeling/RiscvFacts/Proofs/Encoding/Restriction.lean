import RiscvFacts.Proofs.Encoding.Reference

/-!
# Decoding with narrower registers

The register width enters decoding in two places: a word selects a shift only if
its amount is less than the width, and an opcode that needs 64-bit registers is
refused after the rest of the instruction was found to be well formed. Decoding
for 32-bit registers is therefore decoding for 64-bit registers with a final look
at the instruction (`decodeWord_rv32_eq_restrict`). Errors are the same, and no
instruction is spelled differently.
-/

namespace RiscvFacts

instance (opcode : Opcode) : Decidable opcode.IsWideShift := inferInstanceAs (Decidable (_ ∨ _))

/-- The shifts of whole registers exist with registers of every width. -/
theorem Opcode.IsWideShift.rv64Only_eq_false {opcode : Opcode} (shifts : opcode.IsWideShift) :
    opcode.info.rv64Only = false := by
  rcases shifts with rfl | rfl | rfl <;> rfl

namespace Word

variable {word : Word} {opcode : Opcode}

/-- A shift amount is less than 32 unless its highest bit is set. -/
theorem amount_lt_iff : bits word 25 20 < 32 ↔ bits word 25 25 ≠ 1 := by
  rw [bits_eq_field, bits_eq_field, field_eq_div_mod, field_eq_div_mod]
  omega

/-- With 32-bit registers a word selects the same opcode, unless that is a shift by too large an
amount. -/
theorem opcode?_rv32_eq_some_iff :
    word.opcode? .rv32 = some opcode ↔
      word.opcode? .rv64 = some opcode ∧ ¬ (opcode.IsWideShift ∧ bits word 25 25 = 1) := by
  have wide : bits word 25 20 < Xlen.rv64.bits := field_lt word 20 6
  have narrow : bits word 25 20 < Xlen.rv32.bits ↔ bits word 25 25 ≠ 1 := amount_lt_iff
  rw [opcode?_eq_some_iff, opcode?_eq_some_iff, amountFits_iff, amountFits_iff, narrow, not_and,
    and_iff_left fun _ => wide]

/-- A word that selects no opcode with 64-bit registers selects none with 32-bit registers. -/
theorem opcode?_rv32_eq_none (unknown : word.opcode? .rv64 = none) :
    word.opcode? .rv32 = none := by
  cases selected : word.opcode? .rv32 with
  | none => rfl
  | some opcode =>
      have wider := (opcode?_rv32_eq_some_iff.mp selected).1
      rw [unknown] at wider
      cases wider

/-- A shift by too large an amount is not selected, and no other opcode takes its place. -/
theorem opcode?_rv32_of_amount (selected : word.opcode? .rv64 = some opcode)
    (tooLarge : opcode.IsWideShift ∧ bits word 25 25 = 1) : word.opcode? .rv32 = none := by
  cases narrow : word.opcode? .rv32 with
  | none => rfl
  | some other =>
      obtain ⟨wider, fits⟩ := opcode?_rv32_eq_some_iff.mp narrow
      cases selected.symm.trans wider
      exact absurd tooLarge fits

end Word

namespace Instr

/-- What becomes of the instruction that a word spells with 64-bit registers when they have 32
bits: the target may lack its opcode, or its shift amount may be too large. -/
def restrict (word : Word) (instr : Instr) : Except DecodeError Instr :=
  if instr.opcode.info.rv64Only = true then .error (.notAvailable instr.opcode .rv32)
  else if instr.opcode.IsWideShift ∧ Word.bits word 25 25 = 1 then .error (.unrecognized word)
  else .ok instr

/-- Decoding with 32-bit registers restricts decoding with 64-bit registers. A word that does not
decode with wide registers has the same error with narrow ones. -/
theorem decodeWord_rv32_eq_restrict (word : Word) :
    decodeWord .rv32 word = decodeWord .rv64 word >>= restrict word := by
  cases selected : word.opcode? .rv64 with
  | none =>
      have selectedNarrow := Word.opcode?_rv32_eq_none selected
      simp only [decodeWord, selected, selectedNarrow]
      rfl
  | some opcode =>
      have wide : decodeWord .rv64 word = .ok (ofWord opcode word) := by
        rw [decodeWord_of_selected selected, if_pos (isAvailable_rv64 opcode)]
      have same : (ofWord opcode word).opcode = opcode := rfl
      rw [wide]
      show decodeWord .rv32 word = restrict word (ofWord opcode word)
      rw [restrict, same]
      by_cases tooLarge : opcode.IsWideShift ∧ Word.bits word 25 25 = 1
      · have unknown := Word.opcode?_rv32_of_amount selected tooLarge
        have everywhere : ¬ opcode.info.rv64Only = true := by
          rw [tooLarge.1.rv64Only_eq_false]
          exact Bool.false_ne_true
        rw [if_neg everywhere, if_pos tooLarge]
        simp only [decodeWord, unknown]
      · have selectedNarrow := Word.opcode?_rv32_eq_some_iff.mpr ⟨selected, tooLarge⟩
        rw [decodeWord_of_selected selectedNarrow, if_neg tooLarge]
        by_cases wideOnly : opcode.info.rv64Only = true
        · rw [if_pos wideOnly, Opcode.isAvailable_eq_false_iff.mpr ⟨rfl, wideOnly⟩]
          rfl
        · have available : opcode.isAvailable .rv32 = true := Bool.not_eq_false _ |>.mp
            fun lacking => wideOnly (Opcode.isAvailable_eq_false_iff.mp lacking).2
          rw [if_neg wideOnly, if_pos available]

/-- An addition is kept. -/
example : decodeWord .rv32 0x00C10093#32 =
      .ok ⟨.addi, [.register (.x 1), .register (.x 2), .immediate 12], []⟩ ∧
    decodeWord .rv64 0x00C10093#32 = decodeWord .rv32 0x00C10093#32 := by decide

/-- A load of eight bytes is spelled alike, but narrow registers do not hold it. -/
example : decodeWord .rv64 0x00813083#32 =
      .ok ⟨.ld, [.register (.x 1), .register (.x 2), .immediate 8], [.load 8]⟩ ∧
    decodeWord .rv32 0x00813083#32 = .error (.notAvailable .ld .rv32) := by decide

/-- A shift by 32 is no shift of narrow registers. -/
example : decodeWord .rv64 0x02011093#32 =
      .ok ⟨.slli, [.register (.x 1), .register (.x 2), .immediate 32], []⟩ ∧
    decodeWord .rv32 0x02011093#32 = .error (.unrecognized 0x02011093#32) := by decide

end Instr

end RiscvFacts
