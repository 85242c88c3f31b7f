import RiscvFacts.Proofs.Encoding.Reference

/-!
# Which instructions a word can spell

The check of a built instruction and the decoder limit immediates, shift amounts
and register files in different places. They agree: the instructions that some
word decodes to are those that pass the check and that consist of what the
machine has (`exists_decodeWord_iff_encodable`). The word is the one that the
opcode's diagram gives the operands.
-/

namespace RiscvFacts

/-- Whether an instruction passes the check of a target and consists of what the machine has.
The check also accepts a negative upper immediate, which no word spells. -/
structure Instr.Encodable (xlen : Xlen) (instr : Instr) : Prop where
  built : instr.build xlen = .ok instr
  available : instr.opcode.isAvailable xlen = true
  machine : ∀ operand ∈ instr.operands, operand.IsMachine
  unsigned : instr.opcode = .lui ∨ instr.opcode = .auipc →
    ∀ value, .immediate value ∈ instr.operands → 0 ≤ value.toInt
  accesses : instr.descriptors = instr.opcode.accesses

/-- The number of a machine register fits into five bits. -/
theorem Operand.IsMachine.registerNumber_lt {operand : Operand} (onMachine : operand.IsMachine) :
    operand.registerNumber < 32 := by
  cases operand with
  | register held =>
      cases held with
      | physical file index => exact Nat.lt_succ_of_le onMachine
      | «virtual» file id => exact onMachine.elim
  | _ => exact Nat.zero_lt_succ 31

/-- The upper immediates are the opcodes with that format. -/
theorem Opcode.format_eq_upper_iff {opcode : Opcode} :
    (∃ major, opcode.format = .upper major) ↔ opcode = .lui ∨ opcode = .auipc := by
  cases opcode with
  | vector direction addressing width => cases addressing <;> simp [format]
  | _ => simp [format]

namespace Instr

variable {xlen : Xlen} {word : Word} {instr : Instr}

/-- What decodes consists of what the machine has, and its diagram describes the word. -/
theorem encodable_of_decodeWord (decoded : decodeWord xlen word = .ok instr) :
    instr.Encodable xlen ∧ instr.opcode.diagram.Describes word instr.operands := by
  obtain ⟨selected, available, spelled⟩ := decodeWord_eq_ok_iff_ofWord.mp decoded
  have operands : instr.operands = word.operands instr.opcode := congrArg Instr.operands spelled
  have descriptors := congrArg Instr.descriptors spelled
  have admitted := admits_ofWord selected
  rw [← operands] at admitted
  have unsigned : ∀ major, instr.opcode.format = .upper major →
      ∀ value, .immediate value ∈ instr.operands → 0 ≤ value.toInt := by
    intro major form value member
    rw [operands, Opcode.operands_eq_read, form] at member
    exact Format.unsigned_read member
  refine ⟨⟨build_of_decodeWord decoded, available, ?_, ?_, ?_⟩, ?_⟩
  · exact (Slot.forall₂_admits_iff.mp admitted).2
  · intro upper
    obtain ⟨major, form⟩ := Opcode.format_eq_upper_iff.mpr upper
    exact unsigned major form
  · exact descriptors.trans (decodedDescriptors_eq_accesses _)
  · rw [Opcode.places_eq] at admitted
    exact (Format.describes_iff admitted unsigned).mpr
      ⟨Word.hasConstants_of_opcode? selected, operands.trans (Opcode.operands_eq_read _ _)⟩

/-- A word decodes to an instruction that the machine has, if its diagram describes the word. -/
theorem Encodable.decodeWord (encodable : instr.Encodable xlen)
    (described : instr.opcode.diagram.Describes word instr.operands) :
    Instr.decodeWord xlen word = .ok instr := by
  have admitted := Slot.forall₂_admits_iff.mpr
    ⟨build_eq_ok_iff_accepts.mp encodable.built, encodable.machine⟩
  rw [Opcode.places_eq] at admitted
  have unsigned : ∀ major, instr.opcode.format = .upper major →
      ∀ value, .immediate value ∈ instr.operands → 0 ≤ value.toInt :=
    fun major form => encodable.unsigned (Opcode.format_eq_upper_iff.mp ⟨major, form⟩)
  obtain ⟨constants, operands⟩ := (Format.describes_iff admitted unsigned).mp described
  have amountFits := Format.amountFits_of_admits_read (operands ▸ admitted)
  have selected := Word.opcode?_of_hasConstants constants amountFits
  refine decodeWord_eq_ok_iff_ofWord.mpr ⟨selected, encodable.available, ?_⟩
  have descriptors := encodable.accesses.trans (decodedDescriptors_eq_accesses _).symm
  rw [← Opcode.operands_eq_read] at operands
  obtain ⟨opcode, _, _⟩ := instr
  exact congrArg₂ (Instr.mk opcode) operands descriptors

/-- A word decodes to exactly the instruction that the machine has and whose diagram describes
the word. -/
theorem decodeWord_eq_ok_iff_describes :
    decodeWord xlen word = .ok instr ↔
      instr.Encodable xlen ∧ instr.opcode.diagram.Describes word instr.operands :=
  ⟨encodable_of_decodeWord, fun ⟨encodable, described⟩ => encodable.decodeWord described⟩

/-- The instructions that some word decodes to are exactly those that pass the check and consist
of what the machine has. -/
theorem exists_decodeWord_iff_encodable (xlen : Xlen) (instr : Instr) :
    (∃ word, decodeWord xlen word = .ok instr) ↔ instr.Encodable xlen := by
  constructor
  · rintro ⟨word, decoded⟩
    exact (encodable_of_decodeWord decoded).1
  · intro encodable
    refine ⟨instr.opcode.diagram.encode instr.operands, encodable.decodeWord ?_⟩
    exact Diagram.describes_encode _ fun operand member =>
      (encodable.machine operand member).registerNumber_lt

end Instr

end RiscvFacts
