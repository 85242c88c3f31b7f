import RiscvFacts.Instr.Decode
import RiscvFacts.Proofs.Encoding.Operands

/-!
# What decoding yields

The check that a decoded instruction has to pass never fails, since the operands
that are read from a word fit the slots of the selected opcode. Decoding therefore
depends on two things only: on the opcode that the word selects, and on whether
the target has that opcode.
-/

namespace RiscvFacts

/-- A target lacks exactly the opcodes that the table marks, if its registers have 32 bits. -/
theorem Opcode.isAvailable_eq_false_iff {xlen : Xlen} {opcode : Opcode} :
    opcode.isAvailable xlen = false ↔ xlen = .rv32 ∧ opcode.info.rv64Only = true := by
  cases xlen <;> simp [isAvailable, OpcodeInfo.isAvailable, Xlen.is64, Xlen.bits]

namespace Instr

variable {xlen : Xlen} {word : Word} {opcode : Opcode} {instr : Instr}

/-- The operands that are read with the selected opcode fit its places. -/
theorem admits_ofWord (selected : word.opcode? xlen = some opcode) :
    List.Forall₂ Place.Admits ((opcode.slots xlen).map Slot.place) (word.operands opcode) := by
  rw [Opcode.places_eq, Opcode.operands_eq_read]
  exact Format.admits_read (Word.amountFits_of_opcode? selected)

/-- The instruction that a word spells with the selected opcode passes the check. -/
theorem build_ofWord (selected : word.opcode? xlen = some opcode) :
    (ofWord opcode word).build xlen = .ok (ofWord opcode word) :=
  build_eq_ok_iff_accepts.mpr (Slot.forall₂_admits_iff.mp (admits_ofWord selected)).1

/-- With a selected opcode, decoding succeeds exactly on the targets that have it. -/
theorem decodeWord_of_selected (selected : word.opcode? xlen = some opcode) :
    decodeWord xlen word =
      if opcode.isAvailable xlen then .ok (ofWord opcode word)
      else .error (.notAvailable opcode xlen) := by
  simp only [decodeWord, selected, build_ofWord selected]

/-- A word decodes to what it spells with the selected opcode, on the targets that have it. -/
theorem decodeWord_eq_ok_iff_ofWord :
    decodeWord xlen word = .ok instr ↔
      word.opcode? xlen = some instr.opcode ∧ instr.opcode.isAvailable xlen = true ∧
        instr = ofWord instr.opcode word := by
  cases selected : word.opcode? xlen with
  | none => simp [decodeWord, selected]
  | some opcode =>
      rw [decodeWord_of_selected selected]
      constructor
      · intro decoded
        split at decoded
        · cases decoded
          exact ⟨rfl, ‹_›, rfl⟩
        · cases decoded
      · rintro ⟨same, available, spelled⟩
        cases same
        rw [if_pos available, ← spelled]

/-- Decoding has two errors: a word is unrecognised, or a target with 32-bit registers lacks its
opcode. -/
theorem decodeWord_cases (xlen : Xlen) (word : Word) :
    (∃ instr, decodeWord xlen word = .ok instr) ∨
      decodeWord xlen word = .error (.unrecognized word) ∨
      xlen = .rv32 ∧ ∃ opcode, opcode.info.rv64Only = true ∧
        decodeWord xlen word = .error (.notAvailable opcode .rv32) := by
  cases selected : word.opcode? xlen with
  | none =>
      refine .inr (.inl ?_)
      simp only [decodeWord, selected]
  | some opcode =>
      rw [decodeWord_of_selected selected]
      cases available : opcode.isAvailable xlen with
      | true => exact .inl ⟨_, rfl⟩
      | false =>
          obtain ⟨rfl, wideOnly⟩ := Opcode.isAvailable_eq_false_iff.mp available
          exact .inr (.inr ⟨rfl, opcode, wideOnly, rfl⟩)

/-- What decodes passes the check. -/
theorem build_of_decodeWord (decoded : decodeWord xlen word = .ok instr) :
    instr.build xlen = .ok instr := by
  obtain ⟨selected, -, spelled⟩ := decodeWord_eq_ok_iff_ofWord.mp decoded
  rw [spelled]
  exact build_ofWord selected

end Instr

end RiscvFacts
