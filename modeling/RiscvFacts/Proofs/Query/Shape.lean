import RiscvFacts.Proofs.Query.MemoryAccess

/-!
# The shapes that queries know

Each query knows its answer for the instructions of one shape: an available opcode
of some class, and operands of certain forms. The answer repeats the operands.
-/

namespace RiscvFacts

namespace Opcode

variable {opcode : Opcode}

/-- Whether an opcode injects the sign of one register into another. -/
def IsSignInjection (opcode : Opcode) : Prop :=
  opcode = .fsgnjH ∨ opcode = .fsgnjS ∨ opcode = .fsgnjD

/-- The only addition of an immediate that keeps the full sum is `addi`. -/
theorem kind_eq_addImm_iff : opcode.info.kind = .addImm ↔ opcode = .addi := by
  cases opcode with
  | vector direction addressing width => cases direction <;> simp [info, OpcodeInfo.vector]
  | _ => decide

/-- The sign injections are the opcodes of their class. -/
theorem kind_eq_fpSignInject_iff :
    opcode.info.kind = .fpSignInject ↔ opcode.IsSignInjection := by
  unfold IsSignInjection
  cases opcode with
  | vector direction addressing width => cases direction <;> simp [info, OpcodeInfo.vector]
  | _ => decide

end Opcode

/-- The register that stands first is that of the first operand. -/
theorem Operand.head?_bind_register?_eq_some_iff {operands : List Operand} {register : Register} :
    operands.head?.bind register? = some register ↔
      ∃ rest, operands = .register register :: rest := by
  cases operands with
  | nil => simp
  | cons operand rest => cases operand <;> simp [register?]

namespace Riscv

variable {xlen : Xlen} {instr : Instr}

/-- The add-immediate query knows the sums that an addition of an immediate leaves in its first
operand. -/
theorem addImmediate_eq_known_iff {register : Register} {sum : AddImmediate} :
    addImmediate xlen instr register = .known sum ↔
      instr.opcode.isAvailable xlen = true ∧ instr.opcode.info.kind = .addImm ∧
        instr.operands = [.register register, .register sum.source, .immediate sum.addend] := by
  unfold addImmediate
  rw [Answer.ite_silent_eq_known_iff, Operand.head?_bind_register?_eq_some_iff,
    Answer.bind_eq_known_iff]
  constructor
  · rintro ⟨⟨rest, operands⟩, known, classified, sums⟩
    obtain ⟨available, rfl⟩ := info_eq_known_iff.mp classified
    obtain ⟨kind, shape⟩ := Answer.ite_silent_eq_known_iff.mp sums
    refine ⟨available, kind, ?_⟩
    split at shape
    case h_1 first source addend same =>
      cases shape
      rw [same] at operands ⊢
      cases operands
      rfl
    case h_2 => cases shape
  · rintro ⟨available, kind, operands⟩
    refine ⟨⟨_, operands⟩, instr.opcode.info, info_eq_known_iff.mpr ⟨available, rfl⟩, ?_⟩
    rw [if_pos kind, operands]

/-- The copy query knows additions of zero and sign injections whose sources are the same. -/
theorem copy_eq_known_iff {result : RegisterCopy} :
    copy xlen instr = .known result ↔
      instr.opcode.isAvailable xlen = true ∧
        (instr.opcode.info.kind = .addImm ∧ instr.operands =
            [.register result.destination, .register result.source, .immediate 0] ∨
          instr.opcode.info.kind = .fpSignInject ∧ instr.operands =
            [.register result.destination, .register result.source, .register result.source]) := by
  unfold copy
  rw [Answer.bind_eq_known_iff]
  constructor
  · rintro ⟨known, classified, shape⟩
    obtain ⟨available, rfl⟩ := info_eq_known_iff.mp classified
    refine ⟨available, ?_⟩
    split at shape
    case h_1 destination source addend kind operands =>
      obtain ⟨rfl, found⟩ := Answer.ite_silent_eq_known_iff.mp shape
      cases found
      exact .inl ⟨kind, operands⟩
    case h_2 destination source sign kind operands =>
      obtain ⟨rfl, found⟩ := Answer.ite_silent_eq_known_iff.mp shape
      cases found
      exact .inr ⟨kind, operands⟩
    case h_3 => cases shape
  · rintro ⟨available, ⟨kind, operands⟩ | ⟨kind, operands⟩⟩
    all_goals
      refine ⟨instr.opcode.info, info_eq_known_iff.mpr ⟨available, rfl⟩, ?_⟩
      simp [kind, operands]

end Riscv

end RiscvFacts
