import RiscvFacts.Proofs.Query.Shape

/-!
# Sums, copies and the defined register

Three functions name the register that an instruction leaves its result in: the
add-immediate query compares a given register with it, the copy query has it as the
destination, and `Instr.defined?` reads it off the operands. They consult the table in
different ways, and still agree on every list of operands
(`Riscv.agreesOnDefinition`). No opcode but `addi` and the sign injections has an
answer, although others take the same operands.
-/

namespace RiscvFacts

namespace Opcode

variable {opcode : Opcode}

/-- An addition of an immediate and a sign injection exist on every target, and leave their result
in operand 0. -/
theorem available_and_defining
    (kind : opcode.info.kind = .addImm ∨ opcode.info.kind = .fpSignInject) (xlen : Xlen) :
    opcode.isAvailable xlen = true ∧ opcode.info.definesOperand0 = true := by
  rw [kind_eq_addImm_iff, kind_eq_fpSignInject_iff] at kind
  rcases kind with rfl | rfl | rfl | rfl <;> exact ⟨rfl, rfl⟩

end Opcode

/-- The register that stands first is the defined one, when the opcode writes operand 0. -/
theorem Instr.defined?_of_operands {instr : Instr} {register : Register} {rest : List Operand}
    (writes : instr.opcode.info.definesOperand0 = true)
    (operands : instr.operands = .register register :: rest) :
    instr.defined? = some register := by
  rw [Instr.defined?, if_pos writes]
  exact Operand.head?_bind_register?_eq_some_iff.mpr ⟨rest, operands⟩

namespace Riscv

/-- How the add-immediate query, the copy query and the defined register of an instruction belong
together. The sums are those of `addi` with a destination, a source and an immediate, so one
register at most has a sum, and it is the defined one. The copies are the sums with zero and the
sign injections with the same register as both sources, and their destination is the defined
register. -/
structure AgreesOnDefinition (xlen : Xlen) (instr : Instr) : Prop where
  sums : ∀ register source addend,
    addImmediate xlen instr register = .known ⟨source, addend⟩ ↔
      instr.opcode = .addi ∧
        instr.operands = [.register register, .register source, .immediate addend]
  sumDefined : ∀ register sum, addImmediate xlen instr register = .known sum →
    instr.defined? = some register
  single : ∀ first second, (addImmediate xlen instr first).value?.isSome = true →
    (addImmediate xlen instr second).value?.isSome = true → first = second
  copies : ∀ destination source,
    copy xlen instr = .known ⟨destination, source⟩ ↔
      addImmediate xlen instr destination = .known ⟨source, 0⟩ ∨
        instr.opcode.IsSignInjection ∧
          instr.operands = [.register destination, .register source, .register source]
  copyDefined : ∀ result, copy xlen instr = .known result →
    instr.defined? = some result.destination

variable {xlen : Xlen} {instr : Instr}

/-- The add-immediate query knows the sums of `addi`, on every target. -/
theorem addImmediate_eq_known_iff_addi {register : Register} {sum : AddImmediate} :
    addImmediate xlen instr register = .known sum ↔
      instr.opcode = .addi ∧
        instr.operands = [.register register, .register sum.source, .immediate sum.addend] := by
  rw [addImmediate_eq_known_iff, ← Opcode.kind_eq_addImm_iff]
  constructor
  · rintro ⟨-, kind, operands⟩
    exact ⟨kind, operands⟩
  · rintro ⟨kind, operands⟩
    exact ⟨(Opcode.available_and_defining (.inl kind) xlen).1, kind, operands⟩

/-- The copy query knows the sums with zero and the sign injections from one source. -/
theorem copy_eq_known_iff_addImmediate {result : RegisterCopy} :
    copy xlen instr = .known result ↔
      addImmediate xlen instr result.destination = .known ⟨result.source, 0⟩ ∨
        instr.opcode.IsSignInjection ∧ instr.operands =
          [.register result.destination, .register result.source, .register result.source] := by
  rw [copy_eq_known_iff, addImmediate_eq_known_iff, ← Opcode.kind_eq_fpSignInject_iff]
  constructor
  · rintro ⟨available, sum | injection⟩
    · exact .inl ⟨available, sum⟩
    · exact .inr injection
  · rintro (⟨available, sum⟩ | injection)
    · exact ⟨available, .inl sum⟩
    · exact ⟨(Opcode.available_and_defining (.inr injection.1) xlen).1, .inr injection⟩

/-- A register that has a sum is the defined one. -/
theorem defined?_of_addImmediate {register : Register} {sum : AddImmediate}
    (known : addImmediate xlen instr register = .known sum) : instr.defined? = some register := by
  obtain ⟨-, kind, operands⟩ := addImmediate_eq_known_iff.mp known
  exact Instr.defined?_of_operands (Opcode.available_and_defining (.inl kind) xlen).2 operands

/-- The destination of a copy is the defined register. -/
theorem defined?_of_copy {result : RegisterCopy} (known : copy xlen instr = .known result) :
    instr.defined? = some result.destination := by
  rcases copy_eq_known_iff_addImmediate.mp known with sum | ⟨injects, operands⟩
  · exact defined?_of_addImmediate sum
  · have kind := Opcode.kind_eq_fpSignInject_iff.mpr injects
    exact Instr.defined?_of_operands (Opcode.available_and_defining (.inr kind) xlen).2 operands

/-- The add-immediate query, the copy query and the defined register agree on every instruction,
whatever its opcode and its operands are and however many operands it has. -/
theorem agreesOnDefinition (xlen : Xlen) (instr : Instr) : AgreesOnDefinition xlen instr := by
  constructor
  case sums => exact fun register source addend => addImmediate_eq_known_iff_addi
  case sumDefined => exact fun register sum => defined?_of_addImmediate
  case single =>
    intro first second firstKnown secondKnown
    obtain ⟨_, firstKnown⟩ := Answer.isSome_value?_iff.mp firstKnown
    obtain ⟨_, secondKnown⟩ := Answer.isSome_value?_iff.mp secondKnown
    exact Option.some.inj
      ((defined?_of_addImmediate firstKnown).symm.trans (defined?_of_addImmediate secondKnown))
  case copies => exact fun destination source => copy_eq_known_iff_addImmediate
  case copyDefined => exact fun result => defined?_of_copy

end Riscv

end RiscvFacts
