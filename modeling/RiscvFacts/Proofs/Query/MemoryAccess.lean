import Mathlib.Data.List.Basic
import RiscvFacts.Proofs.Query.Disjoint
import RiscvFacts.Query.Riscv

/-!
# The memory query of RISC-V

The memory query knows the access of exactly the available scalar loads and
stores whose operands are a value, an integer register and an immediate
(`memoryAccess_eq_known_iff`). Its answer always has a single base, so the
single-base query knows the same.
-/

namespace RiscvFacts

/-- Only loads and stores of a value at a base and an offset access memory with a fixed width,
which is a power of two. -/
theorem Opcode.layout_and_width_of_scalar {opcode : Opcode} {width : UInt64}
    (scalar : opcode.info.memory = .scalar width) :
    opcode.info.layout = .valueBaseOffset ∧
      (width = 1 ∨ width = 2 ∨ width = 4 ∨ width = 8 ∨ width = 16) := by
  cases opcode with
  | vector direction addressing width => cases scalar
  | _ => cases scalar <;> decide

/-- The scalar loads and stores are the opcodes that access memory with a fixed width. -/
theorem Opcode.exists_scalar_iff {opcode : Opcode} :
    (∃ width, opcode.info.memory = .scalar width) ↔
      opcode.info.kind = .load ∨ opcode.info.kind = .store := by
  cases opcode with
  | vector direction addressing width => cases direction <;> simp [info, OpcodeInfo.vector]
  | _ =>
      simp [info, OpcodeInfo.upper, OpcodeInfo.arithmetic, OpcodeInfo.load, OpcodeInfo.store,
        OpcodeInfo.signInject, OpcodeInfo.wide]

/-- A fixed width is between 1 and 16 bytes. -/
theorem Opcode.width_bounds {opcode : Opcode} {width : UInt64}
    (scalar : opcode.info.memory = .scalar width) : 1 ≤ width.toNat ∧ width.toNat ≤ 16 := by
  obtain ⟨-, rfl | rfl | rfl | rfl | rfl⟩ := layout_and_width_of_scalar scalar <;> decide

/-- Whether an instruction is a scalar load or store of `width` bytes at the sum of an integer
register and an immediate. -/
structure Instr.IsScalarAccess (instr : Instr) (base : Register) (offset : Int64)
    (width : UInt64) : Prop where
  scalar : instr.opcode.info.memory = .scalar width
  operands : ∃ value, instr.operands = [value, .register base, .immediate offset]
  integer : base.file = .gpr

namespace Riscv

variable {xlen : Xlen} {instr : Instr} {width : UInt64}

/-- The classification is known on the targets that have the opcode. -/
theorem info_eq_known_iff {known : OpcodeInfo} :
    info xlen instr = .known known ↔
      instr.opcode.isAvailable xlen = true ∧ instr.opcode.info = known := by
  unfold info
  rw [Answer.ite_declined_eq_known_iff, Answer.known.injEq]

/-- The access at the operands is known when they are a value, an integer register and an
immediate. -/
theorem scalarAccess_eq_known_iff {access : MemoryAccess} :
    scalarAccess instr .valueBaseOffset width = .known access ↔
      ∃ value base offset, instr.operands = [value, .register base, .immediate offset] ∧
        base.file = .gpr ∧ ⟨[.register base], offset, false, width⟩ = access := by
  simp only [scalarAccess, Layout.baseIndex?, Layout.offsetIndex?, Layout.arity]
  constructor
  · intro known
    obtain ⟨count, known⟩ := Answer.ite_declined_eq_known_iff.mp known
    obtain ⟨value, base, offset, operands⟩ := List.length_eq_three.mp count
    simp only [operands, List.getElem?_cons_succ, List.getElem?_cons_zero] at known
    obtain ⟨integer, known⟩ := Answer.ite_declined_eq_known_iff.mp known
    cases base with
    | register held =>
        cases offset with
        | immediate offset =>
            cases known
            exact ⟨value, held, offset, operands, Option.some.inj integer, rfl⟩
        | _ => cases known
    | _ => cases integer
  · rintro ⟨value, base, offset, operands, integer, rfl⟩
    simp [operands, Operand.register?, Operand.immediate?, integer]

/-- The memory query knows the accesses of available scalar loads and stores, and only those. -/
theorem memoryAccess_eq_known_iff {access : MemoryAccess} :
    memoryAccess xlen instr = .known access ↔
      instr.opcode.isAvailable xlen = true ∧
        ∃ base offset width, instr.IsScalarAccess base offset width ∧
          access = ⟨[.register base], offset, false, width⟩ := by
  unfold memoryAccess
  rw [Answer.bind_eq_known_iff]
  constructor
  · rintro ⟨info, classified, known⟩
    obtain ⟨available, rfl⟩ := info_eq_known_iff.mp classified
    refine ⟨available, ?_⟩
    split at known
    case h_1 width scalar =>
      rw [(Opcode.layout_and_width_of_scalar scalar).1] at known
      obtain ⟨value, base, offset, operands, integer, rfl⟩ := scalarAccess_eq_known_iff.mp known
      exact ⟨base, offset, width, ⟨scalar, ⟨value, operands⟩, integer⟩, rfl⟩
    all_goals cases known
  · rintro ⟨available, base, offset, width, ⟨scalar, ⟨value, operands⟩, integer⟩, rfl⟩
    refine ⟨instr.opcode.info, info_eq_known_iff.mpr ⟨available, rfl⟩, ?_⟩
    simp only [scalar, (Opcode.layout_and_width_of_scalar scalar).1]
    exact scalarAccess_eq_known_iff.mpr ⟨value, base, offset, operands, integer, rfl⟩

/-- The single-base query knows the same accesses. -/
theorem singleBaseAccess_eq_known_iff {access : SingleBaseAccess} :
    (target xlen).singleBaseAccess instr = .known access ↔
      instr.opcode.isAvailable xlen = true ∧
        ∃ base offset width, instr.IsScalarAccess base offset width ∧
          access = ⟨.register base, offset, false, width⟩ := by
  obtain ⟨operand, offset, scalable, width⟩ := access
  rw [Target.singleBaseAccess_eq_known_iff_memoryAccess]
  exact memoryAccess_eq_known_iff.trans (by simp)

end Riscv

end RiscvFacts
