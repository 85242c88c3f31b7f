import RiscvFacts.Proofs.Query.MemoryAccess

/-!
# The operands of a known access

The memory queries read the base and the offset of an access from their places among
the operands, after they have compared the number of operands with the layout of the
opcode. Seen from these places, an instruction whose access is known is a plain
access, and its access is what stands there: no operand list of another length and no
other form of operand yields an answer, and every plain access yields one
(`Riscv.memory_queries_know_plain_accesses`).
-/

namespace RiscvFacts

/-- Whether an instruction is a scalar load or store that a target has, with three operands of
which the second is an integer register and the third an immediate. -/
structure Instr.IsPlainAccess (xlen : Xlen) (instr : Instr) (base : Register) (offset : Int64) :
    Prop where
  available : instr.opcode.isAvailable xlen = true
  accesses : instr.opcode.info.kind = .load ∨ instr.opcode.info.kind = .store
  three : instr.operands.length = 3
  second : instr.operands[1]? = some (.register base)
  integer : base.file = .gpr
  third : instr.operands[2]? = some (.immediate offset)

/-- The plain accesses are the scalar accesses that a target has, seen from the places of their
operands. -/
theorem Instr.isPlainAccess_iff {xlen : Xlen} {instr : Instr} {base : Register} {offset : Int64} :
    instr.IsPlainAccess xlen base offset ↔
      instr.opcode.isAvailable xlen = true ∧ ∃ width, instr.IsScalarAccess base offset width := by
  constructor
  · rintro ⟨available, accesses, three, second, integer, third⟩
    obtain ⟨width, scalar⟩ := Opcode.exists_scalar_iff.mpr accesses
    obtain ⟨value, _, _, operands⟩ := List.length_eq_three.mp three
    rw [operands] at second third
    cases second
    cases third
    exact ⟨available, width, scalar, ⟨value, operands⟩, integer⟩
  · rintro ⟨available, width, scalar, ⟨value, operands⟩, integer⟩
    have accesses := Opcode.exists_scalar_iff.mp ⟨width, scalar⟩
    exact ⟨available, accesses, by rw [operands]; rfl, by rw [operands]; rfl, integer,
      by rw [operands]; rfl⟩

namespace Riscv

variable {xlen : Xlen} {instr : Instr}

/-- The access of an instruction is known for some base and offset of a plain access. -/
theorem exists_memoryAccess_iff_isPlainAccess :
    (∃ access, memoryAccess xlen instr = .known access) ↔
      ∃ base offset, instr.IsPlainAccess xlen base offset := by
  simp only [memoryAccess_eq_known_iff, Instr.isPlainAccess_iff]
  constructor
  · rintro ⟨_, available, base, offset, width, shape, -⟩
    exact ⟨base, offset, available, width, shape⟩
  · rintro ⟨base, offset, available, width, shape⟩
    exact ⟨_, available, base, offset, width, shape, rfl⟩

/-- The single-base query knows an access of the instructions of which the memory query knows one,
and of no others. -/
theorem exists_singleBaseAccess_iff :
    (∃ access, (target xlen).singleBaseAccess instr = .known access) ↔
      ∃ access, memoryAccess xlen instr = .known access := by
  constructor
  · rintro ⟨access, known⟩
    exact ⟨_, Target.singleBaseAccess_eq_known_iff_memoryAccess.mp known⟩
  · rintro ⟨access, known⟩
    obtain ⟨available, base, offset, width, shape, -⟩ := memoryAccess_eq_known_iff.mp known
    exact ⟨_, singleBaseAccess_eq_known_iff.mpr ⟨available, base, offset, width, shape, rfl⟩⟩

/-- The memory queries know the plain accesses and nothing else, whatever the operands of an
instruction are and however many it has. What they know is the base and the offset that stand among
the operands, and the width that the table gives to the opcode. -/
theorem memory_queries_know_plain_accesses (xlen : Xlen) (instr : Instr) :
    ((∃ access, memoryAccess xlen instr = .known access) ↔
        ∃ base offset, instr.IsPlainAccess xlen base offset) ∧
      ((∃ access, (target xlen).singleBaseAccess instr = .known access) ↔
        ∃ base offset, instr.IsPlainAccess xlen base offset) ∧
      ∀ base offset, instr.IsPlainAccess xlen base offset →
        ∃ width, instr.opcode.info.memory = .scalar width ∧ width ∈ [1, 2, 4, 8, 16] ∧
          memoryAccess xlen instr = .known ⟨[.register base], offset, false, width⟩ ∧
          (target xlen).singleBaseAccess instr =
            .known ⟨.register base, offset, false, width⟩ := by
  refine ⟨exists_memoryAccess_iff_isPlainAccess,
    exists_singleBaseAccess_iff.trans exists_memoryAccess_iff_isPlainAccess, ?_⟩
  intro base offset plain
  obtain ⟨available, width, shape⟩ := Instr.isPlainAccess_iff.mp plain
  have known : memoryAccess xlen instr = .known ⟨[.register base], offset, false, width⟩ :=
    memoryAccess_eq_known_iff.mpr ⟨available, base, offset, width, shape, rfl⟩
  have listed : width ∈ [1, 2, 4, 8, 16] := by
    obtain ⟨-, rfl | rfl | rfl | rfl | rfl⟩ := Opcode.layout_and_width_of_scalar shape.scalar <;>
      decide
  exact ⟨width, shape.scalar, listed, known,
    Target.singleBaseAccess_eq_known_iff_memoryAccess.mpr known⟩

/-- The access of `ld`, unchecked, at the least offset from a register that is still to be
allocated. -/
theorem memory_queries_know_least_offset :
    let instr : Instr :=
      ⟨.ld, [.other 7, .register (.virtual .gpr 5), .immediate Int64.minValue], []⟩
    instr.IsPlainAccess .rv64 (.virtual .gpr 5) Int64.minValue ∧
      memoryAccess .rv64 instr =
        .known ⟨[.register (.virtual .gpr 5)], Int64.minValue, false, 8⟩ := by
  intro instr
  have plain : instr.IsPlainAccess .rv64 (.virtual .gpr 5) Int64.minValue :=
    ⟨rfl, .inl rfl, rfl, rfl, rfl, rfl⟩
  obtain ⟨width, scalar, -, known, -⟩ :=
    (memory_queries_know_plain_accesses .rv64 instr).2.2 _ _ plain
  cases scalar
  exact ⟨plain, known⟩

end Riscv

end RiscvFacts
