import RiscvFacts.Proofs.Query.StackSlot

/-!
# Recorded accesses and the queries

An instruction records the memory accesses that its producer knew of. The queries rest on
the opcode and the operands, so what is recorded changes none of their answers and no
verdict. It can only withhold an answer of the stack-slot queries: a recorded access
in the opposite direction does so, and nothing else does
(`Riscv.recorded_accesses_only_withhold`).
-/

namespace RiscvFacts

/-- Whether a target answers all queries but those about stack slots alike for two instructions,
and gives the same verdicts on them and any other instruction. -/
structure Target.AnswersAlike (target : Target) (first second : Instr) : Prop where
  addImmediate : ∀ register, target.addImmediate first register =
    target.addImmediate second register
  memoryAccess : target.memoryAccess first = target.memoryAccess second
  singleBaseAccess : target.singleBaseAccess first = target.singleBaseAccess second
  copy : target.copy first = target.copy second
  disjointBefore : ∀ other, target.disjoint first other = target.disjoint second other
  disjointAfter : ∀ other, target.disjoint other first = target.disjoint other second

/-- The recorded accesses that read are the loads and those that both read and write. -/
theorem AccessEffect.may_load_iff {effect : AccessEffect} :
    effect.may .load = true ↔ effect = .load ∨ effect = .loadStore := by
  cases effect <;> decide

/-- The recorded accesses that write are the stores and those that both read and write. -/
theorem AccessEffect.may_store_iff {effect : AccessEffect} :
    effect.may .store = true ↔ effect = .store ∨ effect = .loadStore := by
  cases effect <;> decide

/-- Whether no access that an instruction records goes in a direction. -/
def Instr.RecordsNone (instr : Instr) (direction : Direction) : Prop :=
  ∀ descriptor ∈ instr.descriptors, ¬ descriptor.effect.may direction = true

/-- A scalar load or store that records no access in the opposite direction goes in a direction
alone exactly when its opcode does. -/
theorem Instr.may_alone_eq {instr : Instr} {width : UInt64}
    (scalar : instr.opcode.info.memory = .scalar width) {direction : Direction}
    (unopposed : instr.RecordsNone direction.opposite) :
    (instr.may direction && !instr.may direction.opposite) = instr.opcode.info.may direction := by
  have noneOpposite :
      (instr.descriptors.any fun descriptor => descriptor.effect.may direction.opposite) = false :=
    List.any_eq_false.mpr unopposed
  rw [may_eq, may_eq, noneOpposite, Bool.or_false, Opcode.may_opposite_of_scalar scalar,
    Bool.not_not]
  -- Recorded accesses in the direction itself add nothing where the opcode goes in it.
  cases instr.opcode.info.may direction <;> simp

namespace Riscv

variable {xlen : Xlen} {first second : Instr}

/-- Instructions with the same opcode and the same operands have the same answers. -/
theorem answersAlike_of_eq (sameOpcode : first.opcode = second.opcode)
    (sameOperands : first.operands = second.operands) :
    (target xlen).AnswersAlike first second := by
  have sameInfo : info xlen first = info xlen second := by
    simp only [info, sameOpcode]
  have sameAccess : memoryAccess xlen first = memoryAccess xlen second := by
    simp only [memoryAccess, scalarAccess, sameInfo, sameOpcode, sameOperands]
  have sameSingle :
      (target xlen).singleBaseAccess first = (target xlen).singleBaseAccess second :=
    congrArg (Answer.andThen · MemoryAccess.single) sameAccess
  constructor
  case addImmediate =>
    intro register
    simp only [target, addImmediate, sameInfo, sameOpcode, sameOperands]
  case memoryAccess => exact sameAccess
  case singleBaseAccess => exact sameSingle
  case copy => simp only [target, copy, sameInfo, sameOperands]
  case disjointBefore => exact fun other => Target.disjoint_congr sameSingle rfl
  case disjointAfter => exact fun other => Target.disjoint_congr rfl sameSingle

variable {opcode : Opcode} {operands : List Operand} {descriptors : List Descriptor}
  {direction : Direction}

/-- An access in the opposite direction that is recorded withholds the slot access. -/
theorem slot_of_opposed {descriptor : Descriptor} (recorded : descriptor ∈ descriptors)
    (opposes : descriptor.effect.may direction.opposite = true) :
    (slot xlen ⟨opcode, operands, descriptors⟩ direction).value? = none := by
  rw [Answer.value?_eq_none_iff]
  intro access known
  obtain ⟨-, ⟨-, notOpposite⟩, -⟩ := slot_eq_known_iff.mp known
  rw [Instr.may_eq, Bool.or_eq_false_iff, List.any_eq_false] at notOpposite
  exact notOpposite.2 descriptor recorded opposes

/-- Where no access in the opposite direction is recorded, the slot access is as if nothing was
recorded. -/
theorem slot_of_unopposed
    (unopposed : Instr.RecordsNone ⟨opcode, operands, descriptors⟩ direction.opposite) :
    slot xlen ⟨opcode, operands, descriptors⟩ direction =
      slot xlen ⟨opcode, operands, []⟩ direction := by
  have nothingRecorded : Instr.RecordsNone ⟨opcode, operands, []⟩ direction.opposite :=
    List.forall_mem_nil _
  cases memory : opcode.info.memory with
  | scalar width =>
      rw [slot_eq, slot_eq, Instr.may_alone_eq memory unopposed,
        Instr.may_alone_eq memory nothingRecorded]
      rfl
  | none | vector width =>
      have unsized : opcode.info.scalarWidth? = none := by rw [OpcodeInfo.scalarWidth?, memory]
      rw [slot_of_unsized unsized, slot_of_unsized unsized]
      rfl

/-- The slot access of an instruction is withheld when an access in the opposite direction is
recorded, and otherwise does not depend on what is recorded. -/
theorem value?_slot (xlen : Xlen) (opcode : Opcode) (operands : List Operand)
    (descriptors : List Descriptor) (direction : Direction) :
    (slot xlen ⟨opcode, operands, descriptors⟩ direction).value? =
      if ∃ descriptor ∈ descriptors, descriptor.effect.may direction.opposite = true then none
      else (slot xlen ⟨opcode, operands, []⟩ direction).value? := by
  split
  case isTrue opposed =>
    obtain ⟨descriptor, recorded, opposes⟩ := opposed
    exact slot_of_opposed recorded opposes
  case isFalse unopposed =>
    have none : Instr.RecordsNone ⟨opcode, operands, descriptors⟩ direction.opposite :=
      fun descriptor recorded opposes => unopposed ⟨descriptor, recorded, opposes⟩
    rw [slot_of_unopposed none]

/-- What an instruction records changes no answer and no verdict, and can only withhold the answers
of the stack-slot queries. The load query has none when an access is recorded that writes, the store
query has none when one is recorded that reads, and otherwise each answers as if nothing was
recorded. -/
theorem recorded_accesses_only_withhold (xlen : Xlen) (opcode : Opcode) (operands : List Operand)
    (first second : List Descriptor) :
    (target xlen).AnswersAlike ⟨opcode, operands, first⟩ ⟨opcode, operands, second⟩ ∧
      (loadSlot xlen ⟨opcode, operands, first⟩).value? =
        (if ∃ descriptor ∈ first, descriptor.effect = .store ∨ descriptor.effect = .loadStore
          then none else (loadSlot xlen ⟨opcode, operands, []⟩).value?) ∧
      (storeSlot xlen ⟨opcode, operands, first⟩).value? =
        (if ∃ descriptor ∈ first, descriptor.effect = .load ∨ descriptor.effect = .loadStore
          then none else (storeSlot xlen ⟨opcode, operands, []⟩).value?) := by
  simp only [← AccessEffect.may_load_iff, ← AccessEffect.may_store_iff]
  exact ⟨answersAlike_of_eq rfl rfl, value?_slot xlen opcode operands first .load,
    value?_slot xlen opcode operands first .store⟩

end Riscv

end RiscvFacts
