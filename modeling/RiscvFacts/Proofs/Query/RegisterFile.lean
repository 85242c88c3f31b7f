import RiscvFacts.Proofs.Instr.Check
import RiscvFacts.Proofs.Query.Shape
import RiscvFacts.Proofs.Query.StackSlot

/-!
# Register files in the answers

The table says in which file an opcode has its value, and only the check compares the
operands with it. The memory query looks at the file of the base register itself, but
the add-immediate query, the copy query and the stack-slot queries repeat registers of
any file. Their answers stay within the files of the opcode exactly when the
instruction does (`Riscv.respectsFiles_iff`): those about checked instructions do, and
one about an unchecked instruction may tell of a copy between files that no instruction
copies between.
-/

namespace RiscvFacts.Riscv

/-- Whether the registers in the answers about an instruction are of the files that its opcode
has: those of a copy, and the one that goes to or comes from a stack slot, of the file of its
value, and those of a sum of the integer file. -/
structure RespectsFiles (xlen : Xlen) (instr : Instr) : Prop where
  copies : ∀ result, copy xlen instr = .known result →
    result.destination.file = instr.opcode.info.valueFile ∧
      result.source.file = instr.opcode.info.valueFile
  sums : ∀ register sum, addImmediate xlen instr register = .known sum →
    register.file = .gpr ∧ sum.source.file = .gpr
  slots : ∀ access, loadSlot xlen instr = .known access ∨ storeSlot xlen instr = .known access →
    access.register.file = instr.opcode.info.valueFile

/-- Whether the copy query, the add-immediate query or a stack-slot query has an answer about an
instruction. -/
def IsAnswered (xlen : Xlen) (instr : Instr) : Prop :=
  (∃ result, copy xlen instr = .known result) ∨
    (∃ register sum, addImmediate xlen instr register = .known sum) ∨
    ∃ access, loadSlot xlen instr = .known access ∨ storeSlot xlen instr = .known access

/-- Whether all registers among the operands of an instruction are of the file of its value. -/
def HoldsOneFile (instr : Instr) : Prop :=
  ∀ register, .register register ∈ instr.operands → register.file = instr.opcode.info.valueFile

variable {xlen : Xlen} {instr : Instr}

/-- The slot access that either stack-slot query knows is at the operands. -/
theorem isSlotAccess_of_known {access : SlotAccess}
    (known : loadSlot xlen instr = .known access ∨ storeSlot xlen instr = .known access) :
    instr.IsSlotAccess access := by
  rcases known with known | known
  · exact (loadSlot_eq_known_iff.mp known).2.2
  · exact (storeSlot_eq_known_iff.mp known).2.2

section Answers

variable {register held : Register} {sum : AddImmediate} {result : RegisterCopy}
  {access : SlotAccess}

/-- The registers among the operands of a copy are its destination and its source. -/
theorem mem_operands_of_copy (known : copy xlen instr = .known result) :
    .register held ∈ instr.operands ↔ held = result.destination ∨ held = result.source := by
  obtain ⟨-, ⟨-, operands⟩ | ⟨-, operands⟩⟩ := copy_eq_known_iff.mp known <;> simp [operands]

/-- The registers among the operands of a sum are the one that was asked for and the source. -/
theorem mem_operands_of_addImmediate (known : addImmediate xlen instr register = .known sum) :
    .register held ∈ instr.operands ↔ held = register ∨ held = sum.source := by
  obtain ⟨-, -, operands⟩ := addImmediate_eq_known_iff.mp known
  simp [operands]

/-- The value of an addition of an immediate is an integer. -/
theorem valueFile_of_addImmediate (known : addImmediate xlen instr register = .known sum) :
    instr.opcode.info.valueFile = .gpr := by
  obtain ⟨-, kind, -⟩ := addImmediate_eq_known_iff.mp known
  rw [Opcode.kind_eq_addImm_iff.mp kind]
  rfl

/-- The only register among the operands of a slot access is the one that it loads or stores. -/
theorem mem_operands_of_slot
    (known : loadSlot xlen instr = .known access ∨ storeSlot xlen instr = .known access) :
    .register held ∈ instr.operands ↔ held = access.register := by
  simp [(isSlotAccess_of_known known).operands]

end Answers

/-- The answers about an instruction respect the files of its opcode, if its registers are all of
the file of its value when it has an answer. -/
theorem respectsFiles_of_holdsOneFile (oneFile : IsAnswered xlen instr → HoldsOneFile instr) :
    RespectsFiles xlen instr := by
  constructor
  case copies =>
    intro result known
    have answered : IsAnswered xlen instr := .inl ⟨result, known⟩
    exact ⟨oneFile answered _ ((mem_operands_of_copy known).mpr (.inl rfl)),
      oneFile answered _ ((mem_operands_of_copy known).mpr (.inr rfl))⟩
  case sums =>
    intro register sum known
    have answered : IsAnswered xlen instr := .inr (.inl ⟨register, sum, known⟩)
    rw [← valueFile_of_addImmediate known]
    exact ⟨oneFile answered _ ((mem_operands_of_addImmediate known).mpr (.inl rfl)),
      oneFile answered _ ((mem_operands_of_addImmediate known).mpr (.inr rfl))⟩
  case slots =>
    intro access known
    have answered : IsAnswered xlen instr := .inr (.inr ⟨access, known⟩)
    exact oneFile answered _ ((mem_operands_of_slot known).mpr rfl)

/-- Answers that respect the files of the opcode tell the file of every register among the
operands. -/
theorem RespectsFiles.holdsOneFile (respects : RespectsFiles xlen instr)
    (answered : IsAnswered xlen instr) : HoldsOneFile instr := by
  intro held listed
  rcases answered with ⟨result, known⟩ | ⟨register, sum, known⟩ | ⟨access, known⟩
  · obtain ⟨destination, source⟩ := respects.copies result known
    rcases (mem_operands_of_copy known).mp listed with rfl | rfl
    · exact destination
    · exact source
  · obtain ⟨destination, source⟩ := respects.sums register sum known
    rw [valueFile_of_addImmediate known]
    rcases (mem_operands_of_addImmediate known).mp listed with rfl | rfl
    · exact destination
    · exact source
  · obtain rfl := (mem_operands_of_slot known).mp listed
    exact respects.slots access known

/-- The answers about an instruction respect the files of its opcode exactly when its operands do,
if it has an answer at all: the queries pass on registers of any file. -/
theorem respectsFiles_iff (xlen : Xlen) (instr : Instr) :
    RespectsFiles xlen instr ↔ (IsAnswered xlen instr → HoldsOneFile instr) :=
  ⟨RespectsFiles.holdsOneFile, respectsFiles_of_holdsOneFile⟩

/-- Of an unchecked addition of zero to a vector register, with a floating-point register as its
destination, a copy and a sum are known, although the opcode has integer registers only. So is a
load of a word from a stack slot into a floating-point register. -/
theorem copy_between_files :
    let addition : Instr := ⟨.addi, [.register (.f 1), .register (.v 2), .immediate 0], []⟩
    let reload : Instr := ⟨.lw, [.register (.f 1), .stackSlot 0, .immediate 0], []⟩
    (copy .rv64 addition = .known ⟨.f 1, .v 2⟩ ∧
        addImmediate .rv64 addition (.f 1) = .known ⟨.v 2, 0⟩ ∧
        ¬ RespectsFiles .rv64 addition) ∧
      loadSlot .rv64 reload = .known ⟨.f 1, 0, 4⟩ ∧ ¬ RespectsFiles .rv64 reload := by
  intro addition reload
  have copied : copy .rv64 addition = .known ⟨.f 1, .v 2⟩ := rfl
  have loaded : loadSlot .rv64 reload = .known ⟨.f 1, 0, 4⟩ := rfl
  refine ⟨⟨copied, rfl, ?_⟩, loaded, ?_⟩
  · intro respects
    cases (respects.copies _ copied).1
  · intro respects
    cases respects.slots _ (.inl loaded)

/-- In the first two places of a checked sum or sign injection stand registers of the file of its
value. -/
theorem files_of_build (built : instr.build xlen = .ok instr)
    (kind : instr.opcode.info.kind = .addImm ∨ instr.opcode.info.kind = .fpSignInject)
    {destination source : Register} {last : Operand}
    (operands : instr.operands = [.register destination, .register source, last]) :
    destination.file = instr.opcode.info.valueFile ∧
      source.file = instr.opcode.info.valueFile := by
  have accepted := Instr.build_eq_ok_iff_accepts.mp built
  have slots : ∃ slot, instr.opcode.slots xlen =
      [.register instr.opcode.info.valueFile, .register instr.opcode.info.valueFile, slot] := by
    rw [Opcode.kind_eq_addImm_iff, Opcode.kind_eq_fpSignInject_iff] at kind
    rcases kind with opcode | opcode | opcode | opcode <;> rw [opcode] <;> exact ⟨_, rfl⟩
  obtain ⟨slot, slots⟩ := slots
  rw [slots, operands] at accepted
  cases accepted with
  | cons first others =>
      cases others with
      | cons second _ => exact ⟨first, second⟩

/-- In the first place of a checked instruction stands a register of the file of its value. -/
theorem valueFile_of_build (built : instr.build xlen = .ok instr) {held : Register}
    {rest : List Operand} (operands : instr.operands = .register held :: rest) :
    held.file = instr.opcode.info.valueFile := by
  have accepted := Instr.build_eq_ok_iff_accepts.mp built
  rw [operands, Opcode.slots] at accepted
  split at accepted <;> cases accepted <;> assumption

/-- The answers about checked instructions respect the files of their opcodes. -/
theorem respectsFiles_of_build (built : instr.build xlen = .ok instr) :
    RespectsFiles xlen instr := by
  constructor
  case copies =>
    intro result known
    obtain ⟨-, ⟨kind, operands⟩ | ⟨kind, operands⟩⟩ := copy_eq_known_iff.mp known
    · exact files_of_build built (.inl kind) operands
    · exact files_of_build built (.inr kind) operands
  case sums =>
    intro register sum known
    obtain ⟨-, kind, operands⟩ := addImmediate_eq_known_iff.mp known
    rw [← valueFile_of_addImmediate known]
    exact files_of_build built (.inl kind) operands
  case slots =>
    intro access known
    exact valueFile_of_build built (isSlotAccess_of_known known).operands

end RiscvFacts.Riscv
