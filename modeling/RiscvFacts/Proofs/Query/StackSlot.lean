import RiscvFacts.Proofs.Query.MemoryAccess

/-!
# The stack-slot queries

The two stack-slot queries are one query in two directions. It knows the access of an
available scalar load or store at the start of a stack slot, if the instruction goes in
the direction and not in the opposite one (`Riscv.slot_eq_known_iff`). Which directions
an instruction goes in is a matter of its opcode and of the accesses that it records.
-/

namespace RiscvFacts

/-- The direction that a load or a store does not go in. -/
def Direction.opposite : Direction → Direction
  | .load => .store
  | .store => .load

/-- Whether a recorded access goes in a direction. One that reads and writes goes in both. -/
def AccessEffect.may (effect : AccessEffect) : Direction → Bool
  | .load => effect.isLoad
  | .store => effect.isStore

/-- Whether opcodes of a classification go in a direction. -/
def OpcodeInfo.may (info : OpcodeInfo) : Direction → Bool
  | .load => info.mayLoad
  | .store => info.mayStore

/-- A scalar load or store goes in exactly one direction by its opcode. -/
theorem Opcode.may_opposite_of_scalar {opcode : Opcode} {width : UInt64}
    (scalar : opcode.info.memory = .scalar width) (direction : Direction) :
    opcode.info.may direction.opposite = !opcode.info.may direction := by
  rcases Opcode.exists_scalar_iff.mp ⟨width, scalar⟩ with kind | kind <;> cases direction <;>
    simp [OpcodeInfo.may, OpcodeInfo.mayLoad, OpcodeInfo.mayStore, Direction.opposite, kind]

namespace Instr

variable {instr : Instr}

/-- Whether an instruction goes in a direction. -/
def may (instr : Instr) : Direction → Bool
  | .load => instr.mayLoad
  | .store => instr.mayStore

/-- An instruction goes in the directions of its opcode and of its recorded accesses. -/
theorem may_eq (instr : Instr) (direction : Direction) :
    instr.may direction = (instr.opcode.info.may direction ||
      instr.descriptors.any fun descriptor => descriptor.effect.may direction) := by
  cases direction <;> rfl

/-- Whether an instruction is a scalar load or store at the start of a stack slot. -/
structure IsSlotAccess (instr : Instr) (access : SlotAccess) : Prop where
  scalar : instr.opcode.info.memory = .scalar access.width
  operands : instr.operands =
    [.register access.register, .stackSlot access.slot, .immediate 0]

end Instr

namespace Riscv

variable {xlen : Xlen} {instr : Instr} {direction : Direction} {access : SlotAccess}

/-- The stack-slot query of a direction. -/
def slot (xlen : Xlen) (instr : Instr) : Direction → Answer SlotAccess
  | .load => loadSlot xlen instr
  | .store => storeSlot xlen instr

/-- In both directions the stack-slot query is asked of an instruction that goes in the direction
and not in the opposite one. -/
theorem slot_eq (xlen : Xlen) (instr : Instr) (direction : Direction) :
    slot xlen instr direction = info xlen instr >>= fun info =>
      if instr.may direction && !instr.may direction.opposite then slotAccess instr info
      else .silent := by
  cases direction <;> rfl

/-- The slot access at the operands is known when they are a register, a stack slot and zero. -/
theorem slotAccess_eq_known_iff :
    slotAccess instr instr.opcode.info = .known access ↔ instr.IsSlotAccess access := by
  unfold slotAccess OpcodeInfo.scalarWidth?
  constructor
  · intro known
    split at known
    case h_1 width register slot offset wide operands =>
      obtain ⟨rfl, found⟩ := Answer.ite_silent_eq_known_iff.mp known
      cases found
      split at wide
      case h_1 width scalar =>
        cases wide
        exact ⟨scalar, operands⟩
      all_goals cases wide
    case h_2 => cases known
  · rintro ⟨scalar, operands⟩
    simp [scalar, operands]

/-- The stack-slot query of a direction knows the accesses at stack slots of available
instructions that go in the direction and not in the opposite one. -/
theorem slot_eq_known_iff :
    slot xlen instr direction = .known access ↔
      instr.opcode.isAvailable xlen = true ∧
        (instr.may direction = true ∧ instr.may direction.opposite = false) ∧
          instr.IsSlotAccess access := by
  rw [slot_eq, Answer.bind_eq_known_iff]
  simp only [info_eq_known_iff, Answer.ite_silent_eq_known_iff, Bool.and_eq_true,
    Bool.not_eq_true']
  constructor
  · rintro ⟨_, ⟨available, rfl⟩, only, known⟩
    exact ⟨available, only, slotAccess_eq_known_iff.mp known⟩
  · rintro ⟨available, only, shape⟩
    exact ⟨_, ⟨available, rfl⟩, only, slotAccess_eq_known_iff.mpr shape⟩

/-- About an opcode without a fixed width a stack-slot query says nothing but that the target lacks
the opcode, if it does. -/
theorem slot_of_unsized (unsized : instr.opcode.info.scalarWidth? = none) (direction : Direction) :
    slot xlen instr direction = info xlen instr >>= fun _ => .silent := by
  rw [slot_eq]
  by_cases available : instr.opcode.isAvailable xlen = true
  · simp [info_eq_known_iff.mpr ⟨available, rfl⟩, slotAccess, unsized]
  · rw [info, if_neg available]
    rfl

/-- The load query knows the accesses of instructions that load and do not store. -/
theorem loadSlot_eq_known_iff :
    loadSlot xlen instr = .known access ↔
      instr.opcode.isAvailable xlen = true ∧
        (instr.mayLoad = true ∧ instr.mayStore = false) ∧ instr.IsSlotAccess access :=
  @slot_eq_known_iff xlen instr .load access

/-- The store query knows the accesses of instructions that store and do not load. -/
theorem storeSlot_eq_known_iff :
    storeSlot xlen instr = .known access ↔
      instr.opcode.isAvailable xlen = true ∧
        (instr.mayStore = true ∧ instr.mayLoad = false) ∧ instr.IsSlotAccess access :=
  @slot_eq_known_iff xlen instr .store access

/-- A slot access is known in one direction at most. -/
theorem slot_exclusive (xlen : Xlen) (instr : Instr) :
    (loadSlot xlen instr).value? = none ∨ (storeSlot xlen instr).value? = none := by
  by_cases loads : instr.mayLoad = true
  · right
    rw [Answer.value?_eq_none_iff]
    intro access known
    obtain ⟨-, ⟨-, noLoad⟩, -⟩ := storeSlot_eq_known_iff.mp known
    exact absurd loads (Bool.eq_false_iff.mp noLoad)
  · left
    rw [Answer.value?_eq_none_iff]
    intro access known
    exact loads (loadSlot_eq_known_iff.mp known).2.1.1

/-- An access at a stack slot needs an operand that is one. -/
theorem slotAccess_eq_silent (info : OpcodeInfo)
    (noSlot : ∀ slot, .stackSlot slot ∉ instr.operands) : slotAccess instr info = .silent := by
  unfold slotAccess
  split
  case h_1 width register slot offset scalar operands =>
    exact absurd (by simp [operands]) (noSlot slot)
  case h_2 => rfl

/-- Without a stack slot among the operands of an available opcode, no stack slot is accessed. -/
theorem slot_eq_silent (available : instr.opcode.isAvailable xlen = true)
    (noSlot : ∀ slot, .stackSlot slot ∉ instr.operands) (direction : Direction) :
    slot xlen instr direction = .silent := by
  rw [slot_eq, info_eq_known_iff.mpr ⟨available, rfl⟩, Answer.known_bind,
    slotAccess_eq_silent _ noSlot, ite_self]

/-- Without a stack slot among the operands of an available opcode, no stack slot is loaded. -/
theorem loadSlot_eq_silent (available : instr.opcode.isAvailable xlen = true)
    (noSlot : ∀ slot, .stackSlot slot ∉ instr.operands) : loadSlot xlen instr = .silent :=
  slot_eq_silent available noSlot .load

/-- Without a stack slot among the operands of an available opcode, no stack slot is stored. -/
theorem storeSlot_eq_silent (available : instr.opcode.isAvailable xlen = true)
    (noSlot : ∀ slot, .stackSlot slot ∉ instr.operands) : storeSlot xlen instr = .silent :=
  slot_eq_silent available noSlot .store

end Riscv

end RiscvFacts
