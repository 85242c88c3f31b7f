import RiscvFacts.Proofs.Query.StackSlot

/-!
# Stack slots and the registers that replace them

Before the frame of a function is laid out, an instruction names a stack slot as its
base; afterwards a register stands in its place. The stack-slot queries answer about
the first form and the memory queries about the second. Their answers agree: a slot
access has the width of the access that it becomes, and an instruction whose access is
known afterwards is known as a load or a store of the slot before, unless it does both
(`Riscv.agreesAfterLowering_atSlot`).
-/

namespace RiscvFacts

namespace Instr

/-- The instruction with a value as its first operand and the start of a stack slot as its
address. -/
def atSlot (opcode : Opcode) (value : Register) (slot : Int32) (descriptors : List Descriptor) :
    Instr :=
  ⟨opcode, [.register value, .stackSlot slot, .immediate 0], descriptors⟩

/-- The instruction with a register in the place of its base. -/
def lower (instr : Instr) (base : Register) : Instr :=
  { instr with operands := instr.operands.set 1 (.register base) }

variable {opcode : Opcode} {value base : Register} {slot : Int32} {descriptors : List Descriptor}

/-- The slot access of an instruction at a stack slot has the width of its opcode. -/
theorem isSlotAccess_atSlot_iff {access : SlotAccess} :
    (atSlot opcode value slot descriptors).IsSlotAccess access ↔
      opcode.info.memory = .scalar access.width ∧ access.register = value ∧
        access.slot = slot := by
  constructor
  · rintro ⟨scalar, operands⟩
    cases operands
    exact ⟨scalar, rfl, rfl⟩
  · rintro ⟨scalar, rfl, rfl⟩
    exact ⟨scalar, rfl⟩

/-- The scalar access that an instruction at a stack slot becomes has the width of its opcode. -/
theorem isScalarAccess_lower_iff (integer : base.file = .gpr) {held : Register} {offset : Int64}
    {width : UInt64} :
    ((atSlot opcode value slot descriptors).lower base).IsScalarAccess held offset width ↔
      opcode.info.memory = .scalar width ∧ held = base ∧ offset = 0 := by
  constructor
  · rintro ⟨scalar, ⟨first, operands⟩, -⟩
    cases operands
    exact ⟨scalar, rfl, rfl⟩
  · rintro ⟨scalar, rfl, rfl⟩
    exact ⟨scalar, ⟨_, rfl⟩, integer⟩

/-- An address at a stack slot is no scalar access from a register. -/
theorem not_isScalarAccess_atSlot {held : Register} {offset : Int64} {width : UInt64} :
    ¬ (atSlot opcode value slot descriptors).IsScalarAccess held offset width := by
  rintro ⟨-, ⟨first, operands⟩, -⟩
  cases operands

end Instr

namespace Riscv

/-- What the queries say about an instruction at a stack slot, and how it agrees with what they say
when a register takes the place of the slot. Before, no memory access is known, and the instruction
is disjoint from none. A slot access has the value, the slot, and the width of the access that is
known afterwards. Where one is known afterwards, the load query answers before about an
instruction that loads and does not store, the store query about one that stores and does not load,
and neither about one that does both. They never answer together. -/
structure AgreesAfterLowering (xlen : Xlen) (instr : Instr) (value : Register) (slot : Int32)
    (base : Register) : Prop where
  noAccess : (memoryAccess xlen instr).value? = none
  notDisjoint : ∀ other, (target xlen).disjoint instr other = false ∧
    (target xlen).disjoint other instr = false
  sameAccess : ∀ access,
    loadSlot xlen instr = .known access ∨ storeSlot xlen instr = .known access →
      access.register = value ∧ access.slot = slot ∧
        memoryAccess xlen (instr.lower base) =
          .known ⟨[.register base], 0, false, access.width⟩
  loads : (memoryAccess xlen (instr.lower base)).value?.isSome = true →
    ((loadSlot xlen instr).value?.isSome = true ↔ instr.mayLoad = true ∧ instr.mayStore = false)
  stores : (memoryAccess xlen (instr.lower base)).value?.isSome = true →
    ((storeSlot xlen instr).value?.isSome = true ↔ instr.mayStore = true ∧ instr.mayLoad = false)
  exclusive : (loadSlot xlen instr).value? = none ∨ (storeSlot xlen instr).value? = none

section AtSlot

variable {xlen : Xlen} {opcode : Opcode} {value base : Register} {slot : Int32}
  {descriptors : List Descriptor}

/-- No memory access is known of an instruction at a stack slot. -/
theorem memoryAccess_atSlot :
    (memoryAccess xlen (.atSlot opcode value slot descriptors)).value? = none := by
  rw [Answer.value?_eq_none_iff]
  intro access known
  obtain ⟨-, held, offset, width, shape, -⟩ := memoryAccess_eq_known_iff.mp known
  exact Instr.not_isScalarAccess_atSlot shape

/-- The access that an instruction at a stack slot becomes is known for scalar opcodes that the
target has. -/
theorem memoryAccess_lower_eq_known_iff (integer : base.file = .gpr) {access : MemoryAccess} :
    memoryAccess xlen ((Instr.atSlot opcode value slot descriptors).lower base) = .known access ↔
      opcode.isAvailable xlen = true ∧ ∃ width, opcode.info.memory = .scalar width ∧
        access = ⟨[.register base], 0, false, width⟩ := by
  simp only [memoryAccess_eq_known_iff, Instr.isScalarAccess_lower_iff integer]
  constructor
  · rintro ⟨available, _, _, width, ⟨scalar, rfl, rfl⟩, same⟩
    exact ⟨available, width, scalar, same⟩
  · rintro ⟨available, width, scalar, same⟩
    exact ⟨available, base, 0, width, ⟨scalar, rfl, rfl⟩, same⟩

/-- A slot access has the value, the slot, and the width of the access that it becomes. -/
theorem memoryAccess_lower_of_slot (integer : base.file = .gpr) (direction : Direction)
    {access : SlotAccess}
    (known : Riscv.slot xlen (.atSlot opcode value slot descriptors) direction = .known access) :
    access.register = value ∧ access.slot = slot ∧
      memoryAccess xlen ((Instr.atSlot opcode value slot descriptors).lower base) =
        .known ⟨[.register base], 0, false, access.width⟩ := by
  obtain ⟨available, -, shape⟩ := slot_eq_known_iff.mp known
  obtain ⟨scalar, sameValue, sameSlot⟩ := Instr.isSlotAccess_atSlot_iff.mp shape
  exact ⟨sameValue, sameSlot,
    (memoryAccess_lower_eq_known_iff integer).mpr ⟨available, access.width, scalar, rfl⟩⟩

/-- An instruction whose access becomes known has a slot access in a direction, if it goes in this
direction and not in the opposite one. -/
theorem isSome_slot_iff (integer : base.file = .gpr) (direction : Direction)
    (known : (memoryAccess xlen
      ((Instr.atSlot opcode value slot descriptors).lower base)).value?.isSome = true) :
    (Riscv.slot xlen (.atSlot opcode value slot descriptors) direction).value?.isSome = true ↔
      (Instr.atSlot opcode value slot descriptors).may direction = true ∧
        (Instr.atSlot opcode value slot descriptors).may direction.opposite = false := by
  rw [Answer.isSome_value?_iff] at known ⊢
  obtain ⟨access, known⟩ := known
  obtain ⟨available, width, scalar, -⟩ := (memoryAccess_lower_eq_known_iff integer).mp known
  constructor
  · rintro ⟨found, known⟩
    exact (slot_eq_known_iff.mp known).2.1
  · intro only
    have shape : (Instr.atSlot opcode value slot descriptors).IsSlotAccess ⟨value, slot, width⟩ :=
      Instr.isSlotAccess_atSlot_iff.mpr ⟨scalar, rfl, rfl⟩
    exact ⟨_, slot_eq_known_iff.mpr ⟨available, only, shape⟩⟩

end AtSlot

/-- The stack-slot queries and the memory queries agree about an instruction, whatever its opcode
and its recorded accesses are, before and after an integer register replaces its stack slot. -/
theorem agreesAfterLowering_atSlot (xlen : Xlen) (opcode : Opcode)
    (descriptors : List Descriptor) (value : Register) (slot : Int32) (base : Register)
    (integer : base.file = .gpr) :
    AgreesAfterLowering xlen (.atSlot opcode value slot descriptors) value slot base := by
  constructor
  case noAccess => exact memoryAccess_atSlot
  case notDisjoint =>
    intro other
    have unknown : ((target xlen).singleBaseAccess
        (.atSlot opcode value slot descriptors)).value? = none :=
      Target.singleBaseAccess_unknown memoryAccess_atSlot
    exact ⟨Target.disjoint_eq_false_of_unknown (.inl unknown),
      Target.disjoint_eq_false_of_unknown (.inr unknown)⟩
  case sameAccess =>
    rintro access (known | known)
    · exact memoryAccess_lower_of_slot integer .load known
    · exact memoryAccess_lower_of_slot integer .store known
  case loads => exact isSome_slot_iff integer .load
  case stores => exact isSome_slot_iff integer .store
  case exclusive => exact slot_exclusive xlen _

/-- A spill of `s1` to a stack slot is known as a store of the slot, and as an access of the same
eight bytes once the stack pointer takes the place of the slot. -/
theorem agreesAfterLowering_spill :
    let spill := Instr.atSlot .sd (.x 9) 3 [.store 8]
    (Register.x 2).file = .gpr ∧ AgreesAfterLowering .rv64 spill (.x 9) 3 (.x 2) ∧
      storeSlot .rv64 spill = .known ⟨.x 9, 3, 8⟩ ∧
      memoryAccess .rv64 (spill.lower (.x 2)) = .known ⟨[.register (.x 2)], 0, false, 8⟩ := by
  intro spill
  have agrees := agreesAfterLowering_atSlot .rv64 .sd [.store 8] (.x 9) 3 (.x 2) rfl
  have stored : storeSlot .rv64 spill = .known ⟨.x 9, 3, 8⟩ := rfl
  exact ⟨rfl, agrees, stored, (agrees.sameAccess _ (.inr stored)).2.2⟩

end Riscv

end RiscvFacts
