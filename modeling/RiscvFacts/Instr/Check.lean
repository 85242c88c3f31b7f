import RiscvFacts.Instr.Basic

/-!
# Checked instructions

Each opcode gives every place of an operand a slot, which says what may stand there.
`Instr.fault?` compares an instruction with the slots of its opcode: first the number
of operands, then the operands from left to right. A fault is one reason why the
operands do not fit, and `Instr.build` keeps the instructions without one.
-/

namespace RiscvFacts

/-- Why an instruction is malformed. -/
inductive Fault where
  | operandCount (opcode : Opcode) (expected actual : Nat)
  | operandKind (opcode : Opcode) (index : Nat) (expected actual : OperandKind)
  | registerFile (opcode : Opcode) (index : Nat) (expected actual : RegisterFile)
  | immediateRange (opcode : Opcode) (value : Int64)
  deriving DecidableEq

/-- The wording of a fault. -/
def Fault.message : Fault → String
  | .operandCount opcode expected actual =>
      opcode.mnemonic ++ ": expected " ++ Numeral.natural expected ++ " operands, got " ++
        Numeral.natural actual
  | .operandKind opcode index expected actual =>
      opcode.mnemonic ++ ": operand " ++ Numeral.natural index ++ " must be a " ++
        expected.name ++ ", got " ++ actual.name
  | .registerFile opcode index expected actual =>
      opcode.mnemonic ++ ": operand " ++ Numeral.natural index ++ " must be a " ++
        expected.name ++ " register, got " ++ actual.name
  | .immediateRange opcode value =>
      opcode.mnemonic ++ ": immediate " ++ Numeral.decimal value.toInt ++ " out of range"

/-- What an operand place accepts. -/
inductive Slot where
  | register (file : RegisterFile)
  | immediate (range : ImmediateRange)
  | addressBase
  | addressOffset
  deriving DecidableEq

namespace Opcode

/-- The range of an opcode's immediate. A shift amount is less than the number of bits that
are shifted, which is the register width or, for the narrow shifts, 32. -/
def immediateRange (xlen : Xlen) : Opcode → ImmediateRange
  | .slli | .srli | .srai => .shift xlen.bits
  | .slliw | .srliw | .sraiw => .shift 32
  | .lui | .auipc => .upper20
  | _ => .signed12

/-- The slots of an opcode's operands, in assembly order. -/
def slots (xlen : Xlen) (opcode : Opcode) : List Slot :=
  let value := Slot.register opcode.info.valueFile
  match opcode.info.layout with
  | .regImm => [value, .immediate (opcode.immediateRange xlen)]
  | .regRegImm => [value, .register .gpr, .immediate (opcode.immediateRange xlen)]
  | .regRegReg => [value, value, value]
  | .valueBaseOffset => [value, .addressBase, .addressOffset]
  | .vectorUnitStride => [value, .register .gpr]
  | .vectorStrided => [value, .register .gpr, .register .gpr]
  | .vectorIndexed => [value, .register .gpr, .register .vr]

/-- An opcode has as many slots as its layout has operands. -/
@[simp] theorem length_slots (xlen : Xlen) (opcode : Opcode) :
    (opcode.slots xlen).length = opcode.info.layout.arity := by
  unfold slots
  cases opcode.info.layout <;> rfl

end Opcode

namespace Slot

/-- What is wrong with an operand where a register of a file is wanted. -/
def registerFault? (opcode : Opcode) (index : Nat) (file : RegisterFile) :
    Operand → Option Fault
  | .register held =>
      if held.file = file then none else some (.registerFile opcode index file held.file)
  | operand => some (.operandKind opcode index .register operand.kind)

/-- What is wrong with an operand where an immediate of a range is wanted. -/
def immediateFault? (opcode : Opcode) (index : Nat) (range : ImmediateRange) :
    Operand → Option Fault
  | .immediate value =>
      if range.contains value.toInt then none else some (.immediateRange opcode value)
  | operand => some (.operandKind opcode index .immediate operand.kind)

/-- What is wrong with an operand in a slot. A base address may also be a stack slot or a
symbol, and an offset may also be a symbol. -/
def fault? (opcode : Opcode) (index : Nat) : Slot → Operand → Option Fault
  | .register file, operand => registerFault? opcode index file operand
  | .immediate range, operand => immediateFault? opcode index range operand
  | .addressBase, .stackSlot _ => none
  | .addressBase, .symbol _ _ => none
  | .addressBase, operand => registerFault? opcode index .gpr operand
  | .addressOffset, .symbol _ _ => none
  | .addressOffset, operand => immediateFault? opcode index .signed12 operand

/-- The first fault of operands that stand in slots, counting places from `index`. -/
def firstFault? (opcode : Opcode) : Nat → List Slot → List Operand → Option Fault
  | index, slot :: slots, operand :: operands =>
      (slot.fault? opcode index operand).or (firstFault? opcode (index + 1) slots operands)
  | _, _, _ => none

end Slot

namespace Instr

/-- The first fault of an instruction: a wrong number of operands, or else the leftmost
operand that does not fit its slot. -/
def fault? (xlen : Xlen) (instr : Instr) : Option Fault :=
  let arity := instr.opcode.info.layout.arity
  if instr.operands.length ≠ arity then
    some (.operandCount instr.opcode arity instr.operands.length)
  else Slot.firstFault? instr.opcode 0 (instr.opcode.slots xlen) instr.operands

/-- The instruction itself, when it has no fault. -/
def build (xlen : Xlen) (instr : Instr) : Except Fault Instr :=
  match instr.fault? xlen with
  | some fault => .error fault
  | none => .ok instr

/-- Building yields the instruction itself, and does so exactly when it has no fault. -/
theorem build_eq_ok_iff {xlen : Xlen} {instr result : Instr} :
    instr.build xlen = .ok result ↔ instr.fault? xlen = none ∧ result = instr := by
  unfold build
  cases instr.fault? xlen <;> simp [eq_comm]

/-- Building fails with the first fault. -/
theorem build_eq_error_iff {xlen : Xlen} {instr : Instr} {fault : Fault} :
    instr.build xlen = .error fault ↔ instr.fault? xlen = some fault := by
  unfold build
  cases instr.fault? xlen <;> simp

end Instr

end RiscvFacts
