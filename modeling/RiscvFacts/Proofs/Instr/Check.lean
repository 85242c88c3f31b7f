import Mathlib.Data.List.Forall2
import RiscvFacts.Instr.Check

/-!
# What the check accepts

A slot accepts some operands and names a fault of all others. An instruction
passes the check exactly when it has as many operands as its opcode has slots and
every slot accepts the operand in its place (`fault?_eq_none_iff`).
-/

namespace RiscvFacts

namespace Slot

/-- Whether an operand may stand in a slot. -/
def Accepts : Slot → Operand → Prop
  | .register file, .register held => held.file = file
  | .immediate range, .immediate value => range.contains value.toInt = true
  | .addressBase, .register held => held.file = .gpr
  | .addressBase, .stackSlot _ | .addressBase, .symbol _ _ => True
  | .addressOffset, .immediate value => ImmediateRange.signed12.contains value.toInt = true
  | .addressOffset, .symbol _ _ => True
  | _, _ => False

variable {opcode : Opcode} {index : Nat} {slot : Slot} {operand : Operand}

/-- An operand is without fault exactly where its slot accepts it. -/
theorem slotFault?_eq_none_iff :
    slot.fault? opcode index operand = none ↔ slot.Accepts operand := by
  cases slot <;> cases operand <;> simp [fault?, registerFault?, immediateFault?, Accepts]

/-- Operands in as many slots are without fault exactly when every slot accepts its operand. -/
theorem firstFault?_eq_none_iff {slots : List Slot} {operands : List Operand}
    (sameLength : slots.length = operands.length) :
    firstFault? opcode index slots operands = none ↔ List.Forall₂ Accepts slots operands := by
  induction slots generalizing index operands with
  | nil =>
      have none : operands = [] := List.eq_nil_of_length_eq_zero sameLength.symm
      simp [none, firstFault?]
  | cons slot slots inductionHypothesis =>
      cases operands with
      | nil => simp at sameLength
      | cons operand operands =>
          have sameRest : slots.length = operands.length := Nat.succ.inj sameLength
          rw [firstFault?, Option.or_eq_none_iff, slotFault?_eq_none_iff,
            inductionHypothesis sameRest, List.forall₂_cons]

end Slot

namespace Instr

variable {xlen : Xlen} {instr : Instr}

/-- An instruction is without fault exactly when its slots accept its operands, one each. -/
theorem fault?_eq_none_iff :
    instr.fault? xlen = none ↔
      List.Forall₂ Slot.Accepts (instr.opcode.slots xlen) instr.operands := by
  unfold fault?
  by_cases count : instr.operands.length = instr.opcode.info.layout.arity
  · have sameLength : (instr.opcode.slots xlen).length = instr.operands.length := by
      rw [Opcode.length_slots, count]
    simp only [ne_eq, count, not_true_eq_false, if_false]
    exact Slot.firstFault?_eq_none_iff sameLength
  · simp only [ne_eq, count, not_false_eq_true, if_true, reduceCtorEq, false_iff]
    intro accepted
    exact count (by rw [← accepted.length_eq, Opcode.length_slots])

/-- An instruction can be built exactly when its slots accept its operands. -/
theorem build_eq_ok_iff_accepts :
    instr.build xlen = .ok instr ↔
      List.Forall₂ Slot.Accepts (instr.opcode.slots xlen) instr.operands := by
  rw [build_eq_ok_iff, fault?_eq_none_iff, and_iff_left rfl]

end Instr

end RiscvFacts
