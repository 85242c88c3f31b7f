import RiscvFacts.Proofs.Instr.Check

/-!
# Operands of the machine

A word has room for the number of an architectural register and for an immediate,
but for no register that awaits allocation, no stack slot and no symbol. A place
admits what a word can hold there. Slots ask more and less than that: they accept
operands that a word cannot hold, and admit the rest (`forall₂_admits_iff`).
-/

namespace RiscvFacts

/-- Whether a register is one of the 32 physical registers of its file. -/
def Register.IsArchitectural : Register → Prop
  | .physical _ index => index.toNat ≤ 31
  | .virtual _ _ => False

/-- Whether an operand exists on the machine: it is no stack slot and no symbol, and its
register, if it holds one, is an architectural one. -/
def Operand.IsMachine : Operand → Prop
  | .register held => held.IsArchitectural
  | .stackSlot _ | .symbol _ _ => False
  | .immediate _ | .other _ => True

/-- What a word can hold for an operand. -/
inductive Place where
  | register (file : RegisterFile)
  | immediate (range : ImmediateRange)
  deriving DecidableEq

/-- The operands that a place has room for. -/
def Place.Admits : Place → Operand → Prop
  | .register file, operand =>
      ∃ index : UInt8, index.toNat ≤ 31 ∧ operand = .register (.physical file index)
  | .immediate range, operand =>
      ∃ value : Int64, range.contains value.toInt = true ∧ operand = .immediate value

namespace Place

variable {first second third : Place} {operands : List Operand}

/-- Two places admit two operands. -/
theorem forall₂_pair_iff :
    List.Forall₂ Admits [first, second] operands ↔
      ∃ left right, operands = [left, right] ∧ first.Admits left ∧ second.Admits right := by
  constructor
  · intro admitted
    obtain _ | ⟨left, _ | ⟨right, ⟨⟩⟩⟩ := admitted
    exact ⟨_, _, rfl, left, right⟩
  · rintro ⟨_, _, rfl, left, right⟩
    exact .cons left (.cons right .nil)

/-- Three places admit three operands. -/
theorem forall₂_triple_iff :
    List.Forall₂ Admits [first, second, third] operands ↔
      ∃ left middle right, operands = [left, middle, right] ∧
        first.Admits left ∧ second.Admits middle ∧ third.Admits right := by
  constructor
  · intro admitted
    obtain _ | ⟨left, _ | ⟨middle, _ | ⟨right, ⟨⟩⟩⟩⟩ := admitted
    exact ⟨_, _, _, rfl, left, middle, right⟩
  · rintro ⟨_, _, _, rfl, left, middle, right⟩
    exact .cons left (.cons middle (.cons right .nil))

end Place

namespace Slot

/-- What a word holds for an operand in a slot. -/
def place : Slot → Place
  | .register file => .register file
  | .immediate range => .immediate range
  | .addressBase => .register .gpr
  | .addressOffset => .immediate .signed12

/-- A word has room for exactly the accepted operands that exist on the machine. -/
theorem admits_place_iff {slot : Slot} {operand : Operand} :
    slot.place.Admits operand ↔ slot.Accepts operand ∧ operand.IsMachine := by
  cases operand with
  | register held =>
      cases held with
      | physical file index =>
          cases slot <;>
            simp [place, Place.Admits, Accepts, Operand.IsMachine, Register.IsArchitectural,
              Register.file, and_comm]
      | virtual file id =>
          cases slot <;>
            simp [place, Place.Admits, Accepts, Operand.IsMachine, Register.IsArchitectural]
  | _ => cases slot <;> simp [place, Place.Admits, Accepts, Operand.IsMachine]

/-- Places admit operands exactly when the slots accept them and they exist on the machine. -/
theorem forall₂_admits_iff {slots : List Slot} {operands : List Operand} :
    List.Forall₂ Place.Admits (slots.map place) operands ↔
      List.Forall₂ Accepts slots operands ∧ ∀ operand ∈ operands, operand.IsMachine := by
  rw [List.forall₂_map_left_iff]
  induction slots generalizing operands with
  | nil => constructor <;> simp +contextual [List.forall₂_nil_left_iff]
  | cons slot slots inductionHypothesis =>
      cases operands with
      | nil => simp
      | cons operand operands =>
          rw [List.forall₂_cons, List.forall₂_cons, List.forall_mem_cons, admits_place_iff,
            inductionHypothesis]
          exact and_and_and_comm

end Slot

end RiscvFacts
