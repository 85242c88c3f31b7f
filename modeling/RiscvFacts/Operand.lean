import RiscvFacts.Register

/-!
# Operands

An explicit operand is a register, an immediate, an abstract stack slot, a symbol
with a constant addend, or a raw value that the analyses do not interpret. Each place
for an immediate accepts the integers of one interval.
-/

namespace RiscvFacts

/-- One explicit operand of an instruction. -/
inductive Operand where
  | register (held : Register)
  | immediate (value : Int64)
  | stackSlot (index : Int32)
  | symbol (name : String) (addend : Int64)
  | other (raw : UInt64)
  deriving DecidableEq

/-- The form of an operand. -/
inductive OperandKind where
  | register
  | immediate
  | stackSlot
  | symbol
  | other
  deriving DecidableEq

/-- The name of an operand form in messages. -/
def OperandKind.name : OperandKind → String
  | .register => "register"
  | .immediate => "immediate"
  | .stackSlot => "frame-index"
  | .symbol => "global"
  | .other => "other"

namespace Operand

/-- The form of an operand. -/
def kind : Operand → OperandKind
  | .register _ => .register
  | .immediate _ => .immediate
  | .stackSlot _ => .stackSlot
  | .symbol _ _ => .symbol
  | .other _ => .other

/-- The register that an operand holds. -/
def register? : Operand → Option Register
  | .register held => some held
  | .immediate _ | .stackSlot _ | .symbol _ _ | .other _ => none

/-- The immediate that an operand holds. -/
def immediate? : Operand → Option Int64
  | .immediate value => some value
  | .register _ | .stackSlot _ | .symbol _ _ | .other _ => none

/-- The assembly text of an operand. A symbol shows its addend only when it is not zero. -/
def text : Operand → String
  | .register held => held.name
  | .immediate value => Numeral.decimal value.toInt
  | .stackSlot index => "%stack." ++ Numeral.decimal index.toInt
  | .symbol name addend =>
      if addend = 0 then "@" ++ name else "@" ++ name ++ Numeral.signed addend.toInt
  | .other raw => "<0x" ++ Numeral.hex 1 raw.toNat ++ ">"

end Operand

/-- The integers from `low` up to, and not including, `high`. -/
structure ImmediateRange where
  low : Int
  high : Int
  deriving DecidableEq

namespace ImmediateRange

/-- Whether an integer lies in the range. -/
def contains (range : ImmediateRange) (value : Int) : Bool :=
  decide (range.low ≤ value ∧ value < range.high)

/-- A range contains exactly the integers between its ends. -/
@[simp] theorem contains_iff {range : ImmediateRange} {value : Int} :
    range.contains value = true ↔ range.low ≤ value ∧ value < range.high := by
  simp [contains]

/-- The signed 12-bit integers. -/
def signed12 : ImmediateRange := ⟨-2048, 2048⟩

/-- The 20-bit integers in either reading, signed or unsigned. -/
def upper20 : ImmediateRange := ⟨-524288, 1048576⟩

/-- The shift amounts that keep a bit of a value of `bits` bits. -/
def shift (bits : Nat) : ImmediateRange := ⟨0, bits⟩

end ImmediateRange

end RiscvFacts
