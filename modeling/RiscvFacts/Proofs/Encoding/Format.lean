import RiscvFacts.Opcode.Basic
import RiscvFacts.Proofs.Encoding.Diagram

/-!
# The encoding of each opcode

A format arranges the parts of an instruction in the word, and its arguments are
the constant bits that tell the opcodes of the format apart. `Opcode.format` is
the table of the manual: it lists the encoding of every opcode and knows nothing
of the way in which words are decoded.
-/

namespace RiscvFacts

/-- The arrangement of a word, with its constant bits. -/
inductive Format where
  | upper (major : BitVec 7)
  | immediate (major : BitVec 7) (funct3 : BitVec 3)
  | shift (funct3 : BitVec 3) (above : BitVec 6)
  | narrowShift (funct3 : BitVec 3) (funct7 : BitVec 7)
  | store (major : BitVec 7) (funct3 : BitVec 3)
  | signInject (funct7 : BitVec 7)
  | unitStride (major : BitVec 7) (funct3 : BitVec 3)
  | vector (major : BitVec 7) (funct3 : BitVec 3) (mop : BitVec 2)
  deriving DecidableEq

namespace Format

/-- The segments of a format. The constant bits above the mask bit of a vector access are its
addressing mode, the bit of the wide elements and the number of further fields. -/
@[simp] def diagram : Format → Diagram
  | .upper major =>
      { segments := [.fixed 0 7 major, .register 7 0, .immediate 12 20 1 0] }
  | .immediate major funct3 =>
      { segments := [.fixed 0 7 major, .register 7 0, .fixed 12 3 funct3, .register 15 1,
          .immediate 20 12 2 0] }
  | .shift funct3 above =>
      { segments := [.fixed 0 7 0x13, .register 7 0, .fixed 12 3 funct3, .register 15 1,
          .immediate 20 6 2 0, .fixed 26 6 above] }
  | .narrowShift funct3 funct7 =>
      { segments := [.fixed 0 7 0x1B, .register 7 0, .fixed 12 3 funct3, .register 15 1,
          .immediate 20 5 2 0, .fixed 25 7 funct7] }
  | .store major funct3 =>
      { segments := [.fixed 0 7 major, .immediate 7 5 2 0, .fixed 12 3 funct3, .register 15 1,
          .register 20 0, .immediate 25 7 2 5] }
  | .signInject funct7 =>
      { segments := [.fixed 0 7 0x53, .register 7 0, .fixed 12 3 0, .register 15 1,
          .register 20 2, .fixed 25 7 funct7] }
  | .unitStride major funct3 =>
      { segments := [.fixed 0 7 major, .register 7 0, .fixed 12 3 funct3, .register 15 1,
          .fixed 20 5 0, .ignored 25, .fixed 26 2 0, .fixed 28 1 0, .fixed 29 3 0] }
  | .vector major funct3 mop =>
      { segments := [.fixed 0 7 major, .register 7 0, .fixed 12 3 funct3, .register 15 1,
          .register 20 2, .ignored 25, .fixed 26 2 mop, .fixed 28 1 0, .fixed 29 3 0] }

/-- Whether the format is one of the vector accesses. -/
def isVector : Format → Bool
  | .unitStride _ _ | .vector _ _ _ => true
  | .upper _ | .immediate _ _ | .shift _ _ | .narrowShift _ _ | .store _ _ | .signInject _ => false

/-- The only bit without meaning is the mask bit of a vector access. -/
theorem ignored_mem_iff {format : Format} {index : Nat} :
    .ignored index ∈ format.diagram.segments ↔ format.isVector = true ∧ index = 25 := by
  cases format <;> simp [isVector]

end Format

/-- The `funct3` of a vector access with elements of a width. -/
def ElementWidth.funct3 : ElementWidth → BitVec 3
  | .e8 => 0
  | .e16 => 5
  | .e32 => 6
  | .e64 => 7

/-- The major opcode of the vector and floating-point accesses in a direction. -/
def Direction.major : Direction → BitVec 7
  | .load => 0x07
  | .store => 0x27

namespace Opcode

/-- The encoding of an opcode. -/
def format : Opcode → Format
  | .lui => .upper 0x37
  | .auipc => .upper 0x17
  | .lb => .immediate 0x03 0
  | .lh => .immediate 0x03 1
  | .lw => .immediate 0x03 2
  | .ld => .immediate 0x03 3
  | .lbu => .immediate 0x03 4
  | .lhu => .immediate 0x03 5
  | .lwu => .immediate 0x03 6
  | .sb => .store 0x23 0
  | .sh => .store 0x23 1
  | .sw => .store 0x23 2
  | .sd => .store 0x23 3
  | .addi => .immediate 0x13 0
  | .slti => .immediate 0x13 2
  | .sltiu => .immediate 0x13 3
  | .xori => .immediate 0x13 4
  | .ori => .immediate 0x13 6
  | .andi => .immediate 0x13 7
  | .slli => .shift 1 0
  | .srli => .shift 5 0
  | .srai => .shift 5 0x10
  | .addiw => .immediate 0x1B 0
  | .slliw => .narrowShift 1 0
  | .srliw => .narrowShift 5 0
  | .sraiw => .narrowShift 5 0x20
  | .flh => .immediate 0x07 1
  | .flw => .immediate 0x07 2
  | .fld => .immediate 0x07 3
  | .flq => .immediate 0x07 4
  | .fsh => .store 0x27 1
  | .fsw => .store 0x27 2
  | .fsd => .store 0x27 3
  | .fsq => .store 0x27 4
  | .fsgnjS => .signInject 0x10
  | .fsgnjD => .signInject 0x11
  | .fsgnjH => .signInject 0x12
  | .vector direction .unitStride width => .unitStride direction.major width.funct3
  | .vector direction .unordered width => .vector direction.major width.funct3 1
  | .vector direction .strided width => .vector direction.major width.funct3 2
  | .vector direction .ordered width => .vector direction.major width.funct3 3

/-- The division of an opcode's words. -/
def diagram (opcode : Opcode) : Diagram := opcode.format.diagram

end Opcode

end RiscvFacts
