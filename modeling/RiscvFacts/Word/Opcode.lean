import RiscvFacts.Opcode.Basic
import RiscvFacts.Word.Basic
import RiscvFacts.Register

/-!
# The opcode of a word

The lowest seven bits of a word select a group of instructions, and the function
fields select an opcode within the group. Words that no known instruction spells
select none. The register width matters only to the shifts, whose amounts it
limits; an opcode that the target lacks is selected all the same.
-/

namespace RiscvFacts.Word

/-- The scalar load that `funct3` selects. -/
def loadOpcode? (word : Word) : Option Opcode :=
  match funct3 word with
  | 0 => some .lb
  | 1 => some .lh
  | 2 => some .lw
  | 3 => some .ld
  | 4 => some .lbu
  | 5 => some .lhu
  | 6 => some .lwu
  | _ => none

/-- The scalar store that `funct3` selects. -/
def storeOpcode? (word : Word) : Option Opcode :=
  match funct3 word with
  | 0 => some .sb
  | 1 => some .sh
  | 2 => some .sw
  | 3 => some .sd
  | _ => none

/-- The right shift that the bits above a shift amount select: the logical one when none of
them is set, and the arithmetic one when they are `mark`. -/
def rightShift? (above mark : Nat) (logical arithmetic : Opcode) : Option Opcode :=
  if above = 0 then some logical
  else if above = mark then some arithmetic
  else none

/-- The immediate arithmetic that `funct3` selects. The six bits above a shift amount select
the shift, and the amount has to be less than the register width. -/
def immediateOpcode? (xlen : Xlen) (word : Word) : Option Opcode :=
  let shift? (opcode? : Option Opcode) : Option Opcode :=
    if field word 20 6 < xlen.bits then opcode? else none
  match funct3 word with
  | 0 => some .addi
  | 1 => shift? (if field word 26 6 = 0 then some .slli else none)
  | 2 => some .slti
  | 3 => some .sltiu
  | 4 => some .xori
  | 5 => shift? (rightShift? (field word 26 6) 0x10 .srli .srai)
  | 6 => some .ori
  | 7 => some .andi
  | _ => none

/-- The narrow immediate arithmetic that `funct3` selects. The seven bits above a shift
amount select the shift. -/
def narrowOpcode? (word : Word) : Option Opcode :=
  match funct3 word with
  | 0 => some .addiw
  | 1 => if funct7 word = 0 then some .slliw else none
  | 5 => rightShift? (funct7 word) 0x20 .srliw .sraiw
  | _ => none

/-- The vector access in a direction. Segments and wide elements are not recognised, and the
unit-stride form has no variant selected. -/
def vectorOpcode? (direction : Direction) (width : ElementWidth) (word : Word) :
    Option Opcode :=
  if nf word ≠ 0 ∨ mew word ≠ 0 then none
  else match mop word with
    | 0 => if rs2 word = 0 then some (.vector direction .unitStride width) else none
    | 1 => some (.vector direction .unordered width)
    | 2 => some (.vector direction .strided width)
    | 3 => some (.vector direction .ordered width)
    | _ => none

/-- The floating-point or vector load that `funct3` selects. -/
def floatLoadOpcode? (word : Word) : Option Opcode :=
  match funct3 word with
  | 0 => vectorOpcode? .load .e8 word
  | 1 => some .flh
  | 2 => some .flw
  | 3 => some .fld
  | 4 => some .flq
  | 5 => vectorOpcode? .load .e16 word
  | 6 => vectorOpcode? .load .e32 word
  | 7 => vectorOpcode? .load .e64 word
  | _ => none

/-- The floating-point or vector store that `funct3` selects. -/
def floatStoreOpcode? (word : Word) : Option Opcode :=
  match funct3 word with
  | 0 => vectorOpcode? .store .e8 word
  | 1 => some .fsh
  | 2 => some .fsw
  | 3 => some .fsd
  | 4 => some .fsq
  | 5 => vectorOpcode? .store .e16 word
  | 6 => vectorOpcode? .store .e32 word
  | 7 => vectorOpcode? .store .e64 word
  | _ => none

/-- The sign injection that `funct7` selects, in its plain variant. -/
def floatOpcode? (word : Word) : Option Opcode :=
  if funct3 word ≠ 0 then none
  else match funct7 word with
    | 0x10 => some .fsgnjS
    | 0x11 => some .fsgnjD
    | 0x12 => some .fsgnjH
    | _ => none

/-- The opcode that a word selects. -/
def opcode? (xlen : Xlen) (word : Word) : Option Opcode :=
  match major word with
  | 0x03 => loadOpcode? word
  | 0x07 => floatLoadOpcode? word
  | 0x13 => immediateOpcode? xlen word
  | 0x17 => some .auipc
  | 0x1B => narrowOpcode? word
  | 0x23 => storeOpcode? word
  | 0x27 => floatStoreOpcode? word
  | 0x37 => some .lui
  | 0x53 => floatOpcode? word
  | _ => none

end RiscvFacts.Word
