/-!
# Instruction words

An instruction word has 32 bits. Its fields are read as natural numbers, and the
two 12-bit immediates are the signed readings of theirs.
-/

namespace RiscvFacts

/-- A 32-bit instruction word. -/
abbrev Word := BitVec 32

namespace Word

/-- The unsigned value of `width` bits from bit `low` upwards. -/
def field (word : Word) (low width : Nat) : Nat := (word.extractLsb' low width).toNat

/-- The field that selects the group of the instruction. -/
def major (word : Word) : Nat := field word 0 7

/-- The number of the destination register. -/
def rd (word : Word) : Nat := field word 7 5

/-- The field that selects within a group. -/
def funct3 (word : Word) : Nat := field word 12 3

/-- The number of the first source register. -/
def rs1 (word : Word) : Nat := field word 15 5

/-- The number of the second source register. -/
def rs2 (word : Word) : Nat := field word 20 5

/-- The field that selects between instructions with the same `funct3`. -/
def funct7 (word : Word) : Nat := field word 25 7

/-- The addressing mode of a vector access. -/
def mop (word : Word) : Nat := field word 26 2

/-- The bit that is set for the reserved wide element widths of a vector access. -/
def mew (word : Word) : Nat := field word 28 1

/-- The number of further fields in each segment of a vector access. -/
def nf (word : Word) : Nat := field word 29 3

/-- The two's complement reading of a 12-bit value. -/
def signed12 (value : Nat) : Int := if value < 2048 then value else value - 4096

/-- The two's complement reading of twelve bits lies between -2048 and 2047. -/
theorem signed12_bounds {value : Nat} (twelveBits : value < 4096) :
    -2048 ≤ signed12 value ∧ signed12 value < 2048 := by
  unfold signed12
  split <;> omega

/-- The signed immediate in the top twelve bits. -/
def iImm (word : Word) : Int := signed12 (field word 20 12)

/-- The signed immediate of a store, which is split around the source registers. -/
def sImm (word : Word) : Int := signed12 (field word 25 7 * 32 + field word 7 5)

/-- The signed immediate in the top twelve bits lies between -2048 and 2047. -/
theorem iImm_bounds (word : Word) : -2048 ≤ iImm word ∧ iImm word < 2048 :=
  signed12_bounds (BitVec.isLt _)

/-- The signed immediate of a store lies between -2048 and 2047. -/
theorem sImm_bounds (word : Word) : -2048 ≤ sImm word ∧ sImm word < 2048 := by
  have high : field word 25 7 < 128 := BitVec.isLt _
  have low : field word 7 5 < 32 := BitVec.isLt _
  exact signed12_bounds (by omega)

/-- The unsigned immediate in the top twenty bits. -/
def uField (word : Word) : Nat := field word 12 20

/-- The word that four bytes spell, least significant byte first. -/
def ofBytes (byte0 byte1 byte2 byte3 : UInt8) : Word :=
  BitVec.ofNat 32
    (byte0.toNat + 0x100 * byte1.toNat + 0x10000 * byte2.toNat + 0x1000000 * byte3.toNat)

end Word

end RiscvFacts
