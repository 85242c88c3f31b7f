import RiscvFacts.Text

/-!
# Registers

A target is fixed by the width of its integer registers, and every rule that depends
on the target takes an `Xlen`. It has an integer, a floating-point and a vector
register file.

A register is either a physical one, known by its file and index, or a virtual one
that still awaits allocation and carries the file it will be taken from. Indices are
not limited to the 32 architectural registers here: `Register.numbered` is the
checked way to name a register. What is asked against the condition on its caller is
refused as a `Misuse`.
-/

namespace RiscvFacts

/-- The width of a target's integer registers. -/
inductive Xlen where
  | rv32
  | rv64
  deriving DecidableEq

namespace Xlen

/-- The width in bits. -/
def bits : Xlen → Nat
  | .rv32 => 32
  | .rv64 => 64

/-- The target's name in messages. -/
def name : Xlen → String
  | .rv32 => "riscv32"
  | .rv64 => "riscv64"

/-- Whether the integer registers are 64 bits wide. -/
def is64 (xlen : Xlen) : Bool := xlen.bits == 64

end Xlen

/-- The register file that a register belongs to. -/
inductive RegisterFile where
  | gpr
  | fpr
  | vr
  deriving DecidableEq

namespace RegisterFile

/-- The short name of the file in messages. -/
def name : RegisterFile → String
  | .gpr => "gpr"
  | .fpr => "fpr"
  | .vr => "vr"

/-- The position of the file in the register order. -/
def rank : RegisterFile → Nat
  | .gpr => 0
  | .fpr => 1
  | .vr => 2

/-- What the file holds, as said in messages. -/
def content : RegisterFile → String
  | .gpr => "integer"
  | .fpr => "floating-point"
  | .vr => "vector"

end RegisterFile

/-- How an operation was asked against its condition. -/
inductive Misuse where
  | noSuchRegister (file : RegisterFile)
  | lateDefinition
  deriving DecidableEq

/-- The wording of a misuse. -/
def Misuse.message : Misuse → String
  | .noSuchRegister file => file.content ++ " register index out of range"
  | .lateDefinition => "def must be the first operand"

/-- A physical register of a file, or a virtual register that awaits allocation. -/
inductive Register where
  | physical (file : RegisterFile) (index : UInt8)
  | virtual (file : RegisterFile) (id : UInt32)
  deriving DecidableEq

namespace Register

/-- The number of architectural registers in each file. -/
def count : Nat := 32

/-- The architectural register with an index, refused when the file has no such register. -/
def numbered (file : RegisterFile) (index : UInt8) : Except Misuse Register :=
  if index.toNat < count then .ok (.physical file index) else .error (.noSuchRegister file)

/-- The integer register that an encoding field names. -/
def x (index : Nat) : Register := .physical .gpr (UInt8.ofNat index)

/-- The floating-point register that an encoding field names. -/
def f (index : Nat) : Register := .physical .fpr (UInt8.ofNat index)

/-- The vector register that an encoding field names. -/
def v (index : Nat) : Register := .physical .vr (UInt8.ofNat index)

/-- The file of a register. -/
def file : Register → RegisterFile
  | .physical file _ => file
  | .virtual file _ => file

/-- Whether the register still awaits allocation. -/
def isVirtual : Register → Bool
  | .physical _ _ => false
  | .virtual _ _ => true

/-- Whether the register is an allocated one. -/
def isPhysical (register : Register) : Bool := !register.isVirtual

/-- The calling convention's names of the integer registers, by index. -/
def integerNames : List String :=
  ["zero", "ra", "sp", "gp", "tp", "t0", "t1", "t2",
   "s0", "s1", "a0", "a1", "a2", "a3", "a4", "a5",
   "a6", "a7", "s2", "s3", "s4", "s5", "s6", "s7",
   "s8", "s9", "s10", "s11", "t3", "t4", "t5", "t6"]

/-- The calling convention's names of the floating-point registers, by index. -/
def floatNames : List String :=
  ["ft0", "ft1", "ft2", "ft3", "ft4", "ft5", "ft6", "ft7",
   "fs0", "fs1", "fa0", "fa1", "fa2", "fa3", "fa4", "fa5",
   "fa6", "fa7", "fs2", "fs3", "fs4", "fs5", "fs6", "fs7",
   "fs8", "fs9", "fs10", "fs11", "ft8", "ft9", "ft10", "ft11"]

/-- The name of a register in assembly text. Integer and floating-point indices that the
calling convention does not name are written as two question marks. -/
def name : Register → String
  | .physical .gpr index => integerNames.getD index.toNat "??"
  | .physical .fpr index => floatNames.getD index.toNat "??"
  | .physical .vr index => "v" ++ Numeral.natural index.toNat
  | .virtual file id => "%" ++ Numeral.natural id.toNat ++ ":" ++ file.name

/-- The position of a register in the register order: physical registers come first, by
file and index, and virtual registers follow, by file and number. -/
def rank : Register → Nat
  | .physical file index => file.rank * UInt8.size + index.toNat
  | .virtual file id => 3 * UInt8.size + file.rank * UInt32.size + id.toNat

/-- The registers of a list in register order, each of them once. -/
def sortDistinct (registers : List Register) : List Register :=
  (registers.mergeSort fun left right => decide (left.rank ≤ right.rank)).eraseReps

end Register

end RiscvFacts
