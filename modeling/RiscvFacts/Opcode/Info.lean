import RiscvFacts.Opcode.Basic
import RiscvFacts.Register

/-!
# What each opcode does

`Opcode.info` classifies every opcode: what it computes, which operands it takes
and in which order, how it touches memory, which file its first operand lives in,
and whether it needs 64-bit registers. The checks and the queries consult this
table and never compare opcodes one by one. In print it has one line per opcode that
a target has, under a line of headings.
-/

namespace RiscvFacts

/-- What an instruction computes, as far as the queries care. -/
inductive OpcodeKind where
  | addImm
  | alu
  | aluNarrow
  | upperImm
  | fpSignInject
  | load
  | store
  | vectorLoad
  | vectorStore
  deriving DecidableEq

/-- The name of a class in the opcode table. -/
def OpcodeKind.name : OpcodeKind → String
  | .addImm => "AddImm"
  | .alu => "Alu"
  | .aluNarrow => "AluNarrow"
  | .upperImm => "UpperImm"
  | .fpSignInject => "FpSignInject"
  | .load => "Load"
  | .store => "Store"
  | .vectorLoad => "VectorLoad"
  | .vectorStore => "VectorStore"

/-- The explicit operands of an instruction, in assembly order. -/
inductive Layout where
  | regImm
  | regRegImm
  | regRegReg
  | valueBaseOffset
  | vectorUnitStride
  | vectorStrided
  | vectorIndexed
  deriving DecidableEq

namespace Layout

/-- The name of a layout in the opcode table. -/
def name : Layout → String
  | .regImm => "RegImm"
  | .regRegImm => "RegRegImm"
  | .regRegReg => "RegRegReg"
  | .valueBaseOffset => "ValueBaseOffset"
  | .vectorUnitStride => "VectorUnitStride"
  | .vectorStrided => "VectorStrided"
  | .vectorIndexed => "VectorIndexed"

/-- The number of operands. -/
def arity : Layout → Nat
  | .regImm | .vectorUnitStride => 2
  | .regRegImm | .regRegReg | .valueBaseOffset | .vectorStrided | .vectorIndexed => 3

/-- The place of the base address, in the layouts that address memory. -/
def baseIndex? : Layout → Option Nat
  | .valueBaseOffset | .vectorUnitStride | .vectorStrided | .vectorIndexed => some 1
  | .regImm | .regRegImm | .regRegReg => none

/-- The place of the fixed offset, in the layout that has one. -/
def offsetIndex? : Layout → Option Nat
  | .valueBaseOffset => some 2
  | .regImm | .regRegImm | .regRegReg | .vectorUnitStride | .vectorStrided
  | .vectorIndexed => none

end Layout

/-- How an opcode touches memory. -/
inductive MemoryUse where
  | none
  | scalar (width : UInt64)
  | vector (width : ElementWidth)
  deriving DecidableEq

/-- The text of a memory access in the opcode table. -/
def MemoryUse.text : MemoryUse → String
  | .none => "None"
  | .scalar width => "Scalar \x7b width: " ++ Numeral.natural width.toNat ++ " \x7d"
  | .vector width => "Vector \x7b eew: " ++ Numeral.natural width.bytes ++ " \x7d"

/-- The classification of an opcode. -/
structure OpcodeInfo where
  kind : OpcodeKind
  layout : Layout
  memory : MemoryUse
  valueFile : RegisterFile
  rv64Only : Bool := false
  deriving DecidableEq

namespace OpcodeInfo

/-- An upper immediate. -/
def upper : OpcodeInfo := ⟨.upperImm, .regImm, .none, .gpr, false⟩

/-- Register-immediate arithmetic of a class. -/
def arithmetic (kind : OpcodeKind) : OpcodeInfo := ⟨kind, .regRegImm, .none, .gpr, false⟩

/-- A scalar load of `width` bytes into a register file. -/
def load (file : RegisterFile) (width : UInt64) : OpcodeInfo :=
  ⟨.load, .valueBaseOffset, .scalar width, file, false⟩

/-- A scalar store of `width` bytes from a register file. -/
def store (file : RegisterFile) (width : UInt64) : OpcodeInfo :=
  ⟨.store, .valueBaseOffset, .scalar width, file, false⟩

/-- A floating-point sign injection. -/
def signInject : OpcodeInfo := ⟨.fpSignInject, .regRegReg, .none, .fpr, false⟩

/-- The same classification for an opcode that needs 64-bit registers. -/
def wide (info : OpcodeInfo) : OpcodeInfo := { info with rv64Only := true }

/-- A vector load or store. -/
def vector (direction : Direction) (addressing : VectorAddressing) (width : ElementWidth) :
    OpcodeInfo where
  kind := match direction with
    | .load => .vectorLoad
    | .store => .vectorStore
  layout := match addressing with
    | .unitStride => .vectorUnitStride
    | .strided => .vectorStrided
    | .unordered | .ordered => .vectorIndexed
  memory := .vector width
  valueFile := .vr

/-- Whether the opcode reads memory. -/
def mayLoad (info : OpcodeInfo) : Bool :=
  info.kind == .load || info.kind == .vectorLoad

/-- Whether the opcode writes memory. -/
def mayStore (info : OpcodeInfo) : Bool :=
  info.kind == .store || info.kind == .vectorStore

/-- Whether the width of the access depends on the vector length. -/
def isVector (info : OpcodeInfo) : Bool :=
  match info.memory with
  | .vector _ => true
  | .none | .scalar _ => false

/-- The width in bytes of a fixed-size access. -/
def scalarWidth? (info : OpcodeInfo) : Option UInt64 :=
  match info.memory with
  | .scalar width => some width
  | .none | .vector _ => Option.none

/-- Whether operand 0 is written. Only a store reads it. -/
def definesOperand0 (info : OpcodeInfo) : Bool := !info.mayStore

/-- Whether the opcode exists on a target. -/
def isAvailable (info : OpcodeInfo) (xlen : Xlen) : Bool := !info.rv64Only || xlen.is64

end OpcodeInfo

namespace Opcode

/-- The opcode table. -/
def info : Opcode → OpcodeInfo
  | .lui | .auipc => .upper
  | .lb | .lbu => .load .gpr 1
  | .lh | .lhu => .load .gpr 2
  | .lw => .load .gpr 4
  | .sb => .store .gpr 1
  | .sh => .store .gpr 2
  | .sw => .store .gpr 4
  | .addi => .arithmetic .addImm
  | .slti | .sltiu | .xori | .ori | .andi | .slli | .srli | .srai => .arithmetic .alu
  | .lwu => (OpcodeInfo.load .gpr 4).wide
  | .ld => (OpcodeInfo.load .gpr 8).wide
  | .sd => (OpcodeInfo.store .gpr 8).wide
  | .addiw | .slliw | .srliw | .sraiw => (OpcodeInfo.arithmetic .aluNarrow).wide
  | .flh => .load .fpr 2
  | .flw => .load .fpr 4
  | .fld => .load .fpr 8
  | .flq => .load .fpr 16
  | .fsh => .store .fpr 2
  | .fsw => .store .fpr 4
  | .fsd => .store .fpr 8
  | .fsq => .store .fpr 16
  | .fsgnjH | .fsgnjS | .fsgnjD => .signInject
  | .vector direction addressing width => .vector direction addressing width

/-- Whether the opcode exists on a target. -/
def isAvailable (opcode : Opcode) (xlen : Xlen) : Bool := opcode.info.isAvailable xlen

/-- A line of the table from its five cells. -/
def tableLine (mnemonic kind layout memory value : String) : String :=
  Column.pad 12 mnemonic ++ " " ++ Column.pad 14 kind ++ " " ++ Column.pad 18 layout ++ " " ++
    Column.pad 16 memory ++ " " ++ value

/-- The headings of the table. -/
def tableHead : String := tableLine "mnemonic" "class" "layout" "memory" "value"

/-- The line of an opcode. -/
def tableRow (opcode : Opcode) : String :=
  tableLine opcode.mnemonic opcode.info.kind.name opcode.info.layout.name
    opcode.info.memory.text opcode.info.valueFile.name

/-- The table of the opcodes that a target has. -/
def table (xlen : Xlen) : List String :=
  tableHead :: (all.filter fun opcode => opcode.isAvailable xlen).map tableRow

end Opcode

end RiscvFacts
