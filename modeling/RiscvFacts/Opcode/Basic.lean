import RiscvFacts.Text

/-!
# Opcodes

The instructions that the analyses know: the scalar loads and stores, the
immediate arithmetic, the upper immediates, the sign injections that move
floating-point registers, and the vector loads and stores. A vector memory
opcode is described by its direction, its addressing and its element width, so
the 32 of them are one constructor.
-/

namespace RiscvFacts

/-- Whether a memory access reads or writes. -/
inductive Direction where
  | load
  | store
  deriving DecidableEq

/-- How a vector access forms its element addresses. -/
inductive VectorAddressing where
  | unitStride
  | strided
  | unordered
  | ordered
  deriving DecidableEq

/-- The element width of a vector access, or the index width of an indexed one. -/
inductive ElementWidth where
  | e8
  | e16
  | e32
  | e64
  deriving DecidableEq

namespace ElementWidth

/-- Every width, narrowest first. -/
def all : List ElementWidth := [.e8, .e16, .e32, .e64]

/-- The width in bytes. -/
def bytes : ElementWidth → Nat
  | .e8 => 1
  | .e16 => 2
  | .e32 => 4
  | .e64 => 8

/-- The width in bits, as written in mnemonics. -/
def digits : ElementWidth → String
  | .e8 => "8"
  | .e16 => "16"
  | .e32 => "32"
  | .e64 => "64"

end ElementWidth

/-- An instruction that the analyses know. -/
inductive Opcode where
  | lui
  | auipc
  | lb
  | lh
  | lw
  | lbu
  | lhu
  | sb
  | sh
  | sw
  | addi
  | slti
  | sltiu
  | xori
  | ori
  | andi
  | slli
  | srli
  | srai
  | ld
  | lwu
  | sd
  | addiw
  | slliw
  | srliw
  | sraiw
  | flh
  | flw
  | fld
  | flq
  | fsh
  | fsw
  | fsd
  | fsq
  | fsgnjH
  | fsgnjS
  | fsgnjD
  | vector (direction : Direction) (addressing : VectorAddressing) (width : ElementWidth)
  deriving DecidableEq

namespace Opcode

/-- The opcodes that are no vector accesses, in table order. -/
def scalars : List Opcode :=
  [.lui, .auipc, .lb, .lh, .lw, .lbu, .lhu, .sb, .sh, .sw,
   .addi, .slti, .sltiu, .xori, .ori, .andi, .slli, .srli, .srai,
   .ld, .lwu, .sd, .addiw, .slliw, .srliw, .sraiw,
   .flh, .flw, .fld, .flq, .fsh, .fsw, .fsd, .fsq, .fsgnjH, .fsgnjS, .fsgnjD]

/-- The families of vector accesses, in table order. -/
def vectorFamilies : List (Direction × VectorAddressing) :=
  [(.load, .unitStride), (.store, .unitStride), (.load, .strided), (.store, .strided),
   (.load, .unordered), (.load, .ordered), (.store, .unordered), (.store, .ordered)]

/-- Every opcode once, in table order. -/
def all : List Opcode :=
  scalars ++ vectorFamilies.flatMap fun family =>
    ElementWidth.all.map fun width => .vector family.1 family.2 width

/-- Every opcode is in the table. -/
theorem mem_all (opcode : Opcode) : opcode ∈ all := by
  cases opcode with
  | vector direction addressing width =>
      cases direction <;> cases addressing <;> cases width <;> decide
  | _ => decide

/-- The position of an opcode in the table. -/
def index (opcode : Opcode) : Nat := all.idxOf opcode

/-- The letters between the `v` and the width in the mnemonic of a vector access. -/
def vectorStem : Direction → VectorAddressing → String
  | .load, .unitStride => "le"
  | .store, .unitStride => "se"
  | .load, .strided => "lse"
  | .store, .strided => "sse"
  | .load, .unordered => "luxei"
  | .store, .unordered => "suxei"
  | .load, .ordered => "loxei"
  | .store, .ordered => "soxei"

/-- The name of an opcode in assembly text. -/
def mnemonic : Opcode → String
  | .lui => "lui"
  | .auipc => "auipc"
  | .lb => "lb"
  | .lh => "lh"
  | .lw => "lw"
  | .lbu => "lbu"
  | .lhu => "lhu"
  | .sb => "sb"
  | .sh => "sh"
  | .sw => "sw"
  | .addi => "addi"
  | .slti => "slti"
  | .sltiu => "sltiu"
  | .xori => "xori"
  | .ori => "ori"
  | .andi => "andi"
  | .slli => "slli"
  | .srli => "srli"
  | .srai => "srai"
  | .ld => "ld"
  | .lwu => "lwu"
  | .sd => "sd"
  | .addiw => "addiw"
  | .slliw => "slliw"
  | .srliw => "srliw"
  | .sraiw => "sraiw"
  | .flh => "flh"
  | .flw => "flw"
  | .fld => "fld"
  | .flq => "flq"
  | .fsh => "fsh"
  | .fsw => "fsw"
  | .fsd => "fsd"
  | .fsq => "fsq"
  | .fsgnjH => "fsgnj.h"
  | .fsgnjS => "fsgnj.s"
  | .fsgnjD => "fsgnj.d"
  | .vector direction addressing width =>
      "v" ++ vectorStem direction addressing ++ width.digits ++ ".v"

/-- A text with its ASCII capitals lowered. -/
def lowered (text : String) : String := String.ofList (text.toList.map Char.toLower)

/-- The opcode with a mnemonic, in any ASCII capitalisation. -/
def ofMnemonic? (text : String) : Option Opcode :=
  all.find? fun opcode => opcode.mnemonic == lowered text

/-- Looking up the mnemonic of an opcode finds that opcode. -/
theorem ofMnemonic?_mnemonic (opcode : Opcode) : ofMnemonic? opcode.mnemonic = some opcode := by
  have inTable : ∀ listed ∈ all, ofMnemonic? listed.mnemonic = some listed := by decide +kernel
  exact inTable opcode (mem_all opcode)

/-- The opcodes of a list in table order, each of them once. -/
def sortDistinct (opcodes : List Opcode) : List Opcode :=
  all.filter fun opcode => opcodes.contains opcode

end Opcode

end RiscvFacts
