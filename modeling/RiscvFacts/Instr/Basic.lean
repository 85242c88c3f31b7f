import RiscvFacts.Opcode.Info
import RiscvFacts.Operand

/-!
# Instructions

An instruction is an opcode, its operands in assembly order with the defined or
stored value first, and the memory accesses that its producer recorded. Nothing
here relates the operands to the opcode: an instruction may be malformed, and its
assembly text, its defined register and its memory effects are still meaningful.
The operations that append operands make it its own draft.
-/

namespace RiscvFacts

/-- The effect of a recorded memory access. -/
inductive AccessEffect where
  | load
  | store
  | loadStore
  deriving DecidableEq

namespace AccessEffect

/-- Whether the access reads memory. -/
def isLoad : AccessEffect → Bool
  | .load | .loadStore => true
  | .store => false

/-- Whether the access writes memory. -/
def isStore : AccessEffect → Bool
  | .store | .loadStore => true
  | .load => false

/-- The name of the effect in messages. -/
def name : AccessEffect → String
  | .load => "load"
  | .store => "store"
  | .loadStore => "load-store"

end AccessEffect

/-- A memory access as its producer recorded it, with size and alignment in bytes. -/
structure Descriptor where
  effect : AccessEffect
  size : UInt64
  align : UInt64
  deriving DecidableEq

namespace Descriptor

/-- A naturally aligned read. -/
def load (size : UInt64) : Descriptor := ⟨.load, size, size⟩

/-- A naturally aligned write. -/
def store (size : UInt64) : Descriptor := ⟨.store, size, size⟩

/-- The text of a recorded access. -/
def text (descriptor : Descriptor) : String :=
  descriptor.effect.name ++ " (" ++ Numeral.natural descriptor.size.toNat ++ " bytes, align " ++
    Numeral.natural descriptor.align.toNat ++ ")"

end Descriptor

/-- An instruction, well formed or not. -/
structure Instr where
  opcode : Opcode
  operands : List Operand
  descriptors : List Descriptor
  deriving DecidableEq

namespace Instr

/-- An instruction without operands or recorded accesses. -/
def start (opcode : Opcode) : Instr := ⟨opcode, [], []⟩

/-- The instruction with one more operand. -/
def push (instr : Instr) (operand : Operand) : Instr :=
  { instr with operands := instr.operands ++ [operand] }

/-- The instruction with one more recorded access. -/
def attach (instr : Instr) (descriptor : Descriptor) : Instr :=
  { instr with descriptors := instr.descriptors ++ [descriptor] }

/-- The instruction with its defined register, which has to be the first operand. -/
def define (instr : Instr) (register : Register) : Except Misuse Instr :=
  if instr.operands.isEmpty then .ok (instr.push (.register register))
  else .error .lateDefinition

/-- The operands separated by commas, after a blank when there are any. -/
def listText : List Operand → String
  | [] => ""
  | operands => " " ++ String.intercalate ", " (operands.map Operand.text)

/-- The assembly text. Memory layouts put the base address in parentheses; operands that do
not fill their layout are listed as they are. -/
def text (instr : Instr) : String :=
  instr.opcode.mnemonic ++
    match instr.opcode.info.layout, instr.operands with
    | .valueBaseOffset, [value, base, offset] =>
        " " ++ value.text ++ ", " ++ offset.text ++ "(" ++ base.text ++ ")"
    | .vectorUnitStride, [data, base] => " " ++ data.text ++ ", (" ++ base.text ++ ")"
    | .vectorStrided, [data, base, step] | .vectorIndexed, [data, base, step] =>
        " " ++ data.text ++ ", (" ++ base.text ++ "), " ++ step.text
    | _, operands => listText operands

/-- The register in operand 0, when the opcode writes that operand. -/
def defined? (instr : Instr) : Option Register :=
  if instr.opcode.info.definesOperand0 then instr.operands.head?.bind Operand.register?
  else none

/-- Whether the opcode or a recorded access reads memory. -/
def mayLoad (instr : Instr) : Bool :=
  instr.opcode.info.mayLoad || instr.descriptors.any fun descriptor => descriptor.effect.isLoad

/-- Whether the opcode or a recorded access writes memory. -/
def mayStore (instr : Instr) : Bool :=
  instr.opcode.info.mayStore || instr.descriptors.any fun descriptor => descriptor.effect.isStore

end Instr

end RiscvFacts
