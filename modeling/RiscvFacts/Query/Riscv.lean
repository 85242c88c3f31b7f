import RiscvFacts.Query.Target

/-!
# The RISC-V queries

The RISC-V targets answer from the opcode table and the operands alone, so the
recorded memory accesses matter only to the stack-slot queries, which want an
instruction that either loads or stores. Every query declines an opcode that the
target lacks.
-/

namespace RiscvFacts.Riscv

/-- The classification of an instruction's opcode, if the target has the opcode. -/
def info (xlen : Xlen) (instr : Instr) : Answer OpcodeInfo :=
  if instr.opcode.isAvailable xlen then .known instr.opcode.info
  else .declined (.notAvailable instr.opcode xlen)

/-- Whether an instruction adds a constant to a register and leaves the full sum in
`register`. A narrow addition truncates its sum and does not count. -/
def addImmediate (xlen : Xlen) (instr : Instr) (register : Register) : Answer AddImmediate :=
  if instr.operands.head?.bind Operand.register? = some register then do
    let info ← info xlen instr
    if info.kind = .addImm then
      match instr.operands with
      | [_, .register source, .immediate addend] => .known ⟨source, addend⟩
      | _ => .declined (.addImmediateShape instr.opcode)
    else .silent
  else .silent

/-- The access at the base and offset operands of a well-shaped scalar load or store. -/
def scalarAccess (instr : Instr) (layout : Layout) (width : UInt64) : Answer MemoryAccess :=
  match layout.baseIndex?, layout.offsetIndex? with
  | some baseIndex, some offsetIndex =>
      if instr.operands.length = layout.arity then
        match instr.operands[baseIndex]?, instr.operands[offsetIndex]? with
        | some base, some offset =>
            if base.register?.map Register.file = some .gpr then
              match offset.immediate? with
              | some offset => .known ⟨[base], offset, false, width⟩
              | none => .declined (.offsetNotImmediate instr.opcode)
            else .declined (.baseNotInteger instr.opcode base)
        | _, _ => .silent
      else .declined (.operandCount instr.opcode layout.arity instr.operands.length)
  | _, _ => .silent

/-- The memory that a scalar load or store touches, with the width of its opcode. The base
has to be an integer register, and the offset an immediate. -/
def memoryAccess (xlen : Xlen) (instr : Instr) : Answer MemoryAccess := do
  let info ← info xlen instr
  match info.memory with
  | .scalar width => scalarAccess instr info.layout width
  | .vector _ => .declined (.vectorAccess instr.opcode)
  | .none => .silent

/-- The registers that an instruction copies: an addition of zero, or a sign injection whose
sources are the same. -/
def copy (xlen : Xlen) (instr : Instr) : Answer RegisterCopy := do
  let info ← info xlen instr
  match info.kind, instr.operands with
  | .addImm, [.register destination, .register source, .immediate addend] =>
      if addend = 0 then .known ⟨destination, source⟩ else .silent
  | .fpSignInject, [.register destination, .register source, .register sign] =>
      if source = sign then .known ⟨destination, source⟩ else .silent
  | _, _ => .silent

/-- The stack slot at whose start a scalar access takes place. -/
def slotAccess (instr : Instr) (info : OpcodeInfo) : Answer SlotAccess :=
  match info.scalarWidth?, instr.operands with
  | some width, [.register register, .stackSlot slot, .immediate offset] =>
      if offset = 0 then .known ⟨register, slot, width⟩ else .silent
  | _, _ => .silent

/-- The stack slot that an instruction loads, if it does not also store. -/
def loadSlot (xlen : Xlen) (instr : Instr) : Answer SlotAccess := do
  let info ← info xlen instr
  if instr.mayLoad && !instr.mayStore then slotAccess instr info else .silent

/-- The stack slot that an instruction stores, if it does not also load. -/
def storeSlot (xlen : Xlen) (instr : Instr) : Answer SlotAccess := do
  let info ← info xlen instr
  if instr.mayStore && !instr.mayLoad then slotAccess instr info else .silent

/-- The queries of the RISC-V target of a register width. -/
def target (xlen : Xlen) : Target where
  addImmediate := addImmediate xlen
  memoryAccess := memoryAccess xlen
  copy := copy xlen
  loadSlot := loadSlot xlen
  storeSlot := storeSlot xlen

end RiscvFacts.Riscv
