import RiscvFacts.Instr.Basic
import RiscvFacts.Query.Answer

/-!
# The queries of a target

A pass asks a `Target` what an instruction does: whether it adds a constant to a
register, which memory it touches, whether it copies a register, and whether it
loads or stores a stack slot. A target has to answer the first two. From the
memory query follow the single-base query and `Target.disjoint`, which compares
two accesses off the same base register as exact integer intervals.

A survey asks a target every query about one instruction, in a fixed order, and
keeps the answers. The declines of a survey are those of its queries in turn.
-/

namespace RiscvFacts

/-- The sum of a register and a constant. -/
structure AddImmediate where
  source : Register
  addend : Int64
  deriving DecidableEq

/-- A copy from one register to another. -/
structure RegisterCopy where
  destination : Register
  source : Register
  deriving DecidableEq

/-- An access of `width` bytes at the sum of the bases and the offset. A scalable offset
counts in units of the vector length. -/
structure MemoryAccess where
  bases : List Operand
  offset : Int64
  scalable : Bool
  width : UInt64
  deriving DecidableEq

/-- An access with one base. -/
structure SingleBaseAccess where
  base : Operand
  offset : Int64
  scalable : Bool
  width : UInt64
  deriving DecidableEq

/-- A load or store of `width` bytes at the start of a stack slot. -/
structure SlotAccess where
  register : Register
  slot : Int32
  width : UInt64
  deriving DecidableEq

namespace SingleBaseAccess

/-- Whether two accesses have the same register as their base. -/
def sameBaseRegister (first second : SingleBaseAccess) : Bool :=
  match first.base.register?, second.base.register? with
  | some left, some right => left == right
  | _, _ => false

/-- Whether an access ends before another one begins, counted from their common base without
overflow. -/
def endsBefore (low high : SingleBaseAccess) : Bool :=
  decide (low.offset.toInt + low.width.toNat ≤ high.offset.toInt)

/-- Whether two accesses off the same register touch no common byte. The access with the
smaller offset is the lower one, and of two equal offsets the first. -/
def disjoint (first second : SingleBaseAccess) : Bool :=
  !first.scalable && !second.scalable && first.sameBaseRegister second &&
    if first.offset.toInt ≤ second.offset.toInt then first.endsBefore second
    else second.endsBefore first

end SingleBaseAccess

/-- The access itself, when it has exactly one base. -/
def MemoryAccess.single (access : MemoryAccess) : Answer SingleBaseAccess :=
  match access.bases with
  | [base] => .known ⟨base, access.offset, access.scalable, access.width⟩
  | _ => .silent

/-- How a target answers the queries about its instructions. -/
structure Target where
  addImmediate : Instr → Register → Answer AddImmediate
  memoryAccess : Instr → Answer MemoryAccess
  copy : Instr → Answer RegisterCopy := fun _ => .silent
  loadSlot : Instr → Answer SlotAccess := fun _ => .silent
  storeSlot : Instr → Answer SlotAccess := fun _ => .silent

namespace Target

/-- The memory access of an instruction, when it has exactly one base. -/
def singleBaseAccess (target : Target) (instr : Instr) : Answer SingleBaseAccess :=
  (target.memoryAccess instr).andThen MemoryAccess.single

/-- Whether two instructions provably touch no common byte. -/
def disjoint (target : Target) (first second : Instr) : Bool :=
  match (target.singleBaseAccess first).value?, (target.singleBaseAccess second).value? with
  | some left, some right => left.disjoint right
  | _, _ => false

end Target

/-- The answers of a target to every query about one instruction. -/
structure Survey where
  addImmediates : List (Answer AddImmediate)
  memoryAccess : Answer MemoryAccess
  singleBaseAccess : Answer SingleBaseAccess
  copy : Answer RegisterCopy
  loadSlot : Answer SlotAccess
  storeSlot : Answer SlotAccess

/-- Ask every query, the add-immediate query once for each of the given registers. -/
def Target.survey (target : Target) (instr : Instr) (registers : List Register) : Survey where
  addImmediates := registers.map (target.addImmediate instr)
  memoryAccess := target.memoryAccess instr
  singleBaseAccess := target.singleBaseAccess instr
  copy := target.copy instr
  loadSlot := target.loadSlot instr
  storeSlot := target.storeSlot instr

/-- The declines of the queries in the order in which they were asked. -/
def Survey.trace (survey : Survey) : List Decline :=
  survey.addImmediates.flatMap Answer.trace ++ survey.memoryAccess.trace ++
    survey.singleBaseAccess.trace ++ survey.copy.trace ++ survey.loadSlot.trace ++
    survey.storeSlot.trace

end RiscvFacts
