import Mathlib.Algebra.Group.Int.Defs
import RiscvFacts.Proofs.Instr.Check

/-!
# Which instructions can be built, and why others cannot

The operands of a well-formed instruction fill the places of its layout, and each of
them fits its place. Here this is said place by place, apart from the slots that the
check consults (`Opcode.Fits`). Building succeeds exactly for the well-formed
instructions; otherwise its fault is a wrong number of operands, or else what is wrong
with the leftmost operand that does not fit (`build_outcome`).
-/

namespace RiscvFacts

namespace Operand

/-- Whether an operand is a register of a file. -/
def IsRegisterOf (file : RegisterFile) (operand : Operand) : Prop :=
  ∃ held, operand = .register held ∧ held.file = file

/-- Whether an operand is an immediate from `low` up to, and not including, `high`. -/
def IsImmediateIn (low high : Int) (operand : Operand) : Prop :=
  ∃ value, operand = .immediate value ∧ low ≤ value.toInt ∧ value.toInt < high

/-- Whether an operand is a symbol. -/
def IsSymbol (operand : Operand) : Prop := ∃ name addend, operand = .symbol name addend

/-- Whether an operand is a stack slot. -/
def IsStackSlot (operand : Operand) : Prop := ∃ index, operand = .stackSlot index

end Operand

/-- Whether a layout has an immediate in a place. -/
def Layout.wantsImmediate : Layout → Nat → Bool
  | .regImm, 1 | .regRegImm, 2 | .valueBaseOffset, 2 => true
  | _, _ => false

namespace Opcode

/-- Whether an operand fits the last place of register-immediate arithmetic: a shift amount is
less than the number of bits that are shifted, and any other immediate has twelve bits. -/
def FitsArithmetic (xlen : Xlen) (opcode : Opcode) (operand : Operand) : Prop :=
  match opcode with
  | .slli | .srli | .srai => operand.IsImmediateIn 0 xlen.bits
  | .slliw | .srliw | .sraiw => operand.IsImmediateIn 0 32
  | _ => operand.IsImmediateIn (-2048) 2048

/-- Whether an operand fits a place of the opcode's layout. -/
def Fits (xlen : Xlen) (opcode : Opcode) (index : Nat) (operand : Operand) : Prop :=
  match opcode.info.layout, index with
  | _, 0 => operand.IsRegisterOf opcode.info.valueFile
  | .regImm, 1 => operand.IsImmediateIn (-2 ^ 19) (2 ^ 20)
  | .regRegImm, 1 => operand.IsRegisterOf .gpr
  | .regRegImm, 2 => opcode.FitsArithmetic xlen operand
  | .regRegReg, 1 | .regRegReg, 2 => operand.IsRegisterOf opcode.info.valueFile
  | .valueBaseOffset, 1 => operand.IsRegisterOf .gpr ∨ operand.IsStackSlot ∨ operand.IsSymbol
  | .valueBaseOffset, 2 => operand.IsImmediateIn (-2048) 2048 ∨ operand.IsSymbol
  | .vectorUnitStride, 1 | .vectorStrided, 1 | .vectorIndexed, 1 => operand.IsRegisterOf .gpr
  | .vectorStrided, 2 => operand.IsRegisterOf .gpr
  | .vectorIndexed, 2 => operand.IsRegisterOf .vr
  | _, _ => False

/-- The file of the register in a place of the opcode's layout, where it has one. -/
def fileAt (opcode : Opcode) (index : Nat) : RegisterFile :=
  match opcode.info.layout, index with
  | _, 0 | .regRegReg, _ => opcode.info.valueFile
  | .vectorIndexed, 2 => .vr
  | _, _ => .gpr

/-- What is wrong with an operand that does not fit a place for registers of a file: its form, or
else the file of its register. -/
def registerMisfit (opcode : Opcode) (index : Nat) (file : RegisterFile) : Operand → Fault
  | .register held => .registerFile opcode index file held.file
  | operand => .operandKind opcode index .register operand.kind

/-- What is wrong with an operand that does not fit a place for immediates: its form, or else the
value of its immediate. -/
def immediateMisfit (opcode : Opcode) (index : Nat) : Operand → Fault
  | .immediate value => .immediateRange opcode value
  | operand => .operandKind opcode index .immediate operand.kind

/-- What is wrong with an operand that does not fit its place. -/
def misfit (opcode : Opcode) (index : Nat) (operand : Operand) : Fault :=
  if opcode.info.layout.wantsImmediate index then opcode.immediateMisfit index operand
  else opcode.registerMisfit index (opcode.fileAt index) operand

end Opcode

namespace Slot

variable {opcode : Opcode} {index start : Nat} {slot : Slot} {operand : Operand} {fault : Fault}
  {slots : List Slot} {operands : List Operand}

/-- What is wrong with the operand at an index, if there are an operand and a slot for it. -/
def faultAt? (opcode : Opcode) (start : Nat) (slots : List Slot) (operands : List Operand)
    (index : Nat) : Option Fault :=
  match slots[index]?, operands[index]? with
  | some slot, some operand => slot.fault? opcode (start + index) operand
  | _, _ => none

/-- The first operand stands in the first slot. -/
theorem faultAt?_zero :
    faultAt? opcode start (slot :: slots) (operand :: operands) 0 =
      slot.fault? opcode start operand := rfl

/-- The operands behind the first stand in the slots behind the first. -/
theorem faultAt?_succ :
    faultAt? opcode start (slot :: slots) (operand :: operands) (index + 1) =
      faultAt? opcode (start + 1) slots operands index := by
  simp only [faultAt?, List.getElem?_cons_succ, Nat.add_assoc, Nat.add_comm 1]

/-- The first fault is that of an operand before which no other has one. -/
theorem firstFault?_eq_some_iff :
    firstFault? opcode start slots operands = some fault ↔
      ∃ index, faultAt? opcode start slots operands index = some fault ∧
        ∀ earlier < index, faultAt? opcode start slots operands earlier = none := by
  induction slots generalizing start operands with
  | nil => simp [firstFault?, faultAt?]
  | cons slot slots inductionHypothesis =>
      cases operands with
      | nil => simp [firstFault?, faultAt?]
      | cons operand operands =>
          -- Either the first operand is at fault, or it is not and the rest decides.
          rw [firstFault?, ← Nat.or_exists_add_one]
          simp only [Nat.forall_lt_succ_left, faultAt?_zero, faultAt?_succ]
          cases slot.fault? opcode start operand with
          | some found => simp
          | none => simpa using inductionHypothesis

/-- There is no first fault exactly when no operand has one. -/
theorem firstFault?_eq_none_iff_faultAt? :
    firstFault? opcode start slots operands = none ↔
      ∀ index, faultAt? opcode start slots operands index = none := by
  induction slots generalizing start operands with
  | nil => simp [firstFault?, faultAt?]
  | cons slot slots inductionHypothesis =>
      cases operands with
      | nil => simp [firstFault?, faultAt?]
      | cons operand operands =>
          rw [firstFault?, Option.or_eq_none_iff, ← Nat.and_forall_add_one]
          simp only [faultAt?_zero, faultAt?_succ, inductionHypothesis]

/-- A place for registers of a file is at fault unless the operand is one. -/
theorem fault?_register {file : RegisterFile} :
    (register file).fault? opcode index operand = some fault ↔
      ¬ operand.IsRegisterOf file ∧ fault = opcode.registerMisfit index file operand := by
  cases operand <;>
    simp [fault?, registerFault?, Operand.IsRegisterOf, Opcode.registerMisfit, @eq_comm _ fault]

/-- A place for immediates of a range is at fault unless the operand is one. -/
theorem fault?_immediate {range : ImmediateRange} :
    (immediate range).fault? opcode index operand = some fault ↔
      ¬ operand.IsImmediateIn range.low range.high ∧
        fault = opcode.immediateMisfit index operand := by
  cases operand <;>
    simp [fault?, immediateFault?, Operand.IsImmediateIn, Opcode.immediateMisfit,
      @eq_comm _ fault]

/-- A base address is at fault unless it is an integer register, a stack slot or a symbol. -/
theorem fault?_addressBase :
    addressBase.fault? opcode index operand = some fault ↔
      ¬ (operand.IsRegisterOf .gpr ∨ operand.IsStackSlot ∨ operand.IsSymbol) ∧
        fault = opcode.registerMisfit index .gpr operand := by
  cases operand <;>
    simp [fault?, registerFault?, Operand.IsRegisterOf, Operand.IsStackSlot, Operand.IsSymbol,
      Opcode.registerMisfit, @eq_comm _ fault]

/-- An offset is at fault unless it is an immediate of twelve bits or a symbol. -/
theorem fault?_addressOffset :
    addressOffset.fault? opcode index operand = some fault ↔
      ¬ (operand.IsImmediateIn (-2048) 2048 ∨ operand.IsSymbol) ∧
        fault = opcode.immediateMisfit index operand := by
  cases operand <;>
    simp [fault?, immediateFault?, Operand.IsImmediateIn, Operand.IsSymbol,
      Opcode.immediateMisfit, ImmediateRange.signed12, @eq_comm _ fault]

end Slot

namespace Opcode

variable {xlen : Xlen} {opcode : Opcode} {index : Nat} {slot : Slot} {operand : Operand}
  {fault : Fault}

/-- The upper immediates are the immediates that follow a single register. -/
theorem immediateRange_of_regImm (layout : opcode.info.layout = .regImm) :
    opcode.immediateRange xlen = ⟨-2 ^ 19, 2 ^ 20⟩ := by
  cases opcode with
  | vector direction addressing width =>
      cases addressing <;> cases layout
  | _ => first | rfl | cases layout

/-- The immediates of arithmetic lie in the range of the opcode. -/
theorem fitsArithmetic_iff (layout : opcode.info.layout = .regRegImm) :
    opcode.FitsArithmetic xlen operand ↔
      operand.IsImmediateIn (opcode.immediateRange xlen).low
        (opcode.immediateRange xlen).high := by
  cases opcode with
  | vector direction addressing width =>
      cases addressing <;> cases layout
  | _ => first | exact Iff.rfl | cases layout

/-- An operand is at fault exactly when it does not fit the place that its slot stands for. -/
theorem fault?_of_slots (inPlace : (opcode.slots xlen)[index]? = some slot) :
    slot.fault? opcode index operand = some fault ↔
      ¬ opcode.Fits xlen index operand ∧ fault = opcode.misfit index operand := by
  have upper := @immediateRange_of_regImm xlen opcode
  have arithmetic := @fitsArithmetic_iff xlen opcode operand
  -- In each place of each layout there is a slot of one of four forms.
  cases layout : opcode.info.layout
  all_goals
    simp only [slots, layout] at inPlace
    rcases index with _ | _ | _ | index
  all_goals cases inPlace
  all_goals
    simp [Slot.fault?_register, Slot.fault?_immediate, Slot.fault?_addressBase,
      Slot.fault?_addressOffset, Fits, misfit, fileAt, Layout.wantsImmediate, layout, upper,
      arithmetic]

end Opcode

namespace Instr

variable {xlen : Xlen} {instr : Instr} {index : Nat} {operand : Operand} {fault : Fault}

/-- Whether the operands of an instruction fill the places of its layout and fit them. -/
structure WellFormed (xlen : Xlen) (instr : Instr) : Prop where
  count : instr.operands.length = instr.opcode.info.layout.arity
  fits : ∀ index operand, instr.operands[index]? = some operand →
    instr.opcode.Fits xlen index operand

/-- Whether an operand is the leftmost one that does not fit its place. -/
structure FirstMisfit (xlen : Xlen) (instr : Instr) (index : Nat) (operand : Operand) : Prop where
  there : instr.operands[index]? = some operand
  misfits : ¬ instr.opcode.Fits xlen index operand
  before : ∀ earlier < index, ∀ operand, instr.operands[earlier]? = some operand →
    instr.opcode.Fits xlen earlier operand

/-- Every operand of an instruction with the right number of them has a slot. -/
theorem exists_slot (xlen : Xlen) (count : instr.operands.length = instr.opcode.info.layout.arity)
    (there : instr.operands[index]? = some operand) :
    ∃ slot, (instr.opcode.slots xlen)[index]? = some slot := by
  have within : index < (instr.opcode.slots xlen).length := by
    obtain ⟨within, -⟩ := List.getElem?_eq_some_iff.mp there
    rwa [Opcode.length_slots, ← count]
  exact ⟨_, List.getElem?_eq_getElem within⟩

/-- The check finds fault with an operand exactly when it does not fit its place. -/
theorem faultAt?_eq_some_iff (count : instr.operands.length = instr.opcode.info.layout.arity)
    (there : instr.operands[index]? = some operand) :
    Slot.faultAt? instr.opcode 0 (instr.opcode.slots xlen) instr.operands index = some fault ↔
      ¬ instr.opcode.Fits xlen index operand ∧ fault = instr.opcode.misfit index operand := by
  obtain ⟨slot, inPlace⟩ := exists_slot xlen count there
  simp only [Slot.faultAt?, inPlace, there, Nat.zero_add]
  exact Opcode.fault?_of_slots inPlace

/-- The check finds no fault with an operand exactly when it fits its place. -/
theorem faultAt?_eq_none_iff (count : instr.operands.length = instr.opcode.info.layout.arity)
    (there : instr.operands[index]? = some operand) :
    Slot.faultAt? instr.opcode 0 (instr.opcode.slots xlen) instr.operands index = none ↔
      instr.opcode.Fits xlen index operand := by
  rw [Option.eq_none_iff_forall_ne_some]
  simp only [ne_eq, faultAt?_eq_some_iff count there, not_and]
  constructor
  · intro noFault
    exact Classical.byContradiction fun misfits => noFault _ misfits rfl
  · intro fits _ misfits
    exact absurd fits misfits

/-- With the right number of operands, the fault of an instruction is what is wrong with the
leftmost operand that does not fit. -/
theorem fault?_eq_some_iff_firstMisfit
    (count : instr.operands.length = instr.opcode.info.layout.arity) :
    instr.fault? xlen = some fault ↔
      ∃ index operand, instr.FirstMisfit xlen index operand ∧
        fault = instr.opcode.misfit index operand := by
  simp only [fault?, ne_eq, count, not_true_eq_false, if_false]
  rw [Slot.firstFault?_eq_some_iff]
  constructor
  · rintro ⟨index, atIndex, before⟩
    cases there : instr.operands[index]? with
    | none => simp [Slot.faultAt?, there] at atIndex
    | some operand =>
        obtain ⟨misfits, rfl⟩ := (faultAt?_eq_some_iff count there).mp atIndex
        refine ⟨index, operand, ⟨there, misfits, ?_⟩, rfl⟩
        intro earlier isEarlier operand there
        exact (faultAt?_eq_none_iff count there).mp (before earlier isEarlier)
  · rintro ⟨index, operand, first, rfl⟩
    refine ⟨index, (faultAt?_eq_some_iff count first.there).mpr ⟨first.misfits, rfl⟩, ?_⟩
    intro earlier isEarlier
    cases there : instr.operands[earlier]? with
    | none => simp [Slot.faultAt?, there]
    | some operand =>
        exact (faultAt?_eq_none_iff count there).mpr (first.before earlier isEarlier operand there)

/-- With the right number of operands, an instruction is without fault when they fit. -/
theorem fault?_eq_none_iff_fits
    (count : instr.operands.length = instr.opcode.info.layout.arity) :
    instr.fault? xlen = none ↔
      ∀ index operand, instr.operands[index]? = some operand →
        instr.opcode.Fits xlen index operand := by
  simp only [fault?, ne_eq, count, not_true_eq_false, if_false]
  rw [Slot.firstFault?_eq_none_iff_faultAt?]
  refine forall_congr' fun index => ?_
  cases there : instr.operands[index]? with
  | none => simp [Slot.faultAt?, there]
  | some operand => simp [faultAt?_eq_none_iff count there]

/-- With a wrong number of operands, that is the fault of an instruction. -/
theorem fault?_of_count (miscount : instr.operands.length ≠ instr.opcode.info.layout.arity) :
    instr.fault? xlen = some (.operandCount instr.opcode instr.opcode.info.layout.arity
      instr.operands.length) :=
  if_pos miscount

/-- Building yields the instruction itself exactly when it is well formed. Otherwise the fault is
a wrong number of operands, or else what is wrong with the leftmost operand that does not fit. -/
theorem build_outcome (xlen : Xlen) (instr : Instr) :
    (∀ result, instr.build xlen = .ok result ↔ result = instr ∧ instr.WellFormed xlen) ∧
      ∀ fault, instr.build xlen = .error fault ↔
        instr.operands.length ≠ instr.opcode.info.layout.arity ∧
            fault = .operandCount instr.opcode instr.opcode.info.layout.arity
              instr.operands.length ∨
          instr.operands.length = instr.opcode.info.layout.arity ∧
            ∃ index operand, instr.FirstMisfit xlen index operand ∧
              fault = instr.opcode.misfit index operand := by
  by_cases count : instr.operands.length = instr.opcode.info.layout.arity
  · constructor
    · intro result
      rw [build_eq_ok_iff, fault?_eq_none_iff_fits count, and_comm]
      exact and_congr_right' ⟨fun fits => ⟨count, fits⟩, WellFormed.fits⟩
    · intro fault
      rw [build_eq_error_iff, fault?_eq_some_iff_firstMisfit count]
      simp [count]
  · constructor
    · intro result
      rw [build_eq_ok_iff, fault?_of_count count]
      exact iff_of_false (fun built => nomatch built.1) fun wellFormed => count wellFormed.2.count
    · intro fault
      rw [build_eq_error_iff, fault?_of_count count]
      simp [count, eq_comm]

/-- Of two operands that do not fit, the fault names the one on the left. -/
example : build .rv32 ⟨.slli, [.register (.x 1), .register (.f 2), .immediate 32], []⟩ =
    .error (.registerFile .slli 1 .gpr .fpr) := by
  decide

end Instr

end RiscvFacts
