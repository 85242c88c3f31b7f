import RiscvFacts.Proofs.Query.Disjoint
import RiscvFacts.Query.Riscv
import RiscvFacts.Query.Target

/-!
# The queries and the register width

The register width reaches the queries only through the classification of an opcode,
which a target knows if it has the opcode. So an instruction whose opcode exists with
registers of both widths has the same answers and the same explanations on both, and
nothing is known with 32-bit registers about an instruction that needs wider ones
(`answers_independent_of_width`).
-/

namespace RiscvFacts

/-- Whether no answer of a survey is known. -/
structure Survey.KnowsNothing (survey : Survey) : Prop where
  addImmediates : ∀ answer ∈ survey.addImmediates, answer.value? = none
  memoryAccess : survey.memoryAccess.value? = none
  singleBaseAccess : survey.singleBaseAccess.value? = none
  copy : survey.copy.value? = none
  loadSlot : survey.loadSlot.value? = none
  storeSlot : survey.storeSlot.value? = none

namespace Riscv

variable {xlen other : Xlen} {instr : Instr}

/-- Targets that classify an instruction alike give the same answers about it. -/
theorem survey_congr (same : info xlen instr = info other instr) (registers : List Register) :
    (target xlen).survey instr registers = (target other).survey instr registers := by
  have sums : addImmediate xlen instr = addImmediate other instr := by
    funext register
    simp only [addImmediate, same]
  simp only [Target.survey, target, Target.singleBaseAccess, sums, memoryAccess, copy, loadSlot,
    storeSlot, same]

/-- The targets of both widths classify an instruction alike, unless it needs wide registers. -/
theorem info_rv32_eq (everywhere : instr.opcode.info.rv64Only = false) :
    info .rv32 instr = info .rv64 instr := by
  simp [info, Opcode.isAvailable, OpcodeInfo.isAvailable, everywhere]

/-- Nothing is known about an instruction whose classification is not. -/
theorem knowsNothing_of_info {reason : Decline} (unclassified : info xlen instr = .declined reason)
    (registers : List Register) : ((target xlen).survey instr registers).KnowsNothing := by
  constructor
  case addImmediates =>
    intro answer asked
    obtain ⟨register, -, rfl⟩ := List.mem_map.mp asked
    simp only [target, addImmediate, unclassified]
    split <;> rfl
  case singleBaseAccess =>
    simp only [Target.survey, target, Target.singleBaseAccess, memoryAccess, unclassified]
    rfl
  all_goals
    simp only [Target.survey, target, memoryAccess, copy, loadSlot, storeSlot, unclassified]
    rfl

/-- With 32-bit registers an instruction that needs wider ones is not classified. -/
theorem info_rv32_eq_declined (wideOnly : instr.opcode.info.rv64Only = true) :
    info .rv32 instr = .declined (.notAvailable instr.opcode .rv32) := by
  simp [info, Opcode.isAvailable, OpcodeInfo.isAvailable, wideOnly, Xlen.is64, Xlen.bits]

/-- The register width matters to the queries only for the opcodes that exist with one of the
widths. About all other instructions every query gives the same answer on both targets, and so
does the verdict on every pair of them. About an instruction that needs wide registers the other
target knows nothing, and it finds no instruction disjoint from it. -/
theorem answers_independent_of_width (instr : Instr) :
    (instr.opcode.info.rv64Only = false →
      (∀ registers,
        (target .rv32).survey instr registers = (target .rv64).survey instr registers) ∧
      ∀ other, other.opcode.info.rv64Only = false →
        (target .rv32).disjoint instr other = (target .rv64).disjoint instr other) ∧
    (instr.opcode.info.rv64Only = true →
      (∀ registers, ((target .rv32).survey instr registers).KnowsNothing) ∧
      ∀ other, (target .rv32).disjoint instr other = false ∧
        (target .rv32).disjoint other instr = false) := by
  constructor
  · intro everywhere
    have same := survey_congr (info_rv32_eq everywhere)
    refine ⟨same, ?_⟩
    intro other otherEverywhere
    have sameOther := survey_congr (info_rv32_eq otherEverywhere)
    exact Target.disjoint_congr (congrArg Survey.singleBaseAccess (same []))
      (congrArg Survey.singleBaseAccess (sameOther []))
  · intro wideOnly
    have nothing := knowsNothing_of_info (info_rv32_eq_declined wideOnly)
    refine ⟨nothing, ?_⟩
    intro other
    exact ⟨Target.disjoint_eq_false_of_unknown (.inl (nothing []).singleBaseAccess),
      Target.disjoint_eq_false_of_unknown (.inr (nothing []).singleBaseAccess)⟩

/-- With 64-bit registers `ld ra, 8(sp)` and `lw ra, 0(sp)` are disjoint. With 32-bit registers the
same is known as before about the second, and nothing about the first. -/
theorem answers_of_double_word :
    let double : Instr :=
      ⟨.ld, [.register (.x 1), .register (.x 2), .immediate 8], [.load 8]⟩
    let single : Instr :=
      ⟨.lw, [.register (.x 1), .register (.x 2), .immediate 0], [.load 4]⟩
    (target .rv64).disjoint double single = true ∧
      single.opcode.info.rv64Only = false ∧
      (target .rv32).survey single [.x 1] = (target .rv64).survey single [.x 1] ∧
      double.opcode.info.rv64Only = true ∧
      ((target .rv32).survey double [.x 1]).KnowsNothing ∧
      (target .rv32).disjoint double single = false := by
  intro double single
  exact ⟨by decide, rfl, ((answers_independent_of_width single).1 rfl).1 [.x 1], rfl,
    ((answers_independent_of_width double).2 rfl).1 [.x 1],
    (((answers_independent_of_width double).2 rfl).2 single).1⟩

end Riscv

end RiscvFacts
