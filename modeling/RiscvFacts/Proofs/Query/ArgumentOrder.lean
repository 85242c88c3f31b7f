import RiscvFacts.Proofs.Query.Disjoint
import RiscvFacts.Proofs.Query.MemoryAccess

/-!
# Disjointness and the order of its arguments

That two accesses have no byte in common does not depend on which of them is named
first. The comparison looks at the end of the lower access only, and of two
accesses at the same offset it takes the first one for the lower. If one of these
is empty and the other is not, the verdict depends on their order, and in no other
case does it (`disjoint_swap_iff`). Targets whose accesses have at least one byte,
as those of RISC-V, are not affected.
-/

namespace RiscvFacts

namespace SingleBaseAccess

variable {first second : SingleBaseAccess}

/-- Whether two accesses have fixed offsets from the same register, so that their ends decide. -/
structure Comparable (first second : SingleBaseAccess) : Prop where
  firstFixed : first.scalable = false
  secondFixed : second.scalable = false
  sameBase : first.sameBaseRegister second = true

/-- Having the same register as the base does not depend on the order. -/
theorem sameBaseRegister_comm :
    first.sameBaseRegister second = second.sameBaseRegister first := by
  rw [Bool.eq_iff_iff, sameBaseRegister_iff, sameBaseRegister_iff]
  exact exists_congr fun _ => and_comm

/-- Being comparable does not depend on the order. -/
theorem Comparable.symm (comparable : first.Comparable second) : second.Comparable first :=
  ⟨comparable.secondFixed, comparable.firstFixed,
    sameBaseRegister_comm.trans comparable.sameBase⟩

/-- Comparable accesses are disjoint when the lower one ends before the other begins. -/
theorem Comparable.disjoint_eq (comparable : first.Comparable second) :
    first.disjoint second =
      if first.offset.toInt ≤ second.offset.toInt then first.endsBefore second
      else second.endsBefore first := by
  obtain ⟨firstFixed, secondFixed, sameBase⟩ := comparable
  simp [disjoint, firstFixed, secondFixed, sameBase]

/-- Only comparable accesses are found disjoint. -/
theorem comparable_of_disjoint (apart : first.disjoint second = true) :
    first.Comparable second := by
  simp only [disjoint, Bool.and_eq_true, Bool.not_eq_true'] at apart
  obtain ⟨⟨⟨firstFixed, secondFixed⟩, sameBase⟩, -⟩ := apart
  exact ⟨firstFixed, secondFixed, sameBase⟩

/-- Accesses that are not comparable are found disjoint in neither order. -/
theorem disjoint_swap_of_not_comparable (incomparable : ¬ first.Comparable second) :
    first.disjoint second = second.disjoint first := by
  have forwards : ¬ first.disjoint second = true := fun apart =>
    incomparable (comparable_of_disjoint apart)
  have backwards : ¬ second.disjoint first = true := fun apart =>
    incomparable (comparable_of_disjoint apart).symm
  rw [Bool.not_eq_true] at forwards backwards
  rw [forwards, backwards]

/-- An access ends before one at the same offset exactly when it is empty. -/
theorem endsBefore_of_offset_eq (sameOffset : first.offset = second.offset) :
    first.endsBefore second = decide (first.width = 0) := by
  rw [endsBefore, sameOffset, decide_eq_decide, ← UInt64.toNat_inj, UInt64.toNat_zero]
  omega

/-- The comparison ignores the order of two accesses, unless they are at the same offset from the
same register and exactly one of them is empty. -/
theorem disjoint_swap_iff :
    first.disjoint second = second.disjoint first ↔
      (first.Comparable second → first.offset = second.offset →
        (first.width = 0 ↔ second.width = 0)) := by
  by_cases comparable : first.Comparable second
  · rw [comparable.disjoint_eq, comparable.symm.disjoint_eq]
    by_cases sameOffset : first.offset = second.offset
    · simp [sameOffset, comparable, endsBefore_of_offset_eq sameOffset,
        endsBefore_of_offset_eq sameOffset.symm]
    · -- At different offsets both orders compare the same end.
      have different : first.offset.toInt ≠ second.offset.toInt :=
        fun same => sameOffset (Int64.toInt_inj.mp same)
      rcases Int.lt_or_gt_of_ne different with lower | higher
      · simp [sameOffset, Int.le_of_lt lower, Int.not_le.mpr lower]
      · simp [sameOffset, Int.le_of_lt higher, Int.not_le.mpr higher]
  · simp [disjoint_swap_of_not_comparable comparable, comparable]

end SingleBaseAccess

namespace Target

variable {target : Target} {first second : Instr}

/-- The verdict on two instructions ignores their order when the comparison of their accesses
does. Without both accesses it is the same in any order. -/
theorem disjoint_swap_iff_of_known :
    target.disjoint first second = target.disjoint second first ↔
      ∀ left right, target.singleBaseAccess first = .known left →
        target.singleBaseAccess second = .known right →
          left.disjoint right = right.disjoint left := by
  unfold disjoint
  cases target.singleBaseAccess first <;> cases target.singleBaseAccess second <;>
    simp [Answer.value?]

/-- The verdict of a target ignores the order of two instructions, unless their accesses are at
the same offset from the same register and exactly one of them is empty. -/
theorem disjoint_comm_iff (target : Target) (first second : Instr) :
    target.disjoint first second = target.disjoint second first ↔
      ∀ left right, target.singleBaseAccess first = .known left →
        target.singleBaseAccess second = .known right →
          left.Comparable right → left.offset = right.offset →
            (left.width = 0 ↔ right.width = 0) := by
  rw [disjoint_swap_iff_of_known]
  simp only [SingleBaseAccess.disjoint_swap_iff]

/-- An empty access is found disjoint from four bytes at the same place, while these are not
found disjoint from it. -/
theorem disjoint_empty_first_only :
    let target : Target :=
      { addImmediate := fun _ _ => .silent
        memoryAccess := fun instr =>
          .known ⟨[.register (.x 2)], 0, false, if instr = .start .lb then 0 else 4⟩ }
    target.disjoint (.start .lb) (.start .lh) = true ∧
      target.disjoint (.start .lh) (.start .lb) = false := by
  decide

end Target

/-- The verdict of the RISC-V targets never depends on the order, since their accesses have at
least one byte. -/
theorem Riscv.disjoint_swap (xlen : Xlen) (first second : Instr) :
    (target xlen).disjoint first second = (target xlen).disjoint second first := by
  have wide {instr : Instr} {access : SingleBaseAccess}
      (known : (target xlen).singleBaseAccess instr = .known access) : access.width ≠ 0 := by
    obtain ⟨-, base, offset, width, shape, rfl⟩ := singleBaseAccess_eq_known_iff.mp known
    have atLeastOne := (Opcode.width_bounds shape.scalar).1
    rintro rfl
    simp at atLeastOne
  rw [Target.disjoint_swap_iff_of_known]
  intro left right leftKnown rightKnown
  rw [SingleBaseAccess.disjoint_swap_iff]
  intro _ _
  exact iff_of_false (wide leftKnown) (wide rightKnown)

end RiscvFacts
