import RiscvFacts.Proofs.Instr.Decode
import RiscvFacts.Proofs.Query.Disjoint
import RiscvFacts.Proofs.Query.MemoryAccess

/-!
# Disjointness in the address space

Addresses wrap around at the register width, while accesses are compared as
intervals of integers. An instruction that was built or decoded stays close to its
base, and positions that are close to each other have different addresses whatever
the base is. Hence the comparison is right about the addresses, too: it is sound,
and among accesses from one register it is complete (`disjoint_iff_no_common_address`).
-/

namespace RiscvFacts

/-- Whether building or decoding yields an instruction. -/
def Instr.IsProduced (xlen : Xlen) (instr : Instr) : Prop :=
  (∃ draft : Instr, draft.build xlen = .ok instr) ∨ ∃ word, Instr.decodeWord xlen word = .ok instr

/-- Whether an access has a fixed place close to its base. -/
structure SingleBaseAccess.IsNear (access : SingleBaseAccess) : Prop where
  fixed : access.scalable = false
  offset : -2048 ≤ access.offset.toInt ∧ access.offset.toInt < 2048
  width : 1 ≤ access.width.toNat ∧ access.width.toNat ≤ 16

namespace SingleBaseAccess

variable {xlen : Xlen} {access first second : SingleBaseAccess}

/-- The address of a position, counted from a base. Addresses wrap around. -/
def address (base : BitVec xlen.bits) (position : Int) : BitVec xlen.bits :=
  BitVec.ofInt xlen.bits (base.toNat + position)

/-- Whether an access touches an address when the registers have the given values. -/
def Touches (values : Register → BitVec xlen.bits) (access : SingleBaseAccess)
    (touched : BitVec xlen.bits) : Prop :=
  ∃ held, access.base.register? = some held ∧
    ∃ index < access.width.toNat, touched = address (values held) (access.offset.toInt + index)

/-- Positions that are close to each other have different addresses. -/
theorem address_inj {base : BitVec xlen.bits} {left right : Int}
    (leftNear : -2048 ≤ left ∧ left < 4096) (rightNear : -2048 ≤ right ∧ right < 4096) :
    address base left = address base right ↔ left = right := by
  rw [address, address, ← BitVec.toNat_inj, BitVec.toNat_ofInt, BitVec.toNat_ofInt]
  -- The base cancels, and what is left of the difference is less than `2 ^ 32`.
  cases xlen <;> simp only [Xlen.bits] <;> omega

/-- An access touches the addresses of the positions that it covers. -/
theorem touches_iff {values : Register → BitVec xlen.bits} {touched : BitVec xlen.bits}
    {held : Register} (based : access.base.register? = some held) :
    access.Touches values touched ↔
      ∃ position, access.Covers position ∧ touched = address (values held) position := by
  constructor
  · rintro ⟨other, sameBase, index, inWidth, rfl⟩
    cases sameBase.symm.trans based
    exact ⟨_, ⟨by omega, by omega⟩, rfl⟩
  · rintro ⟨position, ⟨afterStart, beforeEnd⟩, rfl⟩
    obtain ⟨index, split⟩ := Int.le.dest afterStart
    refine ⟨held, based, index, by omega, ?_⟩
    rw [split]

/-- The positions that a near access covers are close to each other. -/
theorem IsNear.bounds {position : Int} (near : access.IsNear) (covered : access.Covers position) :
    -2048 ≤ position ∧ position < 4096 := by
  obtain ⟨-, ⟨low, high⟩, -, narrow⟩ := near
  obtain ⟨afterStart, beforeEnd⟩ := covered
  omega

/-- Near accesses from the same register have a common address exactly when they have a common
position. -/
theorem exists_touches_iff (values : Register → BitVec xlen.bits) (firstNear : first.IsNear)
    (secondNear : second.IsNear) (same : first.sameBaseRegister second = true) :
    (∃ touched, first.Touches values touched ∧ second.Touches values touched) ↔
      ∃ position, first.Covers position ∧ second.Covers position := by
  obtain ⟨held, firstBased, secondBased⟩ := sameBaseRegister_iff.mp same
  constructor
  · rintro ⟨touched, firstTouches, secondTouches⟩
    obtain ⟨left, leftCovered, rfl⟩ := (touches_iff firstBased).mp firstTouches
    obtain ⟨right, rightCovered, sameAddress⟩ := (touches_iff secondBased).mp secondTouches
    have samePosition := (address_inj (firstNear.bounds leftCovered)
      (secondNear.bounds rightCovered)).mp sameAddress
    exact ⟨left, leftCovered, samePosition ▸ rightCovered⟩
  · rintro ⟨position, firstCovered, secondCovered⟩
    exact ⟨address (values held) position,
      (touches_iff firstBased).mpr ⟨position, firstCovered, rfl⟩,
      (touches_iff secondBased).mpr ⟨position, secondCovered, rfl⟩⟩

/-- The comparison finds near accesses disjoint exactly when they are from the same register and
have no common address. -/
theorem disjoint_iff_no_common_address (values : Register → BitVec xlen.bits)
    (firstNear : first.IsNear) (secondNear : second.IsNear) :
    first.disjoint second = true ↔
      first.sameBaseRegister second = true ∧
        ¬ ∃ touched, first.Touches values touched ∧ second.Touches values touched := by
  have firstWide : 0 < first.width.toNat := firstNear.width.1
  have secondWide : 0 < second.width.toNat := secondNear.width.1
  rw [disjoint_iff firstWide secondWide]
  constructor
  · rintro ⟨-, -, same, apart⟩
    rw [exists_touches_iff values firstNear secondNear same]
    exact ⟨same, not_exists.mpr apart⟩
  · rintro ⟨same, apart⟩
    rw [exists_touches_iff values firstNear secondNear same] at apart
    exact ⟨firstNear.fixed, secondNear.fixed, same, not_exists.mp apart⟩

end SingleBaseAccess

/-- What was built or decoded passes the check. -/
theorem Instr.IsProduced.build {xlen : Xlen} {instr : Instr} (produced : instr.IsProduced xlen) :
    instr.build xlen = .ok instr := by
  rcases produced with ⟨draft, built⟩ | ⟨word, decoded⟩
  · obtain ⟨noFault, rfl⟩ := build_eq_ok_iff.mp built
    exact built
  · exact build_of_decodeWord decoded

namespace Riscv

variable {xlen : Xlen} {instr first second : Instr}

/-- The access of an instruction that was built or decoded is near. -/
theorem isNear_of_isProduced {access : SingleBaseAccess} (produced : instr.IsProduced xlen)
    (known : (target xlen).singleBaseAccess instr = .known access) : access.IsNear := by
  obtain ⟨-, base, offset, width, ⟨scalar, ⟨value, operands⟩, -⟩, rfl⟩ :=
    singleBaseAccess_eq_known_iff.mp known
  have accepted := Instr.build_eq_ok_iff_accepts.mp produced.build
  rw [operands, Opcode.slots, (Opcode.layout_and_width_of_scalar scalar).1] at accepted
  obtain _ | ⟨-, _ | ⟨-, _ | ⟨inRange, -⟩⟩⟩ := accepted
  exact ⟨rfl, ImmediateRange.contains_iff.mp inRange, Opcode.width_bounds scalar⟩

/-- Instructions that were built or decoded and whose accesses are known are found disjoint
exactly when the accesses are from the same register and have no common address. -/
theorem disjoint_iff_of_known {left right : SingleBaseAccess}
    (values : Register → BitVec xlen.bits)
    (firstProduced : first.IsProduced xlen) (secondProduced : second.IsProduced xlen)
    (firstKnown : (target xlen).singleBaseAccess first = .known left)
    (secondKnown : (target xlen).singleBaseAccess second = .known right) :
    (target xlen).disjoint first second = true ↔
      left.sameBaseRegister right = true ∧
        ¬ ∃ touched, left.Touches values touched ∧ right.Touches values touched := by
  have firstNear := isNear_of_isProduced firstProduced firstKnown
  have secondNear := isNear_of_isProduced secondProduced secondKnown
  rw [Target.disjoint_of_known firstKnown secondKnown]
  exact SingleBaseAccess.disjoint_iff_no_common_address values firstNear secondNear

/-- Disjointness is sound and complete in the address space. Disjoint instructions that were
built or decoded touch no common address, whatever the registers hold, and two instructions with
accesses from the same register that are not disjoint do touch one. -/
theorem disjoint_sound_and_complete (values : Register → BitVec xlen.bits)
    (firstProduced : first.IsProduced xlen) (secondProduced : second.IsProduced xlen) :
    ((target xlen).disjoint first second = true →
      ∃ left right, (target xlen).singleBaseAccess first = .known left ∧
        (target xlen).singleBaseAccess second = .known right ∧
        ∀ touched, ¬ (left.Touches values touched ∧ right.Touches values touched)) ∧
      ∀ left right, (target xlen).singleBaseAccess first = .known left →
        (target xlen).singleBaseAccess second = .known right →
        left.sameBaseRegister right = true → (target xlen).disjoint first second = false →
        ∃ touched, left.Touches values touched ∧ right.Touches values touched := by
  constructor
  · intro disjoint
    obtain ⟨left, right, firstKnown, secondKnown, -⟩ := Target.disjoint_eq_true_iff.mp disjoint
    have decided := disjoint_iff_of_known values firstProduced secondProduced firstKnown secondKnown
    obtain ⟨-, apart⟩ := decided.mp disjoint
    exact ⟨left, right, firstKnown, secondKnown, not_exists.mp apart⟩
  · intro left right firstKnown secondKnown same overlapping
    have decided := disjoint_iff_of_known values firstProduced secondProduced firstKnown secondKnown
    apply Classical.byContradiction
    intro apart
    have disjoint := decided.mpr ⟨same, apart⟩
    rw [overlapping] at disjoint
    cases disjoint

/-- A word and the word after it are disjoint even where the first ends at the top of the
address space, while the upper half of the first shares an address with it. -/
theorem disjoint_across_wrap_around :
    (∃ left right, (target .rv32).singleBaseAccess (.ofWord .lw 0x00012503) = .known left ∧
        (target .rv32).singleBaseAccess (.ofWord .sw 0x00B12223) = .known right ∧
        ∀ touched, ¬ (@SingleBaseAccess.Touches .rv32 (fun _ => 0xFFFFFFFC) left touched ∧
          @SingleBaseAccess.Touches .rv32 (fun _ => 0xFFFFFFFC) right touched)) ∧
      ∃ touched,
        @SingleBaseAccess.Touches .rv32 (fun _ => 0xFFFFFFFC)
          ⟨.register (.x 2), 0, false, 4⟩ touched ∧
        @SingleBaseAccess.Touches .rv32 (fun _ => 0xFFFFFFFC)
          ⟨.register (.x 2), 2, false, 2⟩ touched := by
  have word : (Instr.ofWord .lw 0x00012503).IsProduced .rv32 := .inr ⟨0x00012503, by rfl⟩
  have next : (Instr.ofWord .sw 0x00B12223).IsProduced .rv32 := .inr ⟨0x00B12223, by rfl⟩
  have half : (Instr.ofWord .lh 0x00211503).IsProduced .rv32 := .inr ⟨0x00211503, by rfl⟩
  exact ⟨(disjoint_sound_and_complete (fun _ => 0xFFFFFFFC) word next).1 (by rfl),
    (disjoint_sound_and_complete (fun _ => 0xFFFFFFFC) word half).2 _ _ rfl rfl rfl (by rfl)⟩

end Riscv

end RiscvFacts
