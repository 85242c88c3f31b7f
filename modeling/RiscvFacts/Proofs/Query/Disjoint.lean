import RiscvFacts.Query.Target

/-!
# Disjoint accesses are disjoint intervals

Seen from its base, an access covers the bytes from its offset up to its end. The
comparison of two accesses looks at the end of the lower one only. For accesses of
at least one byte that decides whether they have a position in common
(`disjoint_iff`).
-/

namespace RiscvFacts

/-- The register of an operand is the one that it is. -/
theorem Operand.register?_eq_some_iff {operand : Operand} {held : Register} :
    operand.register? = some held ↔ operand = .register held := by
  cases operand <;> simp [register?]

namespace SingleBaseAccess

variable {first second : SingleBaseAccess}

/-- Whether an access covers a position, counted from its base. -/
def Covers (access : SingleBaseAccess) (position : Int) : Prop :=
  access.offset.toInt ≤ position ∧ position < access.offset.toInt + access.width.toNat

/-- Two accesses have the same register as their base when one register is the base of both. -/
theorem sameBaseRegister_iff :
    first.sameBaseRegister second = true ↔
      ∃ held, first.base.register? = some held ∧ second.base.register? = some held := by
  unfold sameBaseRegister
  cases first.base.register? with
  | none => simp
  | some left =>
      cases second.base.register? with
      | none => simp
      | some right => simpa using eq_comm

/-- The lower of two accesses ends before the other begins exactly when they have no common
position, if the other has at least one byte. -/
theorem endsBefore_iff (lower : first.offset.toInt ≤ second.offset.toInt)
    (wide : 0 < second.width.toNat) :
    first.endsBefore second = true ↔
      ∀ position, ¬ (first.Covers position ∧ second.Covers position) := by
  simp only [endsBefore, decide_eq_true_eq]
  constructor
  · rintro ends position ⟨⟨-, beforeEnd⟩, ⟨afterStart, -⟩⟩
    omega
  · intro apart
    by_cases ends : first.offset.toInt + first.width.toNat ≤ second.offset.toInt
    · exact ends
    · -- The second access begins inside the first one.
      exact absurd ⟨⟨lower, by omega⟩, ⟨Int.le_refl _, by omega⟩⟩ (apart second.offset.toInt)

/-- The comparison holds exactly for accesses with fixed offsets from the same register that
have no position in common. -/
theorem disjoint_iff (firstWide : 0 < first.width.toNat) (secondWide : 0 < second.width.toNat) :
    first.disjoint second = true ↔
      first.scalable = false ∧ second.scalable = false ∧ first.sameBaseRegister second = true ∧
        ∀ position, ¬ (first.Covers position ∧ second.Covers position) := by
  unfold disjoint
  by_cases lower : first.offset.toInt ≤ second.offset.toInt
  · rw [if_pos lower, Bool.and_eq_true, endsBefore_iff lower secondWide]
    simp [and_assoc]
  · have higher : second.offset.toInt ≤ first.offset.toInt := by omega
    rw [if_neg lower, Bool.and_eq_true, endsBefore_iff higher firstWide]
    simp [and_assoc, and_comm]

end SingleBaseAccess

namespace Target

variable {target : Target} {instr first second : Instr}

/-- The single-base query knows the accesses that the memory query knows with a single base. -/
theorem singleBaseAccess_eq_known_iff_memoryAccess {access : SingleBaseAccess} :
    target.singleBaseAccess instr = .known access ↔
      target.memoryAccess instr =
        .known ⟨[access.base], access.offset, access.scalable, access.width⟩ := by
  rw [singleBaseAccess, Answer.andThen_eq_known_iff]
  constructor
  · rintro ⟨⟨bases, offset, scalable, width⟩, known, single⟩
    match bases with
    | [base] =>
        cases single
        exact known
    | [] | _ :: _ :: _ => cases single
  · intro known
    exact ⟨_, known, rfl⟩

/-- Where the memory query does not know the access, the single-base query does not. -/
theorem singleBaseAccess_unknown (unknown : (target.memoryAccess instr).value? = none) :
    (target.singleBaseAccess instr).value? = none := by
  rw [Answer.value?_eq_none_iff] at unknown ⊢
  intro access known
  exact unknown _ (singleBaseAccess_eq_known_iff_memoryAccess.mp known)

/-- Instructions with known accesses are compared by their accesses. -/
theorem disjoint_of_known {left right : SingleBaseAccess}
    (firstKnown : target.singleBaseAccess first = .known left)
    (secondKnown : target.singleBaseAccess second = .known right) :
    target.disjoint first second = left.disjoint right := by
  simp only [disjoint, firstKnown, secondKnown, Answer.value?]

/-- Two instructions are disjoint when both have a single base and their accesses are. -/
theorem disjoint_eq_true_iff :
    target.disjoint first second = true ↔
      ∃ left right, target.singleBaseAccess first = .known left ∧
        target.singleBaseAccess second = .known right ∧ left.disjoint right = true := by
  unfold disjoint
  cases target.singleBaseAccess first <;> cases target.singleBaseAccess second <;>
    simp [Answer.value?]

/-- The verdict on two instructions depends only on what is known of their accesses. -/
theorem disjoint_congr {left right : Target} {first second other another : Instr}
    (sameFirst : left.singleBaseAccess first = right.singleBaseAccess other)
    (sameSecond : left.singleBaseAccess second = right.singleBaseAccess another) :
    left.disjoint first second = right.disjoint other another := by
  simp only [disjoint, sameFirst, sameSecond]

/-- Instructions are not found disjoint when the access of one of them is unknown. -/
theorem disjoint_eq_false_of_unknown
    (unknown : (target.singleBaseAccess first).value? = none ∨
      (target.singleBaseAccess second).value? = none) :
    target.disjoint first second = false := by
  rw [← Bool.not_eq_true, disjoint_eq_true_iff]
  rintro ⟨_, _, firstKnown, secondKnown, -⟩
  rcases unknown with unknown | unknown
  · rw [firstKnown] at unknown
    cases unknown
  · rw [secondKnown] at unknown
    cases unknown

end Target

end RiscvFacts
