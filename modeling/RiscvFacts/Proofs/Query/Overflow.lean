import Mathlib.Data.Set.Defs
import RiscvFacts.Proofs.Query.Disjoint

/-!
# Disjointness in bounded arithmetic

Accesses are compared by their ends, and an end is the sum of an offset and a width
of 64 bits each. Here the comparison is spelled out in integers of 128 bits, where a
sum that does not fit is refused. No offset and no width make a sum not fit, and the
verdict is the one that unbounded integers give (`Int128.disjoint?_eq`). So for
accesses of at least one byte the verdict is exact up to the ends of the ranges: it
holds when the intervals that they span have no element in common
(`Target.disjoint_iff_disjoint_spans`).
-/

namespace RiscvFacts

/-- An integer of 128 bits in two's complement. -/
abbrev Int128 := BitVec 128

namespace Int128

/-- The integer with the value of an offset. -/
def ofOffset (offset : Int64) : Int128 := offset.toBitVec.signExtend 128

/-- The integer with the value of a width. -/
def ofWidth (width : UInt64) : Int128 := width.toBitVec.setWidth 128

/-- The sum of two integers, which is refused when it does not fit. -/
def add? (left right : Int128) : Option Int128 :=
  if left.saddOverflow right then none else some (left + right)

/-- The end of an access, counted from its base. -/
def end? (access : SingleBaseAccess) : Option Int128 :=
  add? (ofOffset access.offset) (ofWidth access.width)

/-- Whether an access ends before another one begins. -/
def endsBefore? (low high : SingleBaseAccess) : Option Bool :=
  (end? low).map fun stop => stop.sle (ofOffset high.offset)

/-- Whether two accesses off the same register touch no common byte. The ends are not looked at
when an offset is scalable or the bases differ. -/
def accessesDisjoint? (first second : SingleBaseAccess) : Option Bool :=
  if first.scalable || second.scalable then some false
  else if !first.sameBaseRegister second then some false
  else if first.offset ≤ second.offset then endsBefore? first second
  else endsBefore? second first

/-- Whether two instructions provably touch no common byte. -/
def disjoint? (target : Target) (first second : Instr) : Option Bool :=
  match (target.singleBaseAccess first).value?, (target.singleBaseAccess second).value? with
  | some left, some right => accessesDisjoint? left right
  | _, _ => some false

/-- An offset keeps its value. -/
theorem toInt_ofOffset (offset : Int64) : (ofOffset offset).toInt = offset.toInt := by
  rw [ofOffset, BitVec.toInt_signExtend_of_le (by decide), Int64.toInt_toBitVec]

/-- A width keeps its value. -/
theorem toInt_ofWidth (width : UInt64) : (ofWidth width).toInt = width.toNat := by
  have bound := width.toNat_lt
  have value : (ofWidth width).toNat = width.toNat := by
    rw [ofWidth, BitVec.toNat_setWidth, UInt64.toNat_toBitVec, Nat.mod_eq_of_lt (by omega)]
  rw [BitVec.toInt_eq_toNat_of_lt (by omega), value]

/-- A sum that is not refused has the value of the sum of the values. -/
theorem add?_eq_some_iff {left right sum : Int128} :
    add? left right = some sum ↔ sum.toInt = left.toInt + right.toInt := by
  rw [add?, Option.ite_none_left_eq_some, Option.some.injEq]
  constructor
  · rintro ⟨fits, rfl⟩
    exact BitVec.toInt_add_of_not_saddOverflow fits
  · intro value
    have fits : ¬ left.saddOverflow right = true := by
      have low := sum.le_toInt
      have high := sum.toInt_lt
      simp only [BitVec.saddOverflow, Bool.or_eq_true, decide_eq_true_eq]
      omega
    refine ⟨fits, BitVec.eq_of_toInt_eq ?_⟩
    rw [BitVec.toInt_add_of_not_saddOverflow fits, value]

/-- Every access has an end. It lies between the least offset and the sum of the greatest offset
and the greatest width, far within 128 bits. -/
theorem exists_end? (access : SingleBaseAccess) :
    ∃ stop, end? access = some stop ∧
      stop.toInt = access.offset.toInt + access.width.toNat := by
  have leastOffset := access.offset.le_toInt
  have greatestOffset := access.offset.toInt_lt
  have greatestWidth := access.width.toNat_lt
  have value : (BitVec.ofInt 128 (access.offset.toInt + access.width.toNat)).toInt =
      access.offset.toInt + access.width.toNat := by
    rw [BitVec.toInt_ofInt, Int.bmod_eq_of_le (by omega) (by omega)]
  refine ⟨_, add?_eq_some_iff.mpr ?_, value⟩
  rw [value, toInt_ofOffset, toInt_ofWidth]

/-- The end of an access is compared as in unbounded integers. -/
theorem endsBefore?_eq (low high : SingleBaseAccess) :
    endsBefore? low high = some (low.endsBefore high) := by
  obtain ⟨stop, found, value⟩ := exists_end? low
  rw [endsBefore?, found, Option.map_some, BitVec.sle_eq_decide, value, toInt_ofOffset]
  rfl

/-- Two accesses are compared as in unbounded integers. -/
theorem accessesDisjoint?_eq (first second : SingleBaseAccess) :
    accessesDisjoint? first second = some (first.disjoint second) := by
  simp only [accessesDisjoint?, SingleBaseAccess.disjoint, endsBefore?_eq, Int64.le_iff_toInt_le]
  by_cases lower : first.offset.toInt ≤ second.offset.toInt
  · simp only [if_pos lower]
    cases first.scalable <;> cases second.scalable <;>
      cases first.sameBaseRegister second <;> rfl
  · simp only [if_neg lower]
    cases first.scalable <;> cases second.scalable <;>
      cases first.sameBaseRegister second <;> rfl

/-- No verdict needs more than 128 bits. -/
theorem disjoint?_eq (target : Target) (first second : Instr) :
    disjoint? target first second = some (target.disjoint first second) := by
  unfold disjoint? Target.disjoint
  cases (target.singleBaseAccess first).value? with
  | none => rfl
  | some left =>
      cases (target.singleBaseAccess second).value? with
      | none => rfl
      | some right => exact accessesDisjoint?_eq left right

end Int128

/-- The integers from an offset up to, but without, the end of an access of some width there. -/
def span (offset : Int64) (width : UInt64) : Set Int :=
  {position | offset.toInt ≤ position ∧ position < offset.toInt + width.toNat}

theorem mem_span_iff {offset : Int64} {width : UInt64} {position : Int} :
    position ∈ span offset width ↔
      offset.toInt ≤ position ∧ position < offset.toInt + width.toNat :=
  Iff.rfl

/-- Accesses of at least one byte are disjoint exactly when they have fixed offsets from the same
register and no integer lies in the spans of both. -/
theorem SingleBaseAccess.disjoint_iff_span {first second : SingleBaseAccess}
    (firstWide : 1 ≤ first.width.toNat) (secondWide : 1 ≤ second.width.toNat) :
    first.disjoint second = true ↔
      first.scalable = false ∧ second.scalable = false ∧
        (∃ base, first.base = .register base ∧ second.base = .register base) ∧
          ∀ position ∈ span first.offset first.width,
            position ∉ span second.offset second.width := by
  rw [disjoint_iff firstWide secondWide, sameBaseRegister_iff]
  simp only [Operand.register?_eq_some_iff, mem_span_iff, Covers, not_and]

namespace Target

/-- On a target whose accesses have at least one byte, two instructions are disjoint exactly when
each has a known access with one base, both have fixed offsets from the same register, and no
integer lies in the spans of both. The integers of 128 bits in which the ends are computed hold
every sum that arises. -/
theorem disjoint_iff_disjoint_spans (target : Target)
    (wide : ∀ instr access, target.memoryAccess instr = .known access → 1 ≤ access.width.toNat)
    (first second : Instr) :
    (target.disjoint first second = true ↔
        ∃ left right base, target.memoryAccess first = .known left ∧
          target.memoryAccess second = .known right ∧
          left.bases = [.register base] ∧ right.bases = [.register base] ∧
          left.scalable = false ∧ right.scalable = false ∧
          ∀ position ∈ span left.offset left.width,
            position ∉ span right.offset right.width) ∧
      Int128.disjoint? target first second = some (target.disjoint first second) := by
  refine ⟨?_, Int128.disjoint?_eq target first second⟩
  rw [disjoint_eq_true_iff]
  constructor
  · rintro ⟨left, right, firstKnown, secondKnown, apart⟩
    rw [singleBaseAccess_eq_known_iff_memoryAccess] at firstKnown secondKnown
    obtain ⟨leftFixed, rightFixed, ⟨base, leftBase, rightBase⟩, apart⟩ :=
      (SingleBaseAccess.disjoint_iff_span (wide first _ firstKnown)
        (wide second _ secondKnown)).mp apart
    exact ⟨_, _, base, firstKnown, secondKnown, congrArg List.singleton leftBase,
      congrArg List.singleton rightBase, leftFixed, rightFixed, apart⟩
  · rintro ⟨⟨_, leftOffset, _, leftWidth⟩, ⟨_, rightOffset, _, rightWidth⟩, base, firstKnown,
      secondKnown, rfl, rfl, rfl, rfl, apart⟩
    refine ⟨⟨.register base, leftOffset, false, leftWidth⟩,
      ⟨.register base, rightOffset, false, rightWidth⟩,
      singleBaseAccess_eq_known_iff_memoryAccess.mpr firstKnown,
      singleBaseAccess_eq_known_iff_memoryAccess.mpr secondKnown, ?_⟩
    exact (SingleBaseAccess.disjoint_iff_span (wide first _ firstKnown)
      (wide second _ secondKnown)).mpr ⟨rfl, rfl, ⟨base, rfl, rfl⟩, apart⟩

/-- An access at the least offset of almost 2 ^ 64 bytes ends just where one at the greatest offset
begins, and the end of that one is far out of the range of offsets. -/
theorem disjoint_at_range_ends :
    let target : Target :=
      { addImmediate := fun _ _ => .silent
        memoryAccess := fun instr =>
          .known ⟨[.register (.x 2)],
            if instr = .start .lb then Int64.minValue else Int64.maxValue, false,
            0xFFFFFFFFFFFFFFFF⟩ }
    (∀ instr access, target.memoryAccess instr = .known access → 1 ≤ access.width.toNat) ∧
      target.disjoint (.start .lb) (.start .lh) = true ∧
      Int128.disjoint? target (.start .lb) (.start .lh) = some true := by
  intro target
  have wide : ∀ instr access, target.memoryAccess instr = .known access →
      1 ≤ access.width.toNat := by
    rintro instr access ⟨⟩
    change 1 ≤ (0xFFFFFFFFFFFFFFFF : UInt64).toNat
    decide
  have apart : ∀ position ∈ span Int64.minValue 0xFFFFFFFFFFFFFFFF,
      position ∉ span Int64.maxValue 0xFFFFFFFFFFFFFFFF := by
    have meeting : Int64.minValue.toInt + (0xFFFFFFFFFFFFFFFF : UInt64).toNat =
        Int64.maxValue.toInt := by decide
    simp only [mem_span_iff, meeting]
    rintro position ⟨-, beforeMeeting⟩ ⟨afterMeeting, -⟩
    exact absurd afterMeeting (Int.not_le.mpr beforeMeeting)
  obtain ⟨exact, bounded⟩ := disjoint_iff_disjoint_spans target wide (.start .lb) (.start .lh)
  have verdict := exact.mpr ⟨_, _, .x 2, rfl, rfl, rfl, rfl, rfl, rfl, apart⟩
  exact ⟨wide, verdict, bounded.trans (congrArg some verdict)⟩

end Target

end RiscvFacts
