import RiscvFacts.Proofs.Encoding.Encodable

/-!
# The mask bit is all that decoding forgets

An instruction does not record whether a vector access is masked, so bit 25 of a
vector access is without meaning. It is the only such bit: a word that decodes is
determined by its instruction up to the mask bit (`decodeWord_eq_iff_mask`).
-/

namespace RiscvFacts

namespace Word

variable {word : Word} {opcode : Opcode}

/-- The index of the mask bit of a vector access. -/
def maskBit : Nat := 25

/-- Whether a word has the major opcode and the element width of a vector access. -/
def IsVectorAccess (word : Word) : Prop :=
  (bits word 6 0 = 0x07 ∨ bits word 6 0 = 0x27) ∧
    (bits word 14 12 = 0 ∨ bits word 14 12 = 5 ∨ bits word 14 12 = 6 ∨ bits word 14 12 = 7)

instance (word : Word) : Decidable word.IsVectorAccess := inferInstanceAs (Decidable (_ ∧ _))

/-- An opcode has a vector format exactly when its words are vector accesses. -/
theorem isVector_iff (constants : opcode.format.HasConstants word) :
    opcode.format.isVector = true ↔ word.IsVectorAccess := by
  have groups : word.IsVectorAccess ↔
      (major word = 0x07 ∨ major word = 0x27) ∧
        (funct3 word = 0 ∨ funct3 word = 5 ∨ funct3 word = 6 ∨ funct3 word = 7) := by
    simp [IsVectorAccess, major, funct3]
  rw [groups]
  cases opcode with
  | vector direction addressing width =>
      cases addressing <;> obtain ⟨inGroup, ofWidth, -⟩ := constants <;>
        cases direction <;> cases width <;>
          simp_all [Format.isVector, Opcode.format, Direction.major, ElementWidth.funct3]
  | _ => simp_all [Format.isVector, Opcode.format]

/-- Inverting the mask bit keeps a vector access one. -/
theorem isVectorAccess_flip : (flip word maskBit).IsVectorAccess ↔ word.IsVectorAccess := by
  have sameMajor := @field_flip_of_outside word maskBit 0 7 (by decide)
  have sameWidth := @field_flip_of_outside word maskBit 12 3 (by decide)
  simp [IsVectorAccess, sameMajor, sameWidth]

end Word

namespace Instr

variable {xlen : Xlen} {left right word : Word} {instr : Instr}

/-- A word decodes to the instruction of another exactly when they are the same, or are vector
accesses that differ in the mask bit only. -/
theorem decodeWord_eq_ok_iff_mask (decoded : decodeWord xlen left = .ok instr) :
    decodeWord xlen right = .ok instr ↔
      left = right ∨ left.IsVectorAccess ∧ right = left.flip Word.maskBit := by
  obtain ⟨encodable, described⟩ := decodeWord_eq_ok_iff_describes.mp decoded
  have isVector : instr.opcode.format.isVector = true ↔ left.IsVectorAccess :=
    Word.isVector_iff (Format.matches_iff.mp described.matches)
  rw [decodeWord_eq_ok_iff_describes, and_iff_right encodable]
  constructor
  · intro sameDescribed
    have onlyMask : ∀ other, .ignored other ∈ instr.opcode.diagram.segments →
        other = Word.maskBit :=
      fun other member => (Format.ignored_mem_iff.mp member).2
    rcases Diagram.eq_or_eq_flip described sameDescribed onlyMask with same | ⟨ignored, flipped⟩
    · exact .inl same
    · exact .inr ⟨isVector.mp (Format.ignored_mem_iff.mp ignored).1, flipped⟩
  · rintro (rfl | ⟨vector, rfl⟩)
    · exact described
    · have ignored : .ignored Word.maskBit ∈ instr.opcode.diagram.segments :=
        Format.ignored_mem_iff.mpr ⟨isVector.mpr vector, rfl⟩
      exact described.flip ignored

/-- Inverting a bit of a word keeps its instruction exactly when the bit is the mask bit of a
vector access. -/
theorem decodeWord_flip_iff {index : Nat} (inWord : index < 32)
    (decoded : decodeWord xlen word = .ok instr) :
    decodeWord xlen (word.flip index) = .ok instr ↔
      index = Word.maskBit ∧ word.IsVectorAccess := by
  have maskInWord : Word.maskBit < 32 := by decide
  have changed : word ≠ word.flip index := (Word.flip_ne_self inWord).symm
  rw [decodeWord_eq_ok_iff_mask decoded, Word.flip_inj inWord maskInWord,
    or_iff_right changed, and_comm]

/-- Decoding forgets the mask bit of a vector access and nothing else. Two words that decode
have the same instruction exactly when they are the same, or are vector accesses that differ in
that bit only. Of all bits of a word that decodes, only that one may be inverted without a
change of the instruction. -/
theorem decodeWord_eq_iff_mask {first second : Instr}
    (leftDecoded : decodeWord xlen left = .ok first)
    (rightDecoded : decodeWord xlen right = .ok second) :
    (decodeWord xlen left = decodeWord xlen right ↔
      left = right ∨
        left.IsVectorAccess ∧ right.IsVectorAccess ∧ right = left.flip Word.maskBit) ∧
      ∀ index < 32, decodeWord xlen (left.flip index) = .ok first ↔
        index = Word.maskBit ∧ left.IsVectorAccess := by
  refine ⟨?_, fun index inWord => decodeWord_flip_iff inWord leftDecoded⟩
  rw [leftDecoded, eq_comm, decodeWord_eq_ok_iff_mask leftDecoded]
  apply or_congr_right
  constructor
  · rintro ⟨vector, rfl⟩
    exact ⟨vector, Word.isVectorAccess_flip.mpr vector, rfl⟩
  · rintro ⟨vector, -, flipped⟩
    exact ⟨vector, flipped⟩

/-- A load of a register of bytes is the same instruction with and without a mask, and no other
bit of its word can be inverted. -/
theorem decodeWord_masked_eq_unmasked :
    decodeWord .rv32 0x00010087 = decodeWord .rv32 0x02010087 ∧
      ∀ index < 32, decodeWord .rv32 (Word.flip 0x00010087 index) =
        decodeWord .rv32 0x00010087 → index = 25 := by
  have masked : decodeWord .rv32 0x00010087 =
      .ok (ofWord (.vector .load .unitStride .e8) 0x00010087) := by rfl
  have unmasked : decodeWord .rv32 0x02010087 =
      .ok (ofWord (.vector .load .unitStride .e8) 0x02010087) := by rfl
  obtain ⟨same, only⟩ := decodeWord_eq_iff_mask masked unmasked
  refine ⟨same.mpr (.inr ⟨by decide, by decide, by decide⟩), fun index inWord kept => ?_⟩
  rw [masked] at kept
  exact ((only index inWord).mp kept).1

end Instr

end RiscvFacts
