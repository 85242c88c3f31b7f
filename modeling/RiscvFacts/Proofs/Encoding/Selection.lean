import RiscvFacts.Proofs.Encoding.Format
import RiscvFacts.Word.Opcode

/-!
# The selected opcode is the encoded one

Decoding selects the opcode of a word by nested case distinctions over its
fields. The table of encodings lists the constant bits of every opcode. Both say
the same: `opcode?_eq_some_iff` finds an opcode exactly when the word has its
constant bits, and a shift amount is less than the register width.
-/

namespace RiscvFacts

namespace Format

/-- Whether the amount of a shift is less than the register width. -/
def AmountFits (xlen : Xlen) (word : Word) : Format → Prop
  | .shift _ _ => Word.field word 20 6 < xlen.bits
  | .upper _ | .immediate _ _ | .narrowShift _ _ | .store _ _ | .signInject _ | .unitStride _ _
  | .vector _ _ _ => True

/-- The constant bits of a format, as fields of the word. -/
@[simp] def HasConstants (word : Word) : Format → Prop
  | .upper major => Word.major word = major.toNat
  | .immediate major funct3 | .store major funct3 =>
      Word.major word = major.toNat ∧ Word.funct3 word = funct3.toNat
  | .shift funct3 above =>
      Word.major word = 0x13 ∧ Word.funct3 word = funct3.toNat ∧
        Word.field word 26 6 = above.toNat
  | .narrowShift funct3 funct7 =>
      Word.major word = 0x1B ∧ Word.funct3 word = funct3.toNat ∧
        Word.funct7 word = funct7.toNat
  | .signInject funct7 =>
      Word.major word = 0x53 ∧ Word.funct3 word = 0 ∧ Word.funct7 word = funct7.toNat
  | .unitStride major funct3 =>
      Word.major word = major.toNat ∧ Word.funct3 word = funct3.toNat ∧ Word.rs2 word = 0 ∧
        Word.mop word = 0 ∧ Word.mew word = 0 ∧ Word.nf word = 0
  | .vector major funct3 mop =>
      Word.major word = major.toNat ∧ Word.funct3 word = funct3.toNat ∧
        Word.mop word = mop.toNat ∧ Word.mew word = 0 ∧ Word.nf word = 0

/-- A word matches the diagram of a format when its fields have the constant values. -/
theorem matches_iff {format : Format} {word : Word} :
    format.diagram.Matches word ↔ format.HasConstants word := by
  cases format <;>
    simp [Diagram.Matches, Word.major, Word.funct3, Word.funct7, Word.rs2, Word.mop, Word.mew,
      Word.nf]

end Format

namespace Word

variable {xlen : Xlen} {word : Word} {opcode : Opcode}

/-- The selected load has its constant bits. -/
theorem hasConstants_of_loadOpcode? (inGroup : major word = 0x03)
    (selected : loadOpcode? word = some opcode) : opcode.format.HasConstants word := by
  unfold loadOpcode? at selected
  split at selected <;> cases selected <;> exact ⟨inGroup, ‹_›⟩

/-- The selected store has its constant bits. -/
theorem hasConstants_of_storeOpcode? (inGroup : major word = 0x23)
    (selected : storeOpcode? word = some opcode) : opcode.format.HasConstants word := by
  unfold storeOpcode? at selected
  split at selected <;> cases selected <;> exact ⟨inGroup, ‹_›⟩

/-- A selected right shift has its mark above the amount. -/
theorem rightShift?_eq_some_iff {above mark : Nat} {logical arithmetic : Opcode} :
    rightShift? above mark logical arithmetic = some opcode ↔
      above = 0 ∧ opcode = logical ∨ above ≠ 0 ∧ above = mark ∧ opcode = arithmetic := by
  unfold rightShift?
  split
  · simp_all [eq_comm]
  · split <;> simp_all [eq_comm]

/-- The selected immediate arithmetic has its constant bits, and an amount that fits. -/
theorem hasConstants_of_immediateOpcode? (inGroup : major word = 0x13)
    (selected : immediateOpcode? xlen word = some opcode) :
    opcode.format.HasConstants word ∧ opcode.format.AmountFits xlen word := by
  unfold immediateOpcode? at selected
  dsimp only at selected
  split at selected
  case h_2 shifts =>
    obtain ⟨amount, selected⟩ := Option.ite_none_right_eq_some.mp selected
    obtain ⟨above, selected⟩ := Option.ite_none_right_eq_some.mp selected
    cases selected
    exact ⟨⟨inGroup, shifts, above⟩, amount⟩
  case h_6 shifts =>
    obtain ⟨amount, selected⟩ := Option.ite_none_right_eq_some.mp selected
    rcases rightShift?_eq_some_iff.mp selected with ⟨above, rfl⟩ | ⟨-, above, rfl⟩
    · exact ⟨⟨inGroup, shifts, above⟩, amount⟩
    · exact ⟨⟨inGroup, shifts, above⟩, amount⟩
  all_goals cases selected <;> exact ⟨⟨inGroup, ‹_›⟩, trivial⟩

/-- The selected narrow arithmetic has its constant bits. -/
theorem hasConstants_of_narrowOpcode? (inGroup : major word = 0x1B)
    (selected : narrowOpcode? word = some opcode) : opcode.format.HasConstants word := by
  unfold narrowOpcode? at selected
  split at selected
  case h_1 adds =>
    cases selected
    exact ⟨inGroup, adds⟩
  case h_2 shifts =>
    obtain ⟨above, selected⟩ := Option.ite_none_right_eq_some.mp selected
    cases selected
    exact ⟨inGroup, shifts, above⟩
  case h_3 shifts =>
    rcases rightShift?_eq_some_iff.mp selected with ⟨above, rfl⟩ | ⟨-, above, rfl⟩
    · exact ⟨inGroup, shifts, above⟩
    · exact ⟨inGroup, shifts, above⟩
  case h_4 => cases selected

/-- The selected vector access has its constant bits. -/
theorem hasConstants_of_vectorOpcode? (direction : Direction) (width : ElementWidth)
    (inGroup : major word = direction.major.toNat) (ofWidth : funct3 word = width.funct3.toNat)
    (selected : vectorOpcode? direction width word = some opcode) :
    opcode.format.HasConstants word := by
  unfold vectorOpcode? at selected
  obtain ⟨plain, selected⟩ := Option.ite_none_left_eq_some.mp selected
  obtain ⟨single, narrow⟩ := not_or.mp plain
  have single : nf word = 0 := Decidable.not_not.mp single
  have narrow : mew word = 0 := Decidable.not_not.mp narrow
  split at selected
  case h_1 unitStride =>
    obtain ⟨noVariant, selected⟩ := Option.ite_none_right_eq_some.mp selected
    cases selected
    exact ⟨inGroup, ofWidth, noVariant, unitStride, narrow, single⟩
  all_goals cases selected <;> exact ⟨inGroup, ofWidth, ‹_›, narrow, single⟩

/-- The selected floating-point or vector load has its constant bits. -/
theorem hasConstants_of_floatLoadOpcode? (inGroup : major word = Direction.load.major.toNat)
    (selected : floatLoadOpcode? word = some opcode) : opcode.format.HasConstants word := by
  unfold floatLoadOpcode? at selected
  split at selected
  case h_1 ofWidth => exact hasConstants_of_vectorOpcode? .load .e8 inGroup ofWidth selected
  case h_6 ofWidth => exact hasConstants_of_vectorOpcode? .load .e16 inGroup ofWidth selected
  case h_7 ofWidth => exact hasConstants_of_vectorOpcode? .load .e32 inGroup ofWidth selected
  case h_8 ofWidth => exact hasConstants_of_vectorOpcode? .load .e64 inGroup ofWidth selected
  all_goals cases selected <;> exact ⟨inGroup, ‹_›⟩

/-- The selected floating-point or vector store has its constant bits. -/
theorem hasConstants_of_floatStoreOpcode? (inGroup : major word = Direction.store.major.toNat)
    (selected : floatStoreOpcode? word = some opcode) : opcode.format.HasConstants word := by
  unfold floatStoreOpcode? at selected
  split at selected
  case h_1 ofWidth => exact hasConstants_of_vectorOpcode? .store .e8 inGroup ofWidth selected
  case h_6 ofWidth => exact hasConstants_of_vectorOpcode? .store .e16 inGroup ofWidth selected
  case h_7 ofWidth => exact hasConstants_of_vectorOpcode? .store .e32 inGroup ofWidth selected
  case h_8 ofWidth => exact hasConstants_of_vectorOpcode? .store .e64 inGroup ofWidth selected
  all_goals cases selected <;> exact ⟨inGroup, ‹_›⟩

/-- The selected sign injection has its constant bits. -/
theorem hasConstants_of_floatOpcode? (inGroup : major word = 0x53)
    (selected : floatOpcode? word = some opcode) : opcode.format.HasConstants word := by
  unfold floatOpcode? at selected
  obtain ⟨plain, selected⟩ := Option.ite_none_left_eq_some.mp selected
  have plain : funct3 word = 0 := Decidable.not_not.mp plain
  split at selected <;> cases selected <;> exact ⟨inGroup, plain, ‹_›⟩

/-- The selected opcode has its constant bits. -/
theorem hasConstants_of_opcode? (selected : word.opcode? xlen = some opcode) :
    opcode.format.HasConstants word := by
  unfold opcode? at selected
  split at selected
  case h_1 inGroup => exact hasConstants_of_loadOpcode? inGroup selected
  case h_2 inGroup => exact hasConstants_of_floatLoadOpcode? inGroup selected
  case h_3 inGroup => exact (hasConstants_of_immediateOpcode? inGroup selected).1
  case h_4 inGroup =>
    cases selected
    exact inGroup
  case h_5 inGroup => exact hasConstants_of_narrowOpcode? inGroup selected
  case h_6 inGroup => exact hasConstants_of_storeOpcode? inGroup selected
  case h_7 inGroup => exact hasConstants_of_floatStoreOpcode? inGroup selected
  case h_8 inGroup =>
    cases selected
    exact inGroup
  case h_9 inGroup => exact hasConstants_of_floatOpcode? inGroup selected
  case h_10 => cases selected

/-- The amount of a selected shift fits. -/
theorem amountFits_of_opcode? (selected : word.opcode? xlen = some opcode) :
    opcode.format.AmountFits xlen word := by
  have constants := hasConstants_of_opcode? selected
  cases form : opcode.format with
  | shift funct3 above =>
      rw [form] at constants
      have inGroup : major word = 0x13 := constants.1
      rw [opcode?, inGroup] at selected
      exact form ▸ (hasConstants_of_immediateOpcode? inGroup selected).2
  | _ => trivial

/-- An opcode whose constant bits a word has is selected, unless a shift amount is too large. -/
theorem opcode?_of_hasConstants (constants : opcode.format.HasConstants word)
    (fits : opcode.format.AmountFits xlen word) : word.opcode? xlen = some opcode := by
  cases opcode with
  | vector direction addressing width =>
      cases addressing <;> obtain ⟨inGroup, ofWidth, constants⟩ := constants <;>
        cases direction <;> cases width <;>
          simp_all [opcode?, floatLoadOpcode?, floatStoreOpcode?, vectorOpcode?, Direction.major,
            ElementWidth.funct3]
  | _ =>
      simp_all [opcode?, Opcode.format, Format.HasConstants, Format.AmountFits, loadOpcode?,
        storeOpcode?, immediateOpcode?, rightShift?, narrowOpcode?, floatLoadOpcode?,
        floatStoreOpcode?, floatOpcode?]

/-- The selected opcode is the one whose constant bits the word has. -/
theorem opcode?_eq_some_iff :
    word.opcode? xlen = some opcode ↔
      opcode.diagram.Matches word ∧ opcode.format.AmountFits xlen word := by
  rw [Opcode.diagram, Format.matches_iff]
  constructor
  · intro selected
    exact ⟨hasConstants_of_opcode? selected, amountFits_of_opcode? selected⟩
  · rintro ⟨constants, fits⟩
    exact opcode?_of_hasConstants constants fits

end Word

end RiscvFacts
