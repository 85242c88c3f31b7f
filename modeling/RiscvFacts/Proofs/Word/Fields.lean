import RiscvFacts.Operand
import RiscvFacts.Proofs.Word.Bits

/-!
# Fields of a word

The fields of a layout stand side by side in a word and fill it, so that they spell the word
(`Word.ofFields_split`). A signed immediate is the two's complement reading of one or two of
them, which is what a shift to the top of the word and an arithmetic shift back again compute
(`Word.iImm_eq_sshiftRight`, `Word.sImm_eq_sshiftRight`). It is in range and congruent to the bits
that it was read from, so that the word can be spelled with the immediate as well
(`Word.hasLosslessFields`).
-/

namespace RiscvFacts.Word

/-- The number that adjacent fields spell, lowest field first, each by its width and its value. -/
def placeValue : List (Nat × Nat) → Nat
  | [] => 0
  | (width, value) :: fields => value + 2 ^ width * placeValue fields

/-- The word that adjacent fields spell, lowest field first, each by its width and its value. -/
def ofFields (fields : List (Nat × Nat)) : Word := BitVec.ofNat 32 (placeValue fields)

/-- The adjacent fields of a word from bit `start` upwards that have given widths. -/
def split (word : Word) : Nat → List Nat → List (Nat × Nat)
  | _, [] => []
  | start, width :: widths => (width, field word start width) :: split word (start + width) widths

/-- The bit behind adjacent fields of given widths that begin at bit `start`. -/
def endOf (start : Nat) (widths : List Nat) : Nat :=
  widths.foldl (fun low width => low + width) start

/-- Adjacent fields up to the top of a word spell all of its bits from their start upwards. -/
theorem placeValue_split {word : Word} {start : Nat} {widths : List Nat}
    (whole : endOf start widths = 32) :
    placeValue (split word start widths) = word.toNat / 2 ^ start := by
  induction widths generalizing start with
  | nil =>
      have top : start = 32 := whole
      subst top
      exact (Nat.div_eq_of_lt word.isLt).symm
  | cons width widths inductionHypothesis =>
      have rest : endOf (start + width) widths = 32 := whole
      rw [split, placeValue, inductionHypothesis rest]
      exact field_add_div word start width

/-- A word is spelled by adjacent fields that fill it. -/
theorem ofFields_split {word : Word} {widths : List Nat} (whole : endOf 0 widths = 32) :
    ofFields (split word 0 widths) = word := by
  rw [ofFields, placeValue_split whole, Nat.pow_zero, Nat.div_one, BitVec.ofNat_toNat,
    BitVec.setWidth_eq]

/-- The two's complement reading of twelve bits is congruent to their number. -/
theorem signed12_emod {value : Nat} (twelveBits : value < 4096) :
    signed12 value % 4096 = value := by
  unfold signed12
  split <;> omega

/-- Twelve bits that are shifted to the top of a word and arithmetically back again are read in
two's complement. -/
theorem toInt_sshiftRight_shiftLeft {parts : Word} (twelveBits : parts.toNat < 4096) :
    ((parts <<< 20).sshiftRight 20).toInt = signed12 parts.toNat := by
  rw [BitVec.toInt_sshiftRight, Int.shiftRight_eq_div_pow, BitVec.toInt_eq_toNat_cond,
    BitVec.toNat_shiftLeft, Nat.shiftLeft_eq, signed12]
  split <;> split <;> omega

/-- The signed immediate in the top twelve bits is the word, arithmetically shifted. -/
theorem iImm_eq_sshiftRight (word : Word) : iImm word = (word.sshiftRight 20).toInt := by
  have bound := word.isLt
  rw [BitVec.toInt_sshiftRight, Int.shiftRight_eq_div_pow, BitVec.toInt_eq_toNat_cond, iImm,
    field_eq_div_mod, signed12]
  split <;> split <;> omega

/-- The two parts of a store's immediate, put together by shifts and masks. -/
def joinedParts (word : Word) : Word :=
  (word >>> 25 &&& 0x7F#32) <<< 5 ||| (word >>> 7 &&& 0x1F#32)

/-- The upper part stands above the lower one. -/
theorem toNat_joinedParts (word : Word) :
    (joinedParts word).toNat = field word 25 7 * 32 + field word 7 5 := by
  have highBound := field_lt word 25 7
  have lowBound := field_lt word 7 5
  have high : (word >>> 25 &&& 0x7F#32).toNat = field word 25 7 :=
    (field_eq_shift_mask word 25 7 (by decide)).symm
  have low : (word >>> 7 &&& 0x1F#32).toNat = field word 7 5 :=
    (field_eq_shift_mask word 7 5 (by decide)).symm
  have raised : field word 25 7 <<< 5 = field word 25 7 * 32 := Nat.shiftLeft_eq _ 5
  rw [joinedParts, BitVec.toNat_or, BitVec.toNat_shiftLeft, high, low,
    Nat.mod_eq_of_lt (by omega), ← Nat.shiftLeft_add_eq_or_of_lt lowBound, raised]

/-- The signed immediate of a store is what shifts make of its two parts. -/
theorem sImm_eq_sshiftRight (word : Word) :
    sImm word = ((joinedParts word <<< 20).sshiftRight 20).toInt := by
  have highBound := field_lt word 25 7
  have lowBound := field_lt word 7 5
  have joined := toNat_joinedParts word
  rw [toInt_sshiftRight_shiftLeft (by omega), joined, sImm]

/-- The signed immediate in the top twelve bits is congruent to them. -/
theorem iImm_emod (word : Word) : iImm word % 4096 = field word 20 12 :=
  signed12_emod (field_lt word 20 12)

/-- The signed immediate of a store is congruent to its two parts. -/
theorem sImm_emod (word : Word) :
    sImm word % 4096 = (field word 25 7 * 32 + field word 7 5 : Nat) := by
  have highBound := field_lt word 25 7
  have lowBound := field_lt word 7 5
  exact signed12_emod (by omega)

/-- The ways in which the fields of a word are arranged: without an immediate, with one in the top
twelve bits, with one that is split around the sources, with one of twenty bits, and with the fields
of a vector access above the sources. -/
inductive FieldLayout where
  | register
  | immediate
  | store
  | upper
  | vector
  deriving DecidableEq

namespace FieldLayout

/-- The widths of the fields, lowest field first. -/
def widths : FieldLayout → List Nat
  | .register => [7, 5, 3, 5, 5, 7]
  | .immediate => [7, 5, 3, 5, 12]
  | .store => [7, 5, 3, 5, 5, 7]
  | .upper => [7, 5, 20]
  | .vector => [7, 5, 3, 5, 5, 1, 2, 1, 3]

/-- The fields of a layout fill a word. -/
theorem endOf_widths (layout : FieldLayout) : endOf 0 layout.widths = 32 := by
  cases layout <;> rfl

/-- The fields of a word, lowest field first, each by its width and its value. The bits of an
immediate are those of the number that it is read as, and a store has them in two fields. -/
def fields (word : Word) : FieldLayout → List (Nat × Nat)
  | .register =>
      [(7, major word), (5, rd word), (3, funct3 word), (5, rs1 word), (5, rs2 word),
        (7, funct7 word)]
  | .immediate =>
      [(7, major word), (5, rd word), (3, funct3 word), (5, rs1 word),
        (12, (iImm word % 4096).toNat)]
  | .store =>
      [(7, major word), (5, (sImm word % 4096).toNat % 32), (3, funct3 word), (5, rs1 word),
        (5, rs2 word), (7, (sImm word % 4096).toNat / 32)]
  | .upper => [(7, major word), (5, rd word), (20, uField word)]
  | .vector =>
      [(7, major word), (5, rd word), (3, funct3 word), (5, rs1 word), (5, rs2 word),
        (1, field word 25 1), (2, mop word), (1, mew word), (3, nf word)]

/-- The fields of a layout are adjacent bits of the word, also where they are taken from an
immediate. -/
theorem fields_eq_split (word : Word) (layout : FieldLayout) :
    layout.fields word = split word 0 layout.widths := by
  cases layout with
  | register | upper | vector => rfl
  | immediate =>
      rw [fields, iImm_emod, Int.toNat_natCast]
      rfl
  | store =>
      have lowBound := field_lt word 7 5
      have low : (field word 25 7 * 32 + field word 7 5) % 32 = field word 7 5 := by omega
      have high : (field word 25 7 * 32 + field word 7 5) / 32 = field word 25 7 := by omega
      rw [fields, sImm_emod, Int.toNat_natCast, low, high]
      rfl

end FieldLayout

/-- Whether the fields of a word are in range and lose nothing. A field is what a shift and a mask
leave of the word. The immediates are in the range of their slots, congruent to the bits that they
are taken from, and what arithmetic shifts make of these. The fields of each layout give the word
back. -/
structure HasLosslessFields (word : Word) : Prop where
  masked : ∀ low width, width ≤ 32 →
    field word low width = (word >>> low &&& BitVec.ofNat 32 (2 ^ width - 1)).toNat
  registers : rd word < 32 ∧ rs1 word < 32 ∧ rs2 word < 32
  upper : ImmediateRange.upper20.contains (uField word) = true
  top : ImmediateRange.signed12.contains (iImm word) = true ∧ iImm word % 4096 = bits word 31 20 ∧
    iImm word = (word.sshiftRight 20).toInt
  store : ImmediateRange.signed12.contains (sImm word) = true ∧
    sImm word % 4096 = (bits word 31 25 * 32 + bits word 11 7 : Nat) ∧
    sImm word = ((joinedParts word <<< 20).sshiftRight 20).toInt
  recovered : ∀ layout : FieldLayout, ofFields (layout.fields word) = word

/-- The fields of every word are in range and lose nothing. -/
theorem hasLosslessFields (word : Word) : word.HasLosslessFields where
  masked := field_eq_shift_mask word
  registers := ⟨field_lt word 7 5, field_lt word 15 5, field_lt word 20 5⟩
  upper := by
    have bound : uField word < 1048576 := field_lt word 12 20
    refine ImmediateRange.contains_iff.mpr ?_
    simp only [ImmediateRange.upper20]
    omega
  top := ⟨ImmediateRange.contains_iff.mpr (iImm_bounds word), iImm_emod word,
    iImm_eq_sshiftRight word⟩
  store := ⟨ImmediateRange.contains_iff.mpr (sImm_bounds word), sImm_emod word,
    sImm_eq_sshiftRight word⟩
  recovered := by
    intro layout
    rw [layout.fields_eq_split, ofFields_split layout.endOf_widths]

end RiscvFacts.Word
