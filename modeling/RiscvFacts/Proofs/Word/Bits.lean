import Mathlib.Algebra.Group.Int.Defs
import Mathlib.Algebra.Group.Nat.Defs
import RiscvFacts.Word.Basic

/-!
# Bits of a word

Manuals name the bits of a word by their highest and their lowest index. Those
bits are a field. Inverting one bit of a word changes exactly the fields that
contain the bit.
-/

namespace RiscvFacts.Word

variable {word : Word} {index low width : Nat}

/-- The unsigned value of the bits from `high` down to `low`. -/
def bits (word : Word) (high low : Nat) : Nat := (word.extractLsb high low).toNat

/-- The bits from `high` down to `low` are a field of as many bits. -/
@[simp] theorem bits_eq_field (word : Word) (high low : Nat) :
    bits word high low = field word low (high - low + 1) := rfl

/-- A field of `width` bits is less than `2 ^ width`. -/
theorem field_lt (word : Word) (low width : Nat) : field word low width < 2 ^ width :=
  BitVec.isLt _

/-- A field is what division and remainder leave of the word. -/
theorem field_eq_div_mod (word : Word) (low width : Nat) :
    field word low width = word.toNat / 2 ^ low % 2 ^ width := by
  rw [field, BitVec.extractLsb'_toNat, Nat.shiftRight_eq_div_pow]

/-- A field and the bits above it are the bits from the start of the field upwards. -/
theorem field_add_div (word : Word) (low width : Nat) :
    field word low width + 2 ^ width * (word.toNat / 2 ^ (low + width)) = word.toNat / 2 ^ low := by
  rw [field_eq_div_mod, Nat.pow_add, ← Nat.div_div_eq_div_mul]
  exact Nat.mod_add_div _ _

/-- A field is what a shift to its start and a mask of its width leave of the word. -/
theorem field_eq_shift_mask (word : Word) (low width : Nat) (fits : width ≤ 32) :
    field word low width = (word >>> low &&& BitVec.ofNat 32 (2 ^ width - 1)).toNat := by
  have mask : 2 ^ width - 1 < 2 ^ 32 := by
    have := Nat.pow_le_pow_right (show 0 < 2 by decide) fits
    have := Nat.two_pow_pos width
    omega
  rw [field_eq_div_mod, BitVec.toNat_and, BitVec.toNat_ushiftRight, BitVec.toNat_ofNat,
    Nat.mod_eq_of_lt mask, Nat.and_two_pow_sub_one_eq_mod, Nat.shiftRight_eq_div_pow]

/-- The word with the bit at `index` inverted. -/
def flip (word : Word) (index : Nat) : Word := word ^^^ BitVec.twoPow 32 index

/-- Inverting a bit leaves the fields alone that do not contain it. -/
theorem field_flip_of_outside (outside : index < low ∨ low + width ≤ index) :
    field (flip word index) low width = field word low width := by
  have unset : (BitVec.twoPow 32 index).extractLsb' low width = BitVec.zero width := by
    apply BitVec.eq_of_getLsbD_eq
    intro bit inField
    have apart : low + bit ≠ index := by omega
    simp [BitVec.getLsbD_extractLsb', BitVec.getLsbD_twoPow, apart.symm]
  rw [field, field, flip, BitVec.extractLsb'_xor, unset]
  exact congrArg BitVec.toNat BitVec.xor_zero

/-- Inverting a bit of the word changes the field that is that bit alone. -/
theorem field_flip_self (inWord : index < 32) :
    field (flip word index) index 1 = 1 - field word index 1 := by
  have isSet : (BitVec.twoPow 32 index).extractLsb' index 1 = 1#1 := by
    apply BitVec.eq_of_getLsbD_eq
    intro bit inField
    have first : bit = 0 := by omega
    simp [first, inWord]
  rw [field, field, flip, BitVec.extractLsb'_xor, isSet]
  generalize word.extractLsb' index 1 = bit
  revert bit
  decide

/-- Inverting a bit of the word never gives the word back. -/
theorem flip_ne_self (inWord : index < 32) : flip word index ≠ word := by
  intro same
  have inverted := @field_flip_self word index inWord
  rw [same] at inverted
  omega

/-- Inverting different bits of a word gives different words. -/
theorem flip_inj {other : Nat} (inWord : index < 32) (otherInWord : other < 32) :
    flip word index = flip word other ↔ index = other := by
  constructor
  · intro same
    apply Decidable.byContradiction
    intro apart
    have kept := @field_flip_of_outside word other index 1 (by omega)
    have inverted := @field_flip_self word index inWord
    rw [same] at inverted
    omega
  · rintro rfl
    rfl

end RiscvFacts.Word
