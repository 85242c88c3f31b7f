import Mathlib.Data.Nat.Digits.Defs
import RiscvFacts.Instr.Decode
import RiscvFacts.Proofs.Word.Bits

/-!
# Decoding bytes and decoding words

The bytes of an instruction are decoded by way of the word that they spell, after a
look at how many there are and at the lowest two bits of the first. These bits are both
set in every word that spells an instruction, so setting compressed instructions apart
loses none (`Word.opcode?_eq_none_of_low`). What more bytes follow makes no difference
once there are enough (`Instr.agreesWithWords_decode`).
-/

namespace RiscvFacts

/-- The number that bytes spell, least significant byte first. -/
def littleEndianValue (bytes : List UInt8) : Nat := Nat.ofDigits 0x100 (bytes.map UInt8.toNat)

/-- The halfword that the first two bytes spell. -/
def halfwordAtStart (bytes : List UInt8) : BitVec 16 :=
  BitVec.ofNat 16 (littleEndianValue (bytes.take 2))

/-- The word that the first four bytes spell. -/
def Word.atStart (bytes : List UInt8) : Word := BitVec.ofNat 32 (littleEndianValue (bytes.take 4))

/-- Whether the two lowest bits of the first byte are both set. -/
def StartsWithOnes (bytes : List UInt8) : Prop :=
  ∃ byte, bytes.head? = some byte ∧
    byte.toBitVec.getLsbD 0 = true ∧ byte.toBitVec.getLsbD 1 = true

/-- The two lowest bits of a byte are set when it leaves the remainder three. -/
theorem startsWithOnes_cons_iff {byte : UInt8} {bytes : List UInt8} :
    StartsWithOnes (byte :: bytes) ↔ byte.toNat % 4 = 3 := by
  simp only [StartsWithOnes, List.head?_cons, Option.some.injEq, exists_eq_left',
    BitVec.getLsbD, Nat.testBit_eq_decide_div_mod_eq, decide_eq_true_eq, UInt8.toNat_toBitVec]
  omega

namespace Word

variable {xlen : Xlen} {word : Word}

/-- The lowest two bits of the field that selects a group are set in all groups. -/
theorem opcode?_eq_none_of_low (low : field word 0 2 ≠ 3) : word.opcode? xlen = none := by
  have inGroup : field word 0 2 = major word % 4 := by
    simp only [major, field_eq_div_mod]
    omega
  unfold opcode?
  split
  case h_10 => rfl
  all_goals omega

/-- A word that does not end in two ones spells no instruction. -/
theorem decodeWord_of_low (low : field word 0 2 ≠ 3) :
    Instr.decodeWord xlen word = .error (.unrecognized word) := by
  rw [Instr.decodeWord, opcode?_eq_none_of_low low]

/-- Four bytes spell a word, whatever follows. -/
theorem atStart_cons (byte0 byte1 byte2 byte3 : UInt8) (rest : List UInt8) :
    atStart (byte0 :: byte1 :: byte2 :: byte3 :: rest) = ofBytes byte0 byte1 byte2 byte3 := by
  simp only [atStart, ofBytes, littleEndianValue, List.take_succ_cons, List.take_zero,
    List.map_cons, List.map_nil, Nat.ofDigits_cons, Nat.ofDigits_nil]
  congr 1
  omega

/-- A word ends as its first byte does. -/
theorem low_ofBytes (byte0 byte1 byte2 byte3 : UInt8) :
    field (ofBytes byte0 byte1 byte2 byte3) 0 2 = byte0.toNat % 4 := by
  rw [field_eq_div_mod, ofBytes, BitVec.toNat_ofNat]
  omega

end Word

/-- Two bytes spell a halfword, whatever follows. -/
theorem halfwordAtStart_cons (byte0 byte1 : UInt8) (rest : List UInt8) :
    halfwordAtStart (byte0 :: byte1 :: rest) =
      BitVec.ofNat 16 (byte0.toNat + 0x100 * byte1.toNat) := by
  simp [halfwordAtStart, littleEndianValue, Nat.ofDigits_cons]

namespace Instr

/-- What decoding some bytes comes to. Without a whole instruction the number of bytes is reported.
Bytes that do not start with ones are a compressed instruction, and the word that they spell, where
there are enough for one, is not recognised. All other bytes are decoded as the word at their
start. What is not cut off is decoded alike whatever bytes follow. -/
structure AgreesWithWords (xlen : Xlen) (bytes : List UInt8) : Prop where
  truncated : bytes.length < 2 ∨ (bytes.length = 2 ∨ bytes.length = 3) ∧ StartsWithOnes bytes →
    decode xlen bytes = .error (.truncated bytes.length)
  compressed : 2 ≤ bytes.length → ¬ StartsWithOnes bytes →
    decode xlen bytes = .error (.compressed (halfwordAtStart bytes))
  unrecognized : 4 ≤ bytes.length → ¬ StartsWithOnes bytes →
    decodeWord xlen (.atStart bytes) = .error (.unrecognized (.atStart bytes))
  word : 4 ≤ bytes.length → StartsWithOnes bytes →
    decode xlen bytes = decodeWord xlen (.atStart bytes)
  settled : (∀ available, decode xlen bytes ≠ .error (.truncated available)) →
    ∀ more, decode xlen (bytes ++ more) = decode xlen bytes

section Bytes

variable {xlen : Xlen} {byte0 byte1 byte2 byte3 : UInt8} {rest : List UInt8}

/-- Bytes that do not start with ones are compressed, whatever follows the first two. -/
theorem decode_of_compressed (low : byte0.toNat % 4 ≠ 3) :
    decode xlen (byte0 :: byte1 :: rest) =
      .error (.compressed (halfwordAtStart (byte0 :: byte1 :: rest))) := by
  unfold decode
  rw [halfwordAtStart_cons]
  exact if_pos low

/-- Four bytes that start with ones are decoded as a word, whatever follows. -/
theorem decode_of_word (low : byte0.toNat % 4 = 3) :
    decode xlen (byte0 :: byte1 :: byte2 :: byte3 :: rest) =
      decodeWord xlen (.atStart (byte0 :: byte1 :: byte2 :: byte3 :: rest)) := by
  unfold decode
  rw [Word.atStart_cons]
  exact if_neg (not_not.mpr low)

/-- Two or three bytes that start with ones are cut off. -/
theorem decode_of_truncated (low : byte0.toNat % 4 = 3) (few : rest.length < 2) :
    decode xlen (byte0 :: byte1 :: rest) = .error (.truncated (rest.length + 2)) := by
  match rest, few with
  | [], _ => exact if_neg (not_not.mpr low)
  | [_], _ => exact if_neg (not_not.mpr low)

end Bytes

/-- What is not cut off is decoded alike whatever bytes follow. -/
theorem decode_append {xlen : Xlen} {bytes : List UInt8}
    (whole : ∀ available, decode xlen bytes ≠ .error (.truncated available))
    (more : List UInt8) : decode xlen (bytes ++ more) = decode xlen bytes := by
  match bytes with
  | [] | [_] => exact absurd rfl (whole _)
  | byte0 :: byte1 :: rest =>
      rw [List.cons_append, List.cons_append]
      by_cases low : byte0.toNat % 4 = 3
      · match rest with
        | [] => exact (whole 2 (decode_of_truncated low Nat.two_pos)).elim
        | [_] => exact (whole 3 (decode_of_truncated low Nat.one_lt_two)).elim
        | byte2 :: byte3 :: rest =>
            rw [List.cons_append, List.cons_append, decode_of_word low, decode_of_word low,
              Word.atStart_cons, Word.atStart_cons]
      · rw [decode_of_compressed low, decode_of_compressed low, halfwordAtStart_cons,
          halfwordAtStart_cons]

/-- Decoding bytes agrees with decoding words, whatever the bytes are and however many. -/
theorem agreesWithWords_decode (xlen : Xlen) (bytes : List UInt8) : AgreesWithWords xlen bytes := by
  constructor
  case truncated =>
    rintro (short | ⟨cutOff, ones⟩)
    · match bytes, short with
      | [], _ | [_], _ => rfl
    · match bytes with
      | [] | [_] => rfl
      | byte0 :: byte1 :: rest =>
          rw [List.length_cons, List.length_cons] at cutOff
          exact decode_of_truncated (startsWithOnes_cons_iff.mp ones) (by omega)
  case compressed =>
    intro enough noOnes
    match bytes, enough with
    | byte0 :: byte1 :: rest, _ =>
        exact decode_of_compressed (mt startsWithOnes_cons_iff.mpr noOnes)
  case unrecognized =>
    intro enough noOnes
    match bytes, enough with
    | byte0 :: byte1 :: byte2 :: byte3 :: rest, _ =>
        have low := mt startsWithOnes_cons_iff.mpr noOnes
        rw [Word.atStart_cons]
        exact Word.decodeWord_of_low (Word.low_ofBytes byte0 byte1 byte2 byte3 ▸ low)
  case word =>
    intro enough ones
    match bytes, enough with
    | byte0 :: byte1 :: byte2 :: byte3 :: rest, _ =>
        exact decode_of_word (startsWithOnes_cons_iff.mp ones)
  case settled => exact decode_append

end Instr

end RiscvFacts
