import Mathlib.Data.List.Forall2
import Mathlib.Data.Nat.Digits.Defs
import Mathlib.Tactic.Ring
import RiscvFacts.CommandLine.Code

/-!
# Hexadecimal numbers

A hexadecimal digit stands for its position among the sixteen digits of either case.
The characters that spell a number are such digits, and the number is their
positional value, most significant digit first (`hexValue?_eq_some_iff`).
-/

namespace RiscvFacts

/-- Whether a character is the hexadecimal digit of a value, in either case. -/
def IsHexDigit (char : Char) (value : Nat) : Prop :=
  "0123456789abcdef".toList[value]? = some char ∨ "0123456789ABCDEF".toList[value]? = some char

instance (char : Char) (value : Nat) : Decidable (IsHexDigit char value) :=
  inferInstanceAs (Decidable (_ ∨ _))

variable {char : Char} {value : Nat}

/-- There are sixteen digits. -/
theorem IsHexDigit.lt (digit : IsHexDigit char value) : value < 16 := by
  rcases digit with lower | upper
  · exact (List.getElem?_eq_some_iff.mp lower).1
  · exact (List.getElem?_eq_some_iff.mp upper).1

/-- Only ASCII characters are read as digits. -/
theorem toNat_lt_of_hexDigit? (read : hexDigit? char = some value) : char.toNat < 128 := by
  have below {bound : Char} (atMost : char ≤ bound) : char.toNat ≤ bound.toNat := atMost
  unfold hexDigit? at read
  split at read
  case isTrue decimal => exact Nat.lt_of_le_of_lt (below decimal.2) (by decide)
  case isFalse =>
    split at read
    case isTrue lower => exact Nat.lt_of_le_of_lt (below lower.2) (by decide)
    case isFalse =>
      split at read
      case isTrue upper => exact Nat.lt_of_le_of_lt (below upper.2) (by decide)
      case isFalse => cases read

/-- A character is read as the value whose digit it is. -/
theorem hexDigit?_eq_some_iff : hexDigit? char = some value ↔ IsHexDigit char value := by
  constructor
  · intro read
    have table : ∀ code < 128,
        (hexDigit? (Char.ofNat code)).all fun digit => IsHexDigit (Char.ofNat code) digit := by
      decide
    have digit := table char.toNat (toNat_lt_of_hexDigit? read)
    rw [Char.ofNat_toNat, read] at digit
    exact of_decide_eq_true digit
  · intro digit
    have table : ∀ value < 16, "0123456789abcdef".toList[value]?.bind hexDigit? = some value ∧
        "0123456789ABCDEF".toList[value]?.bind hexDigit? = some value := by decide
    obtain ⟨lower, upper⟩ := table value digit.lt
    rcases digit with isLower | isUpper
    · rwa [isLower] at lower
    · rwa [isUpper] at upper

/-- A digit takes one byte. -/
theorem IsHexDigit.utf8Size (digit : IsHexDigit char value) : char.utf8Size = 1 := by
  have ascii : char.toNat < 128 := toNat_lt_of_hexDigit? (hexDigit?_eq_some_iff.mpr digit)
  exact Char.utf8Size_eq_one_iff.mpr (Nat.le_of_lt_succ ascii)

/-- A character that is not read as a digit is none. -/
theorem IsHexDigit.ne (digit : IsHexDigit char value) {other : Char}
    (unread : hexDigit? other = none) : char ≠ other := by
  rintro rfl
  rw [hexDigit?_eq_some_iff.mpr digit] at unread
  cases unread

/-- The most significant digit comes first. -/
theorem ofDigits_reverse_cons (digit : Nat) (digits : List Nat) :
    Nat.ofDigits 16 (digit :: digits).reverse =
      digit * 16 ^ digits.length + Nat.ofDigits 16 digits.reverse := by
  rw [List.reverse_cons, Nat.ofDigits_append, Nat.ofDigits_singleton, List.length_reverse,
    Nat.mul_comm, Nat.add_comm]

/-- The number that characters spell behind a number read so far is the positional value of their
digits, with that number in front of them. -/
theorem hexValue?_eq_some_iff {chars : List Char} {start result : Nat} :
    hexValue? start chars = some result ↔
      ∃ digits, List.Forall₂ IsHexDigit chars digits ∧
        result = start * 16 ^ digits.length + Nat.ofDigits 16 digits.reverse := by
  induction chars generalizing start with
  | nil => simp [hexValue?, eq_comm]
  | cons char chars inductionHypothesis =>
      have carry (digit : Nat) (digits : List Nat) :
          (start * 16 + digit) * 16 ^ digits.length + Nat.ofDigits 16 digits.reverse =
            start * 16 ^ (digit :: digits).length + Nat.ofDigits 16 (digit :: digits).reverse := by
        rw [ofDigits_reverse_cons, List.length_cons, Nat.pow_succ]
        ring
      cases read : hexDigit? char with
      | none =>
          simp only [hexValue?, read, reduceCtorEq, false_iff]
          rintro ⟨_, spelled, -⟩
          cases spelled with
          | cons first rest => exact first.ne read rfl
      | some digit =>
          simp only [hexValue?, read, inductionHypothesis, carry]
          constructor
          · rintro ⟨digits, rest, rfl⟩
            exact ⟨digit :: digits, .cons (hexDigit?_eq_some_iff.mp read) rest, rfl⟩
          · rintro ⟨_, spelled, rfl⟩
            cases spelled with
            | cons first rest =>
                rw [hexDigit?_eq_some_iff.mpr first] at read
                cases read
                exact ⟨_, rest, rfl⟩

end RiscvFacts
