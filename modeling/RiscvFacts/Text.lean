/-!
# Texts

Numbers in assembly text and reports are decimal, with a minus sign for negative
values, or lowercase hexadecimal, filled with zeros up to a least digit count. A
numeral of base two to sixteen is a sequence of digits, and different numbers have
different numerals (`Numeral.toDigits_inj`). So have decimal texts with a sign, and
hexadecimal texts without zeros in front.

Aligned output fills short cells with blanks on the right. A cell that is wider than
its column is written in full.
-/

namespace RiscvFacts

namespace Numeral

/-- The decimal text of a natural number. -/
def natural (value : Nat) : String := String.ofList (Nat.toDigits 10 value)

/-- The decimal text of an integer, with a minus sign exactly when it is negative. -/
def decimal : Int → String
  | .ofNat value => natural value
  | .negSucc value => "-" ++ natural (value + 1)

/-- The decimal text of an integer that always shows its sign. -/
def signed : Int → String
  | .ofNat value => "+" ++ natural value
  | .negSucc value => "-" ++ natural (value + 1)

/-- The hexadecimal text of a natural number, with zeros in front of it up to `least` digits. -/
def hex (least value : Nat) : String :=
  let digits := Nat.toDigits 16 value
  String.ofList (List.replicate (least - digits.length) '0' ++ digits)

/-- Different digits are different characters. -/
theorem digitChar_inj {first second : Nat} (firstSmall : first < 16) (secondSmall : second < 16) :
    Nat.digitChar first = Nat.digitChar second ↔ first = second := by
  have table : ∀ first < 16, ∀ second < 16,
      Nat.digitChar first = Nat.digitChar second → first = second := by decide
  exact ⟨table first firstSmall second secondSmall, congrArg Nat.digitChar⟩

section Base

variable {base : Nat} (isBase : 1 < base)

include isBase

/-- A numeral is made of the digits of its base. -/
theorem exists_digitChar_of_mem_toDigits {value : Nat} {char : Char}
    (digit : char ∈ Nat.toDigits base value) : ∃ small < base, char = Nat.digitChar small := by
  induction value using Nat.strongRecOn with
  | ind value inductionHypothesis =>
      by_cases small : value < base
      · rw [Nat.toDigits_of_lt_base small, List.mem_singleton] at digit
        exact ⟨value, small, digit⟩
      · have large : base ≤ value := Nat.le_of_not_lt small
        rw [Nat.toDigits_of_base_le isBase large, List.mem_append, List.mem_singleton] at digit
        rcases digit with high | low
        · exact inductionHypothesis _ (Nat.div_lt_self (by omega) isBase) high
        · exact ⟨value % base, Nat.mod_lt _ (by omega), low⟩

/-- Different numbers have different numerals. -/
theorem toDigits_inj (few : base ≤ 16) {first second : Nat} :
    Nat.toDigits base first = Nat.toDigits base second ↔ first = second := by
  refine ⟨?_, congrArg _⟩
  intro same
  induction first using Nat.strongRecOn generalizing second with
  | ind first inductionHypothesis =>
      have single {value : Nat} : value < base ↔ (Nat.toDigits base value).length ≤ 1 := by
        rw [Nat.length_toDigits_le_iff isBase Nat.one_pos, Nat.pow_one]
      have bothSmall : first < base ↔ second < base := by rw [single, single, same]
      by_cases small : first < base
      · have secondSmall := bothSmall.mp small
        rw [Nat.toDigits_of_lt_base small, Nat.toDigits_of_lt_base secondSmall,
          List.singleton_inj] at same
        exact (digitChar_inj (by omega) (by omega)).mp same
      · -- The last digits are the remainders, and the digits before them the quotients.
        have secondLarge := mt bothSmall.mpr small
        rw [Nat.toDigits_of_base_le isBase (Nat.le_of_not_lt small),
          Nat.toDigits_of_base_le isBase (Nat.le_of_not_lt secondLarge),
          List.append_singleton_inj] at same
        have below (value : Nat) : value % base < 16 :=
          Nat.lt_of_lt_of_le (Nat.mod_lt _ (by omega)) few
        have quotients := inductionHypothesis _ (Nat.div_lt_self (by omega) isBase) same.1
        have remainders := (digitChar_inj (below first) (below second)).mp same.2
        rw [← Nat.div_add_mod first base, ← Nat.div_add_mod second base, quotients, remainders]

end Base

/-- Different natural numbers have different decimal texts. -/
theorem natural_inj {first second : Nat} : natural first = natural second ↔ first = second := by
  rw [natural, natural, String.ofList_inj, toDigits_inj (by decide) (by decide)]

/-- A decimal text starts with a digit. -/
theorem exists_digit_natural (value : Nat) :
    ∃ digit rest, (natural value).toList = digit :: rest ∧ digit.isDigit = true := by
  obtain ⟨digit, rest, digits⟩ := List.exists_cons_of_ne_nil (@Nat.toDigits_ne_nil value 10)
  refine ⟨digit, rest, by rw [natural, String.toList_ofList, digits], ?_⟩
  exact Nat.isDigit_of_mem_toDigits (by decide) (by decide) (digits ▸ List.mem_cons_self)

/-- No decimal text of a natural number starts with a minus sign. -/
theorem minus_natural_ne_natural (first second : Nat) :
    "-" ++ natural first ≠ natural second := by
  intro same
  obtain ⟨digit, rest, starts, isDigit⟩ := exists_digit_natural second
  rw [← same, String.toList_append] at starts
  rw [← (List.cons.inj starts).1] at isDigit
  cases isDigit

/-- Negative integers with the same decimal text are the same. -/
theorem negSucc_inj_of_natural {first second : Nat}
    (same : "-" ++ natural (first + 1) = "-" ++ natural (second + 1)) : first = second :=
  Nat.succ.inj (natural_inj.mp ((String.append_right_inj "-").mp same))

/-- Different integers have different decimal texts. -/
theorem decimal_inj {first second : Int} : decimal first = decimal second ↔ first = second := by
  refine ⟨?_, congrArg decimal⟩
  intro same
  match first, second with
  | .ofNat left, .ofNat right => exact congrArg Int.ofNat (natural_inj.mp same)
  | .negSucc left, .negSucc right => exact congrArg Int.negSucc (negSucc_inj_of_natural same)
  | .ofNat left, .negSucc right => exact absurd same.symm (minus_natural_ne_natural _ _)
  | .negSucc left, .ofNat right => exact absurd same (minus_natural_ne_natural _ _)

/-- Different integers have different texts with a sign. -/
theorem signed_inj {first second : Int} : signed first = signed second ↔ first = second := by
  refine ⟨?_, congrArg signed⟩
  intro same
  have starts := congrArg (fun text : String => text.toList.head?) same
  match first, second with
  | .ofNat left, .ofNat right =>
      exact congrArg Int.ofNat (natural_inj.mp ((String.append_right_inj "+").mp same))
  | .negSucc left, .negSucc right => exact congrArg Int.negSucc (negSucc_inj_of_natural same)
  | .ofNat left, .negSucc right | .negSucc left, .ofNat right =>
      simp [signed, String.toList_append] at starts

/-- Different natural numbers have different hexadecimal texts. -/
theorem hex_one_inj {first second : Nat} : hex 1 first = hex 1 second ↔ first = second := by
  have unfilled (value : Nat) : hex 1 value = String.ofList (Nat.toDigits 16 value) := by
    have digits : 0 < (Nat.toDigits 16 value).length := Nat.length_toDigits_pos
    have none : 1 - (Nat.toDigits 16 value).length = 0 := by omega
    rw [hex, none, List.replicate_zero, List.nil_append]
  rw [unfilled, unfilled, String.ofList_inj, toDigits_inj (by decide) (by decide)]

end Numeral

namespace Column

/-- `text` followed by blanks up to `width` characters. -/
def pad (width : Nat) (text : String) : String :=
  text ++ String.ofList (List.replicate (width - text.length) ' ')

end Column

end RiscvFacts
