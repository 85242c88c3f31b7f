import RiscvFacts.Proofs.Text.Hexadecimal

/-!
# Words from texts

What is left of a text without its mark and its underscores is its body. A text is read as
a word exactly when its body is a numeral: one to eight hexadecimal digits, or a plus sign
and one to seven. Eight digits never take more than 32 bits, so that no bit of the number
is lost, and every other text is refused as it stands (`Word.ofText_reads_numerals`).
-/

namespace RiscvFacts.Word

/-- Whether a text is a mark with the given text behind it. -/
def IsMarked (text rest : String) : Prop := text = "0x" ++ rest ∨ text = "0X" ++ rest

/-- Whether some characters are the body of a text. Only one mark is taken off, and only one that
the text starts with; the underscores are taken out afterwards. -/
def IsBody (text : String) (body : List Char) : Prop :=
  ∃ rest, (IsMarked text rest ∨ rest = text ∧ ∀ other, ¬ IsMarked text other) ∧
    body = rest.toList.filter fun char => char ≠ '_'

/-- Whether characters are a numeral with the given digits, most significant digit first. A plus
sign takes the place of one of the digits. -/
inductive IsNumeral : List Char → List Nat → Prop where
  | unsigned {chars : List Char} {digits : List Nat}
      (spelled : List.Forall₂ IsHexDigit chars digits) (atLeast : 1 ≤ digits.length)
      (atMost : digits.length ≤ 8) : IsNumeral chars digits
  | positive {chars : List Char} {digits : List Nat}
      (spelled : List.Forall₂ IsHexDigit chars digits) (atLeast : 1 ≤ digits.length)
      (atMost : digits.length ≤ 7) : IsNumeral ('+' :: chars) digits

/-- Whether the body of a text is a numeral with the given digits. -/
def HasDigits (text : String) (digits : List Nat) : Prop :=
  ∃ body, IsBody text body ∧ IsNumeral body digits

variable {text rest : String} {body chars : List Char} {digits : List Nat}

/-- What follows a mark is read on without it. -/
theorem hexBody_of_isMarked (marked : IsMarked text rest) :
    hexBody text.toList = rest.toList.filter fun char => char ≠ '_' := by
  rcases marked with rfl | rfl
  all_goals
    rw [String.toList_append]
    rfl

/-- A text without a mark is read from its start. -/
theorem hexBody_of_not_isMarked (unmarked : ∀ other, ¬ IsMarked text other) :
    hexBody text.toList = text.toList.filter fun char => char ≠ '_' := by
  unfold hexBody
  split
  case h_1 rest start =>
    have marked : text = "0x" ++ String.ofList rest := by simp [← String.toList_inj, start]
    exact absurd (.inl marked) (unmarked (String.ofList rest))
  case h_2 rest start =>
    have marked : text = "0X" ++ String.ofList rest := by simp [← String.toList_inj, start]
    exact absurd (.inr marked) (unmarked (String.ofList rest))
  case h_3 => rfl

/-- Every text has one body, which is the one that is read. -/
theorem isBody_iff : IsBody text body ↔ body = hexBody text.toList := by
  constructor
  · rintro ⟨rest, marked | ⟨rfl, unmarked⟩, rfl⟩
    · exact (hexBody_of_isMarked marked).symm
    · exact (hexBody_of_not_isMarked unmarked).symm
  · rintro rfl
    by_cases marked : ∃ rest, IsMarked text rest
    · obtain ⟨rest, marked⟩ := marked
      exact ⟨rest, .inl marked, hexBody_of_isMarked marked⟩
    · have unmarked := not_exists.mp marked
      exact ⟨text, .inr ⟨rfl, unmarked⟩, hexBody_of_not_isMarked unmarked⟩

/-- A plus sign takes one byte. -/
theorem utf8Length_plus (chars : List Char) :
    utf8Length ('+' :: chars) = 1 + utf8Length chars := rfl

section Spelled

variable (spelled : List.Forall₂ IsHexDigit chars digits)
include spelled

/-- Digits take one byte each. -/
theorem utf8Length_of_forall₂ : utf8Length chars = digits.length := by
  induction spelled with
  | nil => rfl
  | cons first rest inductionHypothesis =>
      rw [utf8Length, List.foldr_cons, first.utf8Size, List.length_cons, Nat.add_comm 1]
      exact congrArg (· + 1) inductionHypothesis

/-- Digits are less than sixteen. -/
theorem lt_of_forall₂ : ∀ digit ∈ digits, digit < 16 := by
  induction spelled with
  | nil => exact List.forall_mem_nil _
  | cons first rest inductionHypothesis =>
      exact List.forall_mem_cons.mpr ⟨first.lt, inductionHypothesis⟩

/-- The first character of some digits is no plus sign. -/
theorem ne_plus_of_forall₂ (rest : List Char) : chars ≠ '+' :: rest := by
  rintro rfl
  cases spelled with
  | cons first rest => exact first.ne rfl rfl

end Spelled

/-- The number that characters spell from the start is the positional value of their digits. -/
theorem hexValue?_zero_eq_some_iff {value : Nat} :
    hexValue? 0 chars = some value ↔
      ∃ digits, List.Forall₂ IsHexDigit chars digits ∧ value = Nat.ofDigits 16 digits.reverse := by
  simp only [hexValue?_eq_some_iff, Nat.zero_mul, Nat.zero_add]

namespace IsNumeral

/-- The characters of a numeral are digits, but for its sign. -/
theorem exists_spelled (numeral : IsNumeral body digits) :
    ∃ chars, List.Forall₂ IsHexDigit chars digits := by
  cases numeral with
  | unsigned spelled => exact ⟨_, spelled⟩
  | positive spelled => exact ⟨_, spelled⟩

/-- A numeral has at most eight digits. -/
theorem length_le (numeral : IsNumeral body digits) : digits.length ≤ 8 := by
  cases numeral with
  | unsigned spelled atLeast atMost => exact atMost
  | positive spelled atLeast atMost => exact Nat.le_succ_of_le atMost

/-- A numeral takes at most eight bytes. -/
theorem utf8Length_le (numeral : IsNumeral body digits) : utf8Length body ≤ 8 := by
  cases numeral with
  | unsigned spelled atLeast atMost => rwa [utf8Length_of_forall₂ spelled]
  | positive spelled atLeast atMost =>
      rw [utf8Length_plus, utf8Length_of_forall₂ spelled]
      omega

/-- However many digits of a numeral have been read, their number takes at most 32 bits. -/
theorem ofDigits_take_lt (numeral : IsNumeral body digits) (count : Nat) :
    Nat.ofDigits 16 (digits.take count).reverse < 2 ^ 32 := by
  obtain ⟨chars, spelled⟩ := numeral.exists_spelled
  have small : ∀ digit ∈ (digits.take count).reverse, digit < 16 := fun digit member =>
    lt_of_forall₂ spelled digit (List.mem_of_mem_take (List.mem_reverse.mp member))
  have few : (digits.take count).reverse.length ≤ 8 := by
    rw [List.length_reverse]
    exact Nat.le_trans (List.length_take_le' count digits) numeral.length_le
  calc Nat.ofDigits 16 (digits.take count).reverse
      < 16 ^ (digits.take count).reverse.length :=
        Nat.ofDigits_lt_base_pow_length (by decide) small
    _ ≤ 16 ^ 8 := Nat.pow_le_pow_right (by decide) few
    _ = 2 ^ 32 := by decide

/-- The number of a numeral takes at most 32 bits. -/
theorem ofDigits_lt (numeral : IsNumeral body digits) :
    Nat.ofDigits 16 digits.reverse < 2 ^ 32 := by
  have whole := numeral.ofDigits_take_lt digits.length
  rwa [List.take_length] at whole

/-- No numeral is without digits. -/
theorem not_bare (numeral : IsNumeral body digits) : body ≠ [] ∧ body ≠ ['+'] := by
  cases numeral with
  | unsigned spelled atLeast =>
      refine ⟨?_, ne_plus_of_forall₂ spelled []⟩
      rintro rfl
      cases spelled
      cases atLeast
  | positive spelled atLeast =>
      refine ⟨List.cons_ne_nil _ _, fun bare => ?_⟩
      cases bare
      cases spelled
      cases atLeast

/-- A numeral without a plus sign is as many digits as eight bytes hold. -/
theorem unsigned_iff (few : utf8Length chars ≤ 8) (visible : chars ≠ [])
    (noPlus : ∀ rest, chars ≠ '+' :: rest) :
    IsNumeral chars digits ↔ List.Forall₂ IsHexDigit chars digits := by
  constructor
  · intro numeral
    cases numeral with
    | unsigned spelled => exact spelled
    | positive spelled => exact absurd rfl (noPlus _)
  · intro spelled
    rw [utf8Length_of_forall₂ spelled] at few
    refine .unsigned spelled ?_ few
    rw [← spelled.length_eq]
    exact List.length_pos_iff.mpr visible

/-- A numeral with a plus sign is as many digits as the other seven bytes hold. -/
theorem positive_iff (few : utf8Length ('+' :: chars) ≤ 8) (visible : chars ≠ []) :
    IsNumeral ('+' :: chars) digits ↔ List.Forall₂ IsHexDigit chars digits := by
  constructor
  · intro numeral
    cases numeral with
    | unsigned spelled => exact absurd rfl (ne_plus_of_forall₂ spelled chars)
    | positive spelled => exact spelled
  · intro spelled
    rw [utf8Length_plus, utf8Length_of_forall₂ spelled] at few
    refine .positive spelled ?_ (by omega)
    rw [← spelled.length_eq]
    exact List.length_pos_iff.mpr visible

end IsNumeral

/-- Characters are read as the number that they are a numeral of, and not read if they are no
numeral. -/
theorem bodyValue?_eq_some_iff {value : Nat} :
    bodyValue? body = some value ↔
      ∃ digits, IsNumeral body digits ∧ value = Nat.ofDigits 16 digits.reverse := by
  have refused {chars : List Char} (noNumeral : ∀ digits, ¬ IsNumeral chars digits) :
      none = some value ↔
        ∃ digits, IsNumeral chars digits ∧ value = Nat.ofDigits 16 digits.reverse := by
    refine iff_of_false nofun ?_
    rintro ⟨digits, numeral, -⟩
    exact noNumeral digits numeral
  -- More than eight bytes, no digits without and with a sign, and digits with and without a sign.
  fun_cases bodyValue? body
  case case1 long =>
    exact refused fun _ numeral => Nat.not_le_of_lt long numeral.utf8Length_le
  case case2 => exact refused fun _ numeral => numeral.not_bare.1 rfl
  case case3 => exact refused fun _ numeral => numeral.not_bare.2 rfl
  case case4 chars visible few =>
    simp only [hexValue?_zero_eq_some_iff, IsNumeral.positive_iff (Nat.le_of_not_lt few) visible]
  case case5 visible _ noPlus few =>
    simp only [hexValue?_zero_eq_some_iff,
      IsNumeral.unsigned_iff (Nat.le_of_not_lt few) visible noPlus]

/-- A text has the digits of a numeral exactly when its body is that numeral. -/
theorem hasDigits_iff : HasDigits text digits ↔ IsNumeral (hexBody text.toList) digits := by
  simp only [HasDigits, isBody_iff, exists_eq_left]

/-- A text is read as a word exactly when its digits spell the number of that word. -/
theorem ofText_eq_ok_iff {word : Word} :
    ofText text = .ok word ↔
      ∃ digits, HasDigits text digits ∧ word.toNat = Nat.ofDigits 16 digits.reverse := by
  simp only [hasDigits_iff, ofText]
  constructor
  · intro read
    split at read
    case h_1 value spelled =>
      obtain ⟨digits, numeral, rfl⟩ := bodyValue?_eq_some_iff.mp spelled
      cases read
      exact ⟨digits, numeral, Nat.mod_eq_of_lt numeral.ofDigits_lt⟩
    case h_2 => cases read
  · rintro ⟨digits, numeral, value⟩
    simp only [bodyValue?_eq_some_iff.mpr ⟨digits, numeral, rfl⟩, ← value, BitVec.ofNat_toNat,
      BitVec.setWidth_eq]

/-- A text without the digits of a numeral is refused as it stands, and no other text is. -/
theorem ofText_eq_invalidWord_iff :
    ofText text = .error (.invalidWord text) ↔ ∀ digits, ¬ HasDigits text digits := by
  constructor
  · rintro refused digits spelled
    have numeral := hasDigits_iff.mp spelled
    have read : ofText text = .ok (BitVec.ofNat 32 (Nat.ofDigits 16 digits.reverse)) :=
      ofText_eq_ok_iff.mpr ⟨digits, spelled, Nat.mod_eq_of_lt numeral.ofDigits_lt⟩
    rw [refused] at read
    cases read
  · intro unspelled
    have unread : bodyValue? (hexBody text.toList) = none := by
      refine Option.eq_none_iff_forall_ne_some.mpr fun value read => ?_
      obtain ⟨digits, numeral, -⟩ := bodyValue?_eq_some_iff.mp read
      exact unspelled digits (hasDigits_iff.mpr numeral)
    simp only [ofText, unread]

/-- Exactly the texts with one to eight hexadecimal digits, or with a plus sign and one to seven,
are read, and they are read as the word with their number. All other texts are refused, and the
failure names the text as it stands. The number never takes more than 32 bits, however many of its
digits have been read. -/
theorem ofText_reads_numerals (text : String) :
    (∀ word, ofText text = .ok word ↔
      ∃ digits, HasDigits text digits ∧ word.toNat = Nat.ofDigits 16 digits.reverse) ∧
    (ofText text = .error (.invalidWord text) ↔ ∀ digits, ¬ HasDigits text digits) ∧
    ∀ digits, HasDigits text digits →
      ∀ count, Nat.ofDigits 16 (digits.take count).reverse < 2 ^ 32 := by
  refine ⟨fun word => ofText_eq_ok_iff, ofText_eq_invalidWord_iff, fun digits spelled => ?_⟩
  exact (hasDigits_iff.mp spelled).ofDigits_take_lt

/-- A second mark is no digit, with or without an underscore in front of it. -/
example : ofText "0x_0x13" = .error (.invalidWord "0x_0x13") := by decide

end RiscvFacts.Word
