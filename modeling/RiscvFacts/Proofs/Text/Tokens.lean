import Mathlib.Data.List.Basic
import RiscvFacts.Text

/-!
# Tokens

The longest pieces of a text without blanks, commas and parentheses are its tokens.
A text that is put together from such pieces, with separators between them, tells which
pieces they were (`tokens_append`, `tokens_intercalate`).
-/

namespace RiscvFacts

/-- The characters that stand between tokens. -/
def marks : List Char := [' ', ',', '(', ')']

/-- The longest pieces of some characters without marks, in order. -/
def visiblePieces (chars : List Char) : List (List Char) :=
  (chars.splitOnP marks.contains).filter fun piece => !piece.isEmpty

/-- The tokens of a text, in order. -/
def tokens (text : String) : List String := (visiblePieces text.toList).map String.ofList

/-- Whether a text has no marks. -/
def IsUnmarked (text : String) : Prop := ∀ char ∈ text.toList, char ∉ marks

-- Only the characters of the text are tried here, and not all that there are.
instance (text : String) : Decidable (IsUnmarked text) := List.decidableBAll _ _

/-- Whether a text is one token. -/
structure IsToken (text : String) : Prop where
  visible : text ≠ ""
  unmarked : IsUnmarked text

/-- Whether a text may stand between tokens. -/
structure IsSeparator (text : String) : Prop where
  visible : text ≠ ""
  marked : ∀ char ∈ text.toList, char ∈ marks

instance (text : String) : Decidable (IsToken text) :=
  decidable_of_iff (text ≠ "" ∧ IsUnmarked text)
    ⟨fun holds => ⟨holds.1, holds.2⟩, fun token => ⟨token.visible, token.unmarked⟩⟩

instance (text : String) : Decidable (IsSeparator text) :=
  letI : Decidable (∀ char ∈ text.toList, char ∈ marks) := List.decidableBAll _ _
  decidable_of_iff (text ≠ "" ∧ ∀ char ∈ text.toList, char ∈ marks)
    ⟨fun holds => ⟨holds.1, holds.2⟩, fun separator => ⟨separator.visible, separator.marked⟩⟩

variable {token separator rest : String}

/-- A text has no marks when neither of its parts has any. -/
@[simp] theorem isUnmarked_append {first second : String} :
    IsUnmarked (first ++ second) ↔ IsUnmarked first ∧ IsUnmarked second := by
  simp only [IsUnmarked, String.toList_append, List.forall_mem_append]

/-- What follows a token without marks only makes it longer. -/
theorem IsToken.append (isToken : IsToken token) (unmarked : IsUnmarked rest) :
    IsToken (token ++ rest) := by
  refine ⟨?_, isUnmarked_append.mpr ⟨isToken.unmarked, unmarked⟩⟩
  rw [ne_eq, String.append_eq_empty_iff]
  exact fun empty => isToken.visible empty.1

/-- The characters of a token are no marks. -/
theorem IsToken.contains_eq_false (isToken : IsToken token) :
    ∀ char ∈ token.toList, marks.contains char = false := by
  intro char member
  rw [List.contains_eq_mem, decide_eq_false_iff_not]
  exact isToken.unmarked char member

/-- A token has characters. -/
theorem IsToken.visible_toList (isToken : IsToken token) : (!token.toList.isEmpty) = true := by
  rw [Bool.not_eq_true', List.isEmpty_eq_false_iff, ne_eq, String.toList_eq_nil_iff]
  exact isToken.visible

/-- Marks in front belong to no piece. -/
theorem visiblePieces_append {between : List Char} (marked : ∀ char ∈ between, char ∈ marks)
    (chars : List Char) : visiblePieces (between ++ chars) = visiblePieces chars := by
  induction between with
  | nil => rfl
  | cons mark between inductionHypothesis =>
      have isMark : marks.contains mark = true :=
        List.contains_iff_mem.mpr (marked mark List.mem_cons_self)
      rw [← inductionHypothesis fun char member => marked char (List.mem_cons_of_mem _ member),
        visiblePieces, List.cons_append, List.splitOnP_cons_eq_if_modifyHead, if_pos isMark]
      rfl

/-- A token has no other token in it. -/
theorem tokens_of_isToken (isToken : IsToken token) : tokens token = [token] := by
  rw [tokens, visiblePieces, List.splitOnP_eq_singleton isToken.contains_eq_false,
    List.filter_cons, if_pos isToken.visible_toList, List.filter_nil, List.map_singleton,
    String.ofList_toList]

/-- The first token of a text ends where a separator stands. -/
theorem tokens_append (isToken : IsToken token) (isSeparator : IsSeparator separator) :
    tokens (token ++ (separator ++ rest)) = token :: tokens rest := by
  obtain ⟨mark, between, marked⟩ :=
    List.exists_cons_of_ne_nil (mt String.toList_eq_nil_iff.mp isSeparator.visible)
  have isMark : marks.contains mark = true :=
    List.contains_iff_mem.mpr (isSeparator.marked mark (marked ▸ List.mem_cons_self))
  have others : visiblePieces (between ++ rest.toList) = visiblePieces rest.toList :=
    visiblePieces_append (fun char member =>
      isSeparator.marked char (marked ▸ List.mem_cons_of_mem _ member)) _
  rw [tokens, visiblePieces, String.toList_append, String.toList_append, marked, List.cons_append,
    List.splitOnP_append_cons_of_forall_mem isToken.contains_eq_false _ isMark,
    List.filter_cons, if_pos isToken.visible_toList, List.map_cons, String.ofList_toList]
  exact congrArg (token :: List.map String.ofList ·) others

/-- A separator at the end belongs to no token. -/
theorem tokens_append_separator (isToken : IsToken token) (isSeparator : IsSeparator separator) :
    tokens (token ++ separator) = [token] := by
  have atEnd := @tokens_append token separator "" isToken isSeparator
  rwa [String.append_empty] at atEnd

/-- Tokens with a separator between them are the tokens of the whole. -/
theorem tokens_intercalate {words : List String} (isSeparator : IsSeparator separator)
    (each : ∀ word ∈ words, IsToken word) : tokens (separator.intercalate words) = words := by
  induction words with
  | nil => rfl
  | cons word words inductionHypothesis =>
      have first := each word List.mem_cons_self
      have others := inductionHypothesis fun other member =>
        each other (List.mem_cons_of_mem _ member)
      cases words with
      | nil => rw [String.intercalate_singleton, tokens_of_isToken first]
      | cons next words =>
          rw [String.intercalate_cons_cons, String.append_assoc, tokens_append first isSeparator,
            others]

/-- What stands in front of the place where a property of some characters ends. -/
theorem takeWhile_append_of_boundary {inside : Char → Bool} {first rest : List Char}
    (firstInside : ∀ char ∈ first, inside char = true)
    (restOutside : rest.head?.any inside = false) : (first ++ rest).takeWhile inside = first := by
  rw [List.takeWhile_append_of_pos firstInside]
  cases rest with
  | nil => rw [List.takeWhile_nil, List.append_nil]
  | cons char rest =>
      have outside : ¬ inside char = true := Bool.eq_false_iff.mp restOutside
      rw [List.takeWhile_cons_of_neg outside, List.append_nil]

/-- Two texts that are the same up to where a property of their characters ends are the same in
front of that place and behind it. -/
theorem append_inj_of_boundary {inside : Char → Bool} {first second rest other : List Char}
    (firstInside : ∀ char ∈ first, inside char = true)
    (secondInside : ∀ char ∈ second, inside char = true)
    (restOutside : rest.head?.any inside = false) (otherOutside : other.head?.any inside = false)
    (same : first ++ rest = second ++ other) : first = second ∧ rest = other := by
  have fronts := congrArg (List.takeWhile inside) same
  rw [takeWhile_append_of_boundary firstInside restOutside,
    takeWhile_append_of_boundary secondInside otherOutside] at fronts
  rw [fronts] at same
  exact ⟨fronts, List.append_cancel_left same⟩

namespace Numeral

/-- No digit is a mark. -/
theorem not_mem_marks_of_mem_toDigits {base value : Nat} {char : Char} (isBase : 1 < base)
    (few : base ≤ 16) (digit : char ∈ Nat.toDigits base value) : char ∉ marks := by
  have table : ∀ small < 16, Nat.digitChar small ∉ marks := by decide
  obtain ⟨small, below, rfl⟩ := exists_digitChar_of_mem_toDigits isBase digit
  exact table small (Nat.lt_of_lt_of_le below few)

/-- A decimal text of a natural number is a token. -/
theorem isToken_natural (value : Nat) : IsToken (natural value) where
  visible := by
    rw [natural, ne_eq, String.ofList_eq_empty_iff]
    exact Nat.toDigits_ne_nil
  unmarked := by
    intro char digit
    rw [natural, String.toList_ofList] at digit
    exact not_mem_marks_of_mem_toDigits (by decide) (by decide) digit

/-- A decimal text of an integer is a token. -/
theorem isToken_decimal (value : Int) : IsToken (decimal value) := by
  cases value with
  | ofNat value => exact isToken_natural value
  | negSucc value => exact IsToken.append (by decide) (isToken_natural (value + 1)).unmarked

/-- A decimal text of an integer with its sign has no marks. -/
theorem isUnmarked_signed (value : Int) : IsUnmarked (signed value) := by
  cases value with
  | ofNat value => exact isUnmarked_append.mpr ⟨by decide, (isToken_natural value).unmarked⟩
  | negSucc value =>
      exact isUnmarked_append.mpr ⟨by decide, (isToken_natural (value + 1)).unmarked⟩

/-- A hexadecimal text has no marks. -/
theorem isUnmarked_hex (least value : Nat) : IsUnmarked (hex least value) := by
  intro char shown
  rw [hex, String.toList_ofList, List.mem_append] at shown
  rcases shown with zero | digit
  · rw [List.eq_of_mem_replicate zero]
    decide
  · exact not_mem_marks_of_mem_toDigits (by decide) (by decide) digit

end Numeral

end RiscvFacts
