import Mathlib.Data.List.Nodup
import RiscvFacts.Operand
import RiscvFacts.Text
import RiscvFacts.Proofs.Text.Tokens

/-!
# Operands from their texts

The first characters of an operand's text tell its form (`Operand.ofText_text`), and within
each form the text tells the operand (`Operand.text_inj`). An operand has to be legible for
that: its register has a name of its own, or its symbol none of the characters that end a
symbol. The text of a legible operand is one token (`Operand.isToken_text`).
-/

namespace RiscvFacts

/-- Different register files have different names. -/
theorem RegisterFile.name_inj {first second : RegisterFile} :
    first.name = second.name ↔ first = second := by
  cases first <;> cases second <;> decide

namespace Register

/-- How a register is written in assembly text. -/
inductive NameForm where
  | conventional
  | numbered
  | virtual
  deriving DecidableEq

/-- The form of a register's name. -/
def nameForm : Register → NameForm
  | .physical .gpr _ | .physical .fpr _ => .conventional
  | .physical .vr _ => .numbered
  | .virtual _ _ => .virtual

/-- The form of a name. No name of the calling convention starts with the letter of the vector
registers. -/
def NameForm.ofText (text : String) : NameForm :=
  match text.toList with
  | 'v' :: _ => .numbered
  | '%' :: _ => .virtual
  | _ => .conventional

/-- Whether a register has a name of its own: the calling convention names the architectural
integer and floating-point registers only. -/
def IsNamed : Register → Prop
  | .physical .gpr index | .physical .fpr index => index.toNat < count
  | .physical .vr _ | .virtual _ _ => True

instance : DecidablePred IsNamed
  | .physical .gpr index | .physical .fpr index =>
      inferInstanceAs (Decidable (index.toNat < count))
  | .physical .vr _ | .virtual _ _ => inferInstanceAs (Decidable True)

/-- The registers that the calling convention names. -/
def conventional : List Register := (List.range count).map x ++ (List.range count).map f

/-- The calling convention gives every register another name. -/
theorem nodup_conventional_names : (conventional.map name).Nodup := by decide +kernel

/-- The names of the calling convention look like such names. -/
theorem ofText_conventional_name :
    ∀ register ∈ conventional, NameForm.ofText register.name = .conventional := by
  decide +kernel

/-- The names of the calling convention are tokens. -/
theorem isToken_conventional_name : ∀ register ∈ conventional, IsToken register.name := by
  decide +kernel

variable {register first second : Register}

/-- A register with an architectural index of its file is one of those that the calling
convention names. -/
theorem mem_conventional (named : register.IsNamed) (form : register.nameForm = .conventional) :
    register ∈ conventional := by
  cases register with
  | virtual file id => cases form
  | physical file index =>
      cases file with
      | vr => cases form
      | gpr =>
          have listed := List.mem_map_of_mem (f := x) (List.mem_range.mpr named)
          rw [x, UInt8.ofNat_toNat] at listed
          exact List.mem_append_left _ listed
      | fpr =>
          have listed := List.mem_map_of_mem (f := f) (List.mem_range.mpr named)
          rw [f, UInt8.ofNat_toNat] at listed
          exact List.mem_append_right _ listed

/-- A register that is written with a number and no file is a vector register. -/
theorem exists_numbered (form : register.nameForm = .numbered) :
    ∃ index, register = .physical .vr index := by
  cases register with
  | virtual file id => cases form
  | physical file index =>
      cases file with
      | vr => exact ⟨index, rfl⟩
      | gpr | fpr => cases form

/-- A register that is written with a number and a file is a virtual one. -/
theorem exists_virtual (form : register.nameForm = .virtual) :
    ∃ file id, register = .virtual file id := by
  cases register with
  | virtual file id => exact ⟨file, id, rfl⟩
  | physical file index => cases file <;> cases form

/-- A virtual register is written with its number and its file. -/
theorem toList_name_virtual (file : RegisterFile) (id : UInt32) :
    (virtual file id).name.toList =
      '%' :: ((Numeral.natural id.toNat).toList ++ ':' :: file.name.toList) := by
  rw [name, String.append_assoc, String.append_assoc, String.toList_append, String.toList_append,
    String.toList_append]
  rfl

/-- The first character of a name tells its form. -/
theorem NameForm.ofText_name (named : register.IsNamed) :
    ofText register.name = register.nameForm := by
  cases form : register.nameForm with
  | conventional => exact ofText_conventional_name register (mem_conventional named form)
  | numbered =>
      obtain ⟨index, rfl⟩ := exists_numbered form
      rw [ofText, name, String.toList_append]
      rfl
  | virtual =>
      obtain ⟨file, id, rfl⟩ := exists_virtual form
      rw [ofText, toList_name_virtual]
      rfl

/-- A virtual register's name tells its number and its file. -/
theorem virtual_inj_of_name {firstFile secondFile : RegisterFile} {firstId secondId : UInt32}
    (same : (virtual firstFile firstId).name = (virtual secondFile secondId).name) :
    firstFile = secondFile ∧ firstId = secondId := by
  have digits (id : UInt32) : ∀ char ∈ (Numeral.natural id.toNat).toList, char.isDigit = true := by
    intro char digit
    rw [Numeral.natural, String.toList_ofList] at digit
    exact Nat.isDigit_of_mem_toDigits (by decide) (by decide) digit
  rw [← String.toList_inj, toList_name_virtual, toList_name_virtual, List.cons_inj_right] at same
  -- The number ends where the colon stands, which is no digit.
  obtain ⟨numbers, files⟩ :=
    append_inj_of_boundary (digits firstId) (digits secondId) rfl rfl same
  rw [String.toList_inj, Numeral.natural_inj, UInt32.toNat_inj] at numbers
  rw [List.cons_inj_right, String.toList_inj, RegisterFile.name_inj] at files
  exact ⟨files, numbers⟩

/-- Different registers with names of their own have different names. -/
theorem name_inj (firstNamed : first.IsNamed) (secondNamed : second.IsNamed) :
    first.name = second.name ↔ first = second := by
  refine ⟨?_, congrArg name⟩
  intro same
  have sameForm : second.nameForm = first.nameForm := by
    rw [← NameForm.ofText_name firstNamed, ← NameForm.ofText_name secondNamed, same]
  cases form : first.nameForm with
  | conventional =>
      have firstListed := mem_conventional firstNamed form
      have secondListed := mem_conventional secondNamed (sameForm.trans form)
      exact List.inj_on_of_nodup_map nodup_conventional_names firstListed secondListed same
  | numbered =>
      obtain ⟨index, rfl⟩ := exists_numbered form
      obtain ⟨other, rfl⟩ := exists_numbered (sameForm.trans form)
      rw [UInt8.toNat_inj.mp (Numeral.natural_inj.mp ((String.append_right_inj "v").mp same))]
  | virtual =>
      obtain ⟨file, id, rfl⟩ := exists_virtual form
      obtain ⟨otherFile, otherId, rfl⟩ := exists_virtual (sameForm.trans form)
      obtain ⟨rfl, rfl⟩ := virtual_inj_of_name same
      rfl

/-- The name of a register is a token. -/
theorem isToken_name (named : register.IsNamed) : IsToken register.name := by
  cases form : register.nameForm with
  | conventional => exact isToken_conventional_name register (mem_conventional named form)
  | numbered =>
      obtain ⟨index, rfl⟩ := exists_numbered form
      exact IsToken.append (by decide) (Numeral.isToken_natural _).unmarked
  | virtual =>
      obtain ⟨file, id, rfl⟩ := exists_virtual form
      have percent : IsToken "%" := by decide
      have colon : IsUnmarked ":" := by decide
      have number := (Numeral.isToken_natural id.toNat).unmarked
      have unmarked : IsUnmarked file.name := by cases file <;> decide
      exact ((percent.append number).append colon).append unmarked

end Register

/-- The form of an operand's text. A virtual register has its number behind the percent sign, and a
stack slot has it later. -/
def OperandKind.ofText (text : String) : OperandKind :=
  match text.toList with
  | [] => .register
  | start :: rest =>
      if start.isDigit then .immediate
      else
        match start, rest with
        | '-', _ => .immediate
        | '@', _ => .symbol
        | '<', _ => .other
        | '%', next :: _ => if next.isDigit then .register else .stackSlot
        | _, _ => .register

namespace Operand

/-- The characters that an addend starts with. -/
def addendSigns : List Char := ['+', '-']

/-- The characters that may end a symbol in assembly text. -/
def symbolEnds : List Char := addendSigns ++ marks

/-- Whether an operand can be read back, as one without a register or symbol always can: its
register has a name of its own, or its symbol none of the characters that may end one. -/
def IsLegible : Operand → Prop
  | .register held => held.IsNamed
  | .symbol name _ => ∀ char ∈ name.toList, char ∉ symbolEnds
  | .immediate _ | .stackSlot _ | .other _ => True

instance : DecidablePred IsLegible
  | .register held => inferInstanceAs (Decidable held.IsNamed)
  | .symbol _ _ => List.decidableBAll _ _
  | .immediate _ | .stackSlot _ | .other _ => inferInstanceAs (Decidable True)

/-- How a symbol shows its addend. -/
def addendText (addend : Int64) : String :=
  if addend = 0 then "" else Numeral.signed addend.toInt

/-- A symbol is written in front of its addend. -/
theorem text_symbol (name : String) (addend : Int64) :
    (symbol name addend).text = "@" ++ (name ++ addendText addend) := by
  rw [text, addendText]
  split
  · rw [String.append_empty]
  · rw [String.append_assoc]

variable {operand first second : Operand}

/-- A register's name looks like a register. -/
theorem ofText_name {register : Register} (named : register.IsNamed) :
    OperandKind.ofText register.name = .register := by
  cases form : register.nameForm with
  | conventional =>
      have table : ∀ register ∈ Register.conventional,
          OperandKind.ofText register.name = .register := by decide +kernel
      exact table register (Register.mem_conventional named form)
  | numbered =>
      obtain ⟨index, rfl⟩ := Register.exists_numbered form
      rw [OperandKind.ofText, Register.name, String.toList_append]
      rfl
  | virtual =>
      obtain ⟨file, id, rfl⟩ := Register.exists_virtual form
      obtain ⟨digit, rest, digits, isDigit⟩ := Numeral.exists_digit_natural id.toNat
      rw [OperandKind.ofText, Register.toList_name_virtual, digits]
      exact if_pos isDigit

/-- An integer looks like an immediate. -/
theorem ofText_decimal (value : Int) : OperandKind.ofText (Numeral.decimal value) = .immediate := by
  cases value with
  | negSucc value =>
      rw [OperandKind.ofText, Numeral.decimal, String.toList_append]
      rfl
  | ofNat value =>
      obtain ⟨digit, rest, digits, isDigit⟩ := Numeral.exists_digit_natural value
      rw [OperandKind.ofText, Numeral.decimal, digits]
      exact if_pos isDigit

/-- The first characters of an operand's text tell its form. -/
theorem ofText_text (legible : operand.IsLegible) :
    OperandKind.ofText operand.text = operand.kind := by
  cases operand with
  | register held => exact ofText_name legible
  | immediate value => exact ofText_decimal value.toInt
  | stackSlot index =>
      rw [OperandKind.ofText, text, String.toList_append]
      rfl
  | symbol name addend =>
      rw [OperandKind.ofText, text_symbol, String.toList_append]
      rfl
  | other raw =>
      rw [OperandKind.ofText, text, String.append_assoc, String.toList_append]
      rfl

/-- An addend that is shown starts with its sign. -/
theorem exists_sign_addendText {addend : Int64} (nonzero : addend ≠ 0) :
    ∃ sign ∈ addendSigns, ∃ rest, (addendText addend).toList = sign :: rest := by
  rw [addendText, if_neg nonzero]
  cases addend.toInt with
  | ofNat value => exact ⟨'+', by decide, _, String.toList_append⟩
  | negSucc value => exact ⟨'-', by decide, _, String.toList_append⟩

/-- Only zero is not shown. -/
theorem addendText_eq_empty_iff {addend : Int64} : addendText addend = "" ↔ addend = 0 := by
  refine ⟨?_, fun zero => if_pos zero⟩
  intro empty
  by_contra nonzero
  obtain ⟨sign, -, rest, starts⟩ := exists_sign_addendText nonzero
  rw [empty] at starts
  cases starts

/-- Different addends are shown differently. -/
theorem addendText_inj {left right : Int64} :
    addendText left = addendText right ↔ left = right := by
  refine ⟨?_, congrArg addendText⟩
  intro same
  by_cases zero : left = 0
  · rw [addendText_eq_empty_iff.mpr zero, eq_comm, addendText_eq_empty_iff] at same
    exact zero.trans same.symm
  · have nonzero : right ≠ 0 := by
      rwa [ne_eq, ← addendText_eq_empty_iff, ← same, addendText_eq_empty_iff]
    rw [addendText, addendText, if_neg zero, if_neg nonzero, Numeral.signed_inj,
      Int64.toInt_inj] at same
    exact same

/-- The text of a legible symbol tells its name and its addend. -/
theorem symbol_inj_of_text {leftName rightName : String} {left right : Int64}
    (leftLegible : (symbol leftName left).IsLegible)
    (rightLegible : (symbol rightName right).IsLegible)
    (same : (symbol leftName left).text = (symbol rightName right).text) :
    leftName = rightName ∧ left = right := by
  let inside (char : Char) : Bool := !addendSigns.contains char
  have named {name : String} {addend : Int64} (legible : (symbol name addend).IsLegible) :
      ∀ char ∈ name.toList, inside char = true := by
    intro char member
    have plain := legible char member
    rw [symbolEnds, List.mem_append, not_or] at plain
    simpa [inside] using plain.1
  have ended (addend : Int64) : (addendText addend).toList.head?.any inside = false := by
    by_cases zero : addend = 0
    · rw [addendText_eq_empty_iff.mpr zero]
      rfl
    · obtain ⟨sign, isSign, rest, starts⟩ := exists_sign_addendText zero
      rw [starts]
      simpa [inside] using isSign
  rw [text_symbol, text_symbol, String.append_right_inj, ← String.toList_inj, String.toList_append,
    String.toList_append] at same
  obtain ⟨names, addends⟩ :=
    append_inj_of_boundary (named leftLegible) (named rightLegible) (ended left) (ended right) same
  exact ⟨String.toList_inj.mp names, addendText_inj.mp (String.toList_inj.mp addends)⟩

/-- Different legible operands have different texts. -/
theorem text_inj (firstLegible : first.IsLegible) (secondLegible : second.IsLegible) :
    first.text = second.text ↔ first = second := by
  refine ⟨?_, congrArg text⟩
  intro same
  have sameKind : first.kind = second.kind := by
    rw [← ofText_text firstLegible, ← ofText_text secondLegible, same]
  match first, second with
  | .register left, .register right =>
      rw [(Register.name_inj firstLegible secondLegible).mp same]
  | .immediate left, .immediate right =>
      rw [Int64.toInt_inj.mp (Numeral.decimal_inj.mp same)]
  | .stackSlot left, .stackSlot right =>
      rw [text, text, String.append_right_inj, Numeral.decimal_inj, Int32.toInt_inj] at same
      rw [same]
  | .symbol leftName left, .symbol rightName right =>
      obtain ⟨rfl, rfl⟩ := symbol_inj_of_text firstLegible secondLegible same
      rfl
  | .other left, .other right =>
      rw [text, text, String.append_left_inj, String.append_right_inj, Numeral.hex_one_inj,
        UInt64.toNat_inj] at same
      rw [same]

/-- A symbol with a sign in its name reads like one with an addend. -/
example : (symbol "table-8" 0).text = (symbol "table" (-8)).text := by decide

/-- The text of a legible operand is a token. -/
theorem isToken_text (legible : operand.IsLegible) : IsToken operand.text := by
  cases operand with
  | register held => exact Register.isToken_name legible
  | immediate value => exact Numeral.isToken_decimal _
  | stackSlot index => exact IsToken.append (by decide) (Numeral.isToken_decimal _).unmarked
  | symbol name addend =>
      have plain : IsUnmarked name := fun char member mark =>
        legible char member (List.mem_append_right _ mark)
      rw [text_symbol]
      refine IsToken.append (by decide) (isUnmarked_append.mpr ⟨plain, ?_⟩)
      rw [addendText]
      split
      · decide
      · exact Numeral.isUnmarked_signed _
  | other raw =>
      exact IsToken.append (IsToken.append (by decide) (Numeral.isUnmarked_hex _ _)) (by decide)

end Operand

end RiscvFacts
