import Mathlib
import RiscvFacts.Proofs.Instr.AssemblyText

/-!
# Opcodes from their mnemonics

Looking up a text lowers its letters and finds the opcode with that mnemonic, of which there is
at most one (`Opcode.ofMnemonic?_eq_some_iff`). A map from mnemonics to opcodes therefore has the
same entries in whatever order it is built (`Opcode.getElem?_byMnemonic`). The mnemonic is the first
word of the assembly text of every instruction, well formed or not (`Instr.firstWord_text`), so that
looking up this word gives the opcode back (`Opcode.ofMnemonic?_inverts_text`).
-/

namespace RiscvFacts

/-- Whether a text is a word in some capitalisation: each character is the capital or the small
version of the one in its place. A character that is no letter of ASCII is its only version. -/
def Capitalises (text word : String) : Prop :=
  List.Forall₂ (fun char other => char = other.toUpper ∨ char = other.toLower)
    text.toList word.toList

/-- Two characters have the same small version exactly when one of them is the capital or the small
version of the other. -/
theorem toLower_eq_toLower_iff {char other : Char} :
    char.toLower = other.toLower ↔ char = other.toUpper ∨ char = other.toLower := by
  constructor
  · intro same
    by_cases capital : char.isUpper
    · have large : char.toUpper = char :=
        Char.toUpper_eq_of_not_isLower (Char.not_isLower_of_isUpper capital)
      left
      rw [← Char.toUpper_toLower_eq_toUpper other, ← same, Char.toUpper_toLower_eq_toUpper, large]
    · right
      rw [← same, Char.toLower_eq_of_not_isUpper capital]
  · rintro (rfl | rfl)
    · exact Char.toLower_toUpper_eq_toLower other
    · exact Char.toLower_toLower_eq_toLower other

/-- The first word of a text: what stands in front of the first blank, or all of it. -/
def firstWord (text : String) : String :=
  String.ofList (text.toList.takeWhile fun char => char ≠ ' ')

namespace Opcode

variable {text word : String} {opcode : Opcode}

/-- A text is some capitalisation of a word exactly when both have the same lowered letters. -/
theorem capitalises_iff : Capitalises text word ↔ lowered text = lowered word := by
  rw [lowered, lowered, String.ofList_inj, ← List.forall₂_eq_eq_eq, List.forall₂_map_left_iff,
    List.forall₂_map_right_iff]
  simp only [Capitalises, toLower_eq_toLower_iff]

/-- No mnemonic has capitals. -/
theorem lowered_mnemonic (opcode : Opcode) : lowered opcode.mnemonic = opcode.mnemonic := by
  have found := List.find?_some (ofMnemonic?_mnemonic opcode)
  exact (beq_iff_eq.mp found).symm

/-- A text is looked up as the opcode whose mnemonic its lowered letters are. -/
theorem ofMnemonic?_eq_some_iff :
    ofMnemonic? text = some opcode ↔ lowered text = opcode.mnemonic := by
  constructor
  · intro found
    rw [ofMnemonic?] at found
    have same := List.find?_some found
    exact (beq_iff_eq.mp same).symm
  · intro same
    have found := ofMnemonic?_mnemonic opcode
    rwa [ofMnemonic?, lowered_mnemonic, ← same] at found

/-- A text is not looked up when its lowered letters are no mnemonic. -/
theorem ofMnemonic?_eq_none_iff :
    ofMnemonic? text = none ↔ ∀ opcode : Opcode, lowered text ≠ opcode.mnemonic := by
  simp only [Option.eq_none_iff_forall_ne_some, ne_eq, ofMnemonic?_eq_some_iff]

/-- The map from mnemonics to the opcodes of a list. A later opcode takes the place of an earlier
one with the same mnemonic. -/
def byMnemonic (opcodes : List Opcode) : Std.HashMap String Opcode :=
  Std.HashMap.ofList (opcodes.map fun opcode => (opcode.mnemonic, opcode))

/-- The table lists no opcode twice. -/
theorem nodup_all : all.Nodup := by decide +kernel

/-- In whatever order the opcodes are put into the map, it finds what looking up a text in the table
finds: no opcode takes the place of another. -/
theorem getElem?_byMnemonic {opcodes : List Opcode} (complete : opcodes.Perm all) (text : String) :
    (byMnemonic opcodes)[lowered text]? = ofMnemonic? text := by
  have distinct : (opcodes.map fun opcode => (opcode.mnemonic, opcode)).Pairwise
      fun first second => (first.1 == second.1) = false := by
    rw [List.pairwise_map]
    refine (complete.nodup_iff.mpr nodup_all).imp fun different => ?_
    rw [beq_eq_false_iff_ne]
    exact fun same => different (mnemonic_inj.mp same)
  cases found : ofMnemonic? text with
  | some opcode =>
      have same := ofMnemonic?_eq_some_iff.mp found
      have listed : opcode ∈ opcodes := complete.mem_iff.mpr (mem_all opcode)
      rw [byMnemonic, same]
      exact Std.HashMap.getElem?_ofList_of_mem BEq.rfl distinct (List.mem_map_of_mem listed)
  | none =>
      have unlisted := ofMnemonic?_eq_none_iff.mp found
      refine Std.HashMap.getElem?_ofList_of_contains_eq_false ?_
      rw [List.map_map, List.contains_eq_mem, decide_eq_false_iff_not, List.mem_map]
      rintro ⟨opcode, -, same⟩
      exact unlisted opcode same.symm

end Opcode

namespace Instr

/-- What stands behind the mnemonic of an instruction, if anything, starts with a blank. -/
theorem exists_text_eq (instr : Instr) :
    ∃ rest, instr.text = instr.opcode.mnemonic ++ rest ∧
      (rest.toList.head?.any fun char => char ≠ ' ') = false := by
  have blank (shown : String) :
      ((" " ++ shown).toList.head?.any fun char => char ≠ ' ') = false := by
    rw [String.toList_append]
    rfl
  obtain ⟨opcode, operands, descriptors⟩ := instr
  refine ⟨_, rfl, ?_⟩
  dsimp only
  split
  case h_5 operands _ _ _ _ _ _ =>
    cases operands with
    | nil => rfl
    | cons operand operands => exact blank _
  all_goals
    simp only [String.append_assoc]
    exact blank _

/-- The first word of the text of an instruction is its mnemonic, whatever its operands. -/
theorem firstWord_text (instr : Instr) : firstWord instr.text = instr.opcode.mnemonic := by
  obtain ⟨rest, text, behind⟩ := instr.exists_text_eq
  have visible : ∀ char ∈ instr.opcode.mnemonic.toList, decide (char ≠ ' ') = true := by
    intro char member
    have unmarked := instr.opcode.isToken_mnemonic.unmarked char member
    rw [decide_eq_true_eq]
    rintro rfl
    exact unmarked List.mem_cons_self
  rw [firstWord, text, String.toList_append, takeWhile_append_of_boundary visible behind,
    String.ofList_toList]

end Instr

/-- Looking up a text inverts writing it. The opcode that is found is the one whose mnemonic the
lowered letters of the text are, and there is none if they are no mnemonic. No opcode hides another
one in a map from mnemonics. The opcode of an instruction, whatever its operands, is found for the
first word of its assembly text in every capitalisation, and for no other text. -/
theorem Opcode.ofMnemonic?_inverts_text (text : String) :
    (∀ opcode, ofMnemonic? text = some opcode ↔ lowered text = opcode.mnemonic) ∧
    (ofMnemonic? text = none ↔ ∀ opcode : Opcode, lowered text ≠ opcode.mnemonic) ∧
    (∀ opcodes, opcodes.Perm all → (byMnemonic opcodes)[lowered text]? = ofMnemonic? text) ∧
    ∀ instr : Instr, ofMnemonic? text = some instr.opcode ↔
      Capitalises text (firstWord instr.text) := by
  refine ⟨fun opcode => ofMnemonic?_eq_some_iff, ofMnemonic?_eq_none_iff,
    fun opcodes complete => getElem?_byMnemonic complete text, fun instr => ?_⟩
  rw [ofMnemonic?_eq_some_iff, capitalises_iff, instr.firstWord_text, lowered_mnemonic]

end RiscvFacts
