import RiscvFacts.Instr.Basic
import RiscvFacts.Proofs.Instr.OperandText

/-!
# Instructions from their assembly texts

The tokens of an instruction's text are its mnemonic and the texts of its operands, in the order in
which the layout shows them and whatever stands between them (`Instr.tokens_text`). The mnemonic
tells the opcode, the opcode the layout, and the layout the order, so that a text with legible
operands is the text of one opcode with one list of operands (`Instr.text_eq_text_iff`). Operands
that do not fill their layout make no exception.
-/

namespace RiscvFacts

/-- The mnemonic of an opcode is a token. -/
theorem Opcode.isToken_mnemonic (opcode : Opcode) : IsToken opcode.mnemonic := by
  have inTable : ∀ listed ∈ all, IsToken listed.mnemonic := by decide +kernel
  exact inTable opcode (mem_all opcode)

/-- Different opcodes have different mnemonics. -/
theorem Opcode.mnemonic_inj {first second : Opcode} :
    first.mnemonic = second.mnemonic ↔ first = second := by
  refine ⟨?_, congrArg mnemonic⟩
  intro same
  have found := ofMnemonic?_mnemonic first
  rw [same, ofMnemonic?_mnemonic] at found
  exact (Option.some.inj found).symm

namespace Layout

variable {α : Type} {layout : Layout} {operands : List α}

/-- The operands in the order in which a layout shows them: a fixed offset stands in front of the
base that it is added to. -/
def shown : Layout → List α → List α
  | .valueBaseOffset, [value, base, offset] => [value, offset, base]
  | _, operands => operands

/-- The order in which operands are shown tells their order. -/
theorem shown_shown : layout.shown (layout.shown operands) = operands := by
  fun_cases shown layout operands
  case case1 => rfl
  case case2 other => exact shown.eq_2 _ _ other

/-- A layout shows every operand. -/
theorem mem_shown {operand : α} : operand ∈ layout.shown operands ↔ operand ∈ operands := by
  fun_cases shown layout operands
  case case1 value base offset => simp [or_comm]
  case case2 => rfl

end Layout

/-- Lists of legible operands with the same texts are the same. -/
theorem Operand.map_text_inj {first second : List Operand}
    (firstLegible : ∀ operand ∈ first, operand.IsLegible)
    (secondLegible : ∀ operand ∈ second, operand.IsLegible)
    (same : first.map text = second.map text) : first = second := by
  induction first generalizing second with
  | nil => exact (List.map_eq_nil_iff.mp same.symm).symm
  | cons operand first inductionHypothesis =>
      cases second with
      | nil => cases same
      | cons other second =>
          obtain ⟨operandLegible, firstLegible⟩ := List.forall_mem_cons.mp firstLegible
          obtain ⟨otherLegible, secondLegible⟩ := List.forall_mem_cons.mp secondLegible
          obtain ⟨heads, tails⟩ := List.cons.inj same
          rw [(text_inj operandLegible otherLegible).mp heads,
            inductionHypothesis firstLegible secondLegible tails]

namespace Instr

/-- Whether all operands of an instruction can be read back. -/
def IsLegible (instr : Instr) : Prop := ∀ operand ∈ instr.operands, operand.IsLegible

instance (instr : Instr) : Decidable instr.IsLegible :=
  inferInstanceAs (Decidable (∀ operand ∈ instr.operands, operand.IsLegible))

variable {instr first second : Instr}

/-- The tokens of a mnemonic and listed operands. -/
theorem tokens_listText {mnemonic : String} {operands : List Operand}
    (isToken : IsToken mnemonic) (legible : ∀ operand ∈ operands, operand.IsLegible) :
    tokens (mnemonic ++ listText operands) = mnemonic :: operands.map Operand.text := by
  cases operands with
  | nil => rw [listText, String.append_empty, tokens_of_isToken isToken, List.map_nil]
  | cons operand operands =>
      have texts : ∀ text ∈ (operand :: operands).map Operand.text, IsToken text :=
        List.forall_mem_map.mpr fun listed member => Operand.isToken_text (legible listed member)
      rw [listText, tokens_append isToken (by decide), tokens_intercalate (by decide) texts]
      exact List.cons_ne_nil operand operands

/-- The tokens of an instruction's text are its mnemonic and its operands, as its layout shows
them. -/
theorem tokens_text (legible : instr.IsLegible) :
    tokens instr.text =
      instr.opcode.mnemonic ::
        (instr.opcode.info.layout.shown instr.operands).map Operand.text := by
  have word := instr.opcode.isToken_mnemonic
  have texts : ∀ operand ∈ instr.operands, IsToken operand.text :=
    fun operand member => Operand.isToken_text (legible operand member)
  obtain ⟨opcode, operands, descriptors⟩ := instr
  rw [text]
  dsimp only at word texts ⊢
  split
  case h_1 value base offset layout =>
    simp only [List.forall_mem_cons] at texts
    obtain ⟨valueToken, baseToken, offsetToken, -⟩ := texts
    simp only [String.append_assoc]
    rw [tokens_append word (by decide), tokens_append valueToken (by decide),
      tokens_append offsetToken (by decide), tokens_append_separator baseToken (by decide), layout]
    rfl
  case h_2 data base layout =>
    simp only [List.forall_mem_cons] at texts
    obtain ⟨dataToken, baseToken, -⟩ := texts
    simp only [String.append_assoc]
    rw [tokens_append word (by decide), tokens_append dataToken (by decide),
      tokens_append_separator baseToken (by decide), layout]
    rfl
  case h_3 data base step layout | h_4 data base step layout =>
    simp only [List.forall_mem_cons] at texts
    obtain ⟨dataToken, baseToken, stepToken, -⟩ := texts
    simp only [String.append_assoc]
    rw [tokens_append word (by decide), tokens_append dataToken (by decide),
      tokens_append baseToken (by decide), tokens_of_isToken stepToken, layout]
    rfl
  case h_5 operands _ _ unshaped _ _ _ =>
    rw [Layout.shown.eq_2 _ operands unshaped]
    exact tokens_listText word legible

/-- The assembly texts of instructions with legible operands are the same exactly when their
opcodes and operands are: the text identifies them, and shows nothing of the recorded accesses. -/
theorem text_eq_text_iff (firstLegible : first.IsLegible) (secondLegible : second.IsLegible) :
    first.text = second.text ↔
      first.opcode = second.opcode ∧ first.operands = second.operands := by
  constructor
  · intro same
    have sameTokens := congrArg tokens same
    rw [tokens_text firstLegible, tokens_text secondLegible] at sameTokens
    obtain ⟨mnemonics, texts⟩ := List.cons.inj sameTokens
    have opcodes := Opcode.mnemonic_inj.mp mnemonics
    refine ⟨opcodes, ?_⟩
    have sameShown := Operand.map_text_inj
      (fun operand member => firstLegible operand (Layout.mem_shown.mp member))
      (fun operand member => secondLegible operand (Layout.mem_shown.mp member)) texts
    rw [opcodes] at sameShown
    -- Both lists are shown in the order of one layout, which showing them again undoes.
    rw [← @Layout.shown_shown _ second.opcode.info.layout first.operands, sameShown,
      Layout.shown_shown]
  · rintro ⟨opcodes, operands⟩
    rw [text, text, opcodes, operands]

/-- Which operand of a load is its base shows in the text, for a virtual base and a symbol with an
addend as the offset, and however the access was recorded. -/
theorem text_tells_base_from_offset :
    let base : Operand := .register (.virtual .gpr 3)
    let offset : Operand := .symbol "table" (-8)
    let load : Instr := ⟨.lw, [.register (.x 10), base, offset], [.load 4]⟩
    let swapped : Instr := ⟨.lw, [.register (.x 10), offset, base], [.load 4]⟩
    (load.IsLegible ∧ swapped.IsLegible) ∧ load.text ≠ swapped.text ∧
      load.text = ({ load with descriptors := [] } : Instr).text := by
  intro base offset load swapped
  have loadLegible : load.IsLegible := by decide
  have swappedLegible : swapped.IsLegible := by decide
  refine ⟨⟨loadLegible, swappedLegible⟩, ?_, ?_⟩
  · intro same
    have operands := ((text_eq_text_iff loadLegible swappedLegible).mp same).2
    have different : load.operands ≠ swapped.operands := by decide
    exact different operands
  · have unrecordedLegible : ({ load with descriptors := [] } : Instr).IsLegible := loadLegible
    exact (text_eq_text_iff loadLegible unrecordedLegible).mpr ⟨rfl, rfl⟩

end Instr

end RiscvFacts
