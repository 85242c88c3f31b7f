import RiscvFacts.CommandLine.Run
import RiscvFacts.Proofs.Query.Decoded
import RiscvFacts.Proofs.Text.Unbroken

/-!
# The wording of an analysis

The only text from outside that an instruction can hold is the name of a symbol, and
no word spells one. What an analysis says about a word is therefore put together
from names of the project, numerals and separators, so that a report takes one line
of output (`Report.isUnbroken_line_ofWord`) and a warning one line of the log
(`LogEvent.IsOwn.isUnbroken_record`).
-/

namespace RiscvFacts

open Line

/-- The mnemonic of an opcode is unbroken. -/
@[simp] theorem Opcode.isUnbroken_mnemonic (opcode : Opcode) : IsUnbroken opcode.mnemonic := by
  have inTable : ∀ listed ∈ all, IsUnbroken listed.mnemonic := by decide +kernel
  exact inTable opcode (mem_all opcode)

/-- The name of a register width is unbroken. -/
@[simp] theorem Xlen.isUnbroken_name (xlen : Xlen) : IsUnbroken xlen.name := by
  cases xlen <;> decide

/-- The name of a register file is unbroken. -/
@[simp] theorem RegisterFile.isUnbroken_name (file : RegisterFile) : IsUnbroken file.name := by
  cases file <;> decide

/-- The name of a register is unbroken. -/
@[simp] theorem Register.isUnbroken_name (register : Register) : IsUnbroken register.name := by
  have listed {names : List String} (each : ∀ name ∈ names, IsUnbroken name) (index : Nat) :
      IsUnbroken (names.getD index "??") := by
    rw [List.getD_eq_getElem?_getD]
    cases inList : names[index]? with
    | none => decide
    | some name => exact each name (List.mem_of_getElem? inList)
  cases register with
  | physical file index =>
      cases file with
      | gpr => exact listed (by decide) index.toNat
      | fpr => exact listed (by decide) index.toNat
      | vr => exact isUnbroken_append.mpr ⟨by decide, Numeral.isUnbroken_natural _⟩
  | «virtual» file id =>
      simp only [name, isUnbroken_append, Numeral.isUnbroken_natural, RegisterFile.isUnbroken_name]
      decide

/-- The name of an operand form is unbroken. -/
@[simp] theorem OperandKind.isUnbroken_name (kind : OperandKind) : IsUnbroken kind.name := by
  cases kind <;> decide

/-- An operand of the machine has an unbroken text; only symbols may not. -/
theorem Operand.IsMachine.isUnbroken_text {operand : Operand} (onMachine : operand.IsMachine) :
    IsUnbroken operand.text := by
  cases operand with
  | register held => exact held.isUnbroken_name
  | immediate value => exact Numeral.isUnbroken_decimal _
  | other raw =>
      simp only [text, isUnbroken_append, Numeral.isUnbroken_hex]
      decide
  | stackSlot => exact onMachine.elim
  | symbol => exact onMachine.elim

/-- The wording of a fault is unbroken. -/
@[simp] theorem Fault.isUnbroken_message (fault : Fault) : IsUnbroken fault.message := by
  unfold message
  split
  all_goals
    simp only [isUnbroken_append, Opcode.isUnbroken_mnemonic, Numeral.isUnbroken_natural,
      Numeral.isUnbroken_decimal, OperandKind.isUnbroken_name, RegisterFile.isUnbroken_name]
    decide

/-- The wording of a decoding error is unbroken. -/
@[simp] theorem DecodeError.isUnbroken_message (error : DecodeError) :
    IsUnbroken error.message := by
  unfold message
  split
  all_goals
    simp only [isUnbroken_append, Opcode.isUnbroken_mnemonic, Numeral.isUnbroken_natural,
      Numeral.isUnbroken_hex, Xlen.isUnbroken_name, Fault.isUnbroken_message]
    decide +kernel

namespace Instr

/-- A list of operands is unbroken when their texts are. -/
theorem isUnbroken_listText {operands : List Operand}
    (texts : ∀ operand ∈ operands, IsUnbroken operand.text) : IsUnbroken (listText operands) := by
  cases operands with
  | nil => decide
  | cons operand operands =>
      refine isUnbroken_append.mpr ⟨by decide, isUnbroken_intercalate (by decide) ?_⟩
      exact List.forall_mem_map.mpr texts

/-- Operands of the machine make an unbroken assembly text. -/
theorem isUnbroken_text {instr : Instr} (machine : ∀ operand ∈ instr.operands, operand.IsMachine) :
    IsUnbroken instr.text := by
  have texts : ∀ operand ∈ instr.operands, IsUnbroken operand.text :=
    fun operand member => (machine operand member).isUnbroken_text
  obtain ⟨opcode, operands, descriptors⟩ := instr
  rw [text, isUnbroken_append]
  refine ⟨opcode.isUnbroken_mnemonic, ?_⟩
  dsimp only at texts ⊢
  split
  case h_5 => exact isUnbroken_listText texts
  all_goals
    -- Here the operands are known one by one, and so are their texts.
    simp only [List.forall_mem_cons] at texts
    simp only [isUnbroken_append, texts]
    decide

end Instr

/-- Whether the texts in some facts are unbroken. -/
structure Facts.AreUnbroken (facts : Facts) : Prop where
  assembly : IsUnbroken facts.assembly
  bases : ∀ fact, facts.memory? = some fact → ∀ base ∈ fact.bases, IsUnbroken base

section Word

variable {xlen : Xlen} {word : Word} {address : Nat}

/-- The report on a word that does not decode states the error. -/
theorem Report.outcome_of_error {error : DecodeError}
    (failed : Instr.decodeWord xlen word = .error error) :
    (ofWord xlen address word).outcome = .error error := by
  rw [ofWord, Findings.ofWord, failed]
  rfl

/-- The report on a word that decodes states the facts about its instruction. -/
theorem Report.outcome_of_ok {instr : Instr} (decoded : Instr.decodeWord xlen word = .ok instr) :
    (ofWord xlen address word).outcome =
      .ok (Findings.ofInstr (Riscv.target xlen) instr).facts := by
  rw [ofWord, Findings.ofWord, decoded]
  rfl

/-- The facts about a decoded instruction are unbroken, since no word spells a symbol. -/
theorem Findings.areUnbroken_facts {instr : Instr}
    (decoded : Instr.decodeWord xlen word = .ok instr) :
    (ofInstr (Riscv.target xlen) instr).facts.AreUnbroken := by
  refine ⟨Instr.isUnbroken_text (Instr.encodable_of_decodeWord decoded).1.machine, ?_⟩
  intro fact stated base member
  obtain ⟨access, value, rfl⟩ := Option.map_eq_some_iff.mp stated
  have known := Answer.value?_eq_some_iff.mp value
  have spells := Instr.decodeWord_eq_ok_iff_spells.mp decoded
  have bases := (Riscv.isSpelled_of_memoryAccess spells known).bases
  rw [MemoryAccess.fact, bases] at member
  obtain rfl := List.mem_singleton.mp member
  exact Register.isUnbroken_name _

end Word

namespace Report

/-- An optional fact has an unbroken text if it has one whenever it is there. -/
theorem isUnbroken_optional {α : Type} {text : α → String} {fact? : Option α}
    (each : ∀ fact, fact? = some fact → IsUnbroken (text fact)) :
    IsUnbroken (optional text fact?) := by
  cases fact? with
  | none => simp [optional, IsUnbroken]
  | some fact => exact each fact rfl

/-- The text of an add-immediate fact is unbroken. -/
@[simp] theorem isUnbroken_addImmediateText (fact : AddImmediate) :
    IsUnbroken (addImmediateText fact) := by
  unfold addImmediateText
  simp only [isUnbroken_append, Register.isUnbroken_name, Numeral.isUnbroken_decimal]
  decide

/-- The keys of an add-immediate fact are unbroken. -/
@[simp] theorem isUnbroken_addImmediateKeys (fact : AddImmediate) :
    IsUnbroken (addImmediateKeys fact) := by
  unfold addImmediateKeys
  simp only [isUnbroken_append, Register.isUnbroken_name, Numeral.isUnbroken_decimal]
  decide

/-- The text of a copy is unbroken. -/
@[simp] theorem isUnbroken_copyText (fact : RegisterCopy) : IsUnbroken (copyText fact) := by
  unfold copyText
  simp only [isUnbroken_append, Register.isUnbroken_name]
  decide

/-- The keys of a copy are unbroken. -/
@[simp] theorem isUnbroken_copyKeys (fact : RegisterCopy) : IsUnbroken (copyKeys fact) := by
  unfold copyKeys
  simp only [isUnbroken_append, Register.isUnbroken_name]
  decide

/-- The text of a memory fact is unbroken when its bases are. -/
theorem isUnbroken_memoryText {fact : MemoryFact} (bases : ∀ base ∈ fact.bases, IsUnbroken base) :
    IsUnbroken (memoryText fact) := by
  have between : IsUnbroken "+" := by decide
  have joined := isUnbroken_intercalate between bases
  unfold memoryText
  simp only [isUnbroken_append, joined, Numeral.isUnbroken_decimal, Numeral.isUnbroken_natural]
  decide

/-- The keys of a memory fact are unbroken when its bases are. -/
theorem isUnbroken_memoryKeys {fact : MemoryFact} (bases : ∀ base ∈ fact.bases, IsUnbroken base) :
    IsUnbroken (memoryKeys fact) := by
  have flag : IsUnbroken (if fact.scalable then "true" else "false") := by
    split <;> decide
  have between : IsUnbroken "," := by decide
  have joined := isUnbroken_intercalate between bases
  unfold memoryKeys
  simp only [isUnbroken_append, joined, flag, Numeral.isUnbroken_decimal,
    Numeral.isUnbroken_natural]
  decide

variable {report : Report} {format : ReportFormat}

/-- The facts in an aligned line are unbroken when their texts are. -/
theorem isUnbroken_factsText {facts : Facts} (texts : facts.AreUnbroken) :
    IsUnbroken (factsText facts) := by
  unfold factsText
  split
  · decide
  · refine isUnbroken_append.mpr ⟨isUnbroken_append.mpr ⟨?_, ?_⟩, ?_⟩
    · exact isUnbroken_optional fun fact _ => isUnbroken_addImmediateText fact
    · exact isUnbroken_optional fun fact stated => isUnbroken_memoryText (texts.bases fact stated)
    · exact isUnbroken_optional fun fact _ => isUnbroken_copyText fact

/-- An aligned line is unbroken when the texts in its facts are. -/
theorem isUnbroken_text (texts : ∀ facts, report.outcome = .ok facts → facts.AreUnbroken) :
    IsUnbroken report.text := by
  have separators : IsUnbroken ": " ∧ IsUnbroken "  " := by decide
  unfold text
  simp only [isUnbroken_append, Numeral.isUnbroken_hex, separators, true_and]
  split
  case h_1 error failed =>
    simp only [isUnbroken_append, error.isUnbroken_message]
    decide
  case h_2 facts reported =>
    have stated := texts facts reported
    exact isUnbroken_append.mpr
      ⟨Column.isUnbroken_pad.mpr stated.assembly, isUnbroken_factsText stated⟩

/-- A record of keys and values is unbroken when the texts in its facts are. -/
theorem isUnbroken_keyValue (texts : ∀ facts, report.outcome = .ok facts → facts.AreUnbroken) :
    IsUnbroken report.keyValue := by
  have keys : IsUnbroken "addr=0x" ∧ IsUnbroken " raw=0x" := by decide
  unfold keyValue
  simp only [isUnbroken_append, Numeral.isUnbroken_hex, keys, true_and]
  split
  case h_1 error failed =>
    simp only [isUnbroken_append, error.isUnbroken_message]
    decide
  case h_2 facts reported =>
    have stated := texts facts reported
    have quotes : IsUnbroken " asm=\"" ∧ IsUnbroken "\"" := by decide
    simp only [isUnbroken_append, quotes, stated.assembly, true_and]
    refine ⟨⟨?_, ?_⟩, ?_⟩
    · exact isUnbroken_optional fun fact _ => isUnbroken_addImmediateKeys fact
    · exact isUnbroken_optional fun fact given => isUnbroken_memoryKeys (stated.bases fact given)
    · exact isUnbroken_optional fun fact _ => isUnbroken_copyKeys fact

/-- A report takes one line in either format when the texts in its facts are unbroken. -/
theorem isUnbroken_line (texts : ∀ facts, report.outcome = .ok facts → facts.AreUnbroken) :
    IsUnbroken (report.line format) := by
  cases format with
  | text => exact isUnbroken_text texts
  | keyValue => exact isUnbroken_keyValue texts

/-- The report on a word takes one line in either format. -/
theorem isUnbroken_line_ofWord (xlen : Xlen) (address : Nat) (word : Word) :
    IsUnbroken ((ofWord xlen address word).line format) := by
  refine isUnbroken_line fun facts reported => ?_
  cases decoded : Instr.decodeWord xlen word with
  | error error =>
      rw [outcome_of_error decoded] at reported
      cases reported
  | ok instr =>
      rw [outcome_of_ok decoded] at reported
      cases reported
      exact Findings.areUnbroken_facts decoded

end Report

namespace LogEvent

/-- Whether no text from outside stands in an event. Failures repeat what was typed, and the base
of a declined access may be a symbol. -/
def IsOwn : LogEvent → Prop
  | .failed _ => False
  | .declined (.baseNotInteger _ base) => base.IsMachine
  | _ => True

variable {event : LogEvent}

/-- The message of an event without text from outside is unbroken. -/
theorem IsOwn.isUnbroken_message (isOwn : event.IsOwn) : IsUnbroken event.message := by
  cases event with
  | analyzing xlen words =>
      change IsUnbroken "analyzing"
      decide
  | decoded word opcode =>
      change IsUnbroken "decoded"
      decide
  | declined reason =>
      change IsUnbroken reason.message
      unfold Decline.message
      split <;> decide
  | undecodable error address => exact error.isUnbroken_message
  | complete totals =>
      change IsUnbroken "analysis complete"
      decide
  | failed failure => exact isOwn.elim

/-- The fields of a decline are unbroken if a symbol is not among them. -/
theorem isUnbroken_fields_declined {reason : Decline} (isOwn : IsOwn (.declined reason)) :
    ∀ field ∈ reason.fields, IsUnbrokenField field := by
  have names : IsUnbroken "opcode" ∧ IsUnbroken "target" ∧ IsUnbroken "expected" ∧
      IsUnbroken "actual" ∧ IsUnbroken "base" ∧ IsUnbroken "\"" := by decide
  cases reason with
  | baseNotInteger opcode base =>
      have base := Operand.IsMachine.isUnbroken_text isOwn
      simp [Decline.fields, isUnbrokenField_iff, FieldValue.text, names, base]
  | _ => simp [Decline.fields, isUnbrokenField_iff, FieldValue.text, names]

/-- The fields of an event without text from outside are unbroken. -/
theorem IsOwn.isUnbroken_fields (isOwn : event.IsOwn) :
    ∀ field ∈ event.fields, IsUnbrokenField field := by
  have names : IsUnbroken "target_xlen" ∧ IsUnbroken "words" ∧ IsUnbroken "raw" ∧
      IsUnbroken "opcode" ∧ IsUnbroken "address" ∧ IsUnbroken "\"" := by decide
  have totalNames : IsUnbroken "instructions" ∧ IsUnbroken "decoded" ∧ IsUnbroken "add_imm" ∧
      IsUnbroken "memory" := by decide
  cases event with
  | declined reason => exact isUnbroken_fields_declined isOwn
  | failed failure => exact isOwn.elim
  | _ => simp [fields, isUnbrokenField_iff, FieldValue.text, names, totalNames]

/-- The record of an event without text from outside is unbroken. -/
theorem IsOwn.isUnbroken_record (isOwn : event.IsOwn) : event.record.IsUnbroken :=
  ⟨isOwn.isUnbroken_message, isOwn.isUnbroken_fields⟩

end LogEvent

end RiscvFacts
