import RiscvFacts.Proofs.Analysis.Wording
import RiscvFacts.Proofs.Query.DefinedRegister

/-!
# Stated facts and assembly text

The assembly text of a word is formed by its layout, while the facts beside it come from
the queries, which go by the class of the opcode. Both speak of the same registers and
numbers (`Findings.agreesWithAssembly`), and each of the two formats of a report has
them as fields of its line (`Report.showsFacts`).
-/

namespace RiscvFacts

namespace Instr

variable {instr : Instr} {first second third : Operand}

/-- The text of three operands that are listed as they are. -/
theorem text_of_listed
    (listed : instr.opcode.info.layout = .regRegImm ∨ instr.opcode.info.layout = .regRegReg)
    (operands : instr.operands = [first, second, third]) :
    instr.text = instr.opcode.mnemonic ++ " " ++ first.text ++ ", " ++ second.text ++ ", " ++
      third.text := by
  have joined : listText [first, second, third] =
      " " ++ first.text ++ ", " ++ second.text ++ ", " ++ third.text := by
    simp only [listText, List.map_cons, List.map_nil, String.intercalate_cons_cons,
      String.intercalate_singleton, String.append_assoc]
  rcases listed with layout | layout
  all_goals simp only [text, layout, operands, joined, String.append_assoc]

/-- The text of three operands of which the last one is an offset. -/
theorem text_of_access (layout : instr.opcode.info.layout = .valueBaseOffset)
    (operands : instr.operands = [first, second, third]) :
    instr.text = instr.opcode.mnemonic ++ " " ++ first.text ++ ", " ++ third.text ++ "(" ++
      second.text ++ ")" := by
  simp only [text, layout, operands, String.append_assoc]

end Instr

/-- Whether some facts agree with the assembly text that they come with, for an opcode. The text of
an access has its base and its offset, that of a sum its source and its immediate, and that of a
copy is either the text of a sum with zero into the destination or has the source twice. An access
is neither a sum nor a copy. -/
structure Facts.AgreesWithAssembly (facts : Facts) (opcode : Opcode) : Prop where
  memory : ∀ fact, facts.memory? = some fact → ∃ base value : Register,
    fact.bases = [base.name] ∧
      facts.assembly = opcode.mnemonic ++ " " ++ value.name ++ ", " ++
        Numeral.decimal fact.offset.toInt ++ "(" ++ base.name ++ ")"
  sum : ∀ sum, facts.addImmediate? = some sum → ∃ destination : Register,
    facts.assembly = "addi " ++ destination.name ++ ", " ++ sum.source.name ++ ", " ++
      Numeral.decimal sum.addend.toInt
  copy : ∀ copy, facts.copy? = some copy →
    (∃ sum, facts.addImmediate? = some sum ∧ sum.addend = 0 ∧ copy.source = sum.source ∧
      facts.assembly = "addi " ++ copy.destination.name ++ ", " ++ sum.source.name ++ ", " ++
        Numeral.decimal sum.addend.toInt) ∨
    facts.assembly = opcode.mnemonic ++ " " ++ copy.destination.name ++ ", " ++
      copy.source.name ++ ", " ++ copy.source.name
  exclusive : facts.memory?.isSome = true → facts.addImmediate? = none ∧ facts.copy? = none

namespace Findings

variable {xlen : Xlen} {word : Word} {instr : Instr}

/-- The findings state the sums that the add-immediate query knows, of whatever register. -/
theorem addImmediate?_eq_some_iff {sum : AddImmediate} :
    (ofInstr (Riscv.target xlen) instr).facts.addImmediate? = some sum ↔
      ∃ register, Riscv.addImmediate xlen instr register = .known sum := by
  rw [facts, Answer.value?_eq_some_iff]
  constructor
  · intro known
    unfold ofInstr at known
    split at known
    case h_1 register _ => exact ⟨register, known⟩
    case h_2 => cases known
  · rintro ⟨register, known⟩
    simp only [ofInstr, Riscv.defined?_of_addImmediate known]
    exact known

/-- The text of an instruction with a sum has the register of the sum, its source and its
immediate. -/
theorem text_of_addImmediate {register : Register} {sum : AddImmediate}
    (known : Riscv.addImmediate xlen instr register = .known sum) :
    instr.text = "addi " ++ register.name ++ ", " ++ sum.source.name ++ ", " ++
      Numeral.decimal sum.addend.toInt := by
  obtain ⟨isAddi, operands⟩ := Riscv.addImmediate_eq_known_iff_addi.mp known
  have layout : instr.opcode.info.layout = .regRegImm := by rw [isAddi]; rfl
  have start : Opcode.addi.mnemonic ++ " " = "addi " := rfl
  rw [Instr.text_of_listed (.inl layout) operands, isAddi, start]
  simp only [Operand.text]

/-- The text of an instruction with a memory access has the base of the access and its offset. -/
theorem text_of_memoryAccess (spells : Spells xlen word instr) {access : MemoryAccess}
    (known : Riscv.memoryAccess xlen instr = .known access) :
    ∃ base value : Register, access.bases = [.register base] ∧
      instr.text = instr.opcode.mnemonic ++ " " ++ value.name ++ ", " ++
        Numeral.decimal access.offset.toInt ++ "(" ++ base.name ++ ")" := by
  obtain ⟨-, base, offset, width, shape, rfl⟩ := Riscv.memoryAccess_eq_known_iff.mp known
  obtain ⟨value, operands⟩ := shape.operands
  obtain ⟨held, rfl⟩ : ∃ held, value = .register held := by
    have first := spells.operands
    rw [operands] at first
    rw [List.head_eq_of_cons_eq first, Word.valueOperand]
    split <;> exact ⟨_, rfl⟩
  refine ⟨base, held, rfl, ?_⟩
  rw [Instr.text_of_access (Opcode.layout_and_width_of_scalar shape.scalar).1 operands]
  simp only [Operand.text]

/-- A memory access is neither a sum nor a copy. -/
theorem eq_none_of_isSome_memory? (spells : Spells xlen word instr)
    (accesses : (ofInstr (Riscv.target xlen) instr).facts.memory?.isSome = true) :
    (ofInstr (Riscv.target xlen) instr).facts.addImmediate? = none ∧
      (ofInstr (Riscv.target xlen) instr).facts.copy? = none := by
  rw [facts, Option.isSome_map, Answer.isSome_value?_iff] at accesses
  have kind := (Riscv.exists_memoryAccess_iff spells).mp accesses
  constructor
  · refine Option.eq_none_iff_forall_ne_some.mpr fun sum stated => ?_
    obtain ⟨register, known⟩ := addImmediate?_eq_some_iff.mp stated
    have adds := (Riscv.addImmediate_eq_known_iff.mp known).2.1
    simp [adds] at kind
  · refine Answer.value?_eq_none_iff.mpr fun copy known => ?_
    rcases (Riscv.copy_eq_known_iff.mp known).2 with ⟨adds, -⟩ | ⟨injects, -⟩
    · simp [adds] at kind
    · simp [injects] at kind

/-- The facts about a decoded instruction agree with its assembly text. -/
theorem agreesWithAssembly (spells : Spells xlen word instr) :
    (ofInstr (Riscv.target xlen) instr).facts.AgreesWithAssembly instr.opcode := by
  constructor
  case memory =>
    intro fact stated
    obtain ⟨access, value, rfl⟩ := Option.map_eq_some_iff.mp stated
    have known := Answer.value?_eq_some_iff.mp value
    obtain ⟨base, value, bases, assembly⟩ := text_of_memoryAccess spells known
    refine ⟨base, value, ?_, assembly⟩
    rw [MemoryAccess.fact, bases]
    rfl
  case sum =>
    intro sum stated
    obtain ⟨register, known⟩ := addImmediate?_eq_some_iff.mp stated
    exact ⟨register, text_of_addImmediate known⟩
  case copy =>
    intro copy stated
    have known := Answer.value?_eq_some_iff.mp stated
    rcases Riscv.copy_eq_known_iff_addImmediate.mp known with sum | ⟨injects, operands⟩
    · exact .inl ⟨⟨copy.source, 0⟩, addImmediate?_eq_some_iff.mpr ⟨copy.destination, sum⟩, rfl, rfl,
        text_of_addImmediate sum⟩
    · have layout : instr.opcode.info.layout = .regRegReg := by
        rcases injects with injects | injects | injects <;> rw [injects] <;> rfl
      have assembly := Instr.text_of_listed (.inr layout) operands
      simp only [Operand.text] at assembly
      exact .inr assembly
  case exclusive => exact eq_none_of_isSome_memory? spells

end Findings

namespace Line

/-- The text of some fields, each behind a blank. -/
def ofFields : List String → String
  | [] => ""
  | field :: fields => " " ++ field ++ ofFields fields

/-- Whether a text may stand behind a field: it is empty or starts with a blank. -/
def EndsField (text : String) : Prop := text = "" ∨ ∃ rest, text = " " ++ rest

/-- Whether a field stands in a line, behind a blank and up to the next blank or the end. -/
def HasField (line field : String) : Prop :=
  ∃ start rest, line = start ++ " " ++ field ++ rest ∧ EndsField rest

/-- Fields in a row. -/
theorem ofFields_append (first second : List String) :
    ofFields (first ++ second) = ofFields first ++ ofFields second := by
  induction first with
  | nil => rw [List.nil_append, ofFields, String.empty_append]
  | cons field first inductionHypothesis =>
      simp only [List.cons_append, ofFields, inductionHypothesis, String.append_assoc]

/-- Further fields end a field. -/
theorem endsField_ofFields (fields : List String) : EndsField (ofFields fields) := by
  cases fields with
  | nil => exact .inl rfl
  | cons field fields => exact .inr ⟨field ++ ofFields fields, String.append_assoc ..⟩

/-- Each of some fields stands in a line that they end. -/
theorem hasField_of_mem {field : String} {fields : List String} (start : String)
    (member : field ∈ fields) : HasField (start ++ ofFields fields) field := by
  obtain ⟨before, behind, rfl⟩ := List.append_of_mem member
  refine ⟨start ++ ofFields before, ofFields behind, ?_, endsField_ofFields behind⟩
  simp only [ofFields_append, ofFields, String.append_assoc]

/-- What fills a column ends the field in it. -/
theorem hasField_pad (start : String) (width : Nat) (field : String) (fields : List String) :
    HasField (start ++ " " ++ Column.pad width field ++ ofFields fields) field := by
  refine ⟨start, String.ofList (List.replicate (width - field.length) ' ') ++ ofFields fields,
    ?_, ?_⟩
  · simp only [Column.pad, String.append_assoc]
  · cases width - field.length with
    | zero => exact endsField_ofFields fields
    | succ blanks =>
        have fill : String.ofList (List.replicate (blanks + 1) ' ') =
            " " ++ String.ofList (List.replicate blanks ' ') := by
          rw [List.replicate_succ, ← List.singleton_append, String.ofList_append]
        exact .inr ⟨String.ofList (List.replicate blanks ' ') ++ ofFields fields,
          fill ▸ String.append_assoc ..⟩

end Line

namespace Report

/-- The field with an assembly text. -/
def assemblyField : ReportFormat → String → String
  | .text, assembly => assembly
  | .keyValue, assembly => "asm=\"" ++ assembly ++ "\""

/-- The fields with a sum. -/
def sumFields : ReportFormat → AddImmediate → List String
  | .text, sum =>
      ["add-imm(src=" ++ sum.source.name ++ ", imm=" ++ Numeral.decimal sum.addend.toInt ++ ")"]
  | .keyValue, sum =>
      ["add_imm_src=" ++ sum.source.name, "add_imm=" ++ Numeral.decimal sum.addend.toInt]

/-- The fields with a memory access at a base. -/
def memoryFields : ReportFormat → String → MemoryFact → List String
  | .text, base, fact =>
      ["mem(base=" ++ base ++ ", offset=" ++ Numeral.decimal fact.offset.toInt ++ ", width=" ++
        Numeral.natural fact.width.toNat ++ ")"]
  | .keyValue, base, fact =>
      ["mem_base=" ++ base, "mem_offset=" ++ Numeral.decimal fact.offset.toInt,
        "mem_scalable=" ++ (if fact.scalable then "true" else "false"),
        "mem_width=" ++ Numeral.natural fact.width.toNat]

/-- The fields with a copy. -/
def copyFields : ReportFormat → RegisterCopy → List String
  | .text, copy =>
      ["copy(dst=" ++ copy.destination.name ++ ", src=" ++ copy.source.name ++ ")"]
  | .keyValue, copy => ["copy_dst=" ++ copy.destination.name, "copy_src=" ++ copy.source.name]

/-- The text between several bases. -/
def baseSeparator : ReportFormat → String
  | .text => "+"
  | .keyValue => ","

/-- The fields with all of some facts. -/
def factFields (format : ReportFormat) (facts : Facts) : List String :=
  facts.addImmediate?.toList.flatMap (sumFields format) ++
    facts.memory?.toList.flatMap (fun fact =>
      memoryFields format ((baseSeparator format).intercalate fact.bases) fact) ++
    facts.copy?.toList.flatMap (copyFields format)

open Line

/-- An optional fact has the fields that it has when it is there. -/
theorem optional_eq_ofFields {α : Type} {text : α → String} {fields : α → List String}
    (each : ∀ fact, text fact = ofFields (fields fact)) (fact? : Option α) :
    optional text fact? = ofFields (fact?.toList.flatMap fields) := by
  cases fact? with
  | none => rfl
  | some fact => rw [optional, each, Option.toList_some, List.flatMap_singleton]

/-- A sum is written as its fields. -/
theorem addImmediateText_eq (sum : AddImmediate) :
    addImmediateText sum = ofFields (sumFields .text sum) ∧
      addImmediateKeys sum = ofFields (sumFields .keyValue sum) := by
  unfold addImmediateText addImmediateKeys
  simp only [sumFields, ofFields, ← String.append_assoc, String.reduceAppend, String.append_empty,
    and_self]

/-- A copy is written as its fields. -/
theorem copyText_eq (copy : RegisterCopy) :
    copyText copy = ofFields (copyFields .text copy) ∧
      copyKeys copy = ofFields (copyFields .keyValue copy) := by
  unfold copyText copyKeys
  simp only [copyFields, ofFields, ← String.append_assoc, String.reduceAppend, String.append_empty,
    and_self]

/-- A memory access is written as its fields. -/
theorem memoryText_eq (fact : MemoryFact) :
    memoryText fact = ofFields
        (memoryFields .text ((baseSeparator .text).intercalate fact.bases) fact) ∧
      memoryKeys fact = ofFields
        (memoryFields .keyValue ((baseSeparator .keyValue).intercalate fact.bases) fact) := by
  unfold memoryText memoryKeys baseSeparator
  simp only [memoryFields, ofFields, ← String.append_assoc, String.reduceAppend,
    String.append_empty, and_self]

/-- The facts in an aligned line are written as fields, among them those with the facts. -/
theorem exists_factsText_eq (facts : Facts) :
    ∃ fields, factsText facts = ofFields fields ∧ factFields .text facts ⊆ fields := by
  unfold factsText
  split
  case isTrue none =>
    refine ⟨["-"], rfl, ?_⟩
    simp only [Bool.and_eq_true, Option.isNone_iff_eq_none] at none
    simp [factFields, none]
  case isFalse =>
    refine ⟨factFields .text facts, ?_, List.Subset.refl _⟩
    rw [optional_eq_ofFields fun sum => (addImmediateText_eq sum).1,
      optional_eq_ofFields fun fact => (memoryText_eq fact).1,
      optional_eq_ofFields fun copy => (copyText_eq copy).1, factFields, ofFields_append,
      ofFields_append]

variable {report : Report} {facts : Facts}

/-- An aligned line has the assembly text and the facts as fields. -/
theorem hasField_text (stated : report.outcome = .ok facts) :
    ∀ field ∈ assemblyField .text facts.assembly :: factFields .text facts,
      HasField report.text field := by
  obtain ⟨fields, written, among⟩ := exists_factsText_eq facts
  have line : report.text = Numeral.hex 8 report.address ++ ": " ++
      Numeral.hex 8 report.word.toNat ++ " " ++ " " ++ Column.pad 28 facts.assembly ++
        ofFields fields := by
    have blanks : "  " = " " ++ " " := rfl
    unfold text
    simp only [stated, written, blanks, ← String.append_assoc]
  rw [line]
  refine List.forall_mem_cons.mpr ⟨hasField_pad _ 28 _ _, fun field member => ?_⟩
  exact hasField_of_mem _ (among member)

/-- A record has the assembly text and the facts as fields. -/
theorem hasField_keyValue (stated : report.outcome = .ok facts) :
    ∀ field ∈ assemblyField .keyValue facts.assembly :: factFields .keyValue facts,
      HasField report.keyValue field := by
  have line : report.keyValue = "addr=0x" ++ Numeral.hex 1 report.address ++ " raw=0x" ++
      Numeral.hex 8 report.word.toNat ++
        ofFields (assemblyField .keyValue facts.assembly :: factFields .keyValue facts) := by
    unfold keyValue
    simp only [stated]
    rw [optional_eq_ofFields fun sum => (addImmediateText_eq sum).2,
      optional_eq_ofFields fun fact => (memoryText_eq fact).2,
      optional_eq_ofFields fun copy => (copyText_eq copy).2]
    simp only [factFields, ofFields, ofFields_append, assemblyField, ← String.append_assoc,
      String.reduceAppend]
  rw [line]
  exact fun field => hasField_of_mem _

/-- A report has the assembly text and the facts as fields of its line in either format. -/
theorem hasField_line (stated : report.outcome = .ok facts) (format : ReportFormat) :
    ∀ field ∈ assemblyField format facts.assembly :: factFields format facts,
      HasField (report.line format) field := by
  cases format with
  | text => exact hasField_text stated
  | keyValue => exact hasField_keyValue stated

/-- Whether the line of a report has some facts as its fields, in either format. -/
structure ShowsFacts (report : Report) (facts : Facts) : Prop where
  assembly : ∀ format, HasField (report.line format) (assemblyField format facts.assembly)
  sum : ∀ sum, facts.addImmediate? = some sum → ∀ format, ∀ field ∈ sumFields format sum,
    HasField (report.line format) field
  memory : ∀ fact base, facts.memory? = some fact → fact.bases = [base] →
    ∀ format, ∀ field ∈ memoryFields format base fact, HasField (report.line format) field
  copy : ∀ copy, facts.copy? = some copy → ∀ format, ∀ field ∈ copyFields format copy,
    HasField (report.line format) field

/-- A report shows the facts that it states. -/
theorem showsFacts (stated : report.outcome = .ok facts) : report.ShowsFacts facts := by
  have among (format : ReportFormat) {field : String} (member : field ∈ factFields format facts) :
      HasField (report.line format) field :=
    hasField_line stated format field (List.mem_cons_of_mem _ member)
  constructor
  case assembly => exact fun format => hasField_line stated format _ List.mem_cons_self
  case sum =>
    intro sum given format field member
    exact among format (by simp [factFields, given, member])
  case memory =>
    intro fact base given single format field member
    exact among format (by simp [factFields, given, single, member])
  case copy =>
    intro copy given format field member
    exact among format (by simp [factFields, given, member])

/-- The report on a word that decodes states facts that agree with the assembly text beside them,
and shows all of them in either format. -/
theorem agreesWithAssembly_ofWord {xlen : Xlen} {word : Word} {instr : Instr}
    (decoded : Instr.decodeWord xlen word = .ok instr) (address : Nat) :
    ∃ facts, (ofWord xlen address word).outcome = .ok facts ∧ facts.assembly = instr.text ∧
      facts.AgreesWithAssembly instr.opcode ∧ (ofWord xlen address word).ShowsFacts facts := by
  have stated := @outcome_of_ok xlen word address instr decoded
  have agrees := Findings.agreesWithAssembly (Instr.decodeWord_eq_ok_iff_spells.mp decoded)
  exact ⟨_, stated, rfl, agrees, showsFacts stated⟩

/-- An addition of zero is reported as a sum and as a copy, and as no access. -/
theorem agreesWithAssembly_ofWord_move :
    let move : Instr := ⟨.addi, [.register (.x 1), .register (.x 2), .immediate 0], []⟩
    let facts : Facts :=
      { assembly := "addi ra, sp, 0"
        addImmediate? := some ⟨.x 2, 0⟩
        memory? := none
        copy? := some ⟨.x 1, .x 2⟩ }
    let report := ofWord .rv64 8 0x00010093#32
    Instr.decodeWord .rv64 0x00010093#32 = .ok move ∧ report.outcome = .ok facts ∧
      facts.assembly = move.text ∧ facts.AgreesWithAssembly .addi ∧ report.ShowsFacts facts ∧
      report.text = "00000008: 00010093  addi ra, sp, 0               " ++
        "add-imm(src=sp, imm=0) copy(dst=ra, src=sp)" := by
  intro move facts report
  have decoded : Instr.decodeWord .rv64 0x00010093#32 = .ok move := rfl
  have reported : report.outcome = .ok facts := by decide +kernel
  obtain ⟨stated, outcome, assembly, agrees, shows⟩ := agreesWithAssembly_ofWord decoded 8
  obtain rfl : facts = stated := Except.ok.inj (reported.symm.trans outcome)
  exact ⟨decoded, reported, assembly, agrees, shows, by decide +kernel⟩

end Report

end RiscvFacts
