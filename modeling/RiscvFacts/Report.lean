import RiscvFacts.Instr.Decode
import RiscvFacts.Query.Riscv
import RiscvFacts.Text

/-!
# Reports

A report states what the analyses conclude about one word of code: either why it
does not decode, or its assembly text and the facts that the queries found. It is
written as an aligned line for readers or as a record of keys and values.
-/

namespace RiscvFacts

/-- The answers to the queries that a report states, for one decoded instruction. -/
structure Findings where
  instr : Instr
  addImmediate : Answer AddImmediate
  memoryAccess : Answer MemoryAccess
  copy : Answer RegisterCopy

namespace Findings

/-- Ask a target what a report states. The add-immediate query is asked for the register
that the instruction defines. -/
def ofInstr (target : Target) (instr : Instr) : Findings where
  instr := instr
  addImmediate := match instr.defined? with
    | some register => target.addImmediate instr register
    | none => .silent
  memoryAccess := target.memoryAccess instr
  copy := target.copy instr

/-- The declines of the queries in the order in which they were asked. -/
def trace (findings : Findings) : List Decline :=
  findings.addImmediate.trace ++ findings.memoryAccess.trace ++ findings.copy.trace

/-- Decode a word and ask the target about the instruction. -/
def ofWord (xlen : Xlen) (word : Word) : Except DecodeError Findings :=
  (Instr.decodeWord xlen word).map (ofInstr (Riscv.target xlen))

end Findings

/-- A memory access as a report states it, with the text of its bases. -/
structure MemoryFact where
  bases : List String
  offset : Int64
  scalable : Bool
  width : UInt64
  deriving DecidableEq

/-- What a report states about a decoded instruction. -/
structure Facts where
  assembly : String
  addImmediate? : Option AddImmediate
  memory? : Option MemoryFact
  copy? : Option RegisterCopy
  deriving DecidableEq

/-- A memory access as a report states it. -/
def MemoryAccess.fact (access : MemoryAccess) : MemoryFact :=
  ⟨access.bases.map Operand.text, access.offset, access.scalable, access.width⟩

/-- What a report states of the findings about an instruction. -/
def Findings.facts (findings : Findings) : Facts where
  assembly := findings.instr.text
  addImmediate? := findings.addImmediate.value?
  memory? := findings.memoryAccess.value?.map MemoryAccess.fact
  copy? := findings.copy.value?

/-- The form in which reports are written. -/
inductive ReportFormat where
  | text
  | keyValue
  deriving DecidableEq

/-- The conclusions about the word at an address. -/
structure Report where
  address : Nat
  word : Word
  outcome : Except DecodeError Facts

namespace Report

/-- The report on a word. -/
def ofWord (xlen : Xlen) (address : Nat) (word : Word) : Report :=
  ⟨address, word, (Findings.ofWord xlen word).map Findings.facts⟩

/-- The text of an add-immediate fact in an aligned line. -/
def addImmediateText (fact : AddImmediate) : String :=
  " add-imm(src=" ++ fact.source.name ++ ", imm=" ++ Numeral.decimal fact.addend.toInt ++ ")"

/-- The text of a memory fact in an aligned line. -/
def memoryText (fact : MemoryFact) : String :=
  " mem(base=" ++ String.intercalate "+" fact.bases ++ ", offset=" ++
    Numeral.decimal fact.offset.toInt ++ ", width=" ++ Numeral.natural fact.width.toNat ++ ")"

/-- The text of a copy in an aligned line. -/
def copyText (fact : RegisterCopy) : String :=
  " copy(dst=" ++ fact.destination.name ++ ", src=" ++ fact.source.name ++ ")"

/-- The text that a function gives to a fact, and nothing for an absent fact. -/
def optional {α : Type} (text : α → String) : Option α → String
  | some fact => text fact
  | none => ""

/-- The facts in an aligned line, where a dash stands for none at all. -/
def factsText (facts : Facts) : String :=
  if facts.addImmediate?.isNone && facts.memory?.isNone && facts.copy?.isNone then " -"
  else optional addImmediateText facts.addImmediate? ++ optional memoryText facts.memory? ++
    optional copyText facts.copy?

/-- The report as an aligned line. -/
def text (report : Report) : String :=
  Numeral.hex 8 report.address ++ ": " ++ Numeral.hex 8 report.word.toNat ++ "  " ++
    match report.outcome with
    | .error error => "<" ++ error.message ++ ">"
    | .ok facts => Column.pad 28 facts.assembly ++ factsText facts

/-- The keys of an add-immediate fact. -/
def addImmediateKeys (fact : AddImmediate) : String :=
  " add_imm_src=" ++ fact.source.name ++ " add_imm=" ++ Numeral.decimal fact.addend.toInt

/-- The keys of a memory fact. -/
def memoryKeys (fact : MemoryFact) : String :=
  " mem_base=" ++ String.intercalate "," fact.bases ++ " mem_offset=" ++
    Numeral.decimal fact.offset.toInt ++ " mem_scalable=" ++
    (if fact.scalable then "true" else "false") ++ " mem_width=" ++
    Numeral.natural fact.width.toNat

/-- The keys of a copy. -/
def copyKeys (fact : RegisterCopy) : String :=
  " copy_dst=" ++ fact.destination.name ++ " copy_src=" ++ fact.source.name

/-- The report as a record of keys and values. -/
def keyValue (report : Report) : String :=
  "addr=0x" ++ Numeral.hex 1 report.address ++ " raw=0x" ++ Numeral.hex 8 report.word.toNat ++
    match report.outcome with
    | .error error => " error=\"" ++ error.message ++ "\""
    | .ok facts =>
        " asm=\"" ++ facts.assembly ++ "\"" ++ optional addImmediateKeys facts.addImmediate? ++
          optional memoryKeys facts.memory? ++ optional copyKeys facts.copy?

/-- The line of a report in a format. -/
def line (report : Report) : ReportFormat → String
  | .text => report.text
  | .keyValue => report.keyValue

end Report

end RiscvFacts
