import RiscvFacts.CommandLine.Invocation
import RiscvFacts.Schedule

/-!
# Running a command

A command leaves an exit code, lines of output and log events. It is carried out from
its settings, what reading a file yields, and a schedule. All input is read before
anything is analysed, so bad input never leaves partial output: a failed command has
no output and logs its failure alone. The analysis of code reports on every word in
order and succeeds whatever the words are.

The reports and the warnings are in the order of the words on every schedule. The
events of single words are logged by the threads that analyse them, and lie in the
order of the words only if the schedule is sequential.
-/

namespace RiscvFacts

/-- What a command leaves behind. -/
structure Outcome where
  exitCode : Nat
  output : List String
  log : List LogEvent
  deriving DecidableEq

namespace Outcome

/-- The reports on code, whose words lie at consecutive addresses from zero. -/
def reports (xlen : Xlen) (code : List Word) : List Report :=
  code.zipIdx.map fun (word, index) => Report.ofWord xlen (4 * index) word

/-- The events of analysing one word. -/
def wordEvents (xlen : Xlen) (word : Word) : List LogEvent :=
  match Findings.ofWord xlen word with
  | .error _ => []
  | .ok findings =>
      .decoded word findings.instr.opcode :: findings.trace.map LogEvent.declined

/-- The warning about a report whose word does not decode. -/
def warning? (report : Report) : Option LogEvent :=
  match report.outcome with
  | .error error => some (.undecodable error report.address)
  | .ok _ => none

/-- The facts of the reports whose words decode. -/
def allFacts (reports : List Report) : List Facts :=
  reports.filterMap fun report => report.outcome.toOption

/-- The totals over some reports. -/
def totals (reports : List Report) : Totals where
  instructions := reports.length
  decoded := (allFacts reports).length
  addImmediates := (allFacts reports).countP fun facts => facts.addImmediate?.isSome
  memoryAccesses := (allFacts reports).countP fun facts => facts.memory?.isSome

/-- The outcome of analysing code. The words log in parallel, after the start and before the
warnings. -/
def analysis (schedule : Schedule) (xlen : Xlen) (format : ReportFormat) (code : List Word) :
    Outcome where
  exitCode := 0
  output := (reports xlen code).map fun report => report.line format
  log := .analyzing xlen code.length :: schedule.merge (code.map (wordEvents xlen)) ++
    (reports xlen code).filterMap warning? ++ [.complete (totals (reports xlen code))]

/-- The outcome of a failure. -/
def failure (failure : Failure) : Outcome := ⟨1, [], [.failed failure]⟩

/-- The outcome of printing lines. -/
def printed (lines : List String) : Outcome := ⟨0, lines, []⟩

/-- On another schedule an analysis has the same exit code and output, and logs the same events in
another order. -/
theorem analysis_schedule_congr (first second : Schedule) (xlen : Xlen) (format : ReportFormat)
    (code : List Word) :
    (analysis first xlen format code).exitCode = (analysis second xlen format code).exitCode ∧
      (analysis first xlen format code).output = (analysis second xlen format code).output ∧
      (analysis first xlen format code).log.Perm (analysis second xlen format code).log := by
  have merged : (first.merge (code.map (wordEvents xlen))).Perm
      (second.merge (code.map (wordEvents xlen))) :=
    (first.interleaves _).perm_flatten.trans (second.interleaves _).perm_flatten.symm
  exact ⟨rfl, rfl, ((merged.cons _).append_right _).append_right _⟩

end Outcome

namespace Command

/-- The outcome of analysing code that has been read, which must not be empty. -/
def analyzeCode (schedule : Schedule) (xlen : Xlen) (format : ReportFormat) :
    Except Failure (List Word) → Outcome
  | .error failure => .failure failure
  | .ok [] => .failure .noInstructions
  | .ok (word :: words) => .analysis schedule xlen format (word :: words)

/-- Carry out a command. -/
def run (schedule : Schedule) (contentsOf : String → Except ReadError (List UInt8)) :
    Command → Outcome
  | .analyze source xlen format => analyzeCode schedule xlen format (source.read contentsOf)
  | .opcodes xlen => .printed (Opcode.table xlen)

end Command

end RiscvFacts
