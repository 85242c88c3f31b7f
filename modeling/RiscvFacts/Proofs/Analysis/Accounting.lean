import Mathlib.Data.List.Induction
import RiscvFacts.CommandLine.Run
import RiscvFacts.Proofs.Analysis.Wording

/-!
# What an analysis accounts for

Every word of the code is reported once, in order, and lands in one column of the
totals or in a warning. A tally relates the totals and the undecodable positions to
the code: a further word keeps it, whether the word decodes (`Tally.push_ok`) or not
(`Tally.push_error`), and so a whole analysis has one (`exists_tally`).
-/

namespace RiscvFacts

/-- Whether an opcode is a scalar load or store. -/
def Opcode.isScalarAccess (opcode : Opcode) : Bool :=
  decide (opcode.info.kind = .load ∨ opcode.info.kind = .store)

namespace Findings

variable {xlen : Xlen} {word : Word} {instr : Instr}

/-- The findings about a decoded word state a sum exactly when its opcode is `addi`. -/
theorem isSome_addImmediate? (decoded : Instr.decodeWord xlen word = .ok instr) :
    (ofInstr (Riscv.target xlen) instr).facts.addImmediate?.isSome = (instr.opcode == .addi) := by
  have spells := Instr.decodeWord_eq_ok_iff_spells.mp decoded
  rw [Bool.eq_iff_iff, beq_iff_eq, facts, Answer.isSome_value?_iff]
  constructor
  · rintro ⟨sum, known⟩
    unfold ofInstr at known
    split at known
    · exact ((Riscv.addImmediate_of_spells spells).mp known).1
    · cases known
  · intro isAddi
    have operands := spells.operands_of_addi isAddi
    have defined : instr.defined? = some (.x (Word.bits word 11 7)) := by
      rw [Instr.defined?, operands, isAddi]
      rfl
    refine ⟨⟨.x (Word.bits word 19 15), Int64.ofInt (Word.topImmediate word)⟩, ?_⟩
    simp only [ofInstr, defined]
    exact (Riscv.addImmediate_of_spells spells).mpr
      ⟨isAddi, rfl, rfl, Word.eq_topImmediate_iff.mp rfl⟩

/-- The findings about a decoded word state an access exactly when its opcode is a scalar load or
store. -/
theorem isSome_memory? (decoded : Instr.decodeWord xlen word = .ok instr) :
    (ofInstr (Riscv.target xlen) instr).facts.memory?.isSome = instr.opcode.isScalarAccess := by
  rw [Bool.eq_iff_iff, Opcode.isScalarAccess, decide_eq_true_iff, facts, Option.isSome_map,
    Answer.isSome_value?_iff]
  exact Riscv.exists_memoryAccess_iff (Instr.decodeWord_eq_ok_iff_spells.mp decoded)

end Findings

/-- Whether a word decodes on a target to an opcode of some sort. -/
def Word.decodesTo (xlen : Xlen) (sort : Opcode → Bool) (word : Word) : Bool :=
  match Instr.decodeWord xlen word with
  | .ok instr => sort instr.opcode
  | .error _ => false

/-- A position in some code whose word does not decode, with the error. -/
structure Undecodable where
  index : Nat
  error : DecodeError

namespace Undecodable

/-- The warning about the word, which names its address. -/
def event (undecodable : Undecodable) : LogEvent :=
  .undecodable undecodable.error (4 * undecodable.index)

/-- What the warning hands to the logger. -/
def record (undecodable : Undecodable) : LogRecord :=
  ⟨.warn, undecodable.error.message, [("address", .number (4 * undecodable.index))]⟩

/-- The texts of the warning are unbroken. -/
theorem isUnbroken_record (undecodable : Undecodable) : undecodable.record.IsUnbroken :=
  @LogEvent.IsOwn.isUnbroken_record undecodable.event trivial

/-- The warning tells the position and the error. -/
theorem event_inj {first second : Undecodable} : first.event = second.event ↔ first = second := by
  obtain ⟨firstIndex, firstError⟩ := first
  obtain ⟨secondIndex, secondError⟩ := second
  rw [event, event, LogEvent.undecodable.injEq, Nat.mul_left_cancel_iff (by decide), mk.injEq,
    and_comm]

end Undecodable

/-- Whether totals and undecodable positions account for some code. Each word that does not
decode has one position, in the order of the code. The totals count the words, those that decode,
those that decode to `addi` and those that decode to a scalar load or store, where the last two
have none in common. -/
structure Tally (xlen : Xlen) (code : List Word) (failures : List Undecodable)
    (totals : Totals) : Prop where
  ordered : failures.Pairwise fun earlier later => earlier.index < later.index
  mem_failures_iff : ∀ index error, ⟨index, error⟩ ∈ failures ↔
    ∃ word, code[index]? = some word ∧ Instr.decodeWord xlen word = .error error
  instructions : totals.instructions = code.length
  decoded : totals.decoded + failures.length = code.length
  addImmediates : totals.addImmediates = code.countP (Word.decodesTo xlen (· == .addi))
  memoryAccesses : totals.memoryAccesses = code.countP (Word.decodesTo xlen Opcode.isScalarAccess)
  exclusive : totals.addImmediates + totals.memoryAccesses ≤ totals.decoded

/-- The totals with one more report counted. -/
def Totals.count (totals : Totals) (report : Report) : Totals :=
  match report.outcome with
  | .error _ => { totals with instructions := totals.instructions + 1 }
  | .ok facts =>
      ⟨totals.instructions + 1, totals.decoded + 1,
        totals.addImmediates + facts.addImmediate?.isSome.toNat,
        totals.memoryAccesses + facts.memory?.isSome.toNat⟩

/-- What a further item adds to a count. -/
theorem ite_one_zero_eq_toNat (counted : Bool) :
    (if counted = true then 1 else 0) = counted.toNat := by
  cases counted <;> rfl

namespace Outcome

/-- A further report is counted on top of the totals so far. -/
theorem totals_append_singleton (reports : List Report) (report : Report) :
    totals (reports ++ [report]) = (totals reports).count report := by
  obtain ⟨address, word, outcome⟩ := report
  cases outcome with
  | error error => simp [totals, allFacts, Totals.count, Except.toOption]
  | ok facts =>
      simp [totals, allFacts, Totals.count, Except.toOption, ite_one_zero_eq_toNat]

/-- A further word is reported behind the other words, at the address behind theirs. -/
theorem reports_append_singleton (xlen : Xlen) (code : List Word) (word : Word) :
    reports xlen (code ++ [word]) =
      reports xlen code ++ [Report.ofWord xlen (4 * code.length) word] := by
  simp [reports, List.zipIdx_append]

end Outcome

namespace Tally

variable {xlen : Xlen} {code : List Word} {failures : List Undecodable} {totals : Totals}

/-- Nothing accounts for no code. -/
theorem empty (xlen : Xlen) : Tally xlen [] [] ⟨0, 0, 0, 0⟩ := by
  constructor <;> simp

/-- Positions of failures lie within the code. -/
theorem index_lt (tally : Tally xlen code failures totals) {failure : Undecodable}
    (member : failure ∈ failures) : failure.index < code.length := by
  obtain ⟨word, inCode, -⟩ := (tally.mem_failures_iff failure.index failure.error).mp member
  exact (List.getElem?_eq_some_iff.mp inCode).1

/-- What holds of the word at a position holds of an earlier word or of the last one. -/
theorem exists_getElem?_push_iff {holds : Word → Prop} {index : Nat} {last : Word} :
    (∃ word, (code ++ [last])[index]? = some word ∧ holds word) ↔
      (∃ word, code[index]? = some word ∧ holds word) ∨ index = code.length ∧ holds last := by
  rcases Nat.lt_trichotomy index code.length with before | same | behind
  · simp [List.getElem?_append_left before, Nat.ne_of_lt before]
  · simp [same]
  · have outside : (code ++ [last])[index]? = none :=
      List.getElem?_eq_none (by rw [List.length_append]; exact behind)
    simp [outside, List.getElem?_eq_none (Nat.le_of_lt behind), Nat.ne_of_gt behind]

/-- A word that does not decode is the last failure. -/
theorem push_error (tally : Tally xlen code failures totals) {word : Word} {error : DecodeError}
    (failed : Instr.decodeWord xlen word = .error error) :
    Tally xlen (code ++ [word]) (failures ++ [⟨code.length, error⟩])
      { totals with instructions := totals.instructions + 1 } := by
  have uncounted (sort : Opcode → Bool) :
      (code ++ [word]).countP (Word.decodesTo xlen sort) =
        code.countP (Word.decodesTo xlen sort) := by
    simp [Word.decodesTo, failed]
  constructor
  case ordered =>
    rw [List.pairwise_append]
    refine ⟨tally.ordered, List.pairwise_singleton _ _, ?_⟩
    intro earlier member later last
    obtain rfl := List.mem_singleton.mp last
    exact tally.index_lt member
  case mem_failures_iff =>
    intro index other
    rw [exists_getElem?_push_iff, ← tally.mem_failures_iff, List.mem_append, List.mem_singleton,
      failed, Undecodable.mk.injEq, Except.error.injEq, @eq_comm _ error]
  case instructions => simp [tally.instructions]
  case decoded =>
    have decoded := tally.decoded
    simp only [List.length_append, List.length_singleton]
    omega
  case addImmediates => rw [uncounted, tally.addImmediates]
  case memoryAccesses => rw [uncounted, tally.memoryAccesses]
  case exclusive => exact tally.exclusive

/-- A word that decodes is counted as an addition or as an access, or as neither, but never as
both. -/
theorem push_ok (tally : Tally xlen code failures totals) {word : Word} {instr : Instr}
    (spelled : Instr.decodeWord xlen word = .ok instr) :
    Tally xlen (code ++ [word]) failures
      ⟨totals.instructions + 1, totals.decoded + 1,
        totals.addImmediates + (instr.opcode == .addi).toNat,
        totals.memoryAccesses + instr.opcode.isScalarAccess.toNat⟩ := by
  have counted (sort : Opcode → Bool) :
      (code ++ [word]).countP (Word.decodesTo xlen sort) =
        code.countP (Word.decodesTo xlen sort) + (sort instr.opcode).toNat := by
    simp [Word.decodesTo, spelled, ite_one_zero_eq_toNat]
  constructor
  case ordered => exact tally.ordered
  case mem_failures_iff =>
    intro index error
    simp [exists_getElem?_push_iff, tally.mem_failures_iff, spelled]
  case instructions => simp [tally.instructions]
  case decoded =>
    have decoded := tally.decoded
    simp only [List.length_append, List.length_singleton]
    omega
  case addImmediates => rw [counted, tally.addImmediates]
  case memoryAccesses => rw [counted, tally.memoryAccesses]
  case exclusive =>
    have exclusive := tally.exclusive
    have once : (instr.opcode == .addi).toNat + instr.opcode.isScalarAccess.toNat ≤ 1 := by
      by_cases isAddi : instr.opcode = .addi
      · rw [isAddi]
        decide
      · rw [beq_eq_false_iff_ne.mpr isAddi]
        exact Nat.le_trans (Nat.le_of_eq (Nat.zero_add _)) (Bool.toNat_le _)
    dsimp only
    omega

/-- The totals over the reports on some code have a tally, whose failures are those that the
analysis warns about. -/
theorem exists_tally (xlen : Xlen) (code : List Word) :
    ∃ failures, Tally xlen code failures (Outcome.totals (Outcome.reports xlen code)) ∧
      (Outcome.reports xlen code).filterMap Outcome.warning? =
        failures.map Undecodable.event := by
  induction code using List.reverseRecOn with
  | nil => exact ⟨[], empty xlen, rfl⟩
  | append_singleton code word inductionHypothesis =>
      obtain ⟨failures, tally, warnings⟩ := inductionHypothesis
      rw [Outcome.reports_append_singleton, Outcome.totals_append_singleton,
        List.filterMap_append, warnings]
      cases decoded : Instr.decodeWord xlen word with
      | error error =>
          refine ⟨failures ++ [⟨code.length, error⟩], ?_, ?_⟩
          · simpa only [Totals.count, Report.outcome_of_error decoded] using tally.push_error decoded
          · simp only [List.filterMap_cons, List.filterMap_nil, Outcome.warning?,
              Report.outcome_of_error decoded, List.map_append, List.map_cons, List.map_nil]
            rfl
      | ok instr =>
          refine ⟨failures, ?_, ?_⟩
          · simpa only [Totals.count, Report.outcome_of_ok decoded,
              Findings.isSome_addImmediate? decoded, Findings.isSome_memory? decoded]
              using tally.push_ok decoded
          · simp only [List.filterMap_cons, List.filterMap_nil, Outcome.warning?,
              Report.outcome_of_ok decoded, List.append_nil]

end Tally

/-- What the summary hands to the logger. -/
def Totals.record (totals : Totals) : LogRecord :=
  ⟨.info, "analysis complete",
    [("instructions", .number totals.instructions), ("decoded", .number totals.decoded),
     ("add_imm", .number totals.addImmediates), ("memory", .number totals.memoryAccesses)]⟩

/-- The texts of the summary are unbroken. -/
theorem Totals.isUnbroken_record (totals : Totals) : totals.record.IsUnbroken :=
  @LogEvent.IsOwn.isUnbroken_record (.complete totals) trivial

namespace Outcome

/-- Whether an outcome accounts for some code: the command succeeded, printed the report on each
word at its position and in one line, warned about each word that does not decode, and closed the
log with totals that tally. The warnings and the totals are what a normal run shows, each of them in
one line if the logger keeps lines. -/
structure AccountsFor (outcome : Outcome) (xlen : Xlen) (format : ReportFormat) (code : List Word)
    (failures : List Undecodable) (totals : Totals) : Prop extends
    Tally xlen code failures totals where
  succeeded : outcome.exitCode = 0
  length_output : outcome.output.length = code.length
  output : ∀ index word, code[index]? = some word →
    outcome.output[index]? = some ((Report.ofWord xlen (4 * index) word).line format)
  unbroken : ∀ line ∈ outcome.output, Line.IsUnbroken line
  warnings : outcome.log.filter (fun event => event.level = .warn) =
    failures.map Undecodable.event
  summary : outcome.log.filter (fun event => event.level = .info) = [.complete totals]
  closing : outcome.log.getLast? = some (.complete totals)
  shown : ∀ logger : Logger, logger.IsUnfiltered → logger.lines .normal outcome.log =
    (failures.map Undecodable.record ++ [totals.record]).map logger.write
  unbrokenLog : ∀ logger : Logger, logger.IsUnfiltered → logger.KeepsLines →
    ∀ line ∈ logger.lines .normal outcome.log, Line.IsUnbroken line

/-- The events of analysing a word are of the least grave level. -/
theorem level_of_mem_wordEvents {xlen : Xlen} {word : Word} {event : LogEvent}
    (member : event ∈ wordEvents xlen word) : event.level = .trace := by
  unfold wordEvents at member
  split at member
  · cases member
  · rcases List.mem_cons.mp member with rfl | declined
    · rfl
    · obtain ⟨reason, -, rfl⟩ := List.mem_map.mp declined
      rfl

/-- However the words are scheduled, their events are of the least grave level. -/
theorem level_of_mem_merge {schedule : Schedule} {xlen : Xlen} {code : List Word}
    {event : LogEvent} (member : event ∈ schedule.merge (code.map (wordEvents xlen))) :
    event.level = .trace := by
  obtain ⟨word, -, logged⟩ := Schedule.mem_merge_map_iff.mp member
  exact level_of_mem_wordEvents logged

/-- Of the levels above those of single words, an analysis logs its warnings and then the
summary. -/
theorem filter_log_analysis {xlen : Xlen} {code : List Word} {failures : List Undecodable}
    (schedule : Schedule) (format : ReportFormat) (keeps : LogLevel → Bool)
    (warned : (reports xlen code).filterMap warning? = failures.map Undecodable.event)
    (noDebug : keeps .debug = false) (noTrace : keeps .trace = false) :
    (analysis schedule xlen format code).log.filter (fun event => keeps event.level) =
      (if keeps .warn then failures.map Undecodable.event else []) ++
        if keeps .info then [.complete (totals (reports xlen code))] else [] := by
  have quiet : (.analyzing xlen code.length :: schedule.merge (code.map (wordEvents xlen))).filter
      (fun event => keeps event.level) = [] := by
    refine List.filter_eq_nil_iff.mpr fun event member => ?_
    rcases List.mem_cons.mp member with rfl | perWord
    · rw [LogEvent.level, noDebug]
      exact Bool.false_ne_true
    · rw [level_of_mem_merge perWord, noTrace]
      exact Bool.false_ne_true
  have warnings : (failures.map Undecodable.event).filter (fun event => keeps event.level) =
      if keeps .warn then failures.map Undecodable.event else [] := by
    rw [List.filter_map]
    change (failures.filter fun _ => keeps .warn).map Undecodable.event = _
    cases keeps .warn <;> simp
  rw [analysis, List.filter_append, List.filter_append, quiet, warned, warnings, List.nil_append,
    List.filter_singleton, Bool.cond_eq_ite]
  rfl

/-- What a normal run shows of an analysis are its warnings and the summary. -/
theorem lines_normal_analysis {xlen : Xlen} {code : List Word} {failures : List Undecodable}
    (schedule : Schedule) (format : ReportFormat)
    (warned : (reports xlen code).filterMap warning? = failures.map Undecodable.event)
    {logger : Logger} (unfiltered : logger.IsUnfiltered) :
    logger.lines .normal (analysis schedule xlen format code).log =
      (failures.map Undecodable.record ++ [(totals (reports xlen code)).record]).map
        logger.write := by
  have kept : (analysis schedule xlen format code).log.filter
      (fun event => Verbosity.normal.shows event.level) =
        failures.map Undecodable.event ++ [.complete (totals (reports xlen code))] :=
    filter_log_analysis schedule format Verbosity.normal.shows warned rfl rfl
  rw [Logger.lines_of_isUnfiltered unfiltered, kept, List.map_append, List.map_append,
    List.map_map, List.map_map]
  rfl

/-- An analysis accounts for its code. -/
theorem exists_accountsFor_analysis (schedule : Schedule) (xlen : Xlen) (format : ReportFormat)
    (code : List Word) :
    ∃ failures totals,
      (analysis schedule xlen format code).AccountsFor xlen format code failures totals := by
  obtain ⟨failures, tally, warned⟩ := Tally.exists_tally xlen code
  have logged := fun keeps => filter_log_analysis schedule format keeps warned
  refine ⟨failures, totals (reports xlen code), ?_⟩
  constructor
  case toTally => exact tally
  case succeeded => rfl
  case length_output => simp [analysis, reports]
  case output =>
    intro index word inCode
    simp [analysis, reports, inCode]
  case unbroken =>
    intro line member
    obtain ⟨report, reported, rfl⟩ := List.mem_map.mp member
    obtain ⟨⟨word, index⟩, -, rfl⟩ := List.mem_map.mp reported
    exact Report.isUnbroken_line_ofWord xlen (4 * index) word
  case warnings => simpa using logged (fun level => level = .warn) rfl rfl
  case summary => simpa using logged (fun level => level = .info) rfl rfl
  case closing => exact List.getLast?_concat
  case shown => exact fun _ => lines_normal_analysis schedule format warned
  case unbrokenLog =>
    intro logger unfiltered keeps line member
    rw [lines_normal_analysis schedule format warned unfiltered] at member
    obtain ⟨record, shown, rfl⟩ := List.mem_map.mp member
    refine keeps record ?_
    rcases List.mem_append.mp shown with warning | summary
    · obtain ⟨failure, -, rfl⟩ := List.mem_map.mp warning
      exact failure.isUnbroken_record
    · obtain rfl := List.mem_singleton.mp summary
      exact Totals.isUnbroken_record _

end Outcome

/-- Whatever the words are and however they are scheduled, analysing code that is not empty succeeds
and accounts for every word of it: there is one line of output for each word, in order, a warning
for each word that does not decode, and totals that count the others. -/
theorem Command.run_analyze_accountsFor (schedule : Schedule)
    {contents : String → Except ReadError (List UInt8)} {source : CodeSource} {code : List Word}
    (given : source.read contents = .ok code) (notEmpty : code ≠ []) (xlen : Xlen)
    (format : ReportFormat) :
    ∃ failures totals, (run schedule contents (.analyze source xlen format)).AccountsFor
      xlen format code failures totals := by
  obtain ⟨word, words, rfl⟩ := List.exists_cons_of_ne_nil notEmpty
  rw [run, given]
  exact Outcome.exists_accountsFor_analysis schedule xlen format (word :: words)

/-- A load, an addition and a word that does not decode are three words, of which two decode, one
to an addition and one to an access. The last one is warned about. -/
theorem Command.run_analyze_accountsFor_mixed :
    let texts := ["0xf8010083", "F801_0093", "73"]
    let code := [0xF8010083#32, 0xF8010093#32, 0x73#32]
    let outcome := run .oneThread (fun _ => .ok []) (.analyze (.words texts) .rv64 .keyValue)
    CodeSource.read (fun _ => .ok []) (.words texts) = .ok code ∧ code ≠ [] ∧
      outcome.AccountsFor .rv64 .keyValue code [⟨2, .unrecognized 0x73#32⟩] ⟨3, 2, 1, 1⟩ ∧
      Logger.plain.lines .normal outcome.log =
        ["WARN unrecognized encoding 0x00000073 address=8",
         "INFO analysis complete instructions=3 decoded=2 add_imm=1 memory=1"] := by
  intro texts code outcome
  have given : CodeSource.read (fun _ => .ok []) (.words texts) = .ok code := rfl
  obtain ⟨failures, totals, accounts⟩ :=
    run_analyze_accountsFor .oneThread given (by decide) .rv64 .keyValue
  -- What the log holds says which failures and which totals these are.
  have warnings : outcome.log.filter (fun event => event.level = .warn) =
      [⟨2, .unrecognized 0x73#32⟩].map Undecodable.event := by decide +kernel
  have summary : outcome.log.filter (fun event => event.level = .info) =
      [.complete ⟨3, 2, 1, 1⟩] := by decide +kernel
  have failuresAre : failures = [⟨2, .unrecognized 0x73#32⟩] :=
    List.map_injective_iff.mpr (fun _ _ => Undecodable.event_inj.mp)
      (accounts.warnings.symm.trans warnings)
  have totalsAre : totals = ⟨3, 2, 1, 1⟩ := by
    have same := accounts.summary.symm.trans summary
    simpa only [List.cons.injEq, LogEvent.complete.injEq, and_true] using same
  rw [failuresAre, totalsAre] at accounts
  exact ⟨given, by decide, accounts, by decide +kernel⟩

end RiscvFacts
