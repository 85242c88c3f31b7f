import RiscvFacts.Proofs.Analysis.Accounting
import RiscvFacts.Proofs.Query.Explanation

/-!
# The verbose log of an analysis

The queries may decline an instruction for six reasons, but decoding forms operands
that none of the queries objects to. So the only decline in the log of an analysis is
that of a vector access, and what a word leaves in the log can be said without the
queries (`Outcome.wordEvents_eq`). The log of a whole run interleaves what the words
leave, and strings it together in the order of the words if the schedule is sequential
(`Command.run_analyze_tracesWords`).
-/

namespace RiscvFacts

namespace Riscv

variable {xlen : Xlen} {word : Word} {instr : Instr}

/-- The add-immediate query declines no instruction that a word spells. -/
theorem trace_addImmediate (spells : Spells xlen word instr) (register : Register) :
    (addImmediate xlen instr register).trace = [] := by
  have known := info_eq_known_iff.mpr ⟨spells.available, rfl⟩
  unfold addImmediate
  split
  case isFalse => rfl
  case isTrue =>
    rw [known, Answer.known_bind]
    by_cases adds : instr.opcode.info.kind = .addImm
    · rw [if_pos adds, spells.operands_of_addi (Opcode.kind_eq_addImm_iff.mp adds)]
      rfl
    · rw [if_neg adds]
      rfl

/-- The memory query declines the vector accesses among the instructions that words spell. -/
theorem trace_memoryAccess (spells : Spells xlen word instr) :
    (memoryAccess xlen instr).trace =
      if instr.opcode.info.isVector then [.vectorAccess instr.opcode] else [] := by
  unfold OpcodeInfo.isVector
  cases memory : instr.opcode.info.memory with
  | none =>
      rw [memoryAccess_of_none spells.available memory]
      rfl
  | scalar width =>
      obtain ⟨access, known⟩ :=
        (exists_memoryAccess_iff spells).mpr (Opcode.exists_scalar_iff.mp ⟨width, memory⟩)
      rw [known]
      rfl
  | vector width =>
      rw [memoryAccess_of_vector spells.available memory]
      rfl

/-- The copy query declines no instruction that the target has. -/
theorem trace_copy (available : instr.opcode.isAvailable xlen = true) :
    (copy xlen instr).trace = [] := by
  rw [copy, info_eq_known_iff.mpr ⟨available, rfl⟩, Answer.known_bind]
  split
  · split <;> rfl
  · split <;> rfl
  · rfl

end Riscv

/-- The findings about an instruction that a word spells decline it exactly if it is a vector
access, and for no other reason. -/
theorem Findings.trace_of_spells {xlen : Xlen} {word : Word} {instr : Instr}
    (spells : Spells xlen word instr) :
    (ofInstr (Riscv.target xlen) instr).trace =
      if instr.opcode.info.isVector then [.vectorAccess instr.opcode] else [] := by
  have sum : (ofInstr (Riscv.target xlen) instr).addImmediate.trace = [] := by
    unfold ofInstr
    cases instr.defined? with
    | none => rfl
    | some register => exact Riscv.trace_addImmediate spells register
  have access : (ofInstr (Riscv.target xlen) instr).memoryAccess.trace = _ :=
    Riscv.trace_memoryAccess spells
  have copied : (ofInstr (Riscv.target xlen) instr).copy.trace = [] :=
    Riscv.trace_copy spells.available
  rw [trace, sum, access, copied, List.nil_append, List.append_nil]

namespace Word

/-- The events that a word has to leave in the log: none if it does not decode, and otherwise its
value and its opcode, followed by the decline of a vector access if it is one. -/
def tracedEvents (xlen : Xlen) (word : Word) : List LogEvent :=
  match Instr.decodeWord xlen word with
  | .error _ => []
  | .ok instr =>
      .decoded word instr.opcode ::
        if instr.opcode.info.isVector then [.declined (.vectorAccess instr.opcode)] else []

/-- The records that a word has to hand to the logger. -/
def tracedRecords (xlen : Xlen) (word : Word) : List LogRecord :=
  match Instr.decodeWord xlen word with
  | .error _ => []
  | .ok instr =>
      ⟨.trace, "decoded",
        [("raw", .number word.toNat), ("opcode", .display instr.opcode.mnemonic)]⟩ ::
        if instr.opcode.info.isVector then
          [⟨.trace, "vector memory access not supported",
            [("opcode", .display instr.opcode.mnemonic)]⟩]
        else []

/-- The events of a word have the records that it has to hand to the logger. -/
theorem map_record_tracedEvents (xlen : Xlen) (word : Word) :
    (tracedEvents xlen word).map LogEvent.record = tracedRecords xlen word := by
  unfold tracedEvents tracedRecords
  split
  case h_1 => rfl
  case h_2 instr _ =>
    rw [List.map_cons]
    split <;> rfl

variable {xlen : Xlen} {word : Word} {event : LogEvent}

/-- No text from outside stands in the events of a word. -/
theorem isOwn_of_mem_tracedEvents (member : event ∈ tracedEvents xlen word) : event.IsOwn := by
  unfold tracedEvents at member
  split at member
  case h_1 => cases member
  case h_2 instr _ =>
    rcases List.mem_cons.mp member with rfl | declined
    · trivial
    · split at declined
      case isTrue =>
        obtain rfl := List.mem_singleton.mp declined
        trivial
      case isFalse => cases declined

/-- A word declines nothing but a vector access. -/
theorem isVector_of_declined_mem_tracedEvents {reason : Decline}
    (member : .declined reason ∈ tracedEvents xlen word) :
    ∃ opcode, opcode.info.isVector = true ∧ reason = .vectorAccess opcode := by
  unfold tracedEvents at member
  split at member
  case h_1 => cases member
  case h_2 instr _ =>
    split at member
    case isTrue isVector =>
      simp only [List.mem_cons, reduceCtorEq, List.not_mem_nil, or_false, false_or,
        LogEvent.declined.injEq] at member
      exact ⟨instr.opcode, isVector, member⟩
    case isFalse => simp at member

end Word

/-- What the start of an analysis hands to the logger. -/
def LogRecord.start (xlen : Xlen) (words : Nat) : LogRecord :=
  ⟨.debug, "analyzing", [("target_xlen", .string xlen.name), ("words", .number words)]⟩

namespace Outcome

/-- Whether the log of an outcome traces some code, however its words are scheduled. Its events of
the least grave level interleave those of the words, so that each word has its own in order, and
their lines are the only ones that a verbose run shows besides the first line and those of a normal
run. A logger that keeps lines writes all of them line by line. Nothing but vector accesses was
declined. -/
structure TracesWords (outcome : Outcome) (xlen : Xlen) (code : List Word) : Prop where
  traced : Interleaves (code.map (Word.tracedEvents xlen))
    (outcome.log.filter fun event => event.level = .trace)
  inOrder : ∀ word ∈ code, (Word.tracedEvents xlen word).Sublist outcome.log
  shown : ∀ logger : Logger, logger.IsUnfiltered → ∃ lines,
    Interleaves (code.map fun word => (Word.tracedRecords xlen word).map logger.write) lines ∧
      logger.lines .verbose outcome.log =
        logger.write (.start xlen code.length) :: lines ++ logger.lines .normal outcome.log
  unbroken : ∀ logger : Logger, logger.KeepsLines → ∀ verbosity,
    ∀ line ∈ logger.lines verbosity outcome.log, Line.IsUnbroken line
  declined : ∀ reason, .declined reason ∈ outcome.log →
    ∃ opcode, opcode.info.isVector = true ∧ reason = .vectorAccess opcode

/-- Whether the log of an outcome traces some code word by word, in the order of the words. -/
structure TracesWordsInOrder (outcome : Outcome) (xlen : Xlen) (code : List Word) : Prop where
  traced : outcome.log.filter (fun event => event.level = .trace) =
    code.flatMap (Word.tracedEvents xlen)
  shown : ∀ logger : Logger, logger.IsUnfiltered → logger.lines .verbose outcome.log =
    logger.write (.start xlen code.length) ::
      (code.flatMap (Word.tracedRecords xlen)).map logger.write ++
        logger.lines .normal outcome.log

/-- Analysing a word leaves the events in the log that the word has to leave there. -/
theorem wordEvents_eq (xlen : Xlen) : wordEvents xlen = Word.tracedEvents xlen := by
  funext word
  unfold wordEvents Word.tracedEvents Findings.ofWord
  cases decoded : Instr.decodeWord xlen word with
  | error error => rfl
  | ok instr =>
      have spells := Instr.decodeWord_eq_ok_iff_spells.mp decoded
      simp only [Except.map, Findings.trace_of_spells spells]
      split <;> rfl

section Analysis

variable (schedule : Schedule) (xlen : Xlen) (format : ReportFormat) (code : List Word)

/-- The log of an analysis falls into its start, what the words leave as they are scheduled, the
warnings and the summary. -/
theorem exists_log_analysis :
    ∃ failures : List Undecodable, ∃ totals, (analysis schedule xlen format code).log =
      .analyzing xlen code.length :: schedule.merge (code.map (Word.tracedEvents xlen)) ++
        (failures.map Undecodable.event ++ [.complete totals]) := by
  obtain ⟨failures, -, warned⟩ := Tally.exists_tally xlen code
  refine ⟨failures, totals (reports xlen code), ?_⟩
  rw [analysis, wordEvents_eq, warned, List.append_assoc]

variable {schedule xlen code}

/-- What the words leave is of the least grave level. -/
theorem level_of_mem_merge_tracedEvents {event : LogEvent}
    (member : event ∈ schedule.merge (code.map (Word.tracedEvents xlen))) :
    event.level = .trace := by
  rw [← wordEvents_eq] at member
  exact level_of_mem_merge member

/-- The events of the least grave level are what the words leave. -/
theorem filter_trace_log_analysis :
    (analysis schedule xlen format code).log.filter (fun event => event.level = .trace) =
      schedule.merge (code.map (Word.tracedEvents xlen)) := by
  obtain ⟨failures, totals, log⟩ := exists_log_analysis schedule xlen format code
  have start : (LogEvent.analyzing xlen code.length).level ≠ .trace := nofun
  have words : (schedule.merge (code.map (Word.tracedEvents xlen))).filter
      (fun event => event.level = .trace) = schedule.merge (code.map (Word.tracedEvents xlen)) :=
    List.filter_eq_self.mpr fun _ member => decide_eq_true (level_of_mem_merge_tracedEvents member)
  have others : (failures.map Undecodable.event ++ [LogEvent.complete totals]).filter
      (fun event => event.level = .trace) = [] := by
    simp [List.filter_map, Undecodable.event, Function.comp_def, LogEvent.level]
  rw [log, List.filter_append, List.filter_cons, decide_eq_false start, words, others,
    List.append_nil]
  rfl

/-- A verbose run shows its start, what the words leave, and what a normal run shows. -/
theorem lines_verbose_analysis {logger : Logger} (unfiltered : logger.IsUnfiltered) :
    logger.lines .verbose (analysis schedule xlen format code).log =
      logger.write (.start xlen code.length) ::
        (schedule.merge (code.map (Word.tracedEvents xlen))).map
          (fun event => logger.write event.record) ++
        logger.lines .normal (analysis schedule xlen format code).log := by
  obtain ⟨failures, totals, log⟩ := exists_log_analysis schedule xlen format code
  have everything (event : LogEvent) : Verbosity.verbose.shows event.level = true := by
    cases event <;> rfl
  have words : (schedule.merge (code.map (Word.tracedEvents xlen))).filter
      (fun event => Verbosity.normal.shows event.level) = [] := by
    refine List.filter_eq_nil_iff.mpr fun event member => ?_
    rw [level_of_mem_merge_tracedEvents member]
    exact Bool.false_ne_true
  have start : Verbosity.normal.shows (LogEvent.analyzing xlen code.length).level = false := rfl
  have others : (failures.map Undecodable.event ++ [LogEvent.complete totals]).filter
      (fun event => Verbosity.normal.shows event.level) =
        failures.map Undecodable.event ++ [.complete totals] :=
    List.filter_eq_self.mpr (List.forall_mem_append.mpr
      ⟨List.forall_mem_map.mpr fun _ _ => rfl, List.forall_mem_singleton.mpr rfl⟩)
  rw [Logger.lines_of_isUnfiltered unfiltered, Logger.lines_of_isUnfiltered unfiltered,
    List.filter_eq_self.mpr fun event _ => everything event, log, List.filter_append,
    List.filter_cons, start, words, others, List.map_append, List.map_cons]
  rfl

/-- An analysis traces its code. -/
theorem tracesWords_analysis : (analysis schedule xlen format code).TracesWords xlen code := by
  constructor
  case traced =>
    rw [filter_trace_log_analysis]
    exact schedule.interleaves _
  case inOrder =>
    intro word member
    have inTrace : (Word.tracedEvents xlen word).Sublist
        ((analysis schedule xlen format code).log.filter fun event => event.level = .trace) := by
      rw [filter_trace_log_analysis]
      exact (schedule.interleaves _).sublist _ (List.mem_map_of_mem member)
    exact inTrace.trans List.filter_sublist
  case shown =>
    intro logger unfiltered
    refine ⟨_, ?_, lines_verbose_analysis format unfiltered⟩
    have interleaves := (schedule.interleaves (code.map (Word.tracedEvents xlen))).map
      fun event => logger.write event.record
    simpa only [List.map_map, Function.comp_def, ← Word.map_record_tracedEvents] using interleaves
  case unbroken =>
    obtain ⟨failures, totals, log⟩ := exists_log_analysis schedule xlen format code
    intro logger keeps verbosity
    refine keeps.lines (fun event member => LogEvent.IsOwn.isUnbroken_record ?_) verbosity
    rw [log, List.cons_append, List.mem_cons, List.mem_append, List.mem_append, List.mem_map,
      List.mem_singleton] at member
    rcases member with rfl | words | ⟨failure, -, rfl⟩ | rfl
    · trivial
    · obtain ⟨word, -, logged⟩ := Schedule.mem_merge_map_iff.mp words
      exact Word.isOwn_of_mem_tracedEvents logged
    · trivial
    · trivial
  case declined =>
    intro reason member
    have traced : .declined reason ∈ (analysis schedule xlen format code).log.filter
        (fun event => event.level = .trace) := List.mem_filter.mpr ⟨member, rfl⟩
    rw [filter_trace_log_analysis] at traced
    obtain ⟨word, -, logged⟩ := Schedule.mem_merge_map_iff.mp traced
    exact Word.isVector_of_declined_mem_tracedEvents logged

/-- On a sequential schedule an analysis traces its code in order. -/
theorem tracesWordsInOrder_analysis (sequential : schedule.IsSequential) :
    (analysis schedule xlen format code).TracesWordsInOrder xlen code := by
  have merged : schedule.merge (code.map (Word.tracedEvents xlen)) =
      code.flatMap (Word.tracedEvents xlen) := by
    rw [sequential, List.flatMap_def]
  constructor
  case traced => rw [filter_trace_log_analysis, merged]
  case shown =>
    intro logger unfiltered
    rw [lines_verbose_analysis format unfiltered, merged, List.map_flatMap, List.map_flatMap]
    simp only [← Word.map_record_tracedEvents, List.map_map, Function.comp_def]

end Analysis

end Outcome

/-- Whatever the words are and however they are scheduled, the verbose log of analysing code that is
not empty traces them, and nothing in it is declined but vector accesses. If the schedule is
sequential, as it is on one thread, it traces them one by one in order. -/
theorem Command.run_analyze_tracesWords (schedule : Schedule)
    {contents : String → Except ReadError (List UInt8)} {source : CodeSource} {code : List Word}
    (given : source.read contents = .ok code) (notEmpty : code ≠ []) (xlen : Xlen)
    (format : ReportFormat) :
    (run schedule contents (.analyze source xlen format)).TracesWords xlen code ∧
      (schedule.IsSequential →
        (run schedule contents (.analyze source xlen format)).TracesWordsInOrder xlen code) := by
  obtain ⟨word, words, rfl⟩ := List.exists_cons_of_ne_nil notEmpty
  rw [run, given]
  exact ⟨Outcome.tracesWords_analysis format, Outcome.tracesWordsInOrder_analysis format⟩

/-- On one thread, a vector load is declined in the log, between an addition that is not and a word
that does not decode. -/
theorem Command.run_analyze_tracesWords_vector :
    let texts := ["f8010093", "02050007", "73"]
    let code := [0xF8010093#32, 0x02050007#32, 0x73#32]
    let outcome := run .oneThread (fun _ => .ok []) (.analyze (.words texts) .rv64 .text)
    CodeSource.read (fun _ => .ok []) (.words texts) = .ok code ∧ code ≠ [] ∧
      Schedule.oneThread.IsSequential ∧ outcome.TracesWords .rv64 code ∧
      outcome.TracesWordsInOrder .rv64 code ∧
      Logger.plain.lines .verbose outcome.log =
        ["DEBUG analyzing target_xlen=\"riscv64\" words=3",
         "TRACE decoded raw=4160815251 opcode=addi",
         "TRACE decoded raw=33882119 opcode=vle8.v",
         "TRACE vector memory access not supported opcode=vle8.v",
         "WARN unrecognized encoding 0x00000073 address=8",
         "INFO analysis complete instructions=3 decoded=2 add_imm=1 memory=0"] := by
  intro texts code outcome
  have given : CodeSource.read (fun _ => .ok []) (.words texts) = .ok code := rfl
  obtain ⟨traces, inOrder⟩ := run_analyze_tracesWords .oneThread given (by decide) .rv64 .text
  exact ⟨given, by decide, Schedule.isSequential_oneThread, traces,
    inOrder Schedule.isSequential_oneThread, by decide +kernel⟩

end RiscvFacts
