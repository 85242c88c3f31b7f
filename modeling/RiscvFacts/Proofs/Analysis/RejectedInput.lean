import RiscvFacts.CommandLine.Run

/-!
# Rejected input

Bad input is refused as a whole. The texts of a command line are read up to the first
one that spells no word, and nothing has been analysed by then
(`wordsOfTexts_of_isFirstRejected`). So an analysis either meets a fault of its source,
and then leaves one error and nothing else, or it succeeds, whether its words decode or
not (`Command.run_analyze_decidedBy`). The error repeats a rejected text as it was
typed.
-/

namespace RiscvFacts

namespace Word

/-- Whether a text spells no word. -/
def IsRejected (text : String) : Prop := ∀ word, ofText text ≠ .ok word

/-- A text is read with an error exactly if it spells no word, and the error names the text. -/
theorem ofText_eq_error_iff {text : String} {failure : Failure} :
    ofText text = .error failure ↔ IsRejected text ∧ failure = .invalidWord text := by
  unfold IsRejected ofText
  split
  · simp
  · simp [eq_comm]

end Word

/-- Whether a text is the first one in a list that spells no word. -/
def IsFirstRejected (texts : List String) (text : String) : Prop :=
  ∃ accepted rest, texts = accepted ++ text :: rest ∧
    (∀ other ∈ accepted, ∃ word, Word.ofText other = .ok word) ∧ Word.IsRejected text

/-- Texts are read up to the first one that spells no word, whatever comes behind it. -/
theorem wordsOfTexts_of_isFirstRejected {texts : List String} {text : String}
    (first : IsFirstRejected texts text) : wordsOfTexts texts = .error (.invalidWord text) := by
  obtain ⟨accepted, rest, rfl, earlier, rejected⟩ := first
  induction accepted with
  | nil =>
      have read := Word.ofText_eq_error_iff.mpr ⟨rejected, rfl⟩
      simp only [List.nil_append, wordsOfTexts, read]
  | cons other accepted inductionHypothesis =>
      obtain ⟨⟨word, read⟩, others⟩ := List.forall_mem_cons.mp earlier
      simp only [List.cons_append, wordsOfTexts, read, inductionHypothesis others, Except.map]

/-- Texts that are not read have a first one that spells no word, and the error names it. -/
theorem isFirstRejected_of_wordsOfTexts {texts : List String} {failure : Failure}
    (unread : wordsOfTexts texts = .error failure) :
    ∃ text, IsFirstRejected texts text ∧ failure = .invalidWord text := by
  induction texts with
  | nil => cases unread
  | cons text texts inductionHypothesis =>
      cases read : Word.ofText text with
      | error other =>
          obtain ⟨rejected, named⟩ := Word.ofText_eq_error_iff.mp read
          simp only [wordsOfTexts, read, Except.error.injEq] at unread
          exact ⟨text, ⟨[], texts, rfl, List.forall_mem_nil _, rejected⟩, unread ▸ named⟩
      | ok word =>
          have later : wordsOfTexts texts = .error failure := by
            cases rest : wordsOfTexts texts with
            | error other => simpa only [wordsOfTexts, read, rest, Except.map] using unread
            | ok words => simp only [wordsOfTexts, read, rest, Except.map, reduceCtorEq] at unread
          obtain ⟨first, ⟨accepted, rest, split, earlier, rejected⟩, named⟩ :=
            inductionHypothesis later
          refine ⟨first, ⟨text :: accepted, rest, ?_, ?_, rejected⟩, named⟩
          · rw [split, List.cons_append]
          · exact List.forall_mem_cons.mpr ⟨⟨word, read⟩, earlier⟩

/-- Texts spell no words at all only if there are none. -/
theorem wordsOfTexts_eq_nil_iff {texts : List String} : wordsOfTexts texts = .ok [] ↔ texts = [] := by
  cases texts with
  | nil => simp [wordsOfTexts]
  | cons text texts =>
      simp only [wordsOfTexts, reduceCtorEq, iff_false]
      split
      · exact nofun
      · cases wordsOfTexts texts <;> exact nofun

/-- Bytes that fill a whole number of words spell none only if there are no bytes. -/
theorem Word.listOfBytes_eq_nil_iff {bytes : List UInt8} (aligned : bytes.length % 4 = 0) :
    listOfBytes bytes = [] ↔ bytes = [] := by
  rcases bytes with _ | ⟨byte0, _ | ⟨byte1, _ | ⟨byte2, _ | ⟨byte3, rest⟩⟩⟩⟩
  all_goals simp_all [listOfBytes]

namespace CodeSource

variable {contents : String → Except ReadError (List UInt8)} {source : CodeSource}
  {failure : Failure}

/-- What may be wrong with the code of a source. Texts have to spell words, and a file has to be
readable and to hold a whole number of words. Neither may be empty. Nothing is said about what the
words are. -/
inductive Fault (contents : String → Except ReadError (List UInt8)) : CodeSource → Failure → Prop where
  | rejected {texts : List String} {text : String} (first : IsFirstRejected texts text) :
      Fault contents (.words texts) (.invalidWord text)
  | noWords : Fault contents (.words []) .noInstructions
  | unreadable {path : String} {error : ReadError} (unread : contents path = .error error) :
      Fault contents (.file path) (.unreadable error)
  | unaligned {path : String} {bytes : List UInt8} (found : contents path = .ok bytes)
      (partWord : bytes.length % 4 ≠ 0) :
      Fault contents (.file path) (.unalignedCode bytes.length)
  | noBytes {path : String} (found : contents path = .ok []) :
      Fault contents (.file path) .noInstructions

/-- Reading a source with a fault fails with it, unless the fault is that there is nothing to
read. -/
theorem Fault.read (fault : Fault contents source failure) :
    source.read contents = .error failure ∨
      source.read contents = .ok [] ∧ failure = .noInstructions := by
  cases fault with
  | rejected first => exact .inl (wordsOfTexts_of_isFirstRejected first)
  | noWords => exact .inr ⟨rfl, rfl⟩
  | unreadable unread => exact .inl (by simp only [CodeSource.read, unread])
  | unaligned found partWord =>
      exact .inl (by simp only [CodeSource.read, found, wordsOfFile, if_neg partWord])
  | noBytes found => exact .inr ⟨by simp only [CodeSource.read, found]; rfl, rfl⟩

/-- Texts that cannot be read, or that are none, are a fault. -/
theorem fault_of_wordsOfTexts {texts : List String}
    (unread : wordsOfTexts texts = .error failure ∨
      wordsOfTexts texts = .ok [] ∧ failure = .noInstructions) :
    Fault contents (.words texts) failure := by
  rcases unread with unread | ⟨empty, rfl⟩
  · obtain ⟨text, first, rfl⟩ := isFirstRejected_of_wordsOfTexts unread
    exact .rejected first
  · obtain rfl := wordsOfTexts_eq_nil_iff.mp empty
    exact .noWords

/-- Bytes that cannot be read as words, or that are none, are a fault. -/
theorem fault_of_wordsOfFile {path : String} {bytes : List UInt8}
    (found : contents path = .ok bytes)
    (unread : wordsOfFile bytes = .error failure ∨
      wordsOfFile bytes = .ok [] ∧ failure = .noInstructions) :
    Fault contents (.file path) failure := by
  unfold wordsOfFile at unread
  split at unread
  case isTrue aligned =>
    rcases unread with unread | ⟨empty, rfl⟩
    · cases unread
    · obtain rfl := (Word.listOfBytes_eq_nil_iff aligned).mp (Except.ok.inj empty)
      exact .noBytes found
  case isFalse partWord =>
    rcases unread with unread | ⟨empty, -⟩
    · cases unread
      exact .unaligned found partWord
    · cases empty

/-- A source has a fault exactly if reading it fails, or if there is nothing in it. -/
theorem fault_iff : Fault contents source failure ↔
    source.read contents = .error failure ∨
      source.read contents = .ok [] ∧ failure = .noInstructions := by
  refine ⟨Fault.read, fun unread => ?_⟩
  cases source with
  | words texts => exact fault_of_wordsOfTexts unread
  | file path =>
      cases found : contents path with
      | error error =>
          simp only [read, found, Except.error.injEq, reduceCtorEq, false_and, or_false] at unread
          exact unread ▸ .unreadable found
      | ok bytes =>
          simp only [read, found] at unread
          exact fault_of_wordsOfFile found unread

end CodeSource

namespace Outcome

/-- Whether an outcome is a failure and nothing else: nothing was printed, and the one event in the
log is the failure. -/
structure FailsWith (outcome : Outcome) (failure : Failure) : Prop where
  failed : outcome.exitCode = 1
  silent : outcome.output = []
  logged : outcome.log = [.failed failure]

/-- Whether an outcome is decided by the faults of a source. It fails with a fault if there is one,
and succeeds otherwise. The fault is handed to the logger as the one error, in which a rejected text
is repeated as it was typed and the size of a file is told. A run of any verbosity shows it, unless
the environment filters the log. -/
structure DecidedBy (outcome : Outcome) (contents : String → Except ReadError (List UInt8))
    (source : CodeSource) : Prop where
  failsWith_iff : ∀ failure, outcome.FailsWith failure ↔ source.Fault contents failure
  succeeds_iff : outcome.exitCode = 0 ↔ ∀ failure, ¬ source.Fault contents failure
  recorded : ∀ failure, source.Fault contents failure →
    outcome.log.map LogEvent.record = [⟨.error, failure.message, []⟩]
  verbatim : ∀ text, source.Fault contents (.invalidWord text) →
    outcome.log.map LogEvent.record =
      [⟨.error, "invalid instruction word '" ++ text ++ "': expected up to 8 hex digits", []⟩]
  exactSize : ∀ size, source.Fault contents (.unalignedCode size) →
    outcome.log.map LogEvent.record =
      [⟨.error, "code size " ++ Numeral.natural size ++ " is not a multiple of 4 bytes", []⟩]
  noInput : source.Fault contents .noInstructions →
    outcome.log.map LogEvent.record =
      [⟨.error, "no instructions given: pass hex words or --bin FILE", []⟩]
  shown : ∀ failure, source.Fault contents failure → ∀ logger : Logger, logger.IsUnfiltered →
    ∀ verbosity, logger.lines verbosity outcome.log =
      [logger.write ⟨.error, failure.message, []⟩]

variable {outcome : Outcome} {fault other : Failure}

/-- The outcome of a failure is that failure and no other one. -/
theorem failsWith_failure_iff : (failure fault).FailsWith other ↔ fault = other := by
  constructor
  · intro fails
    have same := fails.logged
    simp only [failure, List.cons.injEq, LogEvent.failed.injEq, and_true] at same
    exact same
  · rintro rfl
    exact ⟨rfl, rfl, rfl⟩

/-- A failure hands its wording to the logger as an error. -/
theorem FailsWith.recorded (fails : outcome.FailsWith fault) :
    outcome.log.map LogEvent.record = [⟨.error, fault.message, []⟩] := by
  rw [fails.logged]
  rfl

/-- A failure is shown at every verbosity. -/
theorem FailsWith.shown (fails : outcome.FailsWith fault) {logger : Logger}
    (unfiltered : logger.IsUnfiltered) (verbosity : Verbosity) :
    logger.lines verbosity outcome.log = [logger.write ⟨.error, fault.message, []⟩] := by
  have all : [LogEvent.failed fault].filter (fun event => verbosity.shows event.level) =
      [.failed fault] := by
    cases verbosity <;> rfl
  rw [Logger.lines_of_isUnfiltered unfiltered, fails.logged, all]
  rfl

end Outcome

namespace Command

variable {schedule : Schedule} {contents : String → Except ReadError (List UInt8)}
  {source : CodeSource} {xlen : Xlen} {format : ReportFormat}

/-- An analysis either fails with the one fault of its source, or there is none and it analyses the
code. -/
theorem run_analyze_cases (schedule : Schedule)
    (contents : String → Except ReadError (List UInt8)) (source : CodeSource) (xlen : Xlen)
    (format : ReportFormat) :
    (∃ fault, run schedule contents (.analyze source xlen format) = .failure fault ∧
        ∀ failure, source.Fault contents failure ↔ fault = failure) ∨
      (∃ code, run schedule contents (.analyze source xlen format) =
          .analysis schedule xlen format code) ∧
        ∀ failure, ¬ source.Fault contents failure := by
  simp only [CodeSource.fault_iff, run]
  cases source.read contents with
  | error fault => exact .inl ⟨fault, rfl, by simp⟩
  | ok code =>
      cases code with
      | nil => exact .inl ⟨.noInstructions, rfl, by simp [eq_comm]⟩
      | cons word words => exact .inr ⟨⟨word :: words, rfl⟩, by simp⟩

/-- An analysis fails with the faults of its source. -/
theorem run_analyze_failsWith_iff {failure : Failure} :
    (run schedule contents (.analyze source xlen format)).FailsWith failure ↔
      source.Fault contents failure := by
  rcases run_analyze_cases schedule contents source xlen format with
    ⟨fault, outcome, only⟩ | ⟨⟨code, outcome⟩, faultless⟩
  · rw [outcome, only, Outcome.failsWith_failure_iff]
  · rw [outcome]
    exact ⟨fun fails => (nomatch fails.failed), fun fault => (faultless failure fault).elim⟩

/-- An analysis succeeds if its source has no faults. -/
theorem run_analyze_exitCode_eq_zero_iff :
    (run schedule contents (.analyze source xlen format)).exitCode = 0 ↔
      ∀ failure, ¬ source.Fault contents failure := by
  rcases run_analyze_cases schedule contents source xlen format with
    ⟨fault, outcome, only⟩ | ⟨⟨code, outcome⟩, faultless⟩
  · rw [outcome]
    exact ⟨nofun, fun faultless => (faultless fault ((only fault).mpr rfl)).elim⟩
  · rw [outcome]
    exact ⟨fun _ => faultless, fun _ => rfl⟩

/-- Whether an analysis fails is decided by the faults of its source, and with bad input it leaves
nothing but the fault: a rejected text at any place among any number of other ones, a file with an
incomplete last word, or nothing at all. All other code is analysed with success. -/
theorem run_analyze_decidedBy (schedule : Schedule)
    (contents : String → Except ReadError (List UInt8)) (source : CodeSource) (xlen : Xlen)
    (format : ReportFormat) :
    (run schedule contents (.analyze source xlen format)).DecidedBy contents source := by
  have fails {failure : Failure} (fault : source.Fault contents failure) :
      (run schedule contents (.analyze source xlen format)).FailsWith failure :=
    run_analyze_failsWith_iff.mpr fault
  constructor
  case failsWith_iff => exact fun _ => run_analyze_failsWith_iff
  case succeeds_iff => exact run_analyze_exitCode_eq_zero_iff
  case recorded => exact fun _ fault => (fails fault).recorded
  case verbatim => exact fun _ fault => (fails fault).recorded
  case exactSize => exact fun _ fault => (fails fault).recorded
  case noInput => exact fun fault => (fails fault).recorded
  case shown => exact fun _ fault _ unfiltered => (fails fault).shown unfiltered

/-- A text that would turn the terminal red is handed to the logger as it was typed. -/
example :
    (run .oneThread (fun _ => .ok [])
        (.analyze (.words ["13", "\x1b[31mred\x1b[0m", "zz"]) .rv64 .text)).log.map
          LogEvent.record =
      [⟨.error, "invalid instruction word '\x1b[31mred\x1b[0m': expected up to 8 hex digits", []⟩] :=
  by decide +kernel

end Command

end RiscvFacts
