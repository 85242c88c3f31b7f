import RiscvFacts.CommandLine.Run
import RiscvFacts.Proofs.Word.Bits
import RiscvFacts.Proofs.Word.Text

/-!
# The two ways to give code

A word can be given as its bytes in a file or as a hexadecimal text. Both readers
recover it: four bytes at a time spell the words of a file
(`Word.listOfBytes_flatMap_littleEndian`), and every spelling of a word by digits is
read as that word (`Word.ofText_of_spelledBy`). From there on the source of the code
does not matter.
-/

namespace RiscvFacts

namespace Word

/-- The bytes of a word, least significant byte first. -/
def littleEndian (word : Word) : List UInt8 :=
  [0, 8, 16, 24].map fun low => UInt8.ofBitVec (word.extractLsb' low 8)

/-- Four bytes spell the word that they were taken from. -/
theorem listOfBytes_littleEndian_append (word : Word) (rest : List UInt8) :
    listOfBytes (word.littleEndian ++ rest) = word :: listOfBytes rest := by
  have sum : field word 0 8 + 0x100 * field word 8 8 + 0x10000 * field word 16 8 +
      0x1000000 * field word 24 8 = word.toNat := by
    have bound := word.isLt
    simp only [field_eq_div_mod]
    omega
  change BitVec.ofNat 32 (field word 0 8 + 0x100 * field word 8 8 + 0x10000 * field word 16 8 +
    0x1000000 * field word 24 8) :: listOfBytes rest = _
  rw [sum, BitVec.ofNat_toNat, BitVec.setWidth_eq]

/-- The bytes of some words spell these words. -/
theorem listOfBytes_flatMap_littleEndian (code : List Word) :
    listOfBytes (code.flatMap littleEndian) = code := by
  induction code with
  | nil => rfl
  | cons word code inductionHypothesis =>
      rw [List.flatMap_cons, listOfBytes_littleEndian_append, inductionHypothesis]

/-- Every word has four bytes. -/
theorem length_flatMap_littleEndian (code : List Word) :
    (code.flatMap littleEndian).length = 4 * code.length := by
  induction code with
  | nil => rfl
  | cons word code inductionHypothesis =>
      rw [List.flatMap_cons, List.length_append, inductionHypothesis, List.length_cons]
      change 4 + _ = _
      omega

/-- Characters that spell hexadecimal digits, with underscores anywhere among them. -/
inductive SpacedDigits : List Char → List Nat → Prop where
  | nil : SpacedDigits [] []
  | underscore {chars : List Char} {digits : List Nat} (rest : SpacedDigits chars digits) :
      SpacedDigits ('_' :: chars) digits
  | digit {char : Char} {value : Nat} {chars : List Char} {digits : List Nat}
      (first : IsHexDigit char value) (rest : SpacedDigits chars digits) :
      SpacedDigits (char :: chars) (value :: digits)

/-- Whether a text spells a word: it has one to eight hexadecimal digits of either case, which
may have underscores anywhere among them and one mark in front of them. -/
def SpelledBy (word : Word) (text : String) : Prop :=
  ∃ mark ∈ ["", "0x", "0X"], ∃ body digits, text = mark ++ body ∧
    SpacedDigits body.toList digits ∧ 1 ≤ digits.length ∧ digits.length ≤ 8 ∧
    Nat.ofDigits 16 digits.reverse = word.toNat

namespace SpacedDigits

variable {chars : List Char} {digits : List Nat}

/-- Without the underscores there are the digits. -/
theorem forall₂_filter (spaced : SpacedDigits chars digits) :
    List.Forall₂ IsHexDigit (chars.filter fun char => char ≠ '_') digits := by
  induction spaced with
  | nil => exact .nil
  | underscore rest inductionHypothesis => simpa using inductionHypothesis
  | digit first rest inductionHypothesis =>
      rw [List.filter_cons_of_pos (by simpa using first.ne rfl)]
      exact .cons first inductionHypothesis

/-- A character that is neither an underscore nor a digit does not occur. -/
theorem notMem (spaced : SpacedDigits chars digits) {other : Char} (visible : other ≠ '_')
    (unread : hexDigit? other = none) : other ∉ chars := by
  induction spaced with
  | nil => exact List.not_mem_nil
  | underscore rest inductionHypothesis => simp [visible, inductionHypothesis]
  | digit first rest inductionHypothesis => simp [(first.ne unread).symm, inductionHypothesis]

end SpacedDigits

/-- Nothing at the start of some digits is taken for a mark. -/
theorem SpacedDigits.not_isMarked {body rest : String} {digits : List Nat}
    (spaced : SpacedDigits body.toList digits) : ¬ IsMarked body rest := by
  have noMark {letter : Char} (visible : letter ≠ '_') (unread : hexDigit? letter = none)
      (start : body.toList = '0' :: letter :: rest.toList) : False := by
    apply spaced.notMem visible unread
    rw [start]
    exact List.mem_cons_of_mem _ List.mem_cons_self
  rintro (rfl | rfl)
  · exact noMark (by decide) rfl String.toList_append
  · exact noMark (by decide) rfl String.toList_append

/-- The mark of a spelling is taken off before the underscores are. -/
theorem hexBody_append {mark body : String} {digits : List Nat} (marked : mark ∈ ["", "0x", "0X"])
    (spaced : SpacedDigits body.toList digits) :
    hexBody (mark ++ body).toList = body.toList.filter fun char => char ≠ '_' := by
  simp only [List.mem_cons, List.not_mem_nil, or_false] at marked
  rcases marked with rfl | rfl | rfl
  · rw [String.empty_append]
    exact hexBody_of_not_isMarked fun _ => spaced.not_isMarked
  · exact hexBody_of_isMarked (.inl rfl)
  · exact hexBody_of_isMarked (.inr rfl)

/-- A spelling of a word is read as that word. -/
theorem ofText_of_spelledBy {word : Word} {text : String} (spelled : word.SpelledBy text) :
    ofText text = .ok word := by
  obtain ⟨mark, marked, body, digits, rfl, spaced, atLeast, atMost, value⟩ := spelled
  refine ofText_eq_ok_iff.mpr ⟨digits, hasDigits_iff.mpr ?_, value.symm⟩
  rw [hexBody_append marked spaced]
  exact .unsigned spaced.forall₂_filter atLeast atMost

end Word

/-- Spellings of some words are read as these words. -/
theorem wordsOfTexts_of_spelledBy {code : List Word} {texts : List String}
    (spelled : List.Forall₂ Word.SpelledBy code texts) : wordsOfTexts texts = .ok code := by
  induction spelled with
  | nil => rfl
  | cons first rest inductionHypothesis =>
      simp only [wordsOfTexts, Word.ofText_of_spelledBy first, inductionHypothesis, Except.map]

/-- The bytes of some words are read as these words. -/
theorem wordsOfFile_flatMap_littleEndian (code : List Word) :
    wordsOfFile (code.flatMap Word.littleEndian) = .ok code := by
  rw [wordsOfFile, Word.length_flatMap_littleEndian, if_pos (Nat.mul_mod_right 4 _),
    Word.listOfBytes_flatMap_littleEndian]

/-- Analysing a file that holds the bytes of some words, and analysing spellings of these words
without a file, leave the same exit code, output and log on every schedule: those of analysing the
words themselves. -/
theorem Command.run_analyze_file_eq_words (schedule : Schedule)
    {contents : String → Except ReadError (List UInt8)}
    {path : String} {code : List Word} {texts : List String}
    (readable : contents path = .ok (code.flatMap Word.littleEndian))
    (spelled : List.Forall₂ Word.SpelledBy code texts)
    (others : String → Except ReadError (List UInt8)) (xlen : Xlen) (format : ReportFormat) :
    run schedule contents (.analyze (.file path) xlen format) =
        run schedule others (.analyze (.words texts) xlen format) ∧
      run schedule others (.analyze (.words texts) xlen format) =
        analyzeCode schedule xlen format (.ok code) := by
  have fromFile : CodeSource.read contents (.file path) = .ok code := by
    simp only [CodeSource.read, readable, wordsOfFile_flatMap_littleEndian]
  have fromTexts : CodeSource.read others (.words texts) = .ok code :=
    wordsOfTexts_of_spelledBy spelled
  rw [run, run, fromFile, fromTexts]
  exact ⟨rfl, rfl⟩

/-- A load that is spelled with a mark, capitals and underscores, and a short word. Both ways to
give them print two lines and count a load and an addition. -/
theorem Command.run_analyze_file_eq_spaced_words :
    let bytes := [0x83, 0x00, 0x01, 0xF8, 0x13, 0x00, 0x00, 0x00]
    let code := [0xF8010083#32, 0x13#32]
    let texts := ["0XF8_01_0083", "_13"]
    let outcome : Outcome :=
      { exitCode := 0
        output :=
          ["00000000: f8010083  lb ra, -128(sp)              mem(base=sp, offset=-128, width=1)",
           "00000004: 00000013  addi zero, zero, 0           " ++
             "add-imm(src=zero, imm=0) copy(dst=zero, src=zero)"]
        log := [.analyzing .rv32 2, .decoded 0xF8010083#32 .lb, .decoded 0x13#32 .addi,
          .complete ⟨2, 2, 1, 1⟩] }
    bytes = code.flatMap Word.littleEndian ∧ List.Forall₂ Word.SpelledBy code texts ∧
      run .oneThread (fun _ => .ok bytes) (.analyze (.file "code.bin") .rv32 .text) = outcome ∧
      run .oneThread (fun _ => .ok []) (.analyze (.words texts) .rv32 .text) = outcome := by
  intro bytes code texts outcome
  have load : Word.SpelledBy 0xF8010083#32 "0XF8_01_0083" := by
    refine ⟨"0X", by decide, "F8_01_0083", [15, 8, 0, 1, 0, 0, 8, 3], rfl, ?_⟩
    refine ⟨?_, by decide, by decide, by decide⟩
    exact .digit (by decide) <| .digit (by decide) <| .underscore <| .digit (by decide) <|
      .digit (by decide) <| .underscore <| .digit (by decide) <| .digit (by decide) <|
      .digit (by decide) <| .digit (by decide) .nil
  have short : Word.SpelledBy 0x13#32 "_13" :=
    ⟨"", by decide, "_13", [1, 3], rfl,
      .underscore (.digit (by decide) (.digit (by decide) .nil)), by decide, by decide, by decide⟩
  have spelled : List.Forall₂ Word.SpelledBy code texts := .cons load (.cons short .nil)
  let contents : String → Except ReadError (List UInt8) := fun _ => .ok bytes
  have readable : contents "code.bin" = .ok (code.flatMap Word.littleEndian) := rfl
  obtain ⟨sameOutcome, ofWords⟩ :=
    run_analyze_file_eq_words .oneThread readable spelled (fun _ => .ok []) .rv32 .text
  have analysed : analyzeCode .oneThread .rv32 .text (.ok code) = outcome := by decide +kernel
  exact ⟨by decide, spelled, (sameOutcome.trans ofWords).trans analysed, ofWords.trans analysed⟩

end RiscvFacts
