import RiscvFacts.Operand
import RiscvFacts.Proofs.Word.Bits

/-!
# Encoding diagrams

A diagram divides the 32 bits of a word into segments, lowest first, and says
what each of them holds: constant bits, the number of an operand's register, bits
of an operand's immediate, or a bit without meaning here. A diagram therefore
relates words and operand lists (`Diagram.Describes`) and writes operands into a
word (`Diagram.encode`).

The segments of a diagram leave no gap and do not overlap. Hence the written word
is described (`describes_encode`), and two words that are described by the same
operands are the same but for bits without meaning (`eq_or_eq_flip`).
-/

namespace RiscvFacts

namespace Operand

/-- The number of the physical register that an operand holds. -/
@[simp] def registerNumber : Operand → Nat
  | .register (.physical _ index) => index.toNat
  | .register (.virtual _ _) | .immediate _ | .stackSlot _ | .symbol _ _ | .other _ => 0

/-- The bits of an operand's immediate from bit `skipped` upwards. -/
@[simp] def immediateBits (skipped width : Nat) : Operand → Nat
  | .immediate value => (value.toInt / 2 ^ skipped % 2 ^ width).toNat
  | .register _ | .stackSlot _ | .symbol _ _ | .other _ => 0

/-- As many bits of an immediate as a segment holds fit into the segment. -/
theorem immediateBits_lt (skipped width : Nat) (operand : Operand) :
    operand.immediateBits skipped width < 2 ^ width := by
  cases operand with
  | immediate value =>
      have positive : (0 : Int) < 2 ^ width := Int.pow_pos (by decide)
      have bound := Int.emod_lt_of_pos (value.toInt / 2 ^ skipped) positive
      have atLeast := Int.emod_nonneg (value.toInt / 2 ^ skipped) (Int.ne_of_gt positive)
      exact (Int.toNat_lt atLeast).mpr (by simpa using bound)
  | register _ => exact Nat.two_pow_pos width
  | stackSlot _ => exact Nat.two_pow_pos width
  | symbol _ _ => exact Nat.two_pow_pos width
  | other _ => exact Nat.two_pow_pos width

end Operand

/-- A run of adjacent bits of a word, by what it holds. An immediate may be split over
several segments, each of which skips the bits that lower ones hold. -/
inductive Segment where
  | fixed (low width : Nat) (value : BitVec width)
  | register (low operand : Nat)
  | immediate (low width operand skipped : Nat)
  | ignored (low : Nat)

namespace Segment

/-- The index of the lowest bit. -/
@[simp] def low : Segment → Nat
  | .fixed low _ _ | .register low _ | .immediate low _ _ _ | .ignored low => low

/-- The number of bits. A register is one of 32. -/
@[simp] def width : Segment → Nat
  | .fixed _ width _ | .immediate _ width _ _ => width
  | .register _ _ => 5
  | .ignored _ => 1

/-- The bits of a word in a segment. -/
@[simp] def read (word : Word) (segment : Segment) : Nat :=
  Word.field word segment.low segment.width

/-- The bits that operands put into a segment. A bit without meaning is set. -/
@[simp] def value (operands : List Operand) : Segment → Nat
  | .fixed _ _ value => value.toNat
  | .register _ operand => operands[operand]?.elim 0 Operand.registerNumber
  | .immediate _ width operand skipped =>
      operands[operand]?.elim 0 (Operand.immediateBits skipped width)
  | .ignored _ => 1

/-- Whether a word has the constant bits of a segment, if it is one of constant bits. -/
@[simp] def Agrees (word : Word) : Segment → Prop
  | .fixed low width value => Word.field word low width = value.toNat
  | .register _ _ | .immediate _ _ _ _ | .ignored _ => True

/-- Whether a word has in a segment what operands put there, if that means anything. -/
@[simp] def Holds (word : Word) (operands : List Operand) (segment : Segment) : Prop :=
  match segment with
  | .ignored _ => True
  | segment => segment.read word = segment.value operands

/-- The segments fill a word from bit `start` to the top, without gap or overlap. -/
def Tile : Nat → List Segment → Prop
  | start, [] => start = 32
  | start, segment :: rest => segment.low = start ∧ Tile (start + segment.width) rest

/-- The number that the bits of adjacent segments spell, lowest segment first. -/
def compose (bits : Segment → Nat) : List Segment → Nat
  | [] => 0
  | segment :: rest => bits segment + 2 ^ segment.width * compose bits rest

/-- Operands whose registers are architectural put into a segment what it can hold. -/
theorem value_lt {operands : List Operand} (segment : Segment)
    (architectural : ∀ operand ∈ operands, operand.registerNumber < 32) :
    segment.value operands < 2 ^ segment.width := by
  cases segment with
  | fixed low width value => exact value.isLt
  | register low index =>
      cases there : operands[index]? with
      | none => simp [value, there, width]
      | some operand =>
          have number := architectural operand (List.mem_of_getElem? there)
          simpa [value, there, width] using number
  | immediate low size index skipped =>
      cases there : operands[index]? with
      | none =>
          simp only [value, there, Option.elim_none, width]
          exact Nat.two_pow_pos size
      | some operand =>
          simpa [value, there, width] using Operand.immediateBits_lt skipped size operand
  | ignored low => exact Nat.one_lt_two

section Reading

variable {left right word : Word} {operands : List Operand}

/-- A word with the bits that operands put into a segment holds them. -/
theorem holds_of_read_eq (segment : Segment)
    (same : segment.read word = segment.value operands) : segment.Holds word operands := by
  cases segment with
  | ignored low => trivial
  | _ => exact same

/-- A word that holds operands in a segment has its constant bits. -/
theorem agrees_of_holds (segment : Segment) (holds : segment.Holds word operands) :
    segment.Agrees word := by
  cases segment with
  | fixed low width value => exact holds
  | _ => trivial

/-- Whether a segment holds operands depends only on the bits in it. -/
theorem holds_congr (segment : Segment) (same : segment.read left = segment.read right) :
    segment.Holds left operands ↔ segment.Holds right operands := by
  cases segment with
  | ignored low => exact Iff.rfl
  | _ => simp only [Holds, same]

/-- A segment with a meaning has the same bits in all words in which it holds the same
operands. -/
theorem read_eq_of_holds (segment : Segment) (leftHolds : segment.Holds left operands)
    (rightHolds : segment.Holds right operands) (meaningful : ∀ low, segment ≠ .ignored low) :
    segment.read left = segment.read right := by
  cases segment with
  | ignored low => exact absurd rfl (meaningful low)
  | _ => exact leftHolds.trans rightHolds.symm

end Reading

variable {start : Nat} {segments : List Segment} {word : Word} {bits : Segment → Nat}

/-- Reading all segments of a word loses nothing. -/
theorem compose_read (tile : Tile start segments) :
    compose (read word) segments = word.toNat / 2 ^ start := by
  induction segments generalizing start with
  | nil =>
      have whole : start = 32 := tile
      subst whole
      exact (Nat.div_eq_of_lt word.isLt).symm
  | cons segment rest inductionHypothesis =>
      obtain ⟨atStart, tileRest⟩ := tile
      rw [compose, inductionHypothesis tileRest, read, atStart]
      exact Word.field_add_div word start segment.width

/-- What segments spell depends only on their bits. -/
theorem compose_congr {left right : Segment → Nat}
    (agree : ∀ segment ∈ segments, left segment = right segment) :
    compose left segments = compose right segments := by
  induction segments with
  | nil => rfl
  | cons segment rest inductionHypothesis =>
      obtain ⟨head, tail⟩ := List.forall_mem_cons.mp agree
      rw [compose, compose, head, inductionHypothesis tail]

/-- Segments that take what is put into them spell a number of 32 bits. -/
theorem compose_lt (tile : Tile start segments)
    (fits : ∀ segment ∈ segments, bits segment < 2 ^ segment.width) :
    2 ^ start * (compose bits segments + 1) ≤ 2 ^ 32 := by
  induction segments generalizing start with
  | nil =>
      have whole : start = 32 := tile
      simp [compose, whole]
  | cons segment rest inductionHypothesis =>
      obtain ⟨-, tileRest⟩ := tile
      have restFits := inductionHypothesis tileRest fun other member =>
        fits other (List.mem_cons_of_mem _ member)
      have headFits : bits segment + 1 ≤ 2 ^ segment.width := fits segment List.mem_cons_self
      calc 2 ^ start * (bits segment + 2 ^ segment.width * compose bits rest + 1)
          ≤ 2 ^ start * (2 ^ segment.width * (compose bits rest + 1)) := by
            apply Nat.mul_le_mul_left
            rw [Nat.mul_add]
            omega
        _ = 2 ^ (start + segment.width) * (compose bits rest + 1) := by
            rw [Nat.pow_add, Nat.mul_assoc]
        _ ≤ 2 ^ 32 := restFits

/-- What segments tile ends at the top of the word. -/
theorem end_le (tile : Tile start segments) :
    start ≤ 32 ∧ ∀ segment ∈ segments, segment.low + segment.width ≤ 32 := by
  induction segments generalizing start with
  | nil =>
      have whole : start = 32 := tile
      simp [whole]
  | cons segment rest inductionHypothesis =>
      obtain ⟨atStart, tileRest⟩ := tile
      obtain ⟨startRest, tail⟩ := inductionHypothesis tileRest
      exact ⟨by omega, List.forall_mem_cons.mpr ⟨by omega, tail⟩⟩

/-- A word that spells the composed number has in every segment what was put there. -/
theorem read_eq_of_compose (tile : Tile start segments)
    (fits : ∀ segment ∈ segments, bits segment < 2 ^ segment.width)
    (composed : word.toNat / 2 ^ start = compose bits segments) :
    ∀ segment ∈ segments, segment.read word = bits segment := by
  induction segments generalizing start with
  | nil => simp
  | cons segment rest inductionHypothesis =>
      obtain ⟨atStart, tileRest⟩ := tile
      have headFits := fits segment List.mem_cons_self
      rw [compose] at composed
      have head : segment.read word = bits segment := by
        rw [read, Word.field_eq_div_mod, atStart, composed, Nat.add_mul_mod_self_left,
          Nat.mod_eq_of_lt headFits]
      have remaining : word.toNat / 2 ^ (start + segment.width) = compose bits rest := by
        rw [Nat.pow_add, ← Nat.div_div_eq_div_mul, composed,
          Nat.add_mul_div_left _ _ (Nat.two_pow_pos _), Nat.div_eq_of_lt headFits, Nat.zero_add]
      have tail := inductionHypothesis tileRest
        (fun other member => fits other (List.mem_cons_of_mem _ member)) remaining
      exact List.forall_mem_cons.mpr ⟨head, tail⟩

/-- No segment begins below the bit from which the segments tile. -/
theorem start_le_low (tile : Tile start segments) :
    ∀ segment ∈ segments, start ≤ segment.low := by
  induction segments generalizing start with
  | nil => simp
  | cons segment rest inductionHypothesis =>
      obtain ⟨atStart, tileRest⟩ := tile
      refine List.forall_mem_cons.mpr ⟨Nat.le_of_eq atStart.symm, fun other member => ?_⟩
      have above := inductionHypothesis tileRest other member
      omega

/-- Of two segments that tile a word, one ends before the other begins. -/
theorem eq_or_apart (tile : Tile start segments) {left right : Segment}
    (leftMember : left ∈ segments) (rightMember : right ∈ segments) :
    left = right ∨ left.low + left.width ≤ right.low ∨ right.low + right.width ≤ left.low := by
  induction segments generalizing start with
  | nil => cases leftMember
  | cons segment rest inductionHypothesis =>
      obtain ⟨atStart, tileRest⟩ := tile
      have above := start_le_low tileRest
      rcases List.mem_cons.mp leftMember with rfl | leftRest <;>
        rcases List.mem_cons.mp rightMember with rfl | rightRest
      · exact .inl rfl
      · exact .inr (.inl (atStart ▸ above right rightRest))
      · exact .inr (.inr (atStart ▸ above left leftRest))
      · exact inductionHypothesis tileRest leftRest rightRest

end Segment

/-- A division of the word into segments. -/
structure Diagram where
  segments : List Segment
  tile : Segment.Tile 0 segments := by simp [Segment.Tile, Segment.low, Segment.width]

namespace Diagram

variable {diagram : Diagram} {word left right : Word} {operands : List Operand}

/-- Whether a word has the constant bits of a diagram. -/
def Matches (diagram : Diagram) (word : Word) : Prop :=
  ∀ segment ∈ diagram.segments, segment.Agrees word

/-- Whether a word has in all meaningful bits of a diagram what the operands put there. -/
def Describes (diagram : Diagram) (word : Word) (operands : List Operand) : Prop :=
  ∀ segment ∈ diagram.segments, segment.Holds word operands

/-- The word that operands give, with the bits without meaning set. -/
def encode (diagram : Diagram) (operands : List Operand) : Word :=
  BitVec.ofNat 32 (Segment.compose (Segment.value operands) diagram.segments)

/-- Two words with the same bits in every segment are the same word. -/
theorem eq_of_read_eq (diagram : Diagram)
    (agree : ∀ segment ∈ diagram.segments, segment.read left = segment.read right) :
    left = right := by
  have composed := Segment.compose_congr agree
  rw [Segment.compose_read diagram.tile, Segment.compose_read diagram.tile] at composed
  exact BitVec.eq_of_toNat_eq (by simpa using composed)

/-- The written word has in every segment what the operands put there. -/
theorem read_encode (diagram : Diagram)
    (architectural : ∀ operand ∈ operands, operand.registerNumber < 32) :
    ∀ segment ∈ diagram.segments,
      segment.read (diagram.encode operands) = segment.value operands := by
  have fits : ∀ segment ∈ diagram.segments, segment.value operands < 2 ^ segment.width :=
    fun segment _ => segment.value_lt architectural
  have bounded := Segment.compose_lt diagram.tile fits
  apply Segment.read_eq_of_compose diagram.tile fits
  rw [encode, BitVec.toNat_ofNat, Nat.pow_zero, Nat.div_one]
  exact Nat.mod_eq_of_lt (by omega)

/-- The written word is described by its operands. -/
theorem describes_encode (diagram : Diagram)
    (architectural : ∀ operand ∈ operands, operand.registerNumber < 32) :
    diagram.Describes (diagram.encode operands) operands :=
  fun segment member => segment.holds_of_read_eq (diagram.read_encode architectural segment member)

/-- A word that is described by operands has the constant bits of the diagram. -/
theorem Describes.matches (described : diagram.Describes word operands) :
    diagram.Matches word :=
  fun segment member => segment.agrees_of_holds (described segment member)

/-- Inverting a bit without meaning leaves all other segments alone. -/
theorem read_flip {index : Nat} (meaningless : .ignored index ∈ diagram.segments)
    {segment : Segment} (member : segment ∈ diagram.segments)
    (other : segment ≠ .ignored index) :
    segment.read (word.flip index) = segment.read word := by
  apply Word.field_flip_of_outside
  have apart := Segment.eq_or_apart diagram.tile meaningless member
  simp only [other.symm, false_or, Segment.low, Segment.width] at apart
  exact apart.imp_left Nat.lt_of_succ_le

/-- Inverting a bit without meaning keeps the description of a word. -/
theorem Describes.flip {index : Nat} (described : diagram.Describes word operands)
    (meaningless : .ignored index ∈ diagram.segments) :
    diagram.Describes (word.flip index) operands := by
  intro segment member
  by_cases same : segment = .ignored index
  · subst same
    trivial
  · exact segment.holds_congr (read_flip meaningless member same) |>.mpr (described segment member)

/-- When `index` is the only bit without meaning, two words that the same operands describe
are the same, or differ in that bit and in no other. -/
theorem eq_or_eq_flip {index : Nat} (leftDescribed : diagram.Describes left operands)
    (rightDescribed : diagram.Describes right operands)
    (only : ∀ other, .ignored other ∈ diagram.segments → other = index) :
    left = right ∨ .ignored index ∈ diagram.segments ∧ right = left.flip index := by
  have agree : ∀ segment ∈ diagram.segments,
      segment ≠ .ignored index → segment.read left = segment.read right := by
    intro segment member other
    apply segment.read_eq_of_holds (leftDescribed segment member) (rightDescribed segment member)
    rintro low rfl
    exact other (congrArg Segment.ignored (only low member))
  by_cases meaningless : .ignored index ∈ diagram.segments
  · have inWord : index < 32 := (Segment.end_le diagram.tile).2 _ meaningless
    by_cases sameBit : Word.field left index 1 = Word.field right index 1
    · refine .inl (diagram.eq_of_read_eq fun segment member => ?_)
      by_cases same : segment = .ignored index
      · rw [same]
        exact sameBit
      · exact agree segment member same
    · refine .inr ⟨meaningless, diagram.eq_of_read_eq fun segment member => ?_⟩
      by_cases same : segment = .ignored index
      · -- Two bits that differ are each other's inverse.
        have leftBit := Word.field_lt left index 1
        have rightBit := Word.field_lt right index 1
        subst same
        show Word.field right index 1 = Word.field (left.flip index) index 1
        rw [Word.field_flip_self inWord]
        omega
      · rw [read_flip meaningless member same, agree segment member same]
  · exact .inl (diagram.eq_of_read_eq fun segment member =>
      agree segment member fun same => meaningless (same ▸ member))

end Diagram

end RiscvFacts
