import RiscvFacts.Proofs.Instr.Decode

/-!
# Decoding never breaks down

A decoder puts an instruction together in steps that have conditions of their own:
opcodes, their classifications and operands are named by their index in a list, and
a register is defined before any other operand. Here decoding is spelled out in
such steps, each of which breaks down where its condition does not hold. No word
makes any of them break down, and what the steps yield is what decoding yields
(`Stepwise.decodeWord_eq`). Of the errors of decoding only two are left
(`decodeWord_never_breaks_down`).
-/

namespace RiscvFacts

/-- How a step of decoding breaks down when its condition does not hold. -/
inductive Breakdown where
  | belowZero
  | noEntry (index : Nat)
  | misuse (error : Misuse)
  deriving DecidableEq

namespace Stepwise

/-- The entry of a list at an index, which has to be within the list. -/
def entry {α : Type} (list : List α) (index : Nat) : Except Breakdown α :=
  match list[index]? with
  | some value => .ok value
  | none => .error (.noEntry index)

/-- One less than a number, which has to be positive. -/
def before : Nat → Except Breakdown Nat
  | 0 => .error .belowZero
  | number + 1 => .ok number

/-- The classification of an opcode, which stands at its position in the table. -/
def info (opcode : Opcode) : Except Breakdown OpcodeInfo :=
  entry (Opcode.all.map Opcode.info) opcode.index

/-- An instruction that defines its first operand and reads the others, operand by operand. -/
def defining (opcode : Opcode) (defined : Register) (sources : List Operand) :
    Except Breakdown Instr :=
  match (Instr.start opcode).define defined with
  | .ok draft => .ok (sources.foldl Instr.push draft)
  | .error error => .error (.misuse error)

/-- An instruction that reads all of its operands, operand by operand. -/
def reading (opcode : Opcode) (operands : List Operand) : Instr :=
  operands.foldl Instr.push (.start opcode)

section Draft

variable (word : Word)

/-- The operand that an immediate of a word becomes. -/
def immediate (value : Int) : Operand := .immediate (Int64.ofInt value)

/-- The base address of an access. -/
def base : Operand := .register (.x (Word.rs1 word))

/-- An upper immediate. -/
def upper (opcode : Opcode) : Except Breakdown Instr :=
  defining opcode (.x (Word.rd word)) [immediate (Word.uField word)]

/-- Arithmetic with an immediate. -/
def arithmetic (opcode : Opcode) : Except Breakdown Instr :=
  defining opcode (.x (Word.rd word))
    [.register (.x (Word.rs1 word)), immediate (Word.arithmeticImm opcode word)]

/-- A sign injection. -/
def signInject (opcode : Opcode) : Except Breakdown Instr :=
  defining opcode (.f (Word.rd word))
    [.register (.f (Word.rs1 word)), .register (.f (Word.rs2 word))]

/-- A scalar access in a direction, whose value is a register of the group. It records an access
of the opcode's width. -/
def scalar (direction : Direction) (value : Nat → Register) (opcode : Opcode) :
    Except Breakdown Instr := do
  let width := (← info opcode).scalarWidth?.getD 0
  match direction with
  | .load =>
      let draft ← defining opcode (value (Word.rd word))
        [base word, immediate (Word.iImm word)]
      return draft.attach (.load width)
  | .store =>
      let draft := reading opcode
        [.register (value (Word.rs2 word)), base word, immediate (Word.sImm word)]
      return draft.attach (.store width)

/-- The vector accesses with an addressing in a direction, narrowest elements first. -/
def vectorTable (direction : Direction) (addressing : VectorAddressing) : List Opcode :=
  ElementWidth.all.map fun width => .vector direction addressing width

/-- The index of the element width that `funct3` selects. -/
def elementIndex? : Option Nat :=
  match Word.funct3 word with
  | 0 => some 0
  | 5 => some 1
  | 6 => some 2
  | 7 => some 3
  | _ => none

/-- The addressing that `mop` selects, if no variant of the unit-stride form is selected. -/
def addressing? : Option VectorAddressing :=
  match Word.mop word with
  | 0 => if Word.rs2 word = 0 then some .unitStride else none
  | 1 => some .unordered
  | 2 => some .strided
  | 3 => some .ordered
  | _ => none

/-- The operands of a vector access after its data. -/
def vectorSources : VectorAddressing → List Operand
  | .unitStride => [base word]
  | .strided => [base word, .register (.x (Word.rs2 word))]
  | .unordered | .ordered => [base word, .register (.v (Word.rs2 word))]

/-- A vector access in a direction, if the word is one. -/
def vector (direction : Direction) : Except Breakdown (Option Instr) :=
  match elementIndex? word with
  | none => .ok none
  | some index =>
      if Word.nf word ≠ 0 ∨ Word.mew word ≠ 0 then .ok none
      else match addressing? word with
        | none => .ok none
        | some addressing => do
            let opcode ← entry (vectorTable direction addressing) index
            let data := Register.v (Word.rd word)
            match direction with
            | .load => return some (← defining opcode data (vectorSources word addressing))
            | .store =>
                return some (reading opcode (.register data :: vectorSources word addressing))

/-- A floating-point access in a direction, or else a vector access. -/
def floatOrVector (direction : Direction) (table : List Opcode) :
    Except Breakdown (Option Instr) :=
  if 1 ≤ Word.funct3 word ∧ Word.funct3 word ≤ 4 then do
    let opcode ← entry table (← before (Word.funct3 word))
    return some (← scalar word direction .f opcode)
  else vector word direction

/-- The instruction that a word spells, before the check. -/
def draft? (xlen : Xlen) : Except Breakdown (Option Instr) :=
  match Word.major word with
  | 0x03 => (Word.loadOpcode? word).mapM (scalar word .load .x)
  | 0x07 => floatOrVector word .load [.flh, .flw, .fld, .flq]
  | 0x13 => (Word.immediateOpcode? xlen word).mapM (arithmetic word)
  | 0x17 => some <$> upper word .auipc
  | 0x1B => (Word.narrowOpcode? word).mapM (arithmetic word)
  | 0x23 => (Word.storeOpcode? word).mapM (scalar word .store .x)
  | 0x27 => floatOrVector word .store [.fsh, .fsw, .fsd, .fsq]
  | 0x37 => some <$> upper word .lui
  | 0x53 => (Word.floatOpcode? word).mapM (signInject word)
  | _ => .ok none

end Draft

/-- The first fault of the operands from an index on. Each operand is read by its index, and the
operands after the first fault are not looked at. -/
def faultFrom? (instr : Instr) (index : Nat) : List Slot → Except Breakdown (Option Fault)
  | [] => .ok none
  | slot :: slots => do
      let operand ← entry instr.operands index
      match slot.fault? instr.opcode index operand with
      | some fault => return some fault
      | none => faultFrom? instr (index + 1) slots

/-- The first fault of an instruction. -/
def fault? (xlen : Xlen) (instr : Instr) : Except Breakdown (Option Fault) := do
  let arity := (← info instr.opcode).layout.arity
  if instr.operands.length ≠ arity then
    return some (.operandCount instr.opcode arity instr.operands.length)
  else faultFrom? instr 0 (instr.opcode.slots xlen)

/-- The instruction that a word spells on a target, step by step. -/
def decodeWord (xlen : Xlen) (word : Word) : Except Breakdown (Except DecodeError Instr) := do
  match ← draft? word xlen with
  | none => return .error (.unrecognized word)
  | some draft =>
      match ← fault? xlen draft with
      | some fault => return .error (.malformed fault)
      | none =>
          return if (← info draft.opcode).isAvailable xlen then .ok draft
            else .error (.notAvailable draft.opcode xlen)

section Steps

variable {opcode : Opcode} {instr : Instr}

/-- An entry whose index is within the list is found. -/
theorem entry_eq {α : Type} {list : List α} {index : Nat} {value : α}
    (there : list[index]? = some value) : entry list index = .ok value := by
  simp only [entry, there]

/-- Every opcode has its classification at its position in the table. -/
theorem info_eq (opcode : Opcode) : info opcode = .ok opcode.info := by
  apply entry_eq
  rw [List.getElem?_map, Opcode.index, List.getElem?_idxOf (Opcode.mem_all opcode), Option.map_some]

/-- Operands that are pushed one by one come after those that are there. -/
theorem foldl_push (operands : List Operand) (instr : Instr) :
    operands.foldl Instr.push instr =
      { instr with operands := instr.operands ++ operands } := by
  induction operands generalizing instr with
  | nil => simp
  | cons operand operands inductionHypothesis =>
      rw [List.foldl_cons, inductionHypothesis]
      simp [Instr.push]

/-- A register that is defined before anything else is not defined too late. -/
theorem defining_eq (opcode : Opcode) (defined : Register) (sources : List Operand) :
    defining opcode defined sources = .ok ⟨opcode, .register defined :: sources, []⟩ := by
  simp [defining, Instr.start, Instr.define, Instr.push, foldl_push]

/-- An instruction that only reads has the operands that it was given. -/
theorem reading_eq (opcode : Opcode) (operands : List Operand) :
    reading opcode operands = ⟨opcode, operands, []⟩ := by
  simp [reading, Instr.start, foldl_push]

/-- Operands that are read by their index have the fault that a walk along them finds, as long as
the slots do not go beyond the operands. -/
theorem faultFrom?_eq {slots : List Slot} {index : Nat}
    (inBounds : index + slots.length ≤ instr.operands.length) :
    faultFrom? instr index slots =
      .ok (Slot.firstFault? instr.opcode index slots (instr.operands.drop index)) := by
  -- The index moves on as the walk drops operands, so the bound holds again for the rest.
  induction slots generalizing index with
  | nil => simp [faultFrom?, Slot.firstFault?]
  | cons slot slots inductionHypothesis =>
      have within : index < instr.operands.length := by
        rw [List.length_cons] at inBounds
        omega
      have rest := @inductionHypothesis (index + 1) (by rw [List.length_cons] at inBounds; omega)
      rw [List.drop_eq_getElem_cons within, Slot.firstFault?, faultFrom?,
        entry_eq (List.getElem?_eq_getElem within)]
      cases atIndex : slot.fault? instr.opcode index instr.operands[index] with
      | none =>
          simp only [bind, Except.bind, atIndex, Option.none_or]
          exact rest
      | some fault =>
          simp only [bind, Except.bind, atIndex, Option.some_or]
          rfl

/-- The check of an instruction, whether it is well formed or not, names no operand that is not
there, since it compares the number of operands first. -/
theorem fault?_eq (xlen : Xlen) (instr : Instr) :
    fault? xlen instr = .ok (instr.fault? xlen) := by
  unfold fault? Instr.fault?
  rw [info_eq]
  simp only [bind, Except.bind]
  by_cases count : instr.operands.length = instr.opcode.info.layout.arity
  · have inBounds : 0 + (instr.opcode.slots xlen).length ≤ instr.operands.length :=
      Nat.le_of_eq (by rw [Opcode.length_slots, count, Nat.zero_add])
    simp only [ne_eq, count, not_true_eq_false, if_false]
    exact faultFrom?_eq inBounds
  · simp only [ne_eq, count, not_false_eq_true, if_true]
    rfl

end Steps

section Draft

variable {xlen : Xlen} {word : Word} {opcode : Opcode}

/-- A group whose opcodes all give the right instruction gives the right instruction. -/
theorem mapM_eq_map {opcode? : Option Opcode} {draft : Opcode → Except Breakdown Instr}
    (right : ∀ opcode, opcode? = some opcode → draft opcode = .ok (.ofWord opcode word)) :
    opcode?.mapM draft = .ok (opcode?.map fun opcode => .ofWord opcode word) := by
  cases opcode? with
  | none => rfl
  | some opcode =>
      rw [Option.mapM_some, right opcode rfl]
      rfl

/-- A scalar load is put together as it is spelled. -/
theorem scalar_of_loadOpcode? (selected : Word.loadOpcode? word = some opcode) :
    scalar word .load .x opcode = .ok (.ofWord opcode word) := by
  unfold Word.loadOpcode? at selected
  split at selected <;> cases selected <;> simp only [scalar, info_eq, defining_eq] <;> rfl

/-- A scalar store is put together as it is spelled. -/
theorem scalar_of_storeOpcode? (selected : Word.storeOpcode? word = some opcode) :
    scalar word .store .x opcode = .ok (.ofWord opcode word) := by
  unfold Word.storeOpcode? at selected
  split at selected <;> cases selected <;> simp only [scalar, info_eq, reading_eq] <;> rfl

/-- Arithmetic with an immediate is put together as it is spelled. -/
theorem arithmetic_of_immediateOpcode?
    (selected : Word.immediateOpcode? xlen word = some opcode) :
    arithmetic word opcode = .ok (.ofWord opcode word) := by
  rw [arithmetic, defining_eq]
  unfold Word.immediateOpcode? at selected
  dsimp only at selected
  split at selected
  case h_2 =>
    obtain ⟨-, selected⟩ := Option.ite_none_right_eq_some.mp selected
    obtain ⟨-, selected⟩ := Option.ite_none_right_eq_some.mp selected
    cases selected
    rfl
  case h_6 =>
    obtain ⟨-, selected⟩ := Option.ite_none_right_eq_some.mp selected
    rcases Word.rightShift?_eq_some_iff.mp selected with ⟨-, rfl⟩ | ⟨-, -, rfl⟩ <;> rfl
  all_goals cases selected <;> rfl

/-- Narrow arithmetic with an immediate is put together as it is spelled. -/
theorem arithmetic_of_narrowOpcode? (selected : Word.narrowOpcode? word = some opcode) :
    arithmetic word opcode = .ok (.ofWord opcode word) := by
  rw [arithmetic, defining_eq]
  unfold Word.narrowOpcode? at selected
  split at selected
  case h_1 =>
    cases selected
    rfl
  case h_2 =>
    obtain ⟨-, selected⟩ := Option.ite_none_right_eq_some.mp selected
    cases selected
    rfl
  case h_3 =>
    rcases Word.rightShift?_eq_some_iff.mp selected with ⟨-, rfl⟩ | ⟨-, -, rfl⟩ <;> rfl
  case h_4 => cases selected

/-- A sign injection is put together as it is spelled. -/
theorem signInject_of_floatOpcode? (selected : Word.floatOpcode? word = some opcode) :
    signInject word opcode = .ok (.ofWord opcode word) := by
  rw [signInject, defining_eq]
  unfold Word.floatOpcode? at selected
  obtain ⟨-, selected⟩ := Option.ite_none_left_eq_some.mp selected
  split at selected <;> cases selected <;> rfl

/-- The table of the vector accesses has an entry for every element width. -/
theorem entry_vectorTable (direction : Direction) (addressing : VectorAddressing)
    (width : ElementWidth) :
    entry (vectorTable direction addressing) (ElementWidth.all.idxOf width) =
      .ok (.vector direction addressing width) := by
  cases width <;> rfl

/-- The index of an element width is its place among the widths. -/
theorem elementIndex?_eq {width : ElementWidth}
    (ofWidth : Word.funct3 word = width.funct3.toNat) :
    elementIndex? word = some (ElementWidth.all.idxOf width) := by
  rw [elementIndex?, ofWidth]
  cases width <;> rfl

/-- The opcode of a vector access is known from its addressing and its element width. -/
theorem vectorOpcode?_eq (direction : Direction) (width : ElementWidth) (word : Word) :
    Word.vectorOpcode? direction width word =
      if Word.nf word ≠ 0 ∨ Word.mew word ≠ 0 then none
      else (addressing? word).map fun addressing => .vector direction addressing width := by
  unfold Word.vectorOpcode? addressing?
  generalize Word.mop word = mop
  split
  · rfl
  · split
    case h_1 => split <;> rfl
    case h_5 => simp_all
    all_goals rfl

/-- A vector access is put together as it is spelled. -/
theorem vector_eq {direction : Direction} {width : ElementWidth}
    (ofWidth : Word.funct3 word = width.funct3.toNat) :
    vector word direction =
      .ok ((Word.vectorOpcode? direction width word).map fun opcode => .ofWord opcode word) := by
  rw [vectorOpcode?_eq, vector, elementIndex?_eq ofWidth]
  dsimp only
  split
  · rfl
  · cases addressing? word with
    | none => rfl
    | some addressing =>
        simp only [entry_vectorTable, defining_eq, reading_eq]
        cases direction <;> cases addressing <;> rfl

/-- The widths of vector elements are the values of `funct3` that select no floating-point
access. -/
theorem floatOrVector_of_vector {direction : Direction} {width : ElementWidth}
    (table : List Opcode) (ofWidth : Word.funct3 word = width.funct3.toNat) :
    floatOrVector word direction table =
      .ok ((Word.vectorOpcode? direction width word).map fun opcode => .ofWord opcode word) := by
  have outside : ¬ (1 ≤ Word.funct3 word ∧ Word.funct3 word ≤ 4) := by
    rw [ofWidth]
    cases width <;> decide
  rw [floatOrVector, if_neg outside, vector_eq ofWidth]

/-- The values from one to four select the entries of a table of four. -/
theorem floatOrVector_of_scalar {direction : Direction} {table : List Opcode} {index : Nat}
    (selects : Word.funct3 word = index + 1) (isFloat : index < 4)
    (there : table[index]? = some opcode)
    (spelled : scalar word direction .f opcode = .ok (.ofWord opcode word)) :
    floatOrVector word direction table = .ok (some (.ofWord opcode word)) := by
  have inside : 1 ≤ Word.funct3 word ∧ Word.funct3 word ≤ 4 := by omega
  rw [floatOrVector, if_pos inside, selects]
  simp only [before, bind, Except.bind, entry_eq there, spelled]
  rfl

/-- Every value of `funct3` selects an element width or one of four floating-point accesses. -/
theorem funct3_cases (word : Word) :
    (∃ width : ElementWidth, Word.funct3 word = width.funct3.toNat) ∨
      ∃ index, index < 4 ∧ Word.funct3 word = index + 1 := by
  have bound : Word.funct3 word < 8 := Word.field_lt word 12 3
  by_cases isFloat : 1 ≤ Word.funct3 word ∧ Word.funct3 word ≤ 4
  · exact .inr ⟨Word.funct3 word - 1, by omega, by omega⟩
  · have isWidth : Word.funct3 word = 0 ∨ Word.funct3 word = 5 ∨ Word.funct3 word = 6 ∨
        Word.funct3 word = 7 := by omega
    rcases isWidth with ofWidth | ofWidth | ofWidth | ofWidth
    · exact .inl ⟨.e8, ofWidth⟩
    · exact .inl ⟨.e16, ofWidth⟩
    · exact .inl ⟨.e32, ofWidth⟩
    · exact .inl ⟨.e64, ofWidth⟩

/-- A floating-point or vector access is put together as it is spelled, if its opcode is selected
from the vector accesses and from a table of four floating-point accesses. -/
theorem floatOrVector_eq {direction : Direction} {table : List Opcode} {opcode? : Option Opcode}
    (ofWidth : ∀ width : ElementWidth, Word.funct3 word = width.funct3.toNat →
      opcode? = Word.vectorOpcode? direction width word)
    (ofIndex : ∀ index, index < 4 → Word.funct3 word = index + 1 → ∃ opcode,
      opcode? = some opcode ∧ table[index]? = some opcode ∧
        scalar word direction .f opcode = .ok (.ofWord opcode word)) :
    floatOrVector word direction table =
      .ok (opcode?.map fun opcode => .ofWord opcode word) := by
  rcases funct3_cases word with ⟨width, selects⟩ | ⟨index, isFloat, selects⟩
  · rw [ofWidth width selects]
    exact floatOrVector_of_vector table selects
  · obtain ⟨opcode, selected, there, spelled⟩ := ofIndex index isFloat selects
    rw [selected]
    exact floatOrVector_of_scalar selects isFloat there spelled

/-- A floating-point or vector load is put together as it is spelled. -/
theorem floatOrVector_load :
    floatOrVector word .load [.flh, .flw, .fld, .flq] =
      .ok ((Word.floatLoadOpcode? word).map fun opcode => .ofWord opcode word) := by
  apply floatOrVector_eq
  · intro width selects
    rw [Word.floatLoadOpcode?, selects]
    cases width <;> rfl
  · intro index isFloat selects
    rw [Word.floatLoadOpcode?, selects]
    obtain rfl | rfl | rfl | rfl : index = 0 ∨ index = 1 ∨ index = 2 ∨ index = 3 := by omega
    all_goals exact ⟨_, rfl, rfl, rfl⟩

/-- A floating-point or vector store is put together as it is spelled. -/
theorem floatOrVector_store :
    floatOrVector word .store [.fsh, .fsw, .fsd, .fsq] =
      .ok ((Word.floatStoreOpcode? word).map fun opcode => .ofWord opcode word) := by
  apply floatOrVector_eq
  · intro width selects
    rw [Word.floatStoreOpcode?, selects]
    cases width <;> rfl
  · intro index isFloat selects
    rw [Word.floatStoreOpcode?, selects]
    obtain rfl | rfl | rfl | rfl : index = 0 ∨ index = 1 ∨ index = 2 ∨ index = 3 := by omega
    all_goals exact ⟨_, rfl, rfl, rfl⟩

/-- Every instruction is put together as its word spells it. -/
theorem draft?_eq (xlen : Xlen) (word : Word) :
    draft? word xlen = .ok ((word.opcode? xlen).map fun opcode => .ofWord opcode word) := by
  unfold draft? Word.opcode?
  generalize Word.major word = major
  split
  case h_1 => exact mapM_eq_map fun _ => scalar_of_loadOpcode?
  case h_2 => exact floatOrVector_load
  case h_3 => exact mapM_eq_map fun _ => arithmetic_of_immediateOpcode?
  case h_4 =>
    rw [upper, defining_eq]
    rfl
  case h_5 => exact mapM_eq_map fun _ => arithmetic_of_narrowOpcode?
  case h_6 => exact mapM_eq_map fun _ => scalar_of_storeOpcode?
  case h_7 => exact floatOrVector_store
  case h_8 =>
    rw [upper, defining_eq]
    rfl
  case h_9 => exact mapM_eq_map fun _ => signInject_of_floatOpcode?
  case h_10 => simp_all

end Draft

/-- Step by step, decoding yields what it yields at once. -/
theorem decodeWord_eq (xlen : Xlen) (word : Word) :
    decodeWord xlen word = .ok (Instr.decodeWord xlen word) := by
  unfold decodeWord Instr.decodeWord
  rw [draft?_eq]
  cases word.opcode? xlen with
  | none => rfl
  | some opcode =>
      simp only [Option.map_some, bind, Except.bind, fault?_eq, info_eq, Instr.build]
      cases (Instr.ofWord opcode word).fault? xlen <;> rfl

end Stepwise

/-- Decoding never breaks down. On every word its steps yield what decoding yields at once: an
instruction, or that the word is unrecognised, or that a target with 32-bit registers lacks an
opcode that the table marks. The check of any instruction reads only operands that are there. -/
theorem decodeWord_never_breaks_down (xlen : Xlen) (word : Word) :
    Stepwise.decodeWord xlen word = .ok (Instr.decodeWord xlen word) ∧
      ((∃ instr, Instr.decodeWord xlen word = .ok instr) ∨
        Instr.decodeWord xlen word = .error (.unrecognized word) ∨
        xlen = .rv32 ∧ ∃ opcode, opcode.info.rv64Only = true ∧
          Instr.decodeWord xlen word = .error (.notAvailable opcode .rv32)) ∧
      ∀ instr, Stepwise.fault? xlen instr = .ok (instr.fault? xlen) :=
  ⟨Stepwise.decodeWord_eq xlen word, Instr.decodeWord_cases xlen word, Stepwise.fault?_eq xlen⟩

end RiscvFacts
