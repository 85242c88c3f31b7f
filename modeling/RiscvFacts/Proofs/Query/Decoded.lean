import RiscvFacts.Proofs.Encoding.Encodable
import RiscvFacts.Proofs.Query.Shape
import RiscvFacts.Proofs.Query.StackSlot

/-!
# What the queries know about decoded instructions

Decoding and the queries share the opcode table, but the queries rest on operands
and recorded accesses, which decoding has to form so that none of them declines.
They lose nothing: what they answer about a decoded instruction is said here in
terms of the bits of its word (`answersFromBits_of_decodeWord`).
-/

namespace RiscvFacts

namespace Opcode

variable {opcode : Opcode}

/-- A scalar load or store records one access, of the opcode's width. -/
theorem accesses_of_scalar {width : UInt64} (scalar : opcode.info.memory = .scalar width) :
    ∃ descriptor, opcode.accesses = [descriptor] ∧ descriptor.size = width := by
  rcases exists_scalar_iff.mp ⟨width, scalar⟩ with kind | kind
  · exact ⟨.load width, by simp only [accesses, kind, scalar], rfl⟩
  · exact ⟨.store width, by simp only [accesses, kind, scalar], rfl⟩

end Opcode

namespace Instr

variable {instr : Instr}

/-- The accesses that belong to an opcode do not make it load what it does not load itself. -/
theorem mayLoad_iff (recorded : instr.descriptors = instr.opcode.accesses) :
    instr.mayLoad = true ↔
      instr.opcode.info.kind = .load ∨ instr.opcode.info.kind = .vectorLoad := by
  rw [mayLoad, recorded, Opcode.accesses]
  split <;> simp_all [OpcodeInfo.mayLoad, Descriptor.load, Descriptor.store, AccessEffect.isLoad]

/-- The accesses that belong to an opcode do not make it store what it does not store itself. -/
theorem mayStore_iff (recorded : instr.descriptors = instr.opcode.accesses) :
    instr.mayStore = true ↔
      instr.opcode.info.kind = .store ∨ instr.opcode.info.kind = .vectorStore := by
  rw [mayStore, recorded, Opcode.accesses]
  split <;>
    simp_all [OpcodeInfo.mayStore, Descriptor.load, Descriptor.store, AccessEffect.isStore]

end Instr

namespace Word

variable {word : Word} {opcode : Opcode} {value : Int64}

/-- The signed offset in the word of a scalar load or store. -/
def accessOffset (opcode : Opcode) (word : Word) : Int :=
  if opcode.info.kind = .store then splitImmediate word else topImmediate word

/-- The signed offset of a scalar access lies between -2048 and 2047. -/
theorem accessOffset_bounds (opcode : Opcode) (word : Word) :
    -2048 ≤ accessOffset opcode word ∧ accessOffset opcode word < 2048 := by
  unfold accessOffset
  split
  · rw [splitImmediate_eq_sImm]
    exact sImm_bounds word
  · rw [topImmediate_eq_iImm]
    exact iImm_bounds word

/-- An operand is the immediate in the top twelve bits when it has their value. -/
theorem eq_topImmediate_iff :
    value = Int64.ofInt (topImmediate word) ↔ value.toInt = topImmediate word := by
  have bounds := iImm_bounds word
  rw [topImmediate_eq_iImm]
  exact eq_ofInt_iff (by omega)

/-- An operand is the offset of a scalar access when it has its value. -/
theorem eq_accessOffset_iff :
    value = Int64.ofInt (accessOffset opcode word) ↔ value.toInt = accessOffset opcode word := by
  have bounds := accessOffset_bounds opcode word
  exact eq_ofInt_iff (by omega)

/-- Registers of one file stand in two places when the places hold one number. -/
theorem registerAt_sources_eq_iff {file : RegisterFile} :
    registerAt word file 19 15 = registerAt word file 24 20 ↔
      bits word 19 15 = bits word 24 20 := by
  have bound := field_lt word 15 5
  simp only [registerAt, Operand.register.injEq, Register.physical.injEq, true_and, bits_eq_field,
    Nat.reduceSub, Nat.reduceAdd]
  rw [eq_ofNat_field_iff, UInt8.toNat_ofNat', Nat.mod_eq_of_lt (by omega), eq_comm]

/-- The sources of a scalar access are an integer register and the offset. -/
theorem sources_of_access (accesses : opcode.info.kind = .load ∨ opcode.info.kind = .store) :
    sourceOperand? opcode word = some (.register (.x (bits word 19 15))) ∧
      lastOperand? opcode word = some (.immediate (Int64.ofInt (accessOffset opcode word))) := by
  cases opcode with
  | vector direction addressing width =>
      cases direction <;> simp [Opcode.info, OpcodeInfo.vector] at accesses
  | _ =>
      simp_all [Opcode.info, OpcodeInfo.upper, OpcodeInfo.arithmetic, OpcodeInfo.load,
        OpcodeInfo.store, OpcodeInfo.signInject, OpcodeInfo.wide, sourceOperand?, lastOperand?,
        accessOffset, registerAt, Register.x]

end Word

namespace Spells

variable {xlen : Xlen} {word : Word} {instr : Instr}

/-- The word of a scalar load or store holds the base and the offset of the access. -/
theorem isScalarAccess_iff (spells : Spells xlen word instr) {base : Register} {offset : Int64}
    {width : UInt64} :
    instr.IsScalarAccess base offset width ↔
      instr.opcode.info.memory = .scalar width ∧ base = .x (Word.bits word 19 15) ∧
        offset.toInt = Word.accessOffset instr.opcode word := by
  -- Both directions need the operands, and only the scalar opcodes have them in this form.
  have ofWord (scalar : instr.opcode.info.memory = .scalar width) :
      instr.operands = [Word.valueOperand instr.opcode word,
        .register (.x (Word.bits word 19 15)),
        .immediate (Int64.ofInt (Word.accessOffset instr.opcode word))] := by
    obtain ⟨source, last⟩ := @Word.sources_of_access word instr.opcode
      (Opcode.exists_scalar_iff.mp ⟨width, scalar⟩)
    rw [spells.operands, source, last]
    rfl
  rw [← Word.eq_accessOffset_iff]
  constructor
  · rintro ⟨scalar, ⟨value, operands⟩, -⟩
    rw [ofWord scalar] at operands
    cases operands
    exact ⟨scalar, rfl, rfl⟩
  · rintro ⟨scalar, rfl, rfl⟩
    exact ⟨scalar, ⟨_, ofWord scalar⟩, rfl⟩

/-- The operands of `addi` are the destination, the source and the signed immediate. -/
theorem operands_of_addi (spells : Spells xlen word instr) (isAddi : instr.opcode = .addi) :
    instr.operands = [.register (.x (Word.bits word 11 7)),
      .register (.x (Word.bits word 19 15)),
      .immediate (Int64.ofInt (Word.topImmediate word))] := by
  rw [spells.operands, isAddi]
  rfl

/-- The operands of a sign injection are its destination and its two sources. -/
theorem operands_of_isSignInjection (spells : Spells xlen word instr)
    (injects : instr.opcode.IsSignInjection) :
    instr.operands = [.register (.f (Word.bits word 11 7)), Word.registerAt word .fpr 19 15,
      Word.registerAt word .fpr 24 20] := by
  rw [spells.operands]
  rcases injects with injects | injects | injects <;> rw [injects] <;> rfl

/-- No word spells a stack slot. -/
theorem stackSlot_notMem (spells : Spells xlen word instr) (slot : Int32) :
    .stackSlot slot ∉ instr.operands := by
  have decoded := Instr.decodeWord_eq_ok_iff_spells.mpr spells
  exact (Instr.encodable_of_decodeWord decoded).1.machine (.stackSlot slot)

end Spells

/-- Whether an access is the one that the word of a scalar load or store spells: its base is the
first source, its offset is the signed immediate of twelve bits, which is also the last operand,
and its width is the size of the one recorded access. -/
structure MemoryAccess.IsSpelled (access : MemoryAccess) (word : Word) (instr : Instr) : Prop where
  bases : access.bases = [.register (.x (Word.bits word 19 15))]
  fixed : access.scalable = false
  offset : access.offset.toInt = Word.accessOffset instr.opcode word
  bounds : -2048 ≤ access.offset.toInt ∧ access.offset.toInt ≤ 2047
  operand : instr.operands[2]? = some (.immediate access.offset)
  width : ∃ descriptor, instr.descriptors = [descriptor] ∧ descriptor.size = access.width

namespace Riscv

/-- What the queries of a target answer about an instruction, in terms of the bits of the word
that it was decoded from. The memory query knows the accesses of the scalar loads and stores, the
add-immediate query the sums of `addi`, and the copy query the additions of zero and the sign
injections from one source. No stack slot is accessed. Loads read memory, stores write it, and
nothing does both. -/
structure AnswersFromBits (xlen : Xlen) (word : Word) (instr : Instr) : Prop where
  memoryAccess_known : (∃ access, memoryAccess xlen instr = .known access) ↔
    instr.opcode.info.kind = .load ∨ instr.opcode.info.kind = .store
  memoryAccess_spelled : ∀ access, memoryAccess xlen instr = .known access →
    access.IsSpelled word instr
  addImmediate : ∀ register sum, addImmediate xlen instr register = .known sum ↔
    instr.opcode = .addi ∧ register = .x (Word.bits word 11 7) ∧
      sum.source = .x (Word.bits word 19 15) ∧ sum.addend.toInt = Word.topImmediate word
  copy : ∀ result, copy xlen instr = .known result ↔
    instr.opcode = .addi ∧ Word.topImmediate word = 0 ∧
        result = ⟨.x (Word.bits word 11 7), .x (Word.bits word 19 15)⟩ ∨
      instr.opcode.IsSignInjection ∧ Word.bits word 19 15 = Word.bits word 24 20 ∧
        result = ⟨.f (Word.bits word 11 7), .f (Word.bits word 19 15)⟩
  loadSlot : loadSlot xlen instr = .silent
  storeSlot : storeSlot xlen instr = .silent
  mayLoad : instr.mayLoad = true ↔
    instr.opcode.info.kind = .load ∨ instr.opcode.info.kind = .vectorLoad
  mayStore : instr.mayStore = true ↔
    instr.opcode.info.kind = .store ∨ instr.opcode.info.kind = .vectorStore
  exclusive : ¬ (instr.mayLoad = true ∧ instr.mayStore = true)

section Spelled

variable {xlen : Xlen} {word : Word} {instr : Instr}

/-- The memory query knows the access of every scalar load or store that a word spells. -/
theorem exists_memoryAccess_iff (spells : Spells xlen word instr) :
    (∃ access, memoryAccess xlen instr = .known access) ↔
      instr.opcode.info.kind = .load ∨ instr.opcode.info.kind = .store := by
  rw [← Opcode.exists_scalar_iff]
  constructor
  · rintro ⟨access, known⟩
    obtain ⟨-, base, offset, width, shape, -⟩ := memoryAccess_eq_known_iff.mp known
    exact ⟨width, shape.scalar⟩
  · rintro ⟨width, scalar⟩
    have shape := spells.isScalarAccess_iff.mpr
      ⟨scalar, rfl, Word.eq_accessOffset_iff.mp rfl⟩
    exact ⟨_, memoryAccess_eq_known_iff.mpr ⟨spells.available, _, _, _, shape, rfl⟩⟩

/-- The access that the memory query knows is the one that the word spells. -/
theorem isSpelled_of_memoryAccess (spells : Spells xlen word instr) {access : MemoryAccess}
    (known : memoryAccess xlen instr = .known access) : access.IsSpelled word instr := by
  obtain ⟨-, base, offset, width, shape, rfl⟩ := memoryAccess_eq_known_iff.mp known
  obtain ⟨scalar, rfl, held⟩ := spells.isScalarAccess_iff.mp shape
  obtain ⟨value, operands⟩ := shape.operands
  have bounds := Word.accessOffset_bounds instr.opcode word
  refine ⟨rfl, rfl, held, ⟨?_, ?_⟩, ?_, ?_⟩
  · exact held ▸ bounds.1
  · exact Int.le_of_lt_add_one (held ▸ bounds.2)
  · rw [operands]
    rfl
  · rw [spells.descriptors]
    exact Opcode.accesses_of_scalar scalar

/-- The add-immediate query knows the sum that a word spells with `addi`. -/
theorem addImmediate_of_spells (spells : Spells xlen word instr) {register : Register}
    {sum : AddImmediate} :
    addImmediate xlen instr register = .known sum ↔
      instr.opcode = .addi ∧ register = .x (Word.bits word 11 7) ∧
        sum.source = .x (Word.bits word 19 15) ∧ sum.addend.toInt = Word.topImmediate word := by
  rw [addImmediate_eq_known_iff, Opcode.kind_eq_addImm_iff, ← Word.eq_topImmediate_iff]
  constructor
  · rintro ⟨-, isAddi, operands⟩
    rw [spells.operands_of_addi isAddi] at operands
    simp_all
  · rintro ⟨isAddi, rfl, source, addend⟩
    refine ⟨spells.available, isAddi, ?_⟩
    rw [spells.operands_of_addi isAddi, source, addend]

/-- The copy query knows the copies that a word spells by an addition of zero or by a sign
injection from one source. -/
theorem copy_of_spells (spells : Spells xlen word instr) {result : RegisterCopy} :
    copy xlen instr = .known result ↔
      instr.opcode = .addi ∧ Word.topImmediate word = 0 ∧
          result = ⟨.x (Word.bits word 11 7), .x (Word.bits word 19 15)⟩ ∨
        instr.opcode.IsSignInjection ∧ Word.bits word 19 15 = Word.bits word 24 20 ∧
          result = ⟨.f (Word.bits word 11 7), .f (Word.bits word 19 15)⟩ := by
  obtain ⟨destination, source⟩ := result
  have zero : (0 : Int64) = Int64.ofInt (Word.topImmediate word) ↔ Word.topImmediate word = 0 :=
    Word.eq_topImmediate_iff.trans eq_comm
  rw [copy_eq_known_iff, Opcode.kind_eq_addImm_iff, Opcode.kind_eq_fpSignInject_iff, ← zero,
    ← @Word.registerAt_sources_eq_iff word .fpr]
  constructor
  · rintro ⟨-, ⟨isAddi, operands⟩ | ⟨injects, operands⟩⟩
    -- The shape that the query knows and the operands that the word spells are the same list.
    · rw [spells.operands_of_addi isAddi] at operands
      simp_all
    · rw [spells.operands_of_isSignInjection injects] at operands
      simp_all [Word.registerAt, Register.f]
  · rintro (⟨isAddi, addend, same⟩ | ⟨injects, sources, same⟩)
    · cases same
      refine ⟨spells.available, .inl ⟨isAddi, ?_⟩⟩
      rw [spells.operands_of_addi isAddi, addend]
    · cases same
      refine ⟨spells.available, .inr ⟨injects, ?_⟩⟩
      rw [spells.operands_of_isSignInjection injects, ← sources]
      rfl

/-- Everything that the queries answer about a decoded instruction follows from the bits of its
word. -/
theorem answersFromBits_of_decodeWord (decoded : Instr.decodeWord xlen word = .ok instr) :
    AnswersFromBits xlen word instr := by
  have spells := Instr.decodeWord_eq_ok_iff_spells.mp decoded
  have mayLoad := Instr.mayLoad_iff spells.descriptors
  have mayStore := Instr.mayStore_iff spells.descriptors
  constructor
  case memoryAccess_known => exact exists_memoryAccess_iff spells
  case memoryAccess_spelled => exact fun access => isSpelled_of_memoryAccess spells
  case addImmediate => exact fun register sum => addImmediate_of_spells spells
  case copy => exact fun result => copy_of_spells spells
  case loadSlot => exact loadSlot_eq_silent spells.available spells.stackSlot_notMem
  case storeSlot => exact storeSlot_eq_silent spells.available spells.stackSlot_notMem
  case mayLoad => exact mayLoad
  case mayStore => exact mayStore
  case exclusive =>
    rintro ⟨loads, stores⟩
    have writes := mayStore.mp stores
    rcases mayLoad.mp loads with kind | kind <;> simp [kind] at writes

/-- Below the base of a stack frame, `lb ra, -128(sp)` reads one byte at a negative offset. -/
theorem answersFromBits_of_negative_offset :
    Instr.decodeWord .rv32 0xF8010083#32 =
        .ok ⟨.lb, [.register (.x 1), .register (.x 2), .immediate (-128)], [.load 1]⟩ ∧
      AnswersFromBits .rv32 0xF8010083#32
        ⟨.lb, [.register (.x 1), .register (.x 2), .immediate (-128)], [.load 1]⟩ :=
  ⟨rfl, answersFromBits_of_decodeWord rfl⟩

end Spelled

end Riscv

end RiscvFacts
