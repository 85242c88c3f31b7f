import RiscvFacts.Operand
import RiscvFacts.Opcode.Info

/-!
# Answers

A query either knows its answer or does not. Not knowing is never an error: the
asker has to assume the worst. A query that does not know an answer may explain
why it declined, and then the explanation is logged.

A query is a sequence of questions and conditions. Its answer is known exactly
when all of the questions have a known answer and all of the conditions hold.
-/

namespace RiscvFacts

/-- Why a query declined an instruction that it might have been expected to answer. -/
inductive Decline where
  | notAvailable (opcode : Opcode) (xlen : Xlen)
  | addImmediateShape (opcode : Opcode)
  | vectorAccess (opcode : Opcode)
  | operandCount (opcode : Opcode) (expected actual : Nat)
  | baseNotInteger (opcode : Opcode) (base : Operand)
  | offsetNotImmediate (opcode : Opcode)
  deriving DecidableEq

/-- What a query knows about an instruction. -/
inductive Answer (α : Type) where
  | known (value : α)
  | unknown (reason? : Option Decline)
  deriving DecidableEq

namespace Answer

variable {α β : Type}

/-- The answer that is unknown without a reason. -/
def silent : Answer α := .unknown none

/-- The answer that is unknown for a reason. -/
def declined (reason : Decline) : Answer α := .unknown (some reason)

/-- Continue with a known answer, and keep an unknown one together with its reason. -/
def andThen (answer : Answer α) (next : α → Answer β) : Answer β :=
  match answer with
  | .known value => next value
  | .unknown reason? => .unknown reason?

instance : Monad Answer where
  pure := .known
  bind := andThen

/-- Sequencing continues with a known answer. -/
@[simp] theorem known_bind (value : α) (next : α → Answer β) :
    (Answer.known value >>= next) = next value := rfl

/-- Sequencing keeps an unknown answer with its reason. -/
@[simp] theorem unknown_bind (reason? : Option Decline) (next : α → Answer β) :
    (Answer.unknown reason? >>= next) = .unknown reason? := rfl

/-- The known value. -/
def value? : Answer α → Option α
  | .known value => some value
  | .unknown _ => none

/-- The declines that answering logged. -/
def trace : Answer α → List Decline
  | .known _ => []
  | .unknown reason? => reason?.toList

variable {answer : Answer α} {next : α → Answer β}

/-- What is known in the end follows from an answer that was known before. -/
theorem andThen_eq_known_iff {result : β} :
    answer.andThen next = .known result ↔
      ∃ value, answer = .known value ∧ next value = .known result := by
  cases answer <;> simp [andThen]

/-- Sequencing yields a known answer from a known answer. -/
theorem bind_eq_known_iff {result : β} :
    (answer >>= next) = .known result ↔
      ∃ value, answer = .known value ∧ next value = .known result :=
  andThen_eq_known_iff

/-- The value of an answer is the one that is known. -/
theorem value?_eq_some_iff {value : α} : answer.value? = some value ↔ answer = .known value := by
  cases answer <;> simp [value?]

/-- An answer has a value when one is known. -/
theorem isSome_value?_iff : answer.value?.isSome = true ↔ ∃ value, answer = .known value := by
  simp only [Option.isSome_iff_exists, value?_eq_some_iff]

/-- An answer has no value when nothing is known. -/
theorem value?_eq_none_iff : answer.value? = none ↔ ∀ value, answer ≠ .known value := by
  simp only [Option.eq_none_iff_forall_ne_some, ne_eq, value?_eq_some_iff]

section Condition

variable {condition : Prop} [Decidable condition] {value : α}

/-- An answer that is unknown unless a condition holds is known only under the condition. -/
theorem ite_unknown_eq_known_iff {reason? : Option Decline} :
    (if condition then answer else .unknown reason?) = .known value ↔
      condition ∧ answer = .known value := by
  split <;> simp_all

/-- An answer that is declined unless a condition holds is known only under the condition. -/
theorem ite_declined_eq_known_iff {reason : Decline} :
    (if condition then answer else .declined reason) = .known value ↔
      condition ∧ answer = .known value :=
  ite_unknown_eq_known_iff

/-- An answer of which nothing is said unless a condition holds is known only under the
condition. -/
theorem ite_silent_eq_known_iff :
    (if condition then answer else .silent) = .known value ↔
      condition ∧ answer = .known value :=
  ite_unknown_eq_known_iff

end Condition

end Answer

end RiscvFacts
