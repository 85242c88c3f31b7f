import RiscvFacts.Log

/-!
# Texts of one line

A text without a line feed takes one line. Numerals are such texts, and so are texts
that are put together from unbroken ones. A logger keeps lines if it writes a record
of unbroken texts as one line (`Logger.KeepsLines`).
-/

namespace RiscvFacts

namespace Line

/-- Whether a text has no line feed. -/
def IsUnbroken (text : String) : Prop := '\n' ∉ text.toList

instance (text : String) : Decidable (IsUnbroken text) := inferInstanceAs (Decidable (¬ _))

/-- A text is unbroken when both of its parts are. -/
@[simp] theorem isUnbroken_append {first second : String} :
    IsUnbroken (first ++ second) ↔ IsUnbroken first ∧ IsUnbroken second := by
  simp [IsUnbroken, String.toList_append]

/-- Unbroken texts with an unbroken text between them are unbroken. -/
theorem isUnbroken_intercalate {separator : String} {texts : List String}
    (between : IsUnbroken separator) (each : ∀ text ∈ texts, IsUnbroken text) :
    IsUnbroken (separator.intercalate texts) := by
  induction texts with
  | nil => simp [IsUnbroken]
  | cons text texts inductionHypothesis =>
      have first := each text List.mem_cons_self
      have others := inductionHypothesis fun other member =>
        each other (List.mem_cons_of_mem _ member)
      cases texts with
      | nil => rwa [String.intercalate_singleton]
      | cons next texts =>
          rw [String.intercalate_cons_cons, isUnbroken_append, isUnbroken_append]
          exact ⟨⟨first, between⟩, others⟩

end Line

namespace Numeral

/-- The digits of a number are no line feeds. -/
theorem ne_lineFeed_of_mem_toDigits {base value : Nat} {char : Char} (isBase : 1 < base)
    (few : base ≤ 16) (digit : char ∈ Nat.toDigits base value) : char ≠ '\n' := by
  have table : ∀ small < 16, Nat.digitChar small ≠ '\n' := by decide
  obtain ⟨small, below, rfl⟩ := exists_digitChar_of_mem_toDigits isBase digit
  exact table small (Nat.lt_of_lt_of_le below few)

/-- A decimal text of a natural number is unbroken. -/
@[simp] theorem isUnbroken_natural (value : Nat) : Line.IsUnbroken (natural value) := by
  intro feed
  rw [natural, String.toList_ofList] at feed
  exact ne_lineFeed_of_mem_toDigits (by decide) (by decide) feed rfl

/-- A decimal text of an integer is unbroken. -/
@[simp] theorem isUnbroken_decimal (value : Int) : Line.IsUnbroken (decimal value) := by
  cases value with
  | ofNat value => exact isUnbroken_natural value
  | negSucc value => exact Line.isUnbroken_append.mpr ⟨by decide, isUnbroken_natural _⟩

/-- A hexadecimal text is unbroken. -/
@[simp] theorem isUnbroken_hex (least value : Nat) : Line.IsUnbroken (hex least value) := by
  have digits : '\n' ∉ Nat.toDigits 16 value :=
    fun feed => ne_lineFeed_of_mem_toDigits (by decide) (by decide) feed rfl
  simp [hex, Line.IsUnbroken, List.mem_replicate, digits]

end Numeral

/-- A cell of a column is unbroken when its text is. -/
@[simp] theorem Column.isUnbroken_pad {width : Nat} {text : String} :
    Line.IsUnbroken (Column.pad width text) ↔ Line.IsUnbroken text := by
  simp [Column.pad, Line.IsUnbroken, List.mem_replicate]

/-- Whether the name and the value of a field are unbroken. -/
structure IsUnbrokenField (field : String × FieldValue) : Prop where
  name : Line.IsUnbroken field.1
  value : Line.IsUnbroken field.2.text

/-- A field is unbroken when its name and its value are. -/
theorem isUnbrokenField_iff {name : String} {value : FieldValue} :
    IsUnbrokenField (name, value) ↔ Line.IsUnbroken name ∧ Line.IsUnbroken value.text :=
  ⟨fun field => ⟨field.name, field.value⟩, fun ⟨named, valued⟩ => ⟨named, valued⟩⟩

/-- Whether the texts in a record are unbroken. -/
structure LogRecord.IsUnbroken (record : LogRecord) : Prop where
  message : Line.IsUnbroken record.message
  fields : ∀ field ∈ record.fields, IsUnbrokenField field

/-- Fields of unbroken texts are unbroken in a row. -/
theorem LogRecord.isUnbroken_fieldsText {fields : List (String × FieldValue)}
    (each : ∀ field ∈ fields, IsUnbrokenField field) : Line.IsUnbroken (fieldsText fields) := by
  induction fields with
  | nil => decide
  | cons field fields inductionHypothesis =>
      have ⟨first, others⟩ := List.forall_mem_cons.mp each
      have marks : Line.IsUnbroken " " ∧ Line.IsUnbroken "=" := by decide
      simp only [fieldsText, Line.isUnbroken_append, marks, first.name, first.value,
        inductionHypothesis others, and_self]

namespace Logger

/-- Whether a logger writes every record of unbroken texts as one line. -/
def KeepsLines (logger : Logger) : Prop :=
  ∀ record : LogRecord, record.IsUnbroken → Line.IsUnbroken (logger.write record)

/-- A logger that writes records as they are keeps lines. -/
theorem keepsLines_plain : plain.KeepsLines := by
  intro record unbroken
  have level : Line.IsUnbroken record.level.name := by cases record.level <;> decide
  have blank : Line.IsUnbroken " " := by decide
  change Line.IsUnbroken (record.level.name ++ " " ++ record.message ++
    LogRecord.fieldsText record.fields)
  simp only [Line.isUnbroken_append, level, blank, unbroken.message,
    LogRecord.isUnbroken_fieldsText unbroken.fields, and_self]

/-- A logger that keeps lines writes a log of unbroken records line by line. -/
theorem KeepsLines.lines {logger : Logger} (keeps : logger.KeepsLines) {log : List LogEvent}
    (unbroken : ∀ event ∈ log, event.record.IsUnbroken) (verbosity : Verbosity) :
    ∀ line ∈ logger.lines verbosity log, Line.IsUnbroken line := by
  intro line written
  obtain ⟨event, shown, rfl⟩ := List.mem_map.mp written
  exact keeps _ (unbroken event (List.mem_filter.mp shown).1)

end Logger

end RiscvFacts
