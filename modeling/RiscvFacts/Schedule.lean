import RiscvFacts.Log

/-!
# Schedules

The words of some code are analysed in parallel, each of them by one thread, and all
threads write to one log. What a word logs therefore stands in the log in the order in
which it was logged, but the events of other words may stand between. A schedule says
how the events of the words come to lie. On one thread the words are taken one after
the other (`Schedule.oneThread`).
-/

namespace RiscvFacts

/-- Whether a list is an interleaving of several rows. As long as a row is left, some row gives its
first element. -/
inductive Interleaves {α : Type} : List (List α) → List α → Prop where
  | done {rows : List (List α)} (spent : ∀ row ∈ rows, row = []) : Interleaves rows []
  | step {rows : List (List α)} (index : Nat) {first : α} {rest merged : List α}
      (next : rows[index]? = some (first :: rest))
      (others : Interleaves (rows.set index rest) merged) : Interleaves rows (first :: merged)

namespace Interleaves

variable {α β : Type} {rows : List (List α)} {merged : List α}

/-- One more empty row changes nothing. -/
theorem cons_nil (interleaves : Interleaves rows merged) : Interleaves ([] :: rows) merged := by
  induction interleaves with
  | done spent => exact .done (List.forall_mem_cons.mpr ⟨rfl, spent⟩)
  | step index next others inductionHypothesis =>
      exact .step (index + 1) next inductionHypothesis

/-- Rows one after the other are an interleaving. -/
theorem flatten (rows : List (List α)) : Interleaves rows rows.flatten := by
  induction rows with
  | nil => exact .done (List.forall_mem_nil _)
  | cons row rows inductionHypothesis =>
      induction row with
      | nil => exact inductionHypothesis.cons_nil
      | cons first rest behind => exact .step 0 rfl behind

/-- An interleaving holds what the rows hold, as often as they do. -/
theorem perm_flatten (interleaves : Interleaves rows merged) : merged.Perm rows.flatten := by
  induction interleaves with
  | done spent => rw [List.flatten_eq_nil_iff.mpr spent]
  | @step rows index first rest merged next others inductionHypothesis =>
      obtain ⟨inside, found⟩ := List.getElem?_eq_some_iff.mp next
      obtain ⟨before, behind, split, -, replaced⟩ := @List.exists_of_set _ _ rest _ inside
      rw [replaced, List.flatten_append, List.flatten_cons] at inductionHypothesis
      rw [split, found, List.flatten_append, List.flatten_cons, List.cons_append]
      exact (inductionHypothesis.cons first).trans List.perm_middle.symm

/-- The elements of each row stand in an interleaving in the order of the row. -/
theorem sublist (interleaves : Interleaves rows merged) :
    ∀ row ∈ rows, row.Sublist merged := by
  induction interleaves with
  | done spent =>
      intro row member
      obtain rfl := spent row member
      exact .refl []
  | @step rows index first rest merged next others inductionHypothesis =>
      intro row member
      obtain ⟨place, found⟩ := List.mem_iff_getElem?.mp member
      by_cases here : index = place
      · have shorter : rest ∈ rows.set index rest :=
          List.mem_set (List.getElem?_eq_some_iff.mp next).1 rest
        rw [← here, next, Option.some.injEq] at found
        rw [← found]
        exact (inductionHypothesis rest shorter).cons_cons first
      · have elsewhere : (rows.set index rest)[place]? = some row := by
          rw [List.getElem?_set_ne here, found]
        exact (inductionHypothesis row (List.mem_of_getElem? elsewhere)).cons first

/-- What a function makes of an interleaving interleaves what it makes of the rows. -/
theorem map (function : α → β) (interleaves : Interleaves rows merged) :
    Interleaves (rows.map (List.map function)) (merged.map function) := by
  induction interleaves with
  | done spent =>
      refine .done fun row member => ?_
      obtain ⟨source, inRows, rfl⟩ := List.mem_map.mp member
      rw [spent source inRows, List.map_nil]
  | step index next others inductionHypothesis =>
      rw [List.map_set] at inductionHypothesis
      refine .step index ?_ inductionHypothesis
      rw [List.getElem?_map, next, Option.map_some, List.map_cons]

end Interleaves

/-- How the events that several threads log come to lie in the log. -/
structure Schedule where
  merge : List (List LogEvent) → List LogEvent
  interleaves : ∀ rows, Interleaves rows (merge rows)

namespace Schedule

/-- The schedule of one thread, which takes the rows one after the other. -/
def oneThread : Schedule := ⟨List.flatten, Interleaves.flatten⟩

/-- Whether a schedule takes the rows one after the other, as it does on one thread. -/
def IsSequential (schedule : Schedule) : Prop := ∀ rows, schedule.merge rows = rows.flatten

/-- One thread takes the rows one after the other. -/
theorem isSequential_oneThread : oneThread.IsSequential := fun _ => rfl

/-- What is logged when every item of a list logs a row is what some item logs. -/
theorem mem_merge_map_iff {α : Type} {schedule : Schedule} {items : List α}
    {row : α → List LogEvent} {event : LogEvent} :
    event ∈ schedule.merge (items.map row) ↔ ∃ item ∈ items, event ∈ row item := by
  rw [(schedule.interleaves _).perm_flatten.mem_iff, ← List.flatMap_def, List.mem_flatMap]

/-- Every interleaving is that of a schedule, so that what holds of all schedules holds however the
threads are run. -/
theorem exists_merge_eq {rows : List (List LogEvent)} {merged : List LogEvent}
    (interleaves : Interleaves rows merged) : ∃ schedule : Schedule, schedule.merge rows = merged := by
  refine ⟨⟨fun others => if others = rows then merged else others.flatten, fun others => ?_⟩,
    if_pos rfl⟩
  by_cases same : others = rows
  · rw [if_pos same, same]
    exact interleaves
  · rw [if_neg same]
    exact .flatten others

end Schedule

end RiscvFacts
