import TernScheduler.Datastore.Polling
import TernScheduler.System

/-!
# Whether polling sees exactly the due rows

A task is documented to be due when its date is on or before the cutoff.  The in-memory
table takes the rows after it, the SQL table those strictly before it.

* `Poll.SeesDue` is what a polling query should answer.
* `seesDue_iff`: when each backend does.
-/

namespace TernScheduler

namespace Poll

/-- Only due tasks are answered, and all of them where at most `limit` are due. -/
structure SeesDue (poll : Poll) (rows : List TaskModel) (now : Date) (limit : Nat)
    (answer : List TaskModel) : Prop where
  only : ∀ row ∈ answer, poll.Due now row
  all : (rows.filter fun row => decide (poll.Due now row)).length ≤ limit →
    ∀ row ∈ rows, poll.Due now row → row ∈ answer

/-- In memory none is asked for; or no task in the state has a date after the cutoff, if that is
a date, and no task is due or more than `limit` are.  In SQL more than `limit` tasks are due, or
no task in the state has its date at the cutoff, or none is due if the cutoff is no date. -/
def ReadsRight (poll : Poll) (rows : List TaskModel) (now : Date) (limit : Nat) :
    Backend → Prop
  | .memory => limit = 0 ∨
      (poll.cutoff now ≠ none → ∀ row ∈ rows, row.state = poll.state →
        ∀ date ∈ poll.date row, date ≤ poll.dueTime now) ∧
        ((∀ row ∈ rows, ¬ poll.Due now row) ∨
          limit < (rows.filter fun row => decide (poll.Due now row)).length)
  | .sql => limit < (rows.filter fun row => decide (poll.Due now row)).length ∨
      if poll.cutoff now = none then ∀ row ∈ rows, ¬ poll.Due now row
      else ∀ row ∈ rows, row.state = poll.state → poll.date row ≠ some (poll.dueTime now)

variable {poll : Poll} {rows : List TaskModel} {now : Date} {limit : Nat}

/-- What the in-memory table accepts is in the state, and after the cutoff, so not due. -/
theorem not_due_of_laterThan {row : TaskModel}
    (hAccepts : poll.Accepts (laterThan (poll.dueTime now)) row) : ¬ poll.Due now row := by
  rintro ⟨-, date, hDate, hBefore⟩
  obtain ⟨-, other, hOther, hLater⟩ := hAccepts
  obtain rfl := Option.some.inj (hDate.symm.trans hOther)
  simp only [laterThan, decide_eq_true_eq] at hBefore hLater
  exact absurd hBefore (Int.not_le.mpr hLater)

/-- What the SQL table accepts is in the state, and before the cutoff, so due. -/
theorem due_of_strictlyBefore {row : TaskModel}
    (hAccepts : poll.Accepts (strictlyBefore (poll.dueTime now)) row) : poll.Due now row := by
  obtain ⟨hState, date, hDate, hBefore⟩ := hAccepts
  simp only [strictlyBefore, decide_eq_true_eq] at hBefore
  exact ⟨hState, date, hDate, decide_eq_true (Int.le_of_lt hBefore)⟩

/-- Of the due tasks the SQL table leaves out those with their date at the cutoff. -/
theorem strictlyBefore_of_due {row : TaskModel} (hDue : poll.Due now row)
    (hNot : poll.date row ≠ some (poll.dueTime now)) :
    poll.Accepts (strictlyBefore (poll.dueTime now)) row := by
  obtain ⟨hState, date, hDate, hBefore⟩ := hDue
  refine ⟨hState, date, hDate, decide_eq_true (Int.lt_iff_le_and_ne.mpr ⟨?_, ?_⟩)⟩
  · exact of_decide_eq_true hBefore
  · rintro rfl
    exact hNot hDate

/-- No rows are right where none are due, or too many. -/
theorem seesDue_nil_iff :
    poll.SeesDue rows now limit [] ↔ (∀ row ∈ rows, ¬ poll.Due now row) ∨
      limit < (rows.filter fun row => decide (poll.Due now row)).length := by
  constructor
  · intro hSees
    refine or_iff_not_imp_right.mpr fun hFew row hRow hDue => ?_
    cases hSees.all (Nat.not_lt.mp hFew) row hRow hDue
  · intro hRight
    refine ⟨fun row hRow => absurd hRow List.not_mem_nil, fun hFew row hRow hDue => ?_⟩
    rcases hRight with hNone | hMany
    · exact absurd hDue (hNone row hRow)
    · exact absurd hFew (Nat.not_le.mpr hMany)

theorem filter_laterThan_eq_nil_iff :
    (rows.filter fun row => decide (poll.Accepts (laterThan (poll.dueTime now)) row)) = [] ↔
      ∀ row ∈ rows, row.state = poll.state → ∀ date ∈ poll.date row, date ≤ poll.dueTime now := by
  rw [List.filter_eq_nil_iff]
  refine forall₂_congr fun row _ => ?_
  simp [Accepts, laterThan]

theorem none_or_many_of_limit (hLimit : limit = 0) :
    (∀ row ∈ rows, ¬ poll.Due now row) ∨
      limit < (rows.filter fun row => decide (poll.Due now row)).length := by
  subst hLimit
  refine or_iff_not_imp_right.mpr fun hNone row hRow hDue => hNone ?_
  exact List.length_pos_of_mem (List.mem_filter.mpr ⟨hRow, decide_eq_true hDue⟩)

/-- The in-memory table answers with rows that are not due, so it sees the due ones only
where it answers with none and none are to be answered. -/
theorem seesDue_memory_iff :
    poll.SeesDue rows now limit (poll.answer .memory rows now limit) ↔
      poll.ReadsRight rows now limit .memory := by
  cases hCutoff : poll.cutoff now with
  | none =>
      rw [answer_eq_nil hCutoff, seesDue_nil_iff]
      simp only [ReadsRight, hCutoff, ne_eq, not_true_eq_false, false_implies, true_and]
      exact (or_iff_right_of_imp none_or_many_of_limit).symm
  | some before =>
      obtain rfl := dueTime_of_cutoff hCutoff
      rw [answer_eq_take hCutoff, Backend.reading, ReadsRight, ← filter_laterThan_eq_nil_iff]
      simp only [hCutoff, ne_eq, reduceCtorEq, not_false_eq_true, forall_const]
      constructor
      · intro hSees
        refine or_iff_not_imp_left.mpr fun hLimit => ?_
        -- a row that is accepted would be answered, and is not due
        have hNone : (rows.filter fun row =>
            decide (poll.Accepts (laterThan (poll.dueTime now)) row)) = [] := by
          cases hRows : rows.filter fun row =>
              decide (poll.Accepts (laterThan (poll.dueTime now)) row) with
          | nil => rfl
          | cons first rest =>
              have hMem : first ∈ rows.filter fun row =>
                  decide (poll.Accepts (laterThan (poll.dueTime now)) row) := by
                rw [hRows]
                exact List.mem_cons_self
              have hFirst : poll.Accepts (laterThan (poll.dueTime now)) first :=
                of_decide_eq_true (List.mem_filter.mp hMem).2
              refine absurd (hSees.only first ?_) (not_due_of_laterThan hFirst)
              rw [hRows]
              exact List.mem_take_iff_getElem.mpr ⟨0, by simp; omega, rfl⟩
        rw [hNone, List.take_nil] at hSees
        exact ⟨hNone, seesDue_nil_iff.mp hSees⟩
      · intro hRight
        have hEmpty : (rows.filter fun row =>
            decide (poll.Accepts (laterThan (poll.dueTime now)) row)).take limit = [] := by
          rcases hRight with rfl | ⟨hNone, -⟩
          · exact List.take_zero
          · rw [hNone, List.take_nil]
        rw [hEmpty, seesDue_nil_iff]
        exact hRight.elim none_or_many_of_limit And.right

/-- The SQL table answers with due rows only, and leaves out those at the cutoff. -/
theorem seesDue_sql_iff :
    poll.SeesDue rows now limit (poll.answer .sql rows now limit) ↔
      poll.ReadsRight rows now limit .sql := by
  cases hCutoff : poll.cutoff now with
  | none =>
      rw [answer_eq_nil hCutoff, seesDue_nil_iff, ReadsRight, if_pos hCutoff, or_comm]
  | some before =>
      obtain rfl := dueTime_of_cutoff hCutoff
      rw [answer_eq_take hCutoff, Backend.reading, ReadsRight, if_neg (by simp [hCutoff])]
      have hOnly : ∀ row ∈ (rows.filter fun row =>
          decide (poll.Accepts (strictlyBefore (poll.dueTime now)) row)).take limit,
          poll.Accepts (strictlyBefore (poll.dueTime now)) row := fun row hRow =>
        of_decide_eq_true (List.mem_filter.mp (List.mem_of_mem_take hRow)).2
      constructor
      · intro hSees
        refine or_iff_not_imp_left.mpr fun hFew row hRow hState hDate => ?_
        -- a task due at the very cutoff would be answered, and is not before it
        have hDue : poll.Due now row := ⟨hState, _, hDate, decide_eq_true (Int.le_refl _)⟩
        obtain ⟨-, date, hOther, hBefore⟩ :=
          hOnly row (hSees.all (Nat.not_lt.mp hFew) row hRow hDue)
        obtain rfl := Option.some.inj (hDate.symm.trans hOther)
        exact absurd (of_decide_eq_true hBefore) (Int.lt_irrefl _)
      · intro hRight
        refine ⟨fun row hRow => due_of_strictlyBefore (hOnly row hRow), fun hFew => ?_⟩
        rcases hRight with hMany | hNone
        · exact absurd hFew (Nat.not_le.mpr hMany)
        · -- with none at the cutoff the table accepts exactly what is due
          have hSame : (rows.filter fun row =>
              decide (poll.Accepts (strictlyBefore (poll.dueTime now)) row)) =
                rows.filter fun row => decide (poll.Due now row) := by
            refine List.filter_congr fun row hRow =>
              decide_eq_decide.mpr ⟨due_of_strictlyBefore, ?_⟩
            exact fun hDue => strictlyBefore_of_due hDue (hNone row hRow hDue.1)
          intro row hRow hDue
          rw [hSame, List.take_of_length_le hFew]
          exact List.mem_filter.mpr ⟨hRow, decide_eq_true hDue⟩

/-- **When polling sees exactly the due rows**, over either backend. -/
theorem seesDue_iff (poll : Poll) (backend : Backend) (rows : List TaskModel) (now : Date)
    (limit : Nat) :
    poll.SeesDue rows now limit (poll.answer backend rows now limit) ↔
      poll.ReadsRight rows now limit backend := by
  cases backend with
  | memory => exact seesDue_memory_iff
  | sql => exact seesDue_sql_iff

/-- A task to run at 0 is not seen at 1 by the in-memory table, which hands it out at -1; the
SQL table does not see it at 0. -/
theorem not_seesDue :
    ¬ executable.SeesDue [sampleTask] 1 1 (executable.answer .memory [sampleTask] 1 1) ∧
      ¬ executable.SeesDue [sampleTask] (-1) 1 (executable.answer .memory [sampleTask] (-1) 1) ∧
      ¬ executable.SeesDue [sampleTask] 0 1 (executable.answer .sql [sampleTask] 0 1) := by
  refine ⟨fun hSees => ?_, fun hSees => ?_, fun hSees => ?_⟩
  · exact absurd (hSees.all (by decide) sampleTask List.mem_cons_self (by decide)) (by decide)
  · exact absurd (hSees.only sampleTask (by decide)) (by decide)
  · exact absurd (hSees.all (by decide) sampleTask List.mem_cons_self (by decide)) (by decide)

end Poll

end TernScheduler
