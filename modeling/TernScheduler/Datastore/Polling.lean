import TernScheduler.Datastore.Memory

/-!
# The polling queries

The queries of `DatabaseDataStore` that the background work polls: the tasks of one state
with a date before a cutoff.  Both backends answer them; they differ in how they read
`before-date`.
-/

namespace TernScheduler

/-- The two backends. -/
inductive Backend
  | memory
  | sql
  deriving DecidableEq, Repr

/-- How a backend reads `before-date`. -/
def Backend.reading : Backend → BeforeDateReading
  | .memory => laterThan
  | .sql => strictlyBefore

/-- `taskTable.find(0, limit, conditional)`, on the rows in the order the backend has them. -/
def Backend.find (backend : Backend) (rows : List TaskModel) (limit : Nat)
    (conditional : Conditional TaskColumn) : List TaskModel :=
  (rows.filter fun row => conditional.holds backend.reading row.column).take limit

/-- The tasks of a state with a date before the given one.  No date is before or after an
Invalid Date. -/
def Backend.findBefore (backend : Backend) (rows : List TaskModel) (limit : Nat)
    (key : TaskColumn) (before : JsDate) (state : TaskStateType) : List TaskModel :=
  match before with
  | some before => backend.find rows limit (.and [.beforeDate key before, stateEquals state])
  | none => []

def pollExecutableTasks (backend : Backend) (rows : List TaskModel) (now : Date)
    (limit : Nat) : List TaskModel :=
  backend.findBefore rows limit .executeAt (some now) .pending

def pollLongQueuedTasks (zone : TimeZone) (backend : Backend) (rows : List TaskModel)
    (now : Date) (beforeSeconds : Int) (limit : Nat) : List TaskModel :=
  let before := JsDate.updateDate zone (some now) (-beforeSeconds)
  backend.findBefore rows limit .executionQueued before .queued

def pollLongExecutingTasks (zone : TimeZone) (backend : Backend) (rows : List TaskModel)
    (now : Date) (beforeSeconds : Int) (limit : Nat) : List TaskModel :=
  let before := JsDate.updateDate zone (some now) (-beforeSeconds)
  backend.findBefore rows limit .executionStarted before .started

theorem Backend.find_memory (table : MemTable fun row : TaskModel => row.pk) (limit : Nat)
    (conditional : Conditional TaskColumn) :
    Backend.memory.find table.rows limit conditional =
      table.find 0 limit (some fun row => conditional.holds laterThan row.column) := rfl

@[simp] theorem updateDate_utc (date : Date) (increaseSeconds : Int) :
    updateDate .utc date increaseSeconds = date + increaseSeconds * 1000 := by
  rw [updateDate_eq]
  simp [TimeZone.localTime, TimeZone.utc]

/-! ## What they poll for -/

/-- A polling query, with the seconds it goes back by. -/
inductive Poll
  | executable
  | longQueued (beforeSeconds : Int)
  | longExecuting (beforeSeconds : Int)
  deriving DecidableEq, Repr

namespace Poll

/-- The state it looks for. -/
def state : Poll → TaskStateType
  | executable => .pending
  | longQueued _ => .queued
  | longExecuting _ => .started

/-- The column it compares. -/
def column : Poll → TaskColumn
  | executable => .executeAt
  | longQueued _ => .executionQueued
  | longExecuting _ => .executionStarted

/-- The date in that column. -/
def date (row : TaskModel) : Poll → Option Date
  | executable => row.executeAt
  | longQueued _ => row.executionQueued
  | longExecuting _ => row.executionStarted

/-- The last instant at which a task is due. -/
def dueTime (now : Date) : Poll → Date
  | executable => now
  | longQueued beforeSeconds => now - beforeSeconds * 1000
  | longExecuting beforeSeconds => now - beforeSeconds * 1000

/-- The date it asks with on a server in UTC. -/
def cutoff (now : Date) : Poll → JsDate
  | executable => some now
  | longQueued beforeSeconds => JsDate.updateDate .utc (some now) (-beforeSeconds)
  | longExecuting beforeSeconds => JsDate.updateDate .utc (some now) (-beforeSeconds)

/-- The answer on a server in UTC. -/
def answer (backend : Backend) (rows : List TaskModel) (now : Date) (limit : Nat) :
    Poll → List TaskModel
  | executable => pollExecutableTasks backend rows now limit
  | longQueued beforeSeconds => pollLongQueuedTasks .utc backend rows now beforeSeconds limit
  | longExecuting beforeSeconds =>
      pollLongExecutingTasks .utc backend rows now beforeSeconds limit

/-- The task is in the state the query looks for, with a date that is accepted. -/
def Accepts (poll : Poll) (accepted : Date → Bool) (row : TaskModel) : Prop :=
  row.state = poll.state ∧ ∃ date ∈ poll.date row, accepted date = true

instance (poll : Poll) (accepted : Date → Bool) (row : TaskModel) :
    Decidable (poll.Accepts accepted row) :=
  inferInstanceAs (Decidable (row.state = poll.state ∧
    ∃ date ∈ poll.date row, accepted date = true))

/-- The task is due: its date is on or before that instant. -/
def Due (poll : Poll) (now : Date) : TaskModel → Prop :=
  poll.Accepts fun date => decide (date ≤ poll.dueTime now)

instance (poll : Poll) (now : Date) : DecidablePred (poll.Due now) := fun row =>
  inferInstanceAs (Decidable (poll.Accepts (fun date => decide (date ≤ poll.dueTime now)) row))

/-- The three queries are one, with their columns, states and cutoffs. -/
theorem answer_eq (poll : Poll) (backend : Backend) (rows : List TaskModel) (now : Date)
    (limit : Nat) :
    poll.answer backend rows now limit =
      backend.findBefore rows limit poll.column (poll.cutoff now) poll.state := by
  cases poll <;> rfl

theorem updateDate_eq_dueTime {now before beforeSeconds : Int}
    (hCutoff : JsDate.updateDate .utc (some now) (-beforeSeconds) = some before) :
    before = now - beforeSeconds * 1000 := by
  by_cases hNow : InRange now
  · rw [updateDate_some hNow, timeClip_eq_some, updateDate_utc] at hCutoff
    omega
  · have hNone : JsDate.cloneDateTime (some now) = none := timeClip_of_not_inRange hNow
    rw [JsDate.updateDate, hNone] at hCutoff
    cases hCutoff

theorem dueTime_of_cutoff {poll : Poll} {now before : Date}
    (hCutoff : poll.cutoff now = some before) : before = poll.dueTime now := by
  cases poll with
  | executable => exact (Option.some.inj hCutoff).symm
  | longQueued beforeSeconds => exact updateDate_eq_dueTime hCutoff
  | longExecuting beforeSeconds => exact updateDate_eq_dueTime hCutoff

theorem holds_beforeDate (poll : Poll) (reading : BeforeDateReading) (before : Date)
    (row : TaskModel) :
    (Conditional.beforeDate poll.column before).holds reading row.column = true ↔
      ∃ date ∈ poll.date row, reading before date = true := by
  cases poll with
  | executable =>
      cases hDate : row.executeAt <;>
        simp [Conditional.holds, TaskModel.column, column, date, hDate]
  | longQueued =>
      cases hDate : row.executionQueued <;>
        simp [Conditional.holds, TaskModel.column, column, date, hDate]
  | longExecuting =>
      cases hDate : row.executionStarted <;>
        simp [Conditional.holds, TaskModel.column, column, date, hDate]

theorem holds_iff (poll : Poll) (reading : BeforeDateReading) (before : Date)
    (row : TaskModel) :
    (Conditional.and [.beforeDate poll.column before, stateEquals poll.state]).holds reading
      row.column = true ↔ poll.Accepts (reading before) row := by
  rw [Accepts, ← holds_beforeDate, ← @holds_stateEquals reading row poll.state,
    and_comm]
  simp only [Conditional.holds, Conditional.allHold, Bool.and_true, Bool.and_eq_true]

/-- With a date to ask with, a query answers with the first rows, up to the limit, that the
backend accepts. -/
theorem answer_eq_take {poll : Poll} {now before : Date}
    (hCutoff : poll.cutoff now = some before) (backend : Backend) (rows : List TaskModel)
    (limit : Nat) :
    poll.answer backend rows now limit =
      (rows.filter fun row => decide (poll.Accepts (backend.reading before) row)).take limit := by
  rw [answer_eq, hCutoff, Backend.findBefore, Backend.find]
  congr 1
  refine List.filter_congr fun row _ => ?_
  rw [Bool.eq_iff_iff, holds_iff, decide_eq_true_iff]

theorem answer_eq_nil {poll : Poll} {now : Date} (hCutoff : poll.cutoff now = none)
    (backend : Backend) (rows : List TaskModel) (limit : Nat) :
    poll.answer backend rows now limit = [] := by
  rw [answer_eq, hCutoff]
  rfl

end Poll

end TernScheduler
