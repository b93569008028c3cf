import TernScheduler.Model

/-!
# Conditions on rows

The condition language of `datastore/db-api.ts`, over the columns of a table,
and the columns the data store's queries name.  The meaning of `before-date` is
a parameter: which dates a backend accepts for a given `before`.
-/

namespace TernScheduler

/-- What a column of a record can hold.  An Invalid Date is neither before nor after a
date. -/
inductive ColumnValue
  | null
  | bool (value : Bool)
  | number (value : Int)
  | text (value : String)
  | date (value : Date)
  | invalidDate
  deriving DecidableEq, Repr

/-- `Conditional` of `db-api.ts`, over columns `K` that hold values `V`. -/
inductive Conditional (K : Type) (V : Type := ColumnValue) : Type
  | eq (key : K) (value : V)
  | beforeDate (key : K) (before : Date)
  | oneOf (key : K) (values : List V)
  | isNull (key : K)
  | notNull (key : K)
  | or (conditionals : List (Conditional K V))
  | and (conditionals : List (Conditional K V))

/-- Which values of a date column a backend's `before-date` condition accepts:
`reading before value`. -/
abbrev BeforeDateReading := Date → Date → Bool

/-- The documented reading, which is SQL's `column < before`. -/
def strictlyBefore : BeforeDateReading := fun before value => value < before

namespace Conditional

variable {K : Type}

mutual

/-- Whether a record, given by its columns, satisfies a condition. -/
def holds (reading : BeforeDateReading) (record : K → ColumnValue) :
    Conditional K → Bool
  | eq key value => record key = value
  | beforeDate key before =>
      match record key with
      | .date value => reading before value
      | _ => false
  | oneOf key values => record key ∈ values
  | isNull key => record key = .null
  | notNull key => record key ≠ .null
  | or conditionals => anyHolds reading record conditionals
  | and conditionals => allHold reading record conditionals

/-- Some condition of the list holds. -/
def anyHolds (reading : BeforeDateReading) (record : K → ColumnValue) :
    List (Conditional K) → Bool
  | [] => false
  | c :: cs => holds reading record c || anyHolds reading record cs

/-- Every condition of the list holds. -/
def allHold (reading : BeforeDateReading) (record : K → ColumnValue) :
    List (Conditional K) → Bool
  | [] => true
  | c :: cs => holds reading record c && allHold reading record cs

end

end Conditional

/-! ## Columns -/

/-- A nullable text column. -/
def ColumnValue.ofText (value : Option String) : ColumnValue :=
  value.elim .null .text

/-- A nullable date column. -/
def ColumnValue.ofDate (value : Option Date) : ColumnValue :=
  value.elim .null .date

/-- A date column that is never null. -/
def ColumnValue.ofJsDate (value : JsDate) : ColumnValue :=
  value.elim .invalidDate .date

@[simp] theorem ColumnValue.ofText_eq_null (value : Option String) :
    ColumnValue.ofText value = .null ↔ value = none := by
  cases value <;> simp [ofText]

@[simp] theorem ColumnValue.ofText_eq_text (value : Option String) (text : String) :
    ColumnValue.ofText value = .text text ↔ value = some text := by
  cases value <;> simp [ofText]

@[simp] theorem ColumnValue.ofDate_none : ColumnValue.ofDate none = .null := rfl

@[simp] theorem ColumnValue.ofDate_some (value : Date) :
    ColumnValue.ofDate (some value) = .date value := rfl

@[simp] theorem ColumnValue.ofJsDate_none : ColumnValue.ofJsDate none = .invalidDate := rfl

@[simp] theorem ColumnValue.ofJsDate_some (value : Date) :
    ColumnValue.ofJsDate (some value) = .date value := rfl

/-- The columns of the schedule table that conditions name. -/
inductive ScheduledJobColumn
  | pk
  | updateState
  | pasture
  | leaseOwner
  | leaseExpires
  deriving DecidableEq, Repr

/-- The columns of the task table that conditions name. -/
inductive TaskColumn
  | pk
  | schedule
  | state
  | executeAt
  | executionJobId
  | executionQueued
  | executionStarted
  deriving DecidableEq, Repr

/-- `record[key]` on a row of the schedule table. -/
def ScheduledJobDataModel.column (row : ScheduledJobDataModel) :
    ScheduledJobColumn → ColumnValue
  | .pk => .text row.pk
  | .updateState => .ofText (row.updateState.map (·.text))
  | .pasture => .bool row.pasture
  | .leaseOwner => .ofText row.leaseOwner
  | .leaseExpires => .ofDate row.leaseExpires

/-- `record[key]` on a row of the task table. -/
def TaskModel.column (row : TaskModel) : TaskColumn → ColumnValue
  | .pk => .text row.pk
  | .schedule => .text row.schedule
  | .state => .text row.state.text
  | .executeAt => .ofJsDate row.executeAt
  | .executionJobId => .ofText row.executionJobId
  | .executionQueued => .ofDate row.executionQueued
  | .executionStarted => .ofDate row.executionStarted

/-! ## The conditions the data store builds -/

/-- `pkEquals` on the schedule table. -/
def sjPkEquals (pk : PrimaryKeyType) : Conditional ScheduledJobColumn :=
  .eq .pk (.text pk)

/-- `sjNull(SJ_UPDATE_STATE)`: the job is not leased. -/
def notUpdating : Conditional ScheduledJobColumn := .isNull .updateState

/-- `sjAnd([sjNotNull(SJ_UPDATE_STATE), sjEquals(SJ_LEASE_OWNER, leaseId)])`:
the job is leased by `leaseId`. -/
def leasedBy (leaseId : LeaseIdType) : Conditional ScheduledJobColumn :=
  .and [.notNull .updateState, .eq .leaseOwner (.text leaseId)]

/-- `sjAnd([sjNotNull(SJ_UPDATE_STATE), sjBeforeDate(SJ_LEASE_EXPIRES, now)])`:
the job's lease has expired. -/
def leaseExpiredBefore (now : Date) : Conditional ScheduledJobColumn :=
  .and [.notNull .updateState, .beforeDate .leaseExpires now]

/-- `pkEquals` on the task table. -/
def tkPkEquals (pk : PrimaryKeyType) : Conditional TaskColumn :=
  .eq .pk (.text pk)

/-- `tkEquals(TK_STATE, state)`. -/
def stateEquals (state : TaskStateType) : Conditional TaskColumn :=
  .eq .state (.text state.text)

/-- `tkEquals(TK_EX_JOB_ID, execJobId)`. -/
def jobIdEquals (execJobId : ExecutionJobId) : Conditional TaskColumn :=
  .eq .executionJobId (.text execJobId)

/-- The condition of `getTasksForScheduledJob`. -/
def taskOf (schedule : PrimaryKeyType) (states : List TaskStateType) :
    Conditional TaskColumn :=
  .and [.eq .schedule (.text schedule),
    .oneOf .state (states.map fun state => .text state.text)]

theorem stateEquals_injective : Function.Injective stateEquals := by
  intro first second h
  simp only [stateEquals, Conditional.eq.injEq, ColumnValue.text.injEq, true_and] at h
  exact TaskStateType.text_injective h

variable {reading : BeforeDateReading} {job : ScheduledJobDataModel} {task : TaskModel}

@[simp] theorem holds_sjPkEquals (pk : PrimaryKeyType) :
    (sjPkEquals pk).holds reading job.column = true ↔ job.pk = pk := by
  simp [sjPkEquals, Conditional.holds, ScheduledJobDataModel.column]

@[simp] theorem holds_notUpdating :
    notUpdating.holds reading job.column = true ↔ job.updateState = none := by
  simp [notUpdating, Conditional.holds, ScheduledJobDataModel.column]

@[simp] theorem holds_leasedBy (leaseId : LeaseIdType) :
    (leasedBy leaseId).holds reading job.column = true ↔
      job.updateState ≠ none ∧ job.leaseOwner = some leaseId := by
  simp [leasedBy, Conditional.holds, Conditional.allHold, ScheduledJobDataModel.column]

@[simp] theorem holds_leaseExpiredBefore (now : Date) :
    (leaseExpiredBefore now).holds reading job.column = true ↔
      job.updateState ≠ none ∧
        ∃ expires, job.leaseExpires = some expires ∧ reading now expires = true := by
  cases hExpires : job.leaseExpires with
  | none =>
      simp [leaseExpiredBefore, Conditional.holds, Conditional.allHold,
        ScheduledJobDataModel.column, hExpires]
  | some expires =>
      simp [leaseExpiredBefore, Conditional.holds, Conditional.allHold,
        ScheduledJobDataModel.column, hExpires]

@[simp] theorem holds_tkPkEquals (pk : PrimaryKeyType) :
    (tkPkEquals pk).holds reading task.column = true ↔ task.pk = pk := by
  simp [tkPkEquals, Conditional.holds, TaskModel.column]

@[simp] theorem holds_stateEquals (state : TaskStateType) :
    (stateEquals state).holds reading task.column = true ↔ task.state = state := by
  simp [stateEquals, Conditional.holds, TaskModel.column,
    TaskStateType.text_injective.eq_iff]

@[simp] theorem holds_jobIdEquals (execJobId : ExecutionJobId) :
    (jobIdEquals execJobId).holds reading task.column = true ↔
      task.executionJobId = some execJobId := by
  simp [jobIdEquals, Conditional.holds, TaskModel.column]

@[simp] theorem holds_taskOf (schedule : PrimaryKeyType) (states : List TaskStateType) :
    (taskOf schedule states).holds reading task.column = true ↔
      task.schedule = schedule ∧ task.state ∈ states := by
  simp [taskOf, Conditional.holds, Conditional.allHold, TaskModel.column,
    TaskStateType.text_injective.eq_iff]

end TernScheduler
