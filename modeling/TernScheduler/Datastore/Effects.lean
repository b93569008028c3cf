import TernScheduler.Datastore.Database

/-!
# What a call does to the tables

`Database.job` and `Database.task` read a row by its key.  For any call and any
answer, `ScheduleEffect` and `TaskEffect` say what became of the rows: kept, one
row created under an absent key, or one row that satisfied the condition
rewritten.  The reads answer with rows that are there.
-/

namespace TernScheduler

open KeyedTable

/-- The call wrote a row of the schedule table. -/
def Act.WroteSchedule : (act : Act) → act.Reply → Prop
  | .createSchedule _, .ok _ => True
  | .updateSchedule .., .ok (_ + 1) => True
  | _, _ => False

/-- The call wrote a row of the task table. -/
def Act.WroteTask : (act : Act) → act.Reply → Prop
  | .createTask _, .ok _ => True
  | .updateTask .., .ok (_ + 1) => True
  | _, _ => False

/-- The job an operation takes the lease of, if it takes one. -/
def Act.granted : (act : Act) → act.Reply → Option PrimaryKeyType
  | .createSchedule row, .ok _ => some row.pk
  | .updateSchedule pk newValues _, .ok (_ + 1) =>
      if newValues.leaseOwner.join = none then none else some pk
  | _, _ => none

/-- The operation gives a lease up, or marks the job as needing repair. -/
def Act.gaveUp : (act : Act) → act.Reply → Bool
  | .updateSchedule _ newValues _, .ok (_ + 1) => newValues.leaseOwner.join = none
  | _, _ => false

/-- The lease owner an operation writes. -/
def Act.ownerWritten : Act → Option LeaseIdType
  | .createSchedule row => row.leaseOwner
  | .updateSchedule _ newValues _ => newValues.leaseOwner.join
  | _ => none

namespace Database

/-- The scheduled job with the given key. -/
def job (db : Database) (pk : PrimaryKeyType) : Option ScheduledJobDataModel :=
  db.scheduledJobTable.get? pk

/-- The task with the given key. -/
def task (db : Database) (pk : PrimaryKeyType) : Option TaskModel :=
  db.taskTable.get? pk

theorem tables_of_quiet {db after : Database}
    (hShared : after = db ∨ ∃ clock, db.clock ≤ clock ∧ after = { db with clock := clock }) :
    (∀ pk, after.job pk = db.job pk) ∧ ∀ pk, after.task pk = db.task pk := by
  rcases hShared with rfl | ⟨clock, -, rfl⟩
  · exact ⟨fun _ => rfl, fun _ => rfl⟩
  · exact ⟨fun _ => rfl, fun _ => rfl⟩

theorem job_eq_some_iff {db : Database} {pk : PrimaryKeyType}
    {row : ScheduledJobDataModel} :
    db.job pk = some row ↔ row ∈ db.scheduledJobTable ∧ row.pk = pk :=
  Table.get?_eq_some_iff

theorem task_eq_some_iff {db : Database} {pk : PrimaryKeyType} {row : TaskModel} :
    db.task pk = some row ↔ row ∈ db.taskTable ∧ row.pk = pk :=
  Table.get?_eq_some_iff

theorem task_of_mem {db : Database} {row : TaskModel} (hRow : row ∈ db.taskTable) :
    db.task row.pk = some row :=
  task_eq_some_iff.mpr ⟨hRow, rfl⟩

theorem job_of_mem {db : Database} {row : ScheduledJobDataModel}
    (hRow : row ∈ db.scheduledJobTable) : db.job row.pk = some row :=
  job_eq_some_iff.mpr ⟨hRow, rfl⟩

theorem pk_of_job {db : Database} {pk : PrimaryKeyType} {row : ScheduledJobDataModel}
    (h : db.job pk = some row) : row.pk = pk := (job_eq_some_iff.mp h).2

/-! ## Writes -/

/-- What a call does to the schedule table. -/
inductive ScheduleEffect (reading : BeforeDateReading) (db : Database) :
    (act : Act) → act.Reply → Database → Prop
  | kept {act : Act} {reply : act.Reply} {after : Database}
      (hNone : ¬ act.WroteSchedule reply)
      (hJobs : ∀ pk, after.job pk = db.job pk) :
      ScheduleEffect reading db act reply after
  | created (row : ScheduledJobDataModel) {after : Database}
      (hAbsent : db.job row.pk = none)
      (hJobs : ∀ pk, after.job pk = if pk = row.pk then some row else db.job pk) :
      ScheduleEffect reading db (.createSchedule row) (Except.ok ()) after
  | updated (pk : PrimaryKeyType) (newValues : ScheduledJobPatch)
      (conditional : Conditional ScheduledJobColumn) (count : Nat)
      (row : ScheduledJobDataModel) {after : Database} (hRow : db.job pk = some row)
      (hHolds : conditional.holds reading row.column = true)
      (hJobs : ∀ other, after.job other =
        if other = pk then some (newValues.apply row) else db.job other) :
      ScheduleEffect reading db (.updateSchedule pk newValues conditional)
        (Except.ok (count + 1)) after

/-- What a call does to the task table. -/
inductive TaskEffect (reading : BeforeDateReading) (db : Database) :
    (act : Act) → act.Reply → Database → Prop
  | kept {act : Act} {reply : act.Reply} {after : Database}
      (hNone : ¬ act.WroteTask reply)
      (hTasks : ∀ pk, after.task pk = db.task pk) :
      TaskEffect reading db act reply after
  | created (row : TaskModel) {after : Database} (hAbsent : db.task row.pk = none)
      (hTasks : ∀ pk, after.task pk = if pk = row.pk then some row else db.task pk) :
      TaskEffect reading db (.createTask row) (Except.ok ()) after
  | updated (pk : PrimaryKeyType) (newValues : TaskPatch)
      (conditional : Conditional TaskColumn) (count : Nat) (row : TaskModel)
      {after : Database} (hRow : db.task pk = some row)
      (hHolds : conditional.holds reading row.column = true)
      (hTasks : ∀ other, after.task other =
        if other = pk then some (newValues.apply row) else db.task other) :
      TaskEffect reading db (.updateTask pk newValues conditional)
        (Except.ok (count + 1)) after

variable {reading : BeforeDateReading} {db after : Database}

/-- **Spec of every call on the schedule table.** -/
theorem Exec.scheduleEffect {act : Act} {reply : act.Reply}
    (hExec : Exec reading db act reply after) :
    ScheduleEffect reading db act reply after := by
  cases hExec with
  | rejected error hReply => cases act <;> cases hReply <;> exact .kept id fun _ => rfl
  | answered hOther =>
      cases act <;> first | exact absurd trivial hOther | exact .kept id fun _ => rfl
  | served hServe =>
      cases act with
      | createSchedule row =>
          simp only [serve] at hServe
          cases hCreate : db.scheduledJobTable.create row with
          | none =>
              simp only [hCreate, Option.some.injEq, Prod.mk.injEq] at hServe
              obtain ⟨rfl, rfl⟩ := hServe
              exact .kept id fun _ => rfl
          | some table =>
              simp only [hCreate, Option.some.injEq, Prod.mk.injEq] at hServe
              obtain ⟨rfl, rfl⟩ := hServe
              refine .created row ?_ fun pk => Table.get?_create hCreate pk
              exact Table.get?_eq_none_iff.mpr (Table.create_eq_some hCreate).2
      | updateSchedule pk newValues conditional =>
          simp only [serve, Option.some.injEq, Prod.mk.injEq] at hServe
          obtain ⟨rfl, rfl⟩ := hServe
          rcases Table.modify_cases db.scheduledJobTable pk
              (fun row => conditional.holds reading row.column) newValues.apply
              newValues.apply_pk with ⟨hZero, hSame⟩ | ⟨count, row, hCount, hRow, hHolds, hGet⟩
          · rw [hZero]
            exact .kept id fun other => congrArg (fun table => table.get? other) hSame
          · rw [hCount]
            exact .updated pk newValues conditional count row hRow hHolds hGet
      | createTask row =>
          simp only [serve] at hServe
          cases hCreate : db.taskTable.create row with
          | none =>
              simp only [hCreate, Option.some.injEq, Prod.mk.injEq] at hServe
              obtain ⟨rfl, rfl⟩ := hServe
              exact .kept id fun _ => rfl
          | some table =>
              simp only [hCreate, Option.some.injEq, Prod.mk.injEq] at hServe
              obtain ⟨rfl, rfl⟩ := hServe
              exact .kept id fun _ => rfl
      | updateTask pk newValues conditional =>
          simp only [serve, Option.some.injEq, Prod.mk.injEq] at hServe
          obtain ⟨rfl, rfl⟩ := hServe
          exact .kept id fun _ => rfl
      | findSchedules start limit conditional =>
          simp only [serve, Option.some.injEq, Prod.mk.injEq] at hServe
          obtain ⟨rfl, rfl⟩ := hServe
          exact .kept id fun _ => rfl
      | findTasks start limit conditional =>
          simp only [serve, Option.some.injEq, Prod.mk.injEq] at hServe
          obtain ⟨rfl, rfl⟩ := hServe
          exact .kept id fun _ => rfl
      | startJob taskId jobName context => cases hServe
      | currentTimeUTC => cases hServe
      | createPrimaryKey => cases hServe
      | createLeaseId => cases hServe
      | retryDelay delaySeconds => cases hServe
      | emit event => cases hServe

/-- **Spec of every call on the task table.** -/
theorem Exec.taskEffect {act : Act} {reply : act.Reply}
    (hExec : Exec reading db act reply after) :
    TaskEffect reading db act reply after := by
  cases hExec with
  | rejected error hReply => cases act <;> cases hReply <;> exact .kept id fun _ => rfl
  | answered hOther =>
      cases act <;> first | exact absurd trivial hOther | exact .kept id fun _ => rfl
  | served hServe =>
      cases act with
      | createTask row =>
          simp only [serve] at hServe
          cases hCreate : db.taskTable.create row with
          | none =>
              simp only [hCreate, Option.some.injEq, Prod.mk.injEq] at hServe
              obtain ⟨rfl, rfl⟩ := hServe
              exact .kept id fun _ => rfl
          | some table =>
              simp only [hCreate, Option.some.injEq, Prod.mk.injEq] at hServe
              obtain ⟨rfl, rfl⟩ := hServe
              refine .created row ?_ fun pk => Table.get?_create hCreate pk
              exact Table.get?_eq_none_iff.mpr (Table.create_eq_some hCreate).2
      | updateTask pk newValues conditional =>
          simp only [serve, Option.some.injEq, Prod.mk.injEq] at hServe
          obtain ⟨rfl, rfl⟩ := hServe
          rcases Table.modify_cases db.taskTable pk
              (fun row => conditional.holds reading row.column) newValues.apply
              newValues.apply_pk with ⟨hZero, hSame⟩ | ⟨count, row, hCount, hRow, hHolds, hGet⟩
          · rw [hZero]
            exact .kept id fun other => congrArg (fun table => table.get? other) hSame
          · rw [hCount]
            exact .updated pk newValues conditional count row hRow hHolds hGet
      | createSchedule row =>
          simp only [serve] at hServe
          cases hCreate : db.scheduledJobTable.create row with
          | none =>
              simp only [hCreate, Option.some.injEq, Prod.mk.injEq] at hServe
              obtain ⟨rfl, rfl⟩ := hServe
              exact .kept id fun _ => rfl
          | some table =>
              simp only [hCreate, Option.some.injEq, Prod.mk.injEq] at hServe
              obtain ⟨rfl, rfl⟩ := hServe
              exact .kept id fun _ => rfl
      | updateSchedule pk newValues conditional =>
          simp only [serve, Option.some.injEq, Prod.mk.injEq] at hServe
          obtain ⟨rfl, rfl⟩ := hServe
          exact .kept id fun _ => rfl
      | findSchedules start limit conditional =>
          simp only [serve, Option.some.injEq, Prod.mk.injEq] at hServe
          obtain ⟨rfl, rfl⟩ := hServe
          exact .kept id fun _ => rfl
      | findTasks start limit conditional =>
          simp only [serve, Option.some.injEq, Prod.mk.injEq] at hServe
          obtain ⟨rfl, rfl⟩ := hServe
          exact .kept id fun _ => rfl
      | startJob taskId jobName context => cases hServe
      | currentTimeUTC => cases hServe
      | createPrimaryKey => cases hServe
      | createLeaseId => cases hServe
      | retryDelay delaySeconds => cases hServe
      | emit event => cases hServe

/-- A call that writes no job keeps them all. -/
theorem Exec.job_kept {act : Act} {reply : act.Reply}
    (hExec : Exec reading db act reply after) (hNone : ¬ act.WroteSchedule reply)
    (pk : PrimaryKeyType) : after.job pk = db.job pk := by
  cases hExec.scheduleEffect with
  | kept _ hJobs => exact hJobs pk
  | created row => exact absurd trivial hNone
  | updated pk newValues conditional count row => exact absurd trivial hNone

/-- A call that writes no task keeps them all. -/
theorem Exec.task_kept {act : Act} {reply : act.Reply}
    (hExec : Exec reading db act reply after) (hNone : ¬ act.WroteTask reply)
    (pk : PrimaryKeyType) : after.task pk = db.task pk := by
  cases hExec.taskEffect with
  | kept _ hTasks => exact hTasks pk
  | created row => exact absurd trivial hNone
  | updated pk newValues conditional count row => exact absurd trivial hNone

/-- Only the calls of the store act on it. -/
theorem Exec.same_of_other {act : Act} {reply : act.Reply}
    (hExec : Exec reading db act reply after) (hOther : ¬ act.IsStoreCall) : after = db := by
  cases hExec with
  | served hServe =>
      cases act <;> first | exact absurd trivial hOther | cases hServe
  | rejected error hReply => rfl
  | answered _ => rfl

/-- A call takes no time. -/
theorem Exec.clock {act : Act} {reply : act.Reply}
    (hExec : Exec reading db act reply after) : after.clock = db.clock := by
  cases hExec with
  | rejected error hReply => rfl
  | answered hOther => rfl
  | served hServe =>
      cases act with
      | createSchedule row =>
          simp only [serve] at hServe
          cases hCreate : db.scheduledJobTable.create row <;>
            · rw [hCreate] at hServe
              cases hServe
              rfl
      | createTask row =>
          simp only [serve] at hServe
          cases hCreate : db.taskTable.create row <;>
            · rw [hCreate] at hServe
              cases hServe
              rfl
      | _ =>
          cases hServe
          try rfl

/-! ## Reads -/

/-- A read of a job by key answers with the row, if there is one. -/
theorem Exec.findSchedules_pk {pk : PrimaryKeyType} {rows : List ScheduledJobDataModel}
    (hExec : Exec reading db (.findSchedules 0 1 (sjPkEquals pk)) (Except.ok rows) after) :
    rows = (db.job pk).toList := by
  cases hExec with
  | rejected error hReply => cases hReply
  | answered hOther => exact absurd trivial hOther
  | served hServe =>
      simp only [serve, Option.some.injEq, Prod.mk.injEq] at hServe
      have hRows := Except.ok.inj hServe.1
      rw [← hRows, job, ← Table.select_key]
      refine congrArg (db.scheduledJobTable.select 0 1) (funext fun row => ?_)
      rw [Bool.eq_iff_iff, holds_sjPkEquals, decide_eq_true_iff]

/-- A read of tasks answers with rows that satisfy the condition. -/
theorem Exec.mem_of_findTasks {start limit : Nat} {conditional : Conditional TaskColumn}
    {rows : List TaskModel}
    (hExec : Exec reading db (.findTasks start limit conditional) (Except.ok rows) after) :
    ∀ row ∈ rows, db.task row.pk = some row ∧
      conditional.holds reading row.column = true := by
  cases hExec with
  | rejected error hReply => cases hReply
  | answered hOther => exact absurd trivial hOther
  | served hServe =>
      simp only [serve, Option.some.injEq, Prod.mk.injEq] at hServe
      have hRows := Except.ok.inj hServe.1
      subst hRows
      intro row hRow
      obtain ⟨hMem, hHolds⟩ := Table.mem_of_mem_select hRow
      exact ⟨task_of_mem hMem, hHolds⟩

/-- A read of tasks answers with rows that satisfy the condition, and with none
only when there are none. -/
theorem Exec.findTasks {limit : Nat} {conditional : Conditional TaskColumn}
    {rows : List TaskModel}
    (hExec : Exec reading db (.findTasks 0 limit conditional) (Except.ok rows) after) :
    (∀ row ∈ rows, db.task row.pk = some row ∧
        conditional.holds reading row.column = true) ∧
      (0 < limit → rows = [] → ∀ pk row, db.task pk = some row →
        conditional.holds reading row.column = false) := by
  refine ⟨hExec.mem_of_findTasks, fun hLimit hNone pk row hRow => ?_⟩
  cases hExec with
  | rejected error hReply => cases hReply
  | answered hOther => exact absurd trivial hOther
  | served hServe =>
      simp only [serve, Option.some.injEq, Prod.mk.injEq] at hServe
      have hRows := Except.ok.inj hServe.1
      subst hRows
      exact Table.forall_not_of_select_eq_nil hLimit hNone row (task_eq_some_iff.mp hRow).1

/-- A read of up to two tasks answers with one only when no other task satisfies the
condition. -/
theorem Exec.findTasks_single {conditional : Conditional TaskColumn} {row : TaskModel}
    (hExec : Exec reading db (.findTasks 0 2 conditional) (Except.ok [row]) after) :
    ∀ pk other, db.task pk = some other → conditional.holds reading other.column = true →
      other = row := by
  cases hExec with
  | rejected error hReply => cases hReply
  | answered hOther => exact absurd trivial hOther
  | served hServe =>
      simp only [serve, Option.some.injEq, Prod.mk.injEq] at hServe
      have hRows := Except.ok.inj hServe.1
      intro pk other hOther hHolds
      exact Table.eq_of_select_eq_singleton (by omega) hRows other
        (task_eq_some_iff.mp hOther).1 hHolds

/-! ## Calls the store answers -/

/-- A store call got the store's own answer: it was not rejected on the way. -/
def Answered (reading : BeforeDateReading) (db : Database) (act : Act)
    (reply : act.Reply) : Prop :=
  ∀ served ∈ db.serve reading act, served.1 = reply

instance : (act : Act) → DecidableEq act.Reply
  | .createSchedule _ | .createTask _ => inferInstanceAs (DecidableEq (Except JsError Unit))
  | .findSchedules .. =>
      inferInstanceAs (DecidableEq (Except JsError (List ScheduledJobDataModel)))
  | .findTasks .. => inferInstanceAs (DecidableEq (Except JsError (List TaskModel)))
  | .updateSchedule .. | .updateTask .. => inferInstanceAs (DecidableEq (Except JsError Nat))
  | .startJob .. => inferInstanceAs (DecidableEq (Except JsError JobExecutionState))
  | .currentTimeUTC => inferInstanceAs (DecidableEq Date)
  | .createPrimaryKey | .createLeaseId => inferInstanceAs (DecidableEq String)
  | .retryDelay _ | .emit _ => inferInstanceAs (DecidableEq Unit)

instance (reading : BeforeDateReading) (db : Database) (act : Act) (reply : act.Reply) :
    Decidable (Answered reading db act reply) := by
  unfold Answered
  infer_instance

/-- An update that the store serves writes a row which satisfies its condition. -/
theorem Exec.updateSchedule_served {pk : PrimaryKeyType} {newValues : ScheduledJobPatch}
    {conditional : Conditional ScheduledJobColumn} {reply : Except JsError Nat}
    {row : ScheduledJobDataModel}
    (hExec : Exec reading db (.updateSchedule pk newValues conditional) reply after)
    (hAnswered : Answered reading db (.updateSchedule pk newValues conditional) reply)
    (hRow : db.job pk = some row) (hHolds : conditional.holds reading row.column = true) :
    ∃ count, reply = .ok (count + 1) ∧ ∀ other, after.job other =
      if other = pk then some (newValues.apply row) else db.job other := by
  have hReply := hAnswered _ rfl
  obtain ⟨hMem, hPk⟩ := job_eq_some_iff.mp hRow
  have hPos : 0 < (db.scheduledJobTable.modify pk
      (fun row => conditional.holds reading row.column) newValues.apply
      newValues.apply_pk).2 := Table.count_pos_iff.mpr ⟨row, hMem, hPk, hHolds⟩
  obtain ⟨count, hCount⟩ := Nat.exists_eq_succ_of_ne_zero (Nat.ne_of_gt hPos)
  refine ⟨count, hReply.symm.trans (congrArg Except.ok hCount), ?_⟩
  cases hExec.scheduleEffect with
  | kept hNone =>
      rw [← hReply] at hNone
      simp only [hCount] at hNone
      exact absurd trivial hNone
  | updated _ _ _ _ found hFound _ hJobs =>
      obtain rfl : found = row := Option.some.inj (hFound.symm.trans hRow)
      exact hJobs

/-- An update that the store serves writes a task which satisfies its condition. -/
theorem Exec.updateTask_served {pk : PrimaryKeyType} {newValues : TaskPatch}
    {conditional : Conditional TaskColumn} {reply : Except JsError Nat} {row : TaskModel}
    (hExec : Exec reading db (.updateTask pk newValues conditional) reply after)
    (hAnswered : Answered reading db (.updateTask pk newValues conditional) reply)
    (hRow : db.task pk = some row) (hHolds : conditional.holds reading row.column = true) :
    ∃ count, reply = .ok (count + 1) ∧ ∀ other, after.task other =
      if other = pk then some (newValues.apply row) else db.task other := by
  have hReply := hAnswered _ rfl
  obtain ⟨hMem, hPk⟩ := task_eq_some_iff.mp hRow
  have hPos : 0 < (db.taskTable.modify pk
      (fun row => conditional.holds reading row.column) newValues.apply
      newValues.apply_pk).2 := Table.count_pos_iff.mpr ⟨row, hMem, hPk, hHolds⟩
  obtain ⟨count, hCount⟩ := Nat.exists_eq_succ_of_ne_zero (Nat.ne_of_gt hPos)
  refine ⟨count, hReply.symm.trans (congrArg Except.ok hCount), ?_⟩
  cases hExec.taskEffect with
  | kept hNone =>
      rw [← hReply] at hNone
      simp only [hCount] at hNone
      exact absurd trivial hNone
  | updated _ _ _ _ found hFound _ hTasks =>
      obtain rfl : found = row := Option.some.inj (hFound.symm.trans hRow)
      exact hTasks

/-- An update that the store serves passes by a task which does not satisfy its
condition. -/
theorem Answered.updateTask_missed {pk : PrimaryKeyType} {newValues : TaskPatch}
    {conditional : Conditional TaskColumn} {reply : Except JsError Nat} {row : TaskModel}
    (h : Answered reading db (.updateTask pk newValues conditional) reply)
    (hRow : db.task pk = some row) (hMissed : conditional.holds reading row.column = false) :
    reply = .ok 0 := by
  have hReply := h _ rfl
  rcases Table.modify_cases db.taskTable pk
      (fun row => conditional.holds reading row.column) newValues.apply
      newValues.apply_pk with ⟨hZero, -⟩ | ⟨count, found, -, hFound, hHolds, -⟩
  · exact hReply.symm.trans (congrArg Except.ok hZero)
  · rw [Option.some.inj (hFound.symm.trans hRow), hMissed] at hHolds
    cases hHolds

/-- A task with a new key is created. -/
theorem Answered.createTask_new {row : TaskModel} {reply : Except JsError Unit}
    (h : Answered reading db (.createTask row) reply) (hNew : db.task row.pk = none) :
    reply = .ok () := by
  cases hCreate : db.taskTable.create row with
  | some table =>
      exact (h (.ok (), { db with taskTable := table }) (by simp only [serve, hCreate]; rfl)).symm
  | none =>
      obtain ⟨other, hMem, hPk⟩ := Table.create_eq_none_iff.mp hCreate
      have hStored : db.task row.pk = some other := task_eq_some_iff.mpr ⟨hMem, hPk⟩
      rw [hStored] at hNew
      cases hNew

/-- A read of a job that is stored is answered with a row. -/
theorem Answered.findSchedules_ne {pk : PrimaryKeyType}
    {reply : Except JsError (List ScheduledJobDataModel)}
    (h : Answered reading db (.findSchedules 0 1 (sjPkEquals pk)) reply)
    (hStored : db.job pk ≠ none) : ∃ row rest, reply = .ok (row :: rest) := by
  obtain ⟨row, hRow⟩ := Option.ne_none_iff_exists'.mp hStored
  have hReply := h _ rfl
  have hExec : Exec reading db (.findSchedules 0 1 (sjPkEquals pk)) _ db := .served rfl
  have hRows := hExec.findSchedules_pk
  rw [hRow] at hRows
  exact ⟨row, [], by rw [← hReply, hRows]; rfl⟩

theorem Answered.findTasks_eq {limit : Nat} {conditional : Conditional TaskColumn}
    {reply : Except JsError (List TaskModel)}
    (h : Answered reading db (.findTasks 0 limit conditional) reply) :
    reply = .ok (db.taskTable.select 0 limit
      fun row => conditional.holds reading row.column) :=
  (h _ rfl).symm

/-- An update of a task that is answered with zero found the row in another
state than the condition asks for. -/
theorem Answered.updateTask_zero {pk : PrimaryKeyType} {newValues : TaskPatch}
    {conditional : Conditional TaskColumn} {row : TaskModel}
    (h : Answered reading db (.updateTask pk newValues conditional) (Except.ok 0))
    (hRow : db.task pk = some row) : conditional.holds reading row.column = false := by
  have hCount := Except.ok.inj (h _ rfl)
  cases hHolds : conditional.holds reading row.column with
  | false => rfl
  | true =>
      obtain ⟨hMem, hKey⟩ := task_eq_some_iff.mp hRow
      have hPos : 0 < (db.taskTable.modify pk
          (fun row => conditional.holds reading row.column) newValues.apply
          newValues.apply_pk).2 := Table.count_pos_iff.mpr ⟨row, hMem, hKey, hHolds⟩
      exact absurd hCount (Nat.ne_of_gt hPos)

theorem Answered.updateTask_ok {pk : PrimaryKeyType} {newValues : TaskPatch}
    {conditional : Conditional TaskColumn} {reply : Except JsError Nat}
    (h : Answered reading db (.updateTask pk newValues conditional) reply) :
    ∃ count, reply = .ok count :=
  ⟨_, (h _ rfl).symm⟩

end Database

end TernScheduler
