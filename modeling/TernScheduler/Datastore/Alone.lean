import TernScheduler.Datastore.DataStore
import TernScheduler.Datastore.Effects
import TernScheduler.Library.Alone

/-!
# Calls run alone against the store

The triples of the store calls for a program that nobody interferes with and whose
store calls are all served.  A read or a refused update leaves the rows as they
are, and an update whose condition holds writes its row.
-/

namespace TernScheduler

open Interleaving KeyedTable

namespace Database

/-- The store serves its calls; any other call is answered by the environment and
leaves the store alone. -/
def Serves (reading : BeforeDateReading) (db : Database) (act : Act) (reply : act.Reply)
    (after : Database) : Prop :=
  match db.serve reading act with
  | some answer => (reply, after) = answer
  | none => after = db

/-- The calls of a program run alone against the store. -/
def served (reading : BeforeDateReading) : Execution signature Database :=
  fun db operation reply after => Serves reading db operation.act reply after

theorem served_total (reading : BeforeDateReading) : (served reading).Total := by
  intro db operation
  obtain ⟨scope, act⟩ := operation
  show ∃ reply after, Serves reading db act reply after
  unfold Serves
  cases hServe : db.serve reading act with
  | some answer => exact ⟨answer.1, answer.2, rfl⟩
  | none =>
      cases act with
      | startJob taskId jobName context => exact ⟨.ok (.running ""), db, rfl⟩
      | currentTimeUTC => exact ⟨(0 : Int), db, rfl⟩
      | createPrimaryKey => exact ⟨"", db, rfl⟩
      | createLeaseId => exact ⟨"", db, rfl⟩
      | retryDelay delaySeconds => exact ⟨(), db, rfl⟩
      | emit event => exact ⟨(), db, rfl⟩
      | createSchedule row => simp only [serve] at hServe; split at hServe <;> cases hServe
      | createTask row => simp only [serve] at hServe; split at hServe <;> cases hServe
      | _ => cases hServe

end Database

open Database

/-- Every run alone of the promise, with the store serving it. -/
abbrev Ensures {α : Type} (reading : BeforeDateReading) (resolved : Database → α → Prop)
    (rejected : Database → JsError → Prop) (db : Database) (promise : Js α) : Prop :=
  promise.Sat (served reading).transformer resolved rejected db

variable {reading : BeforeDateReading} {db : Database} {α : Type}
  {rejected : Database → JsError → Prop}

/-- The label of a call has no effect on it. -/
theorem ensures_inScope {scope : Scope} {resolved : Database → α → Prop} {promise : Js α}
    (h : Ensures reading resolved rejected db promise) :
    Ensures reading resolved rejected db (inScope scope promise) := by
  have hRelabel : ∀ {β : Type} (post : Database → β → Prop) (program : Prog signature β)
      (db : Database), program.Ensures (served reading) post db →
        (relabel scope program).Ensures (served reading) post db := by
    intro β post program
    induction program with
    | ret value => exact fun db hPost => hPost
    | call operation next ih =>
        obtain ⟨old, act⟩ := operation
        exact fun db hCall reply after hServed =>
          ih reply after (hCall reply after hServed)
  exact hRelabel _ promise db h

/-! ## Calls that are not store calls -/

/-- A call the store has no part in leaves the store alone, whatever the answer. -/
theorem ensures_ask {act : Act} {answer : act.Reply → Except JsError α}
    {resolved : Database → α → Prop} (hOther : db.serve reading act = none)
    (hDone : ∀ reply, Ensures reading resolved rejected db
      (Promise.ofExcept (answer reply) : Js α)) :
    Ensures reading resolved rejected db (ask act answer) := by
  intro reply after hServed
  have hSame : after = db := by
    simp only [served, Serves] at hServed
    simpa only [hOther] using hServed
  rw [hSame]
  exact hDone reply

theorem ensures_emit {event : SchedulerEvent} {resolved : Database → Unit → Prop}
    (hDone : resolved db ()) : Ensures reading resolved rejected db (emit event) :=
  ensures_ask rfl fun _ => hDone

theorem ensures_leaseOwnerStrategy {resolved : Database → LeaseIdType → Prop}
    (hDone : ∀ leaseId, resolved db leaseId) :
    Ensures reading resolved rejected db leaseOwnerStrategy :=
  ensures_ask rfl fun leaseId => hDone leaseId

/-! ## Store calls -/

/-- A store call is answered as the store serves it. -/
theorem ensures_store {act : Act} {answer : act.Reply → Except JsError α}
    {resolved : Database → α → Prop} {reply : act.Reply} {after : Database}
    (hServe : db.serve reading act = some (reply, after))
    (hDone : Ensures reading resolved rejected after
      (Promise.ofExcept (answer reply) : Js α)) :
    Ensures reading resolved rejected db (ask act answer) := by
  intro reply' after' hServed
  have hSame : (reply', after') = (reply, after) := by
    simp only [served, Serves] at hServed
    simpa only [hServe] using hServed
  obtain ⟨rfl, rfl⟩ := Prod.mk.inj hSame
  exact hDone

/-- Between the two states one schedule row is written, and nothing else. -/
structure WroteRow (db after : Database) (row : ScheduledJobDataModel) : Prop where
  jobs : ∀ pk, after.job pk = if pk = row.pk then some row else db.job pk
  tasks : after.taskTable = db.taskTable
  clock : after.clock = db.clock

/-- Two writes of one row leave the second. -/
theorem WroteRow.trans {middle after : Database} {row row' : ScheduledJobDataModel}
    (hFirst : WroteRow db middle row) (hSecond : WroteRow middle after row')
    (hPk : row'.pk = row.pk) : WroteRow db after row' where
  jobs pk := by
    rw [hSecond.jobs, hFirst.jobs, hPk]
    split <;> rfl
  tasks := hSecond.tasks.trans hFirst.tasks
  clock := hSecond.clock.trans hFirst.clock

/-- An update of a schedule row whose condition holds writes that row only. -/
theorem ensures_updateSchedule_row {pk : PrimaryKeyType} {newValues : ScheduledJobPatch}
    {conditional : Conditional ScheduledJobColumn} {row : ScheduledJobDataModel}
    {resolved : Database → Nat → Prop} (hRow : db.job pk = some row)
    (hHolds : conditional.holds reading row.column = true)
    (hDone : ∀ after count, WroteRow db after (newValues.apply row) →
      resolved after (count + 1)) :
    Ensures reading resolved rejected db (updateSchedule pk newValues conditional) := by
  obtain ⟨hMem, rfl⟩ := job_eq_some_iff.mp hRow
  refine ensures_store rfl ?_
  rcases Table.modify_cases db.scheduledJobTable row.pk
      (fun row => conditional.holds reading row.column) newValues.apply
      newValues.apply_pk with ⟨hZero, -⟩ | ⟨count, found, hCount, hFound, -, hGet⟩
  · have hPos : 0 < (db.scheduledJobTable.modify row.pk
        (fun row => conditional.holds reading row.column) newValues.apply
        newValues.apply_pk).2 := Table.count_pos_iff.mpr ⟨row, hMem, rfl, hHolds⟩
    omega
  · obtain rfl : found = row := Option.some.inj (hFound.symm.trans hRow)
    simp only [hCount]
    refine hDone _ count ⟨fun pk => ?_, rfl, rfl⟩
    rw [newValues.apply_pk]
    exact hGet pk

/-- An update of a schedule row whose condition holds writes the row. -/
theorem ensures_updateSchedule {pk : PrimaryKeyType} {newValues : ScheduledJobPatch}
    {conditional : Conditional ScheduledJobColumn} {row : ScheduledJobDataModel}
    {resolved : Database → Nat → Prop} (hRow : db.job pk = some row)
    (hHolds : conditional.holds reading row.column = true)
    (hDone : ∀ after count, after.job pk = some (newValues.apply row) →
      after.taskTable = db.taskTable → resolved after (count + 1)) :
    Ensures reading resolved rejected db (updateSchedule pk newValues conditional) := by
  refine ensures_updateSchedule_row hRow hHolds fun after count hWrote => ?_
  refine hDone after count ?_ hWrote.tasks
  rw [hWrote.jobs, newValues.apply_pk, (job_eq_some_iff.mp hRow).2, if_pos rfl]

/-- A read of a job answers with its row. -/
theorem ensures_findSchedules {pk : PrimaryKeyType} {row : ScheduledJobDataModel}
    {resolved : Database → List ScheduledJobDataModel → Prop}
    (hRow : db.job pk = some row) (hDone : resolved db [row]) :
    Ensures reading resolved rejected db (findSchedules 0 1 (sjPkEquals pk)) := by
  refine ensures_store rfl ?_
  have hExec : Exec reading db (.findSchedules 0 1 (sjPkEquals pk)) _ db := .served rfl
  have hRows := hExec.findSchedules_pk
  rw [hRow] at hRows
  rw [hRows]
  exact hDone

/-- An update of a task in another state than the condition asks for writes
nothing. -/
theorem ensures_updateTask_missed {pk : PrimaryKeyType} {newValues : TaskPatch}
    {conditional : Conditional TaskColumn} {row : TaskModel}
    {resolved : Database → Nat → Prop} (hRow : db.task pk = some row)
    (hMissed : conditional.holds reading row.column = false) (hDone : resolved db 0) :
    Ensures reading resolved rejected db (updateTask pk newValues conditional) := by
  refine ensures_store rfl ?_
  rcases Table.modify_cases db.taskTable pk
      (fun row => conditional.holds reading row.column) newValues.apply
      newValues.apply_pk with ⟨hZero, hSame⟩ | ⟨count, found, -, hFound, hHolds, -⟩
  · rw [hZero, hSame]
    exact hDone
  · rw [Option.some.inj (hFound.symm.trans hRow), hMissed] at hHolds
    cases hHolds

theorem ensures_findTasks {limit : Nat} {conditional : Conditional TaskColumn}
    {resolved : Database → List TaskModel → Prop}
    (hDone : resolved db (db.taskTable.select 0 limit
      fun row => conditional.holds reading row.column)) :
    Ensures reading resolved rejected db (findTasks 0 limit conditional) :=
  ensures_store rfl hDone

/-! ## Data store methods -/

theorem ensures_getScheduledJob {pk : PrimaryKeyType} {row : ScheduledJobDataModel}
    {resolved : Database → Option ScheduledJobDataModel → Prop}
    (hRow : db.job pk = some row) (hDone : resolved db (some row)) :
    Ensures reading resolved rejected db (getScheduledJob pk) :=
  Promise.sat_bind.mpr (ensures_findSchedules hRow hDone)

/-- The lease of a job nobody holds is granted. -/
theorem ensures_leaseScheduledJob {zone : TimeZone} {jobPk : PrimaryKeyType}
    {updateOperation : ScheduleUpdateStateType} {updateTaskPk : Option PrimaryKeyType}
    {leaseId : LeaseIdType} {now : Date} {leaseTimeSeconds : Int}
    {row : ScheduledJobDataModel} {resolved : Database → Unit → Prop}
    (hRow : db.job jobPk = some row) (hFree : row.updateState = none)
    (hDone : ∀ after, after.job jobPk =
        some ((leasePatch updateOperation updateTaskPk leaseId
          (updateDate zone now leaseTimeSeconds)).apply row) →
      after.taskTable = db.taskTable → resolved after ()) :
    Ensures reading resolved rejected db
      (leaseScheduledJob zone jobPk updateOperation updateTaskPk leaseId now
        leaseTimeSeconds) := by
  refine Promise.sat_bind.mpr (ensures_updateSchedule hRow (holds_notUpdating.mpr hFree) ?_)
  intro after count hJob hTasks
  rw [rejectUnlessUpdated, if_pos (Nat.succ_pos count)]
  exact hDone after hJob hTasks

/-- The owner of a lease can give it back. -/
theorem ensures_releaseScheduledJobLease {leaseId : LeaseIdType} {jobPk : PrimaryKeyType}
    {pasture : Bool} {pastureReason : Option String} {row : ScheduledJobDataModel}
    {resolved : Database → Unit → Prop} (hRow : db.job jobPk = some row)
    (hLeased : row.updateState ≠ none) (hOwner : row.leaseOwner = some leaseId)
    (hDone : ∀ after, WroteRow db after ((releasePatch pasture pastureReason).apply row) →
      resolved after ()) :
    Ensures reading resolved rejected db
      (releaseScheduledJobLease leaseId jobPk pasture pastureReason) := by
  have hHolds : (leasedBy leaseId).holds reading row.column = true :=
    (holds_leasedBy leaseId).mpr ⟨hLeased, hOwner⟩
  refine Promise.sat_bind.mpr (ensures_updateSchedule_row hRow hHolds ?_)
  intro after count hWrote
  rw [rejectUnlessUpdated, if_pos (Nat.succ_pos count)]
  exact hDone after hWrote

/-- An expired lease is taken over, and the job that was taken over is answered. -/
theorem ensures_repairExpiredLeaseForScheduledJob {zone : TimeZone} {jobPk : PrimaryKeyType}
    {newLeaseId : LeaseIdType} {now expires : Date} {leaseTimeSeconds : Int}
    {row : ScheduledJobDataModel} {resolved : Database → Option ScheduledJobDataModel → Prop}
    (hRow : db.job jobPk = some row) (hLeased : row.updateState ≠ none)
    (hExpires : row.leaseExpires = some expires) (hExpired : reading now expires = true)
    (hDone : ∀ after taken, taken = (repairPatch newLeaseId
        (updateDate zone now leaseTimeSeconds) (previousState row)).apply row →
      WroteRow db after taken → resolved after (some taken)) :
    Ensures reading resolved rejected db
      (repairExpiredLeaseForScheduledJob zone jobPk newLeaseId now leaseTimeSeconds) := by
  have hHolds : (leaseExpiredBefore now).holds reading row.column = true :=
    (holds_leaseExpiredBefore now).mpr ⟨hLeased, expires, hExpires, hExpired⟩
  refine Promise.sat_bind.mpr (ensures_getScheduledJob hRow ?_)
  refine Promise.sat_bind.mpr (ensures_updateSchedule_row hRow hHolds ?_)
  intro after count hWrote
  have hTaken : after.job jobPk = some ((repairPatch newLeaseId
      (updateDate zone now leaseTimeSeconds) (previousState row)).apply row) := by
    rw [hWrote.jobs, ScheduledJobPatch.apply_pk, (job_eq_some_iff.mp hRow).2, if_pos rfl]
  refine Promise.sat_bind.mpr (ensures_findSchedules hTaken ?_)
  simp only [if_pos (Nat.succ_pos count)]
  exact hDone after _ rfl hWrote

/-- The owner of a lease can mark the job as needing repair. -/
theorem ensures_markLeasedScheduledJobNeedsRepair {jobPk : PrimaryKeyType}
    {leaseId : LeaseIdType} {now : Date} {pasture : Bool} {pastureReason : Option String}
    {row : ScheduledJobDataModel} {resolved : Database → Unit → Prop}
    (hRow : db.job jobPk = some row) (hLeased : row.updateState ≠ none)
    (hOwner : row.leaseOwner = some leaseId)
    (hDone : ∀ after, after.job jobPk =
        some ((needsRepairPatch now pasture pastureReason).apply row) →
      resolved after ()) :
    Ensures reading resolved rejected db
      (markLeasedScheduledJobNeedsRepair jobPk leaseId now pasture pastureReason) := by
  have hHolds : (leasedBy leaseId).holds reading row.column = true :=
    (holds_leasedBy leaseId).mpr ⟨hLeased, hOwner⟩
  refine Promise.sat_bind.mpr (ensures_updateSchedule hRow hHolds ?_)
  intro after count hJob _
  rw [rejectUnlessUpdated, if_pos (Nat.succ_pos count)]
  exact hDone after hJob

/-- A task in another state than the expected one is not moved. -/
theorem ensures_markTaskState_missed {pk : PrimaryKeyType}
    {expectedCurrentState newState : TaskStateType} {extra : TaskPatch} {task : TaskModel}
    {resolved : Database → Unit → Prop} (hTask : db.task pk = some task)
    (hState : task.state ≠ expectedCurrentState)
    (hDone : rejected db (.invalidTaskState task newState expectedCurrentState)) :
    Ensures reading resolved rejected db
      (markTaskState pk expectedCurrentState newState extra) := by
  have hMissed : (stateEquals expectedCurrentState).holds reading task.column = false := by
    rw [Bool.eq_false_iff]
    exact fun hHolds => hState (holds_stateEquals _ |>.mp hHolds)
  refine Promise.sat_bind.mpr (ensures_updateTask_missed hTask hMissed ?_)
  refine Promise.sat_bind.mpr (ensures_findTasks ?_)
  have hFound : (db.taskTable.select 0 1
      fun row => (tkPkEquals pk).holds reading row.column) = [task] := by
    have hKey : (fun row : TaskModel => (tkPkEquals pk).holds reading row.column) =
        fun row => decide (row.pk = pk) := by
      funext row
      rw [Bool.eq_iff_iff, holds_tkPkEquals, decide_eq_true_iff]
    rw [hKey, Table.select_key]
    show (db.task pk).toList = [task]
    rw [hTask]
    rfl
  rw [hFound]
  exact hDone

end TernScheduler
