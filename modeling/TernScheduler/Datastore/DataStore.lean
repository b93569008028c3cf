import TernScheduler.Datastore.Database
import TernScheduler.Strategies

/-!
# The data store

`DatabaseDataStore` of `datastore/db-impl.ts`, method by method.  Each method
is the chain of table calls the source makes; the patch every update writes is
a definition of its own, under the name of the method that writes it.
-/

namespace TernScheduler

open Interleaving

/-! ## Scheduled jobs -/

/-- The row `addScheduledJobModel` creates. -/
def leasedRow (zone : TimeZone) (model : ScheduledJobModel) (leaseId : LeaseIdType)
    (now : Date) (leaseTimeSeconds : Int) : ScheduledJobDataModel :=
  { model with
    leaseOwner := some leaseId
    leaseExpires := some (updateDate zone now leaseTimeSeconds) }

def addScheduledJobModel (zone : TimeZone) (model : ScheduledJobModel)
    (leaseId : LeaseIdType) (now : Date) (leaseTimeSeconds : Int) : Js Unit :=
  createSchedule (leasedRow zone model leaseId now leaseTimeSeconds)

def getScheduledJob (pk : PrimaryKeyType) : Js (Option ScheduledJobDataModel) := do
  let rows ← findSchedules 0 1 (sjPkEquals pk)
  pure rows.head?

/-- What `leaseScheduledJob` writes. -/
def leasePatch (updateOperation : ScheduleUpdateStateType)
    (updateTaskPk : Option PrimaryKeyType) (leaseId : LeaseIdType)
    (expires : Date) : ScheduledJobPatch where
  updateState := some (some updateOperation)
  updateTaskPk := some updateTaskPk
  leaseOwner := some (some leaseId)
  leaseExpires := some (some expires)

/-- What `releaseScheduledJobLease` writes when `pasture` is given. -/
def releasePatch (pasture : Bool) (pastureReason : Option String) :
    ScheduledJobPatch where
  updateState := some none
  updateTaskPk := some none
  leaseOwner := some none
  leaseExpires := some none
  repairState := some none
  pasture := some pasture
  pastureReason := some pastureReason

/-- What `repairExpiredLeaseForScheduledJob` writes. -/
def repairPatch (newLeaseId : LeaseIdType) (expires : Date)
    (repairState : Option String) : ScheduledJobPatch where
  updateState := some (some .repair)
  leaseOwner := some (some newLeaseId)
  leaseExpires := some (some expires)
  repairState := some repairState

/-- What `markLeasedScheduledJobNeedsRepair` writes. -/
def needsRepairPatch (now : Date) (pasture : Bool)
    (pastureReason : Option String) : ScheduledJobPatch where
  leaseExpires := some (some now)
  pasture := some pasture
  pastureReason := some pastureReason

/-- The tail the lease methods share: nothing to do when a row was written,
else look the job up and reject with the error that describes it. -/
def rejectUnlessUpdated (jobPk : PrimaryKeyType)
    (leaseError : ScheduledJobDataModel → JsError) (count : Nat) : Js Unit :=
  if count > 0 then pure ()
  else do
    let jobs ← findSchedules 0 1 (sjPkEquals jobPk)
    match jobs with
    | job :: _ => Promise.reject (leaseError job)
    | [] => Promise.reject (.scheduledJobNotFound jobPk)

def leaseScheduledJob (zone : TimeZone) (jobPk : PrimaryKeyType)
    (updateOperation : ScheduleUpdateStateType)
    (updateTaskPk : Option PrimaryKeyType) (leaseId : LeaseIdType) (now : Date)
    (leaseTimeSeconds : Int) : Js Unit := do
  let expires := updateDate zone now leaseTimeSeconds
  let count ← updateSchedule jobPk
    (leasePatch updateOperation updateTaskPk leaseId expires) notUpdating
  rejectUnlessUpdated jobPk
    (fun job => .leaseNotObtained leaseId job job.leaseOwner job.leaseExpires) count

/-- `releaseScheduledJobLease`, which its callers always give a `pasture`. -/
def releaseScheduledJobLease (leaseId : LeaseIdType) (jobPk : PrimaryKeyType)
    (pasture : Bool) (pastureReason : Option String) : Js Unit := do
  let count ← updateSchedule jobPk (releasePatch pasture pastureReason)
    (leasedBy leaseId)
  rejectUnlessUpdated jobPk
    (fun job => .leaseNotOwned leaseId job job.leaseOwner job.leaseExpires) count

/-- `src.repairState || src.updateState`. -/
def previousState (src : ScheduledJobDataModel) : Option String :=
  (orNull src.repairState).or (src.updateState.map (·.text))

/-- `repairExpiredLeaseForScheduledJob`: a read, an update, and a read. -/
def repairExpiredLeaseForScheduledJob (zone : TimeZone) (jobPk : PrimaryKeyType)
    (newLeaseId : LeaseIdType) (now : Date) (leaseTimeSeconds : Int) :
    Js (Option ScheduledJobDataModel) := do
  let expires := updateDate zone now leaseTimeSeconds
  let src ← getScheduledJob jobPk
  match src with
  | none => pure none
  | some src => do
      let count ← updateSchedule jobPk
        (repairPatch newLeaseId expires (previousState src))
        (leaseExpiredBefore now)
      let jobs ← findSchedules 0 1 (sjPkEquals jobPk)
      match jobs with
      | job :: _ => if count > 0 then pure (some job) else pure none
      | [] => Promise.reject (.scheduledJobNotFound jobPk)

def markLeasedScheduledJobNeedsRepair (jobPk : PrimaryKeyType)
    (leaseId : LeaseIdType) (now : Date) (pasture : Bool)
    (pastureReason : Option String) : Js Unit := do
  let count ← updateSchedule jobPk (needsRepairPatch now pasture pastureReason)
    (leasedBy leaseId)
  rejectUnlessUpdated jobPk
    (fun job => .leaseNotOwned "<unknown>" job job.leaseOwner job.leaseExpires) count

/-! ## Tasks -/

def addTask (task : TaskModel) : Js Unit := createTask task

def getTaskByExecutionJobId (execJobId : ExecutionJobId) : Js (Option TaskModel) := do
  let rows ← findTasks 0 2 (jobIdEquals execJobId)
  match rows with
  | [] => pure none
  | [row] => pure (some row)
  | _ => Promise.reject (.duplicatePrimaryKey "task" execJobId)

def getTasksForScheduledJob (scheduledJob : ScheduledJobModel)
    (states : List TaskStateType) (limit : Nat) : Js (List TaskModel) :=
  findTasks 0 limit (taskOf scheduledJob.pk states)

/-- `markTaskState`: move a task out of the expected state, or reject. -/
def markTaskState (pk : PrimaryKeyType)
    (expectedCurrentState newState : TaskStateType) (extra : TaskPatch) :
    Js Unit := do
  let count ← updateTask pk { extra with state := some newState }
    (stateEquals expectedCurrentState)
  if count > 0 then pure ()
  else do
    let tasks ← findTasks 0 1 (tkPkEquals pk)
    match tasks with
    | task :: _ => Promise.reject (.invalidTaskState task newState expectedCurrentState)
    | [] => Promise.reject (.taskNotFound pk)

def markTaskQueued (task : TaskModel) (now : Date) : Js Unit :=
  markTaskState task.pk .pending .queued { executionQueued := some (some now) }

def markTaskStarted (task : TaskModel) (now : Date) (executionId : ExecutionJobId) :
    Js Unit :=
  markTaskState task.pk .queued .started
    { executionStarted := some (some now), executionJobId := some (some executionId) }

def markTaskStartFailed (task : TaskModel) (now : Date) (reason : String) : Js Unit :=
  markTaskState task.pk .queued .startError
    { executionStarted := some (some now), completedInfo := some (some reason) }

def markTaskCompleted (task : TaskModel) (now : Date) (info : String) : Js Unit :=
  markTaskState task.pk .started .completed
    { executionFinished := some (some now), completedInfo := some (some info) }

def markTaskSkipped (task : TaskModel) (now : Date) : Js Unit :=
  markTaskState task.pk .queued .completed
    { executionFinished := some (some now)
      completedInfo := some (some "\x7b\"skipped\":true\x7d") }

def markTaskFailed (task : TaskModel) (now : Date)
    (expectedCurrentState failedState : TaskStateType) (info : String) : Js Unit :=
  markTaskState task.pk expectedCurrentState failedState
    { executionFinished := some (some now), completedInfo := some (some info) }

end TernScheduler
