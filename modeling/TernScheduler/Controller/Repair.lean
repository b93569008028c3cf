import TernScheduler.Datastore.DataStore

/-!
# Repairing expired leases

`controller/repair.ts`: taking over an expired lease, deciding from the state
the lease was in what to do, and giving the job back.
-/

namespace TernScheduler

open Interleaving

structure ExitBehavior where
  pastureReason : Option String := none

/-- `TASK_FETCH_LIMIT`. -/
def taskFetchLimit : Nat := 100

/-- A string a repair rejects with: an empty string would be falsy. -/
def repairRejection (text : String) : JsError := .foreign (text ≠ "") text

def getPendingTasksForSchedule (schedule : ScheduledJobDataModel) :
    Js (List TaskModel) :=
  getTasksForScheduledJob schedule.toScheduledJobModel [.pending] taskFetchLimit

def getPendingOrActiveTasksForSchedule (schedule : ScheduledJobDataModel) :
    Js (List TaskModel) :=
  getTasksForScheduledJob schedule.toScheduledJobModel
    [.queued, .started, .completeQueued, .pending] taskFetchLimit

def repairAddTask (schedule : ScheduledJobDataModel) : Js ExitBehavior :=
  if schedule.pasture then
    pure { pastureReason := some ((orNull schedule.pastureReason).getD "<invalid state>") }
  else
    match orNull schedule.updateTaskPk with
    | some taskPk => do
        let tasks ← getPendingTasksForSchedule schedule
        if tasks.length > 0 then pure {}
        else
          Promise.reject (repairRejection
            ("task " ++ taskPk ++ " recorded: repair not implemented"))
    | none => do
        let _tasks ← getPendingOrActiveTasksForSchedule schedule
        Promise.reject (repairRejection
          ("task " ++ schedule.updateTaskPk.getD "null" ++
            " recorded: repair not implemented"))

/-- `repairStartTask`, `repairEndTask` and `repairPasture`. -/
def repairNotImplemented : Js ExitBehavior :=
  Promise.reject (repairRejection "not implemented")

/-- `performRepair`: what to do is decided by the state the lease was in. -/
def performRepair (schedule : ScheduledJobDataModel) : Js ExitBehavior :=
  if schedule.repairState = some ScheduleUpdateStateType.addTask.text then
    repairAddTask schedule
  else if schedule.repairState = some ScheduleUpdateStateType.startTask.text then
    repairNotImplemented
  else if schedule.repairState = some ScheduleUpdateStateType.endTask.text then
    repairNotImplemented
  else if schedule.repairState = some ScheduleUpdateStateType.pasture.text then
    repairNotImplemented
  else do
    emit (.internalError ("Internal Error: Schedule " ++ schedule.pk ++ " state [" ++
      schedule.repairState.getD "null" ++ "] unknown"))
    pure { pastureReason := some "Invalid internal state discovered during repair" }

def repairExpiredSchedule (node : Node) (srcSchedule : ScheduledJobModel)
    (now : Date) : Js Unit := do
  let leaseId ← leaseOwnerStrategy
  let schedule ← repairExpiredLeaseForScheduledJob node.zone srcSchedule.pk leaseId now
    node.leaseBehavior.leaseTimeSeconds
  match schedule with
  | none => pure ()
  | some schedule =>
      Promise.handle
        (do
          let exitBehavior ← inScope (.repair leaseId) (performRepair schedule)
          releaseScheduledJobLease leaseId srcSchedule.pk
            exitBehavior.pastureReason.isSome (orNull exitBehavior.pastureReason))
        fun e => do
          releaseScheduledJobLease leaseId srcSchedule.pk true
            (some (e.text node.zone))
          emit (.generalError e)

end TernScheduler
