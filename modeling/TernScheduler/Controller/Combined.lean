import TernScheduler.Controller.Schedule

/-!
# Scheduled jobs and tasks together

`controller/combined.ts`: the operations that coordinate a scheduled job with
its tasks.  Each is the promise chain of the source, in the order of the source.
-/

namespace TernScheduler

open Interleaving

/-- `DUPLICATE_PENDING_TASK_LIMIT`. -/
def duplicatePendingTaskLimit : Nat := 15

/-- The task a schedule is given: pending, and nothing done yet. -/
def pendingTask (pk : PrimaryKeyType) (schedule : PrimaryKeyType) (now : Date)
    (executeAt : JsDate) : TaskModel where
  pk := pk
  schedule := schedule
  state := .pending
  createdOn := now
  executeAt := executeAt
  executionJobId := none
  executionQueued := none
  executionStarted := none
  executionFinished := none
  nextTimeoutCheck := none
  retryIndex := 0
  completedInfo := none

/-- `createScheduledJob`.  The first task needs no check for duplicates. -/
def createScheduledJob (node : Node) (schedule : NewScheduledJob) (now : Date) :
    Js (Option PrimaryKeyType) :=
  createScheduledJobAlone node schedule now fun sched createdTaskPk => do
    let strat ← Promise.ofExcept
      (node.taskCreationReg.get schedule.taskCreationStrategy)
    let taskRunDate ← Promise.ofExcept
      (strat.createFromNewSchedule now sched.toScheduledJobModel)
    let task := pendingTask createdTaskPk sched.pk now taskRunDate
    addTask task
    emit (.taskCreated task)
    pure (.value { value := sched.pk })

/-- `addTaskDuplicateCheck`: no task is added when one is pending already. -/
def addTaskDuplicateCheck (now : Date) (sched : ScheduledJobDataModel)
    (task : TaskModel) (executeAt : JsDate) : Js (LeaseExitStateValue TaskModel) := do
  let queuedTasks ← getTasksForScheduledJob sched.toScheduledJobModel [.pending]
    duplicatePendingTaskLimit
  if queuedTasks.length > 0 then do
    emit (.taskFinished task)
    pure { value := task }
  else do
    let newTaskPk ← createPrimaryKeyStrat
    let newTask := pendingTask newTaskPk sched.pk now executeAt
    addTask newTask
    emit (.taskCreated newTask)
    emit (.taskFinished task)
    pure { value := newTask }

def shouldSkipTask (node : Node) (sched : ScheduledJobDataModel)
    (taskToRun : TaskModel) : Js Bool := do
  let dup ← Promise.ofExcept (node.duplicateTaskReg.get sched.duplicateStrategy)
  let runningTasks ← getTasksForScheduledJob sched.toScheduledJobModel [.started]
    dup.duplicateFindCount
  Promise.ofExcept (dup.shouldSkip sched.toScheduledJobModel runningTasks taskToRun)

/-- The time of a retry: `now` with its seconds moved on. -/
def retryTime (zone : TimeZone) (now : Date) (retryInSeconds : JsNumber) : JsDate :=
  let date := JsDate.cloneDateTime (some now)
  date.setSeconds zone (retryInSeconds.bind (date.get zone.getSeconds).add)

/-- An exit value whose task may be absent. -/
def LeaseExitStateValue.nullable {α : Type} (exit : LeaseExitStateValue α) :
    LeaseExitStateValue (Option α) where
  value := some exit.value
  pasture := exit.pasture
  pastureReason := exit.pastureReason

/-- `retryTask`: what follows a failed task. -/
def retryTask (node : Node) (now : Date) (sched : ScheduledJobDataModel)
    (task : TaskModel) (failureReason : String) :
    Js (LeaseExitStateValue (Option TaskModel)) := do
  let retry ← Promise.ofExcept (node.retryReg.get sched.retryStrategy)
  let retryInSeconds ← Promise.ofExcept
    (retry sched.toScheduledJobModel task failureReason)
  match retryInSeconds with
  | none => do
      let taskCreationStrategy ← Promise.ofExcept
        (node.taskCreationReg.get sched.taskCreationStrategy)
      match taskCreationStrategy with
      | .finish _ createAfterTaskFinishes => do
          let taskRunDate ← Promise.ofExcept
            (createAfterTaskFinishes now sched.toScheduledJobModel)
          match taskRunDate with
          | .disable => pure { value := none, pasture := true }
          | .queue runAt => do
              let exit ← addTaskDuplicateCheck now sched task runAt
              pure exit.nullable
      | _ => do
          emit (.taskFinished task)
          pure { value := some task }
  | some seconds => do
      let exit ← addTaskDuplicateCheck now sched task (retryTime node.zone now seconds)
      pure exit.nullable

/-- The launch of `startTask`: nothing when the task is skipped. -/
def launchTask (node : Node) (sched : ScheduledJobDataModel) (task : TaskModel) :
    Js (Option JobExecutionState) := do
  let shouldSkip ← shouldSkipTask node sched task
  if shouldSkip then pure none
  else
    Promise.handle
      (do
        let execStatus ← startJob task.pk sched.jobName sched.jobContext
        pure (some execStatus))
      fun e => do
        -- The job framework could not perform its actions; rejecting skips
        -- the creation of the next task.
        let failedAt ← currentTimeUTC
        markTaskStartFailed task failedAt (e.text node.zone)
        Promise.reject e

/-- What `startTask` records of the launch. -/
def recordLaunch (node : Node) (now : Date) (sched : ScheduledJobDataModel)
    (task : TaskModel) :
    Option JobExecutionState → Js (LeaseExitStateValue (Option TaskModel))
  | none => do
      let skippedAt ← currentTimeUTC
      markTaskSkipped task skippedAt
      pure { value := some task }
  | some (.completed jobId result) => do
      let startedAt ← currentTimeUTC
      markTaskStarted task startedAt jobId
      let completedAt ← currentTimeUTC
      markTaskCompleted task completedAt (result.getD "")
      pure { value := some task }
  | some (.didNotStart result) => do
      let failedAt ← currentTimeUTC
      markTaskStartFailed task failedAt (result.getD "")
      pure { value := none, pasture := true }
  | some (.failed jobId result) => do
      let startedAt ← currentTimeUTC
      markTaskStarted task startedAt jobId
      let failedAt ← currentTimeUTC
      -- The task was started by the call above, and this expects it queued.
      markTaskFailed task failedAt .queued .failed (result.getD "")
      retryTask node now sched task (result.getD "")
  | some (.running jobId) => do
      let startedAt ← currentTimeUTC
      markTaskStarted task startedAt jobId
      emit (.taskRunning task jobId)
      pure { value := some task }
  | some (.other state) =>
      Promise.reject (.invalidJobExecutionStatus (.other state))

/-- The follow-up of `startTask`, whose outcome the source drops. -/
def addFollowUp (node : Node) (now : Date) (sched : ScheduledJobDataModel)
    (currentTask : LeaseExitStateValue (Option TaskModel)) : Js Unit :=
  if currentTask.pasture then pure ()
  else
    match currentTask.value with
    | none => pure ()
    | some task => do
        let taskCreationStrategy ← Promise.ofExcept
          (node.taskCreationReg.get sched.taskCreationStrategy)
        match taskCreationStrategy with
        | .start _ createAfterTaskStarts => do
            let taskRunDate ← Promise.ofExcept
              (createAfterTaskStarts now sched.toScheduledJobModel)
            match taskRunDate with
            | .disable => pure ()
            | .queue runAt => do
                let _exit ← addTaskDuplicateCheck now sched task runAt
                pure ()
        | _ => pure ()

/-- The work `startTask` does under the lease. -/
def startTaskInLease (node : Node) (task : TaskModel) (now : Date)
    (sched : ScheduledJobDataModel) : Js (LeaseExitState Unit) := do
  markTaskQueued task now
  let execStatus ← launchTask node sched task
  let currentTask ← recordLaunch node now sched task execStatus
  addFollowUp node now sched currentTask
  pure (.value { value := () })

def startTask (node : Node) (task : TaskModel) (now : Date) : Js Unit := do
  Promise.handle
    (do
      let _exit ← runUpdateInLease node .startTask task.schedule (some task.pk) now
        fun sched _ => startTaskInLease node task now sched
      pure ())
    fun e =>
      match e with
      | .leaseNotObtained _ _ leaseOwner _ => emit (.taskStartNoLease task leaseOwner)
      | e => Promise.reject e

/-- The work `taskFinished` does under the lease. -/
def taskFinishedInLease (node : Node) (task : TaskModel) (result : JobExecutionState)
    (now : Date) (sched : ScheduledJobDataModel) :
    Js (LeaseExitState (Option TaskModel)) :=
  match result with
  | .failed _ info => do
      markTaskFailed task now .started .completeError (info.getD "")
      let exit ← retryTask node now sched task (info.getD "")
      pure (.value exit)
  | .completed _ info => do
      markTaskCompleted task now (info.getD "")
      emit (.taskFinished task)
      let taskCreationStrategy ← Promise.ofExcept
        (node.taskCreationReg.get sched.taskCreationStrategy)
      match taskCreationStrategy with
      | .finish _ createAfterTaskFinishes => do
          let taskRunDate ← Promise.ofExcept
            (createAfterTaskFinishes now sched.toScheduledJobModel)
          match taskRunDate with
          | .disable => pure (.value { value := none, pasture := true })
          | .queue runAt => do
              let _exit ← addTaskDuplicateCheck now sched task runAt
              pure (.value { value := none })
      | _ => pure (.value { value := none })
  | other => Promise.reject (.invalidJobExecutionStatus other)

/-- What `taskFinished` does with the task it has found. -/
def finishFoundTask (node : Node) (task : TaskModel) (result : JobExecutionState)
    (now : Date) : Js Unit :=
  Promise.handle
    (do
      let _exit ← runUpdateInLease node .endTask task.schedule (some task.pk) now
        fun sched _ => taskFinishedInLease node task result now sched
      pure ())
    fun e =>
      match e with
      | .leaseNotObtained _ _ leaseOwner _ =>
          emit (.taskFinishedNoLease task leaseOwner result)
      | .invalidTaskState _ newState _ =>
          emit (.taskFinishedNotUpdated task newState result)
      | e => Promise.reject e

/-- `taskFinished`.  The throw on a running state is a rejection here. -/
def taskFinished (node : Node) (execJobId : ExecutionJobId)
    (result : JobExecutionState) (now : Date) : Js Unit :=
  match result with
  | .running jobId =>
      Promise.reject (.tern
        ("invalid job execution state " ++ (JobExecutionState.running jobId).stringify))
  | result => do
      let task ← getTaskByExecutionJobId execJobId
      match task with
      | none => Promise.reject (.taskNotFound execJobId)
      | some task => finishFoundTask node task result now

def disableSchedule (node : Node) (schedule : ScheduledJobModel)
    (reason : Option String) (now : Date) : Js Unit := do
  let _exit ← runUpdateInLease node .pasture schedule.pk none now fun _ _ =>
    pure (.value { value := (), pasture := true, pastureReason := orNull reason })
  pure ()

end TernScheduler
