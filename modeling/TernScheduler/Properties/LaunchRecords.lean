import TernScheduler.Controller.Watched
import TernScheduler.System

/-!
# What a launch records

`startTask` records what the job framework reports by a chain of conditional moves of
the task.  Each move expects the state the one before it wrote, except one: the move of a
job that failed at once expects the task queued, although it was marked as started just
before.

* `undisturbedLaunch` are the surroundings in which nobody else touches the schedule and
  the store serves every call.
* `Launching` follows the job, the task and the report through the chain.
* `launch_recorded_iff` says which launches are recorded: all but those of jobs that are
  reported as failed.
-/

namespace TernScheduler

open Interleaving Database

/-! ## Launches nobody disturbs -/

/-- One of the four states of `executor/types.ts`. -/
def JobExecutionState.Known : JobExecutionState → Prop
  | .other _ => False
  | _ => True

/-- The other nodes touch neither the schedule nor its tasks. -/
structure LeavesSchedule (schedule : PrimaryKeyType) (db db' : Database) : Prop where
  job : db'.job schedule = db.job schedule
  tasks : ∀ pk row, row.schedule = schedule → (db'.task pk = some row ↔ db.task pk = some row)

/-- A key made for a new task is new, and a launch is answered with a known state. -/
def Act.Expected (db : Database) : (act : Act) → act.Reply → Prop
  | .createTask row, _ => db.task row.pk = none
  | .startJob .., reply => ∃ status, reply = .ok status ∧ status.Known
  | _, _ => True

/-- Nobody else touches the schedule, and a store call rejects only when its own condition
on the stored rows fails. -/
def undisturbedLaunch (reading : BeforeDateReading) (schedule : PrimaryKeyType) :
    Surroundings where
  reading := reading
  allowed seen op reply :=
    Answered reading seen.shared op.act reply ∧ op.act.Expected seen.shared reply
  others := LeavesSchedule schedule

/-- The strategy functions of the kind do not throw. -/
def TaskCreationStrategy.Answers : TaskCreationStrategy → Prop
  | .finish _ createAfterTaskFinishes =>
      ∀ now job, ∃ action, createAfterTaskFinishes now job = .ok action
  | .start _ createAfterTaskStarts =>
      ∀ now job, ∃ action, createAfterTaskStarts now job = .ok action
  | .new _ => True

/-- The strategies of the job are registered, and none of them throws. -/
structure StrategiesAnswer (node : Node) (job : NewScheduledJob) : Prop where
  duplicate : ∃ dup, node.duplicateTaskReg.get job.duplicateStrategy = .ok dup ∧
    ∀ sched running task, ∃ skip, dup.shouldSkip sched running task = .ok skip
  retry : ∃ retry, node.retryReg.get job.retryStrategy = .ok retry ∧
    ∀ sched task reason, ∃ answer, retry sched task reason = .ok answer
  creation : ∃ strategy, node.taskCreationReg.get job.taskCreationStrategy = .ok strategy ∧
    strategy.Answers

/-! ## What is recorded -/

/-- What the job framework answered to a launch. -/
def launchOf (exchange : Exchange signature) : Option JobExecutionState :=
  match exchange with
  | ⟨⟨_, .startJob ..⟩, .ok status⟩ => some status
  | _ => none

/-- The report of the launch, if there was one: a task that is skipped is not launched. -/
def launchReport (record : List (Exchange signature)) : Option JobExecutionState :=
  record.findSome? launchOf

/-- The state a task is left in by a launch with this report. -/
def recordedState : Option JobExecutionState → Option TaskStateType
  | none => some .completed
  | some (.running _) => some .started
  | some (.didNotStart _) => some .startError
  | some (.completed ..) => some .completed
  | some (.failed ..) => some .failed
  | some (.other _) => none

/-- The launch resolved, the task shows its report, and the schedule is free again and needs
no repair. -/
structure LaunchRecorded (task : TaskModel) (after : Seen) (result : Except JsError Unit) :
    Prop where
  resolves : result = .ok ()
  state : ∃ stored, after.shared.task task.pk = some stored ∧
    recordedState (launchReport after.record) = some stored.state
  unleased : ∃ row, after.shared.job task.schedule = some row ∧ row.updateState = none ∧
    row.leaseOwner = none ∧ row.leaseExpires = none ∧ row.repairState = none

/-- The job framework reported that the job has failed. -/
def ReportedFailed (record : List (Exchange signature)) : Prop :=
  ∃ jobId result, launchReport record = some (.failed jobId result)

theorem launchReport_append (record : List (Exchange signature))
    (exchange : Exchange signature) :
    launchReport (record ++ [exchange]) = (launchReport record).or (launchOf exchange) := by
  simp only [launchReport, List.findSome?_append, List.findSome?_singleton]

/-! ## The stages of a launch -/

/-- What a launch shows so far: the state of the task, and the report. -/
structure Shown (schedule pk : PrimaryKeyType) (state : TaskStateType)
    (report : Option JobExecutionState) (seen : Seen) : Prop where
  task : ∃ stored, seen.shared.task pk = some stored ∧ stored.schedule = schedule ∧
    stored.state = state
  report : launchReport seen.record = report

/-- Where a launch stands: what it shows, and the row of the job. -/
structure Launching (schedule pk : PrimaryKeyType) (row : ScheduledJobDataModel)
    (state : TaskStateType) (report : Option JobExecutionState) (seen : Seen) : Prop
    extends Shown schedule pk state report seen where
  job : seen.shared.job schedule = some row

variable {reading : BeforeDateReading} {schedule pk : PrimaryKeyType}
  {row : ScheduledJobDataModel} {state : TaskStateType} {report : Option JobExecutionState}
  {seen : Seen} {scope : Option Scope} {α : Type}

theorem Shown.kept (h : Shown schedule pk state report seen) {before : Database}
    (hOthers : LeavesSchedule schedule seen.shared before) :
    Shown schedule pk state report ⟨before, seen.record⟩ := by
  obtain ⟨stored, hStored, hSchedule, hState⟩ := h.task
  exact ⟨⟨stored, (hOthers.tasks pk stored hSchedule).mpr hStored, hSchedule, hState⟩,
    h.report⟩

theorem Launching.kept (h : Launching schedule pk row state report seen) {before : Database}
    (hOthers : LeavesSchedule schedule seen.shared before) :
    Launching schedule pk row state report ⟨before, seen.record⟩ :=
  ⟨h.toShown.kept hOthers, hOthers.job.trans h.job⟩

/-- An operation that does not write the task and launches nothing shows nothing new. -/
theorem Shown.step {before after : Database} {act : Act} {reply : act.Reply}
    (h : Shown schedule pk state report ⟨before, seen.record⟩)
    (hTask : after.task pk = before.task pk)
    (hLaunch : launchOf ⟨⟨scope.getD .outside, act⟩, reply⟩ = none) :
    Shown schedule pk state report (Seen.step seen scope act reply after) := by
  obtain ⟨stored, hStored, hSchedule, hState⟩ := h.task
  refine ⟨⟨stored, hTask.trans hStored, hSchedule, hState⟩, ?_⟩
  rw [Seen.step_record, launchReport_append, hLaunch, Option.or_none]
  exact h.report

theorem Launching.step {before after : Database} {act : Act} {reply : act.Reply}
    (h : Launching schedule pk row state report ⟨before, seen.record⟩)
    (hJob : after.job schedule = before.job schedule) (hTask : after.task pk = before.task pk)
    (hLaunch : launchOf ⟨⟨scope.getD .outside, act⟩, reply⟩ = none) :
    Launching schedule pk row state report (Seen.step seen scope act reply after) :=
  ⟨h.toShown.step hTask hLaunch, hJob.trans h.job⟩

section Calls

variable {resolved : Seen → α → Prop} {rejected : Seen → JsError → Prop}

/-- A call that the store has no part in, other than the launch itself. -/
theorem launching_environment {act : Act} {answer : act.Reply → Except JsError α}
    (hOther : ¬ act.IsStoreCall)
    (hLaunch : ∀ reply, launchOf ⟨⟨scope.getD .outside, act⟩, reply⟩ = none)
    (h : Launching schedule pk row state report seen)
    (hDone : ∀ reply after, Launching schedule pk row state report after →
      Meets (undisturbedLaunch reading schedule) scope resolved rejected after
        (Promise.ofExcept (answer reply))) :
    Meets (undisturbedLaunch reading schedule) scope resolved rejected seen (ask act answer) :=
  meets_environment hOther fun _ reply hOthers _ =>
    hDone reply _ ((h.kept hOthers).step rfl rfl (hLaunch reply))

theorem launching_emit {event : SchedulerEvent} {resolved : Seen → Unit → Prop}
    (h : Launching schedule pk row state report seen)
    (hDone : ∀ after, Launching schedule pk row state report after → resolved after ()) :
    Meets (undisturbedLaunch reading schedule) scope resolved rejected seen (emit event) :=
  launching_environment id (fun _ => rfl) h fun _ => hDone

theorem launching_currentTimeUTC {resolved : Seen → Date → Prop}
    (h : Launching schedule pk row state report seen)
    (hDone : ∀ now after, Launching schedule pk row state report after → resolved after now) :
    Meets (undisturbedLaunch reading schedule) scope resolved rejected seen currentTimeUTC :=
  launching_environment id (fun _ => rfl) h fun now => hDone now

theorem launching_findTasks {limit : Nat} {conditional : Conditional TaskColumn}
    {resolved : Seen → List TaskModel → Prop}
    (h : Launching schedule pk row state report seen)
    (hDone : ∀ rows after, Launching schedule pk row state report after →
      resolved after rows) :
    Meets (undisturbedLaunch reading schedule) scope resolved rejected seen
      (findTasks 0 limit conditional) := by
  refine meets_ask fun before reply after hOthers hAllowed hExec => ?_
  obtain rfl := hAllowed.1.findTasks_eq
  exact hDone _ _ ((h.kept hOthers).step (hExec.job_kept id schedule) (hExec.task_kept id pk) rfl)

/-- A new task of any schedule is another task. -/
theorem launching_addTask {newTask : TaskModel} {resolved : Seen → Unit → Prop}
    (h : Launching schedule pk row state report seen)
    (hDone : ∀ after, Launching schedule pk row state report after → resolved after ()) :
    Meets (undisturbedLaunch reading schedule) scope resolved rejected seen
      (addTask newTask) := by
  refine meets_ask fun before reply after hOthers hAllowed hExec => ?_
  obtain rfl := hAllowed.1.createTask_new hAllowed.2
  obtain ⟨stored, hStored, -⟩ := (h.kept hOthers).task
  have hTask : after.task pk = before.task pk := by
    cases hExec.taskEffect with
    | kept _ hTasks => exact hTasks pk
    | created _ hAbsent hTasks =>
        refine (hTasks pk).trans (if_neg ?_)
        rintro rfl
        rw [hStored] at hAbsent
        cases hAbsent
  exact hDone _ ((h.kept hOthers).step (hExec.job_kept id schedule) hTask rfl)

/-- A move of the task that finds it in the expected state. -/
theorem launching_markTaskState {newState : TaskStateType} {extra : TaskPatch}
    {resolved : Seen → Unit → Prop} (h : Launching schedule pk row state report seen)
    (hDone : ∀ after, Launching schedule pk row newState report after → resolved after ()) :
    Meets (undisturbedLaunch reading schedule) scope resolved rejected seen
      (markTaskState pk state newState extra) := by
  refine Promise.sat_bind.mpr (meets_ask fun before reply after hOthers hAllowed hExec => ?_)
  obtain ⟨stored, hStored, hSchedule, hState⟩ := (h.kept hOthers).task
  obtain ⟨count, rfl, hTasks⟩ := hExec.updateTask_served hAllowed.1 hStored
    ((holds_stateEquals state).mpr hState)
  refine hDone _ ⟨⟨⟨_, (hTasks pk).trans (if_pos rfl), hSchedule, rfl⟩, ?_⟩,
    (hExec.job_kept id schedule).trans (h.kept hOthers).job⟩
  rw [Seen.step_record, launchReport_append, h.report]
  exact Option.or_none

/-- A move of the task that expects it in another state rejects, with an error object. -/
theorem launching_markTaskState_missed {expected newState : TaskStateType}
    {extra : TaskPatch} {resolved : Seen → Unit → Prop}
    (h : Launching schedule pk row state report seen) (hOther : state ≠ expected)
    (hDone : ∀ after reason, Launching schedule pk row state report after →
      reason.truthy = true → rejected after reason) :
    Meets (undisturbedLaunch reading schedule) scope resolved rejected seen
      (markTaskState pk expected newState extra) := by
  refine Promise.sat_bind.mpr (meets_ask fun before reply after hOthers hAllowed hExec => ?_)
  obtain ⟨stored, hStored, hSchedule, hState⟩ := (h.kept hOthers).task
  have hMissed : (stateEquals expected).holds reading stored.column = false := by
    rw [Bool.eq_false_iff]
    exact fun hHolds => hOther (hState ▸ (holds_stateEquals expected).mp hHolds)
  obtain rfl := hAllowed.1.updateTask_missed hStored hMissed
  refine Promise.sat_bind.mpr (launching_findTasks ((h.kept hOthers).step
    (hExec.job_kept id schedule) (hExec.task_kept id pk) rfl) fun rows last hLast => ?_)
  cases rows with
  | nil => exact hDone _ _ hLast rfl
  | cons found rest => exact hDone _ _ hLast rfl

/-- The launch itself. -/
theorem launching_startJob {taskId jobName context : String}
    {resolved : Seen → JobExecutionState → Prop}
    (h : Launching schedule pk row state none seen)
    (hDone : ∀ status after, status.Known →
      Launching schedule pk row state (some status) after → resolved after status) :
    Meets (undisturbedLaunch reading schedule) scope resolved rejected seen
      (startJob taskId jobName context) := by
  refine meets_ask fun before reply after hOthers hAllowed hExec => ?_
  obtain ⟨status, rfl, hKnown⟩ := hAllowed.2
  obtain ⟨stored, hStored, hSchedule, hState⟩ := (h.kept hOthers).task
  refine hDone status _ hKnown ⟨⟨⟨stored, (hExec.task_kept id pk).trans hStored, hSchedule,
    hState⟩, ?_⟩, (hExec.job_kept id schedule).trans (h.kept hOthers).job⟩
  rw [Seen.step_record, launchReport_append, h.report]
  rfl

/-! ## The work under the lease -/

variable {node : Node} {now : Date} {task : TaskModel} {sched : ScheduledJobDataModel}

theorem launching_addTaskDuplicateCheck {executeAt : JsDate} {given : TaskModel}
    {resolved : Seen → LeaseExitStateValue TaskModel → Prop}
    (h : Launching schedule pk row state report seen)
    (hDone : ∀ exit after, Launching schedule pk row state report after →
      resolved after exit) :
    Meets (undisturbedLaunch reading schedule) scope resolved rejected seen
      (addTaskDuplicateCheck now sched given executeAt) := by
  refine Promise.sat_bind.mpr (launching_findTasks h fun queuedTasks found hFound => ?_)
  split
  · refine Promise.sat_bind.mpr (launching_emit hFound fun after hAfter => ?_)
    exact hDone _ after hAfter
  · refine Promise.sat_bind.mpr (launching_environment id (fun _ => rfl) hFound
      fun newTaskPk drawn hDrawn => ?_)
    refine Promise.sat_bind.mpr (launching_addTask hDrawn fun added hAdded => ?_)
    refine Promise.sat_bind.mpr (launching_emit hAdded fun told hTold => ?_)
    refine Promise.sat_bind.mpr (launching_emit hTold fun after hAfter => ?_)
    exact hDone _ after hAfter

theorem launching_addFollowUp {currentTask : LeaseExitStateValue (Option TaskModel)}
    {resolved : Seen → Unit → Prop} (hStrategies : StrategiesAnswer node sched.toNewScheduledJob)
    (h : Launching schedule pk row state report seen)
    (hDone : ∀ after, Launching schedule pk row state report after → resolved after ()) :
    Meets (undisturbedLaunch reading schedule) scope resolved rejected seen
      (addFollowUp node now sched currentTask) := by
  obtain ⟨strategy, hStrategy, hAnswers⟩ := hStrategies.creation
  unfold addFollowUp
  split
  · exact hDone seen h
  · split
    · exact hDone seen h
    · rw [hStrategy]
      cases strategy with
      | start create createAfterTaskStarts =>
          obtain ⟨action, hAction⟩ := hAnswers now sched.toScheduledJobModel
          refine Promise.sat_bind.mpr (Promise.sat_bind.mpr ?_)
          show Meets _ _ _ _ seen (Promise.ofExcept (createAfterTaskStarts now _))
          rw [hAction]
          cases action with
          | disable => exact hDone seen h
          | queue runAt =>
              exact Promise.sat_bind.mpr (launching_addTaskDuplicateCheck h
                fun _ after hAfter => hDone after hAfter)
      | finish create createAfterTaskFinishes => exact hDone seen h
      | new create => exact hDone seen h

/-- The launch is skipped, or it is reported with a known state. -/
theorem launching_launchTask {resolved : Seen → Option JobExecutionState → Prop}
    (hStrategies : StrategiesAnswer node sched.toNewScheduledJob)
    (h : Launching schedule pk row .queued none seen)
    (hDone : ∀ status after, (∀ known ∈ status, known.Known) →
      Launching schedule pk row .queued status after → resolved after status) :
    Meets (undisturbedLaunch reading schedule) scope resolved rejected seen
      (launchTask node sched task) := by
  obtain ⟨dup, hDup, hSkips⟩ := hStrategies.duplicate
  unfold launchTask shouldSkipTask
  rw [hDup]
  refine Promise.sat_bind.mpr (Promise.sat_bind.mpr (Promise.sat_bind.mpr
    (launching_findTasks h fun runningTasks found hFound => ?_)))
  obtain ⟨skip, hSkip⟩ := hSkips sched.toScheduledJobModel runningTasks task
  show Meets _ _ _ _ found (Promise.ofExcept (dup.shouldSkip _ runningTasks task))
  rw [hSkip]
  cases skip with
  | true => exact hDone none found (fun _ hNone => by cases hNone) hFound
  | false =>
      refine Promise.sat_handle.mpr (Promise.sat_bind.mpr (launching_startJob hFound
        fun status after hKnown hAfter => ?_))
      refine hDone (some status) after (fun known hSome => ?_) hAfter
      cases hSome
      exact hKnown

end Calls

/-- The task shows its report, and the report is not a failure. -/
def ReportRecorded (schedule pk : PrimaryKeyType) (row : ScheduledJobDataModel) (after : Seen) :
    Prop :=
  ∃ state report, Launching schedule pk row state report after ∧
    recordedState report = some state ∧ ∀ jobId result, report ≠ some (.failed jobId result)

/-- The job has failed at once. -/
def Stranded (schedule pk : PrimaryKeyType) (row : ScheduledJobDataModel) (after : Seen) :
    Prop :=
  ∃ state jobId result,
    Launching schedule pk row state (some (.failed jobId result)) after

section Work

variable {node : Node} {now : Date} {task : TaskModel} {sched : ScheduledJobDataModel}

theorem launching_recordLaunch (hKnown : ∀ known ∈ report, known.Known)
    (h : Launching schedule task.pk row .queued report seen) :
    Meets (undisturbedLaunch reading schedule) scope
      (fun after _ => ReportRecorded schedule task.pk row after)
      (fun after reason => Stranded schedule task.pk row after ∧ reason.truthy = true) seen
      (recordLaunch node now sched task report) := by
  have hRecorded : ∀ {state : TaskStateType} {after : Seen},
      Launching schedule task.pk row state report after → recordedState report = some state →
      (∀ jobId result, report ≠ some (.failed jobId result)) →
      ReportRecorded schedule task.pk row after :=
    fun hAfter hState hOther => ⟨_, _, hAfter, hState, hOther⟩
  cases report with
  | none =>
      refine Promise.sat_bind.mpr (launching_currentTimeUTC h fun skippedAt asked hAsked => ?_)
      refine Promise.sat_bind.mpr (launching_markTaskState hAsked fun after hAfter => ?_)
      exact hRecorded hAfter rfl (fun _ _ hNone => by cases hNone)
  | some status =>
      cases status with
      | running jobId =>
          refine Promise.sat_bind.mpr (launching_currentTimeUTC h fun startedAt asked hAsked => ?_)
          refine Promise.sat_bind.mpr (launching_markTaskState hAsked fun started hStarted => ?_)
          refine Promise.sat_bind.mpr (launching_emit hStarted fun after hAfter => ?_)
          exact hRecorded hAfter rfl (fun _ _ hOther => by cases hOther)
      | didNotStart result =>
          refine Promise.sat_bind.mpr (launching_currentTimeUTC h fun failedAt asked hAsked => ?_)
          refine Promise.sat_bind.mpr (launching_markTaskState hAsked fun after hAfter => ?_)
          exact hRecorded hAfter rfl (fun _ _ hOther => by cases hOther)
      | completed jobId result =>
          refine Promise.sat_bind.mpr (launching_currentTimeUTC h fun startedAt asked hAsked => ?_)
          refine Promise.sat_bind.mpr (launching_markTaskState hAsked fun started hStarted => ?_)
          refine Promise.sat_bind.mpr (launching_currentTimeUTC hStarted
            fun completedAt asked hAsked => ?_)
          refine Promise.sat_bind.mpr (launching_markTaskState hAsked fun after hAfter => ?_)
          exact hRecorded hAfter rfl (fun _ _ hOther => by cases hOther)
      | failed jobId result =>
          refine Promise.sat_bind.mpr (launching_currentTimeUTC h fun startedAt asked hAsked => ?_)
          refine Promise.sat_bind.mpr (launching_markTaskState hAsked fun started hStarted => ?_)
          refine Promise.sat_bind.mpr (launching_currentTimeUTC hStarted
            fun failedAt asked hAsked => ?_)
          -- The task is started by now, and this move expects it queued.
          refine Promise.sat_bind.mpr (launching_markTaskState_missed hAsked (by decide)
            fun after reason hAfter hTruthy => ?_)
          exact ⟨⟨_, jobId, result, hAfter⟩, hTruthy⟩
      | other state => exact (hKnown _ rfl).elim

/-- The work ends without a request, or rejects because the job has failed at once. -/
theorem launching_startTaskInLease (hStrategies : StrategiesAnswer node sched.toNewScheduledJob)
    (h : Launching schedule task.pk row .pending none seen) :
    Meets (undisturbedLaunch reading schedule) scope
      (fun after exit => ReportRecorded schedule task.pk row after ∧ exit = .value { value := () })
      (fun after reason => Stranded schedule task.pk row after ∧ reason.truthy = true) seen
      (startTaskInLease node task now sched) := by
  refine Promise.sat_bind.mpr (launching_markTaskState h fun queued hQueued => ?_)
  refine Promise.sat_bind.mpr (launching_launchTask hStrategies hQueued
    fun status launched hKnown hLaunched => ?_)
  refine Promise.sat_bind.mpr ((launching_recordLaunch hKnown hLaunched).mono ?_
    fun _ _ hStranded => hStranded)
  rintro recorded currentTask ⟨state, report, hRecorded, hState, hOther⟩
  refine Promise.sat_bind.mpr (launching_addFollowUp hStrategies hRecorded fun after hAfter => ?_)
  exact ⟨⟨state, report, hAfter, hState, hOther⟩, rfl⟩

/-! ## The lease -/

variable {leaseId : LeaseIdType}

/-- The row of the job while the launch holds its lease. -/
def launchRow (node : Node) (now : Date) (task : TaskModel) (leaseId : LeaseIdType)
    (row : ScheduledJobDataModel) : ScheduledJobDataModel :=
  grantedRow node .startTask (some task.pk) now leaseId row

/-- The lease of a job nobody holds is granted. -/
theorem launching_leaseAttempt (hFree : row.updateState = none)
    (h : Launching schedule pk row state report seen) :
    Meets (undisturbedLaunch reading schedule) none
      (fun after _ => Launching schedule pk (launchRow node now task leaseId row) state report
        after)
      (fun _ _ => False) seen
      (leaseAttempt node .startTask schedule (some task.pk) now leaseId) := by
  refine Promise.sat_bind.mpr (meets_ask fun before reply after hOthers hAllowed hExec => ?_)
  obtain ⟨count, rfl, hJobs⟩ := hExec.updateSchedule_served hAllowed.1 (h.kept hOthers).job
    (holds_notUpdating.mpr hFree)
  exact ⟨(h.toShown.kept hOthers).step (hExec.task_kept id pk) rfl,
    (hJobs schedule).trans (if_pos rfl)⟩

theorem launching_getScheduledJob {resolved : Seen → Option ScheduledJobDataModel → Prop}
    {rejected : Seen → JsError → Prop} (h : Launching schedule pk row state report seen)
    (hDone : ∀ after, Launching schedule pk row state report after →
      resolved after (some row)) :
    Meets (undisturbedLaunch reading schedule) scope resolved rejected seen
      (getScheduledJob schedule) := by
  refine Promise.sat_bind.mpr (meets_ask fun before reply after hOthers hAllowed hExec => ?_)
  have hBefore := h.kept hOthers
  -- A served read of a row that is there finds it.
  obtain ⟨found, rest, rfl⟩ := hAllowed.1.findSchedules_ne
    (by rw [hBefore.job]; exact Option.some_ne_none row)
  have hRows := hExec.findSchedules_pk
  rw [hBefore.job] at hRows
  obtain ⟨rfl, -⟩ := List.cons.inj hRows
  exact hDone _ (hBefore.step (hExec.job_kept id schedule) (hExec.task_kept id pk) rfl)

/-- Ending the lease writes no task and launches nothing. -/
theorem shown_closeLease {result : LeaseExitState α}
    (h : Shown schedule pk state report seen) :
    Prog.Ensures ((undisturbedLaunch reading schedule).calls none)
      (fun after _ => Shown schedule pk state report after) seen
      (closeLease sched leaseId now result) := by
  have hWithin : EndsWithin (fun op => ∀ reply : op.act.Reply,
      ¬ op.act.WroteTask reply ∧ launchOf ⟨op, reply⟩ = none) leaseId sched.pk :=
    ⟨fun _ => ⟨id, rfl⟩, fun _ _ => ⟨id, rfl⟩, fun _ _ _ => ⟨id, rfl⟩, fun _ _ _ _ => ⟨id, rfl⟩⟩
  refine Prog.Uses.ensures ?_ (hWithin.uses_closeLease now result) h
  rintro seen ⟨scope, act⟩ reply ⟨after, record⟩ hOp hShown ⟨⟨before, hOthers, -, hExec⟩, hRecord⟩
  obtain rfl : record = seen.record ++ [⟨⟨scope, act⟩, reply⟩] := hRecord
  show Shown schedule pk state report (Seen.step seen (some scope) act reply after)
  exact (hShown.kept hOthers).step (hExec.task_kept (hOp reply).1 pk) (hOp reply).2

/-- The task is left in the state of its report, and the schedule is free. -/
def LaunchDone (schedule pk : PrimaryKeyType) (after : Seen) : Prop :=
  ∃ state report row, Launching schedule pk row state report after ∧
    recordedState report = some state ∧ (∀ jobId result, report ≠ some (.failed jobId result)) ∧
    row.updateState = none ∧ row.leaseOwner = none ∧ row.leaseExpires = none ∧
    row.repairState = none

/-- The job has failed at once, and the schedule is left leased. -/
def LaunchStuck (schedule pk : PrimaryKeyType) (after : Seen) : Prop :=
  ∃ state jobId result row,
    Launching schedule pk row state (some (.failed jobId result)) after ∧ row.updateState ≠ none

theorem Launching.held (h : Launching schedule pk (launchRow node now task leaseId row) state
    report seen) : Held leaseId (launchRow node now task leaseId row) seen.shared where
  job := (pk_of_job h.job).symm ▸ h.job
  updating := Option.some_ne_none ScheduleUpdateStateType.startTask
  owner := rfl

theorem undisturbedLaunch_spares (leaseId : LeaseIdType) (schedule : PrimaryKeyType) :
    (undisturbedLaunch reading schedule).Spares leaseId schedule :=
  fun _ _ hOthers _ hJob _ => hOthers.job.trans hJob

theorem undisturbedLaunch_closes (leaseId : LeaseIdType) (schedule pk : PrimaryKeyType) :
    (undisturbedLaunch reading schedule).Closes leaseId pk :=
  fun _ _ _ hAllowed => hAllowed.1

/-- The end of the lease of a launch: the row is closed, and nothing else is shown. -/
theorem launching_closeLease {result : LeaseExitState α}
    (h : Launching schedule pk (launchRow node now task leaseId row) state report seen) :
    Meets (undisturbedLaunch reading schedule) none
      (fun after _ => result.asError = none ∧ Launching schedule pk
        (closedRow now (launchRow node now task leaseId row) result) state report after)
      (fun after reason => result.asError = some reason ∧ Launching schedule pk
        (closedRow now (launchRow node now task leaseId row) result) state report after)
      seen (closeLease (launchRow node now task leaseId row) leaseId now result) := by
  obtain rfl : (launchRow node now task leaseId row).pk = schedule := pk_of_job h.job
  refine Promise.Sat.mono (Promise.sat_and
    (meets_closeLease h.held rfl (undisturbedLaunch_spares leaseId _)
      (undisturbedLaunch_closes leaseId _ _)) (shown_closeLease h.toShown)) ?_ ?_
  · rintro after value ⟨⟨hResult, -, hJob⟩, hShown⟩
    exact ⟨hResult, hShown, hJob⟩
  · rintro after reason ⟨⟨hResult, hJob⟩, hShown⟩
    exact ⟨hResult, hShown, hJob⟩

/-- The whole lease of a launch. -/
theorem launching_runUpdateInLease {db : Database} {stored : TaskModel}
    (hTask : db.task task.pk = some stored) (hPending : stored.state = .pending)
    (hSchedule : stored.schedule = task.schedule) (hRow : db.job task.schedule = some row)
    (hFree : row.updateState = none) (hStrategies : StrategiesAnswer node row.toNewScheduledJob) :
    Meets (undisturbedLaunch reading task.schedule) none
      (fun after _ => LaunchDone task.schedule task.pk after)
      (fun after _ => LaunchStuck task.schedule task.pk after) ⟨db, []⟩
      (runUpdateInLease node .startTask task.schedule (some task.pk) now
        fun sched _ => startTaskInLease node task now sched) := by
  have hStart : Launching task.schedule task.pk row .pending none ⟨db, []⟩ :=
    ⟨⟨⟨stored, hTask, hSchedule, hPending⟩, rfl⟩, hRow⟩
  unfold runUpdateInLease
  refine Promise.sat_bind.mpr (launching_environment id (fun _ => rfl) hStart
    fun leaseId drawn hDrawn => ?_)
  -- Nobody holds the lease, so the first attempt is granted.
  have hGranted : Meets (undisturbedLaunch reading task.schedule) none
      (fun after _ => Launching task.schedule task.pk (launchRow node now task leaseId row)
        .pending none after)
      (fun _ _ => False) drawn
      (node.leaseBehavior.retrySecondsDelay.foldl
        (retryLease (leaseAttempt node .startTask task.schedule (some task.pk) now leaseId))
        (leaseAttempt node .startTask task.schedule (some task.pk) now leaseId)) :=
    meets_retries (I := fun _ => False) (fun _ hFalse => hFalse.elim)
      (fun _ _ _ hFalse _ => hFalse.elim) _ (launching_leaseAttempt hFree hDrawn)
  refine Promise.sat_bind.mpr (hGranted.mono ?_ fun _ _ hFalse => hFalse.elim)
  intro granted _ hLeased
  refine Promise.sat_bind.mpr (launching_getScheduledJob hLeased fun read hRead => ?_)
  have hWork : Meets (undisturbedLaunch reading task.schedule) (some (.callback leaseId)) _ _
      read (startTaskInLease node task now (launchRow node now task leaseId row)) :=
    launching_startTaskInLease hStrategies hRead
  refine Promise.sat_bind.mpr (meets_inScope (Promise.sat_handle.mpr (hWork.mono ?_ ?_)))
  · rintro worked exit ⟨⟨state, report, hRecorded, hState, hOther⟩, rfl⟩
    refine (launching_closeLease hRecorded).mono ?_ ?_
    · rintro after _ ⟨-, hAfter⟩
      exact ⟨state, report, _, hAfter, hState, hOther, rfl, rfl, rfl, rfl⟩
    · rintro after reason ⟨hNoError, -⟩
      cases hNoError
  · rintro worked reason ⟨⟨state, jobId, result, hStranded⟩, hTruthy⟩
    have hError : (LeaseExitState.error reason false none : LeaseExitState Unit).asError =
        some reason := if_pos hTruthy
    refine (launching_closeLease hStranded).mono ?_ ?_
    · rintro after _ ⟨hNone, -⟩
      rw [hError] at hNone
      cases hNone
    · rintro after _ ⟨-, hAfter⟩
      refine ⟨state, jobId, result, _, hAfter, ?_⟩
      rw [closedRow, hError]
      exact Option.some_ne_none ScheduleUpdateStateType.startTask

/-! ## Jobs that are not free -/

/-- The job is leased to somebody, or there is none. -/
structure Blocked (schedule : PrimaryKeyType) (initial : Option ScheduledJobDataModel)
    (seen : Seen) : Prop where
  job : seen.shared.job schedule = initial
  taken : ∀ row, initial = some row → row.updateState ≠ none

variable {initial : Option ScheduledJobDataModel}

theorem Blocked.step (h : Blocked schedule initial seen) {before after : Database} {act : Act}
    {reply : act.Reply} (hOthers : LeavesSchedule schedule seen.shared before)
    (hJob : after.job schedule = before.job schedule) :
    Blocked schedule initial (Seen.step seen scope act reply after) :=
  ⟨hJob.trans (hOthers.job.trans h.job), h.taken⟩

/-- Nobody gets the lease of such a job. -/
theorem blocked_leaseAttempt {updateTaskPk : Option PrimaryKeyType}
    (h : Blocked schedule initial seen) :
    Meets (undisturbedLaunch reading schedule) none (fun _ _ => False)
      (fun after _ => Blocked schedule initial after) seen
      (leaseAttempt node .startTask schedule updateTaskPk now leaseId) := by
  refine Promise.sat_bind.mpr (meets_ask fun before reply after hOthers hAllowed hExec => ?_)
  have hJob : after.job schedule = before.job schedule ∧
      ∀ count, reply ≠ Except.ok (count + 1) := by
    cases hExec.scheduleEffect with
    | kept hNone hJobs => exact ⟨hJobs schedule, fun count hCount => hNone (hCount ▸ trivial)⟩
    | updated _ _ _ _ row hRow hHolds =>
        exact absurd (holds_notUpdating.mp hHolds)
          (h.taken row ((hOthers.job.trans h.job).symm.trans hRow))
  have hAfter : Blocked schedule initial (Seen.step seen none
      (.updateSchedule schedule _ notUpdating) reply after) := h.step hOthers hJob.1
  rcases reply with reason | _ | count
  · exact hAfter
  · refine Promise.sat_bind.mpr (meets_ask fun last rows read hOthers hAllowed hExec => ?_)
    rcases rows with reason | _ | ⟨row, rest⟩ <;>
      exact hAfter.step hOthers (hExec.job_kept id schedule)
  · exact absurd rfl (hJob.2 count)

theorem blocked_runUpdateInLease {withLease : ScheduledJobDataModel → LeaseIdType →
    Js (LeaseExitState α)} (h : Blocked schedule initial seen)
    {updateTaskPk : Option PrimaryKeyType} :
    Meets (undisturbedLaunch reading schedule) none (fun _ _ => False)
      (fun after _ => Blocked schedule initial after) seen
      (runUpdateInLease node .startTask schedule updateTaskPk now withLease) := by
  refine Promise.sat_bind.mpr (meets_environment id fun before leaseId hOthers _ => ?_)
  refine Promise.sat_bind.mpr (Promise.Sat.mono (meets_retries
    (fun seen hSeen => blocked_leaseAttempt hSeen)
    (fun seen before delaySeconds hSeen hOthers => hSeen.step hOthers rfl) _
    (blocked_leaseAttempt (h.step hOthers rfl))) (fun _ _ => False.elim) fun _ _ h => h)

end Work

/-! ## The launch -/

section Launch

variable {node : Node} {now : Date} {task stored : TaskModel} {db : Database}

theorem LaunchStuck.reported {after : Seen} (h : LaunchStuck task.schedule task.pk after) :
    ReportedFailed after.record := by
  obtain ⟨state, jobId, failure, row, hLaunching, -⟩ := h
  exact ⟨jobId, failure, hLaunching.report⟩

theorem LaunchStuck.not_recorded {after : Seen} {result : Except JsError Unit}
    (h : LaunchStuck task.schedule task.pk after) : ¬ LaunchRecorded task after result := by
  obtain ⟨state, jobId, failure, row, hLaunching, hLeased⟩ := h
  intro hRecorded
  obtain ⟨found, hFound, hFree, -⟩ := hRecorded.unleased
  obtain rfl : found = row := Option.some.inj (hFound.symm.trans hLaunching.job)
  exact hLeased hFree

theorem Blocked.not_recorded {initial : Option ScheduledJobDataModel} {after : Seen}
    {result : Except JsError Unit} (h : Blocked task.schedule initial after) :
    ¬ LaunchRecorded task after result := by
  intro hRecorded
  obtain ⟨row, hRow, hFree, -⟩ := hRecorded.unleased
  exact h.taken row (h.job.symm.trans hRow) hFree

/-- **A launch is recorded as it was reported, exactly when the job was free and is not
reported as failed.** -/
theorem launch_recorded_iff {reading : BeforeDateReading} (hTask : db.task task.pk = some stored)
    (hPending : stored.state = .pending) (hSchedule : stored.schedule = task.schedule)
    (hStrategies : ∀ row, db.job task.schedule = some row →
      StrategiesAnswer node row.toNewScheduledJob) :
    Prog.Ensures ((undisturbedLaunch reading task.schedule).calls none)
      (fun after result => LaunchRecorded task after result ↔
        (∃ row, db.job task.schedule = some row ∧ row.updateState = none) ∧
          ¬ ReportedFailed after.record)
      ⟨db, []⟩ (startTask node task now) := by
  -- a job that is leased is not waited for with success: the call ends without a launch
  by_cases hFree : ∃ row, db.job task.schedule = some row ∧ row.updateState = none
  · obtain ⟨row, hRow, hUnleased⟩ := hFree
    have hStuck : ∀ {after : Seen} {result : Except JsError Unit},
        LaunchStuck task.schedule task.pk after → (LaunchRecorded task after result ↔
          (∃ row, db.job task.schedule = some row ∧ row.updateState = none) ∧
            ¬ ReportedFailed after.record) :=
      fun h => iff_of_false h.not_recorded fun hBoth => hBoth.2 h.reported
    refine meets_startTask ((launching_runUpdateInLease hTask hPending hSchedule hRow hUnleased
      (hStrategies row hRow)).mono ?_ ?_)
    · rintro after _ ⟨state, report, last, hAfter, hState, hOther, hClosed⟩
      refine iff_of_true ⟨rfl, ?_, last, hAfter.job, hClosed⟩ ⟨⟨row, hRow, hUnleased⟩, ?_⟩
      · obtain ⟨shown, hShown, -, rfl⟩ := hAfter.task
        exact ⟨shown, hShown, (congrArg recordedState hAfter.report).trans hState⟩
      · rintro ⟨jobId, result, hFailed⟩
        exact hOther jobId result (hAfter.report.symm.trans hFailed)
    · intro after reason hAfter
      refine ⟨hStuck hAfter, fun leaseOwner => ?_⟩
      obtain ⟨state, jobId, result, last, hLaunching, hLeased⟩ := hAfter
      exact launching_emit hLaunching fun told hTold =>
        hStuck ⟨state, jobId, result, last, hTold, hLeased⟩
  · have hBlocked : ∀ {after : Seen} {result : Except JsError Unit},
        Blocked task.schedule (db.job task.schedule) after →
        (LaunchRecorded task after result ↔
          (∃ row, db.job task.schedule = some row ∧ row.updateState = none) ∧
            ¬ ReportedFailed after.record) :=
      fun h => iff_of_false h.not_recorded fun hBoth => hFree hBoth.1
    have hStart : Blocked task.schedule (db.job task.schedule) ⟨db, []⟩ :=
      ⟨rfl, fun row hRow hUnleased => hFree ⟨row, hRow, hUnleased⟩⟩
    refine meets_startTask ((blocked_runUpdateInLease hStart).mono (fun _ _ => False.elim) ?_)
    intro after reason hAfter
    exact ⟨hBlocked hAfter, fun leaseOwner => meets_environment id fun before _ hOthers _ =>
      hBlocked (hAfter.step hOthers rfl)⟩

end Launch

theorem sampleNode_answers (strategy : TaskCreationStrategy) (hAnswers : strategy.Answers)
    (retrySecondsDelay : List Int) (job : NewScheduledJob) :
    StrategiesAnswer (sampleNode strategy retrySecondsDelay) job where
  duplicate := ⟨_, rfl, fun _ _ _ => ⟨_, rfl⟩⟩
  retry := ⟨_, rfl, fun _ _ _ => ⟨_, rfl⟩⟩
  creation := ⟨strategy, rfl, hAnswers⟩

theorem launch_recorded_iff_sample :
    Prog.Ensures ((undisturbedLaunch strictlyBefore "job").calls none)
      (fun after result => LaunchRecorded sampleTask after result ↔
        (∃ row, sampleLaunch.shared.job "job" = some row ∧ row.updateState = none) ∧
          ¬ ReportedFailed after.record)
      sampleLaunch (startTask (sampleNode sampleStart []) sampleTask 0) :=
  launch_recorded_iff (show _ = some sampleTask from rfl) rfl rfl fun row _ =>
    sampleNode_answers sampleStart (fun now _ => ⟨.queue (some now), rfl⟩) [] row.toNewScheduledJob

instance : DecidablePred JobExecutionState.Known
  | .other _ => isFalse id
  | .running _ | .didNotStart _ | .completed .. | .failed .. => isTrue trivial

instance (db : Database) : (act : Act) → (reply : act.Reply) →
    Decidable (act.Expected db reply)
  | .createTask row, _ => inferInstanceAs (Decidable (db.task row.pk = none))
  | .startJob .., .ok status =>
      decidable_of_iff status.Known
        ⟨fun hKnown => ⟨status, rfl, hKnown⟩, fun ⟨_, hSame, hKnown⟩ =>
          Except.ok.inj hSame ▸ hKnown⟩
  | .startJob .., .error _ => isFalse fun ⟨_, hSame, _⟩ => by cases hSame
  | .createSchedule _, _ | .findSchedules .., _ | .updateSchedule .., _ => isTrue trivial
  | .findTasks .., _ | .updateTask .., _ | .currentTimeUTC, _ => isTrue trivial
  | .createPrimaryKey, _ | .createLeaseId, _ | .retryDelay _, _ => isTrue trivial
  | .emit _, _ => isTrue trivial

instance (reading : BeforeDateReading) (schedule : PrimaryKeyType) (seen : Seen)
    (op : Operation) (reply : op.act.Reply) :
    Decidable ((undisturbedLaunch reading schedule).allowed seen op reply) :=
  inferInstanceAs (Decidable (Answered reading seen.shared op.act reply ∧
    op.act.Expected seen.shared reply))

/-- **A job that fails at once is not recorded.**  The launch of the sample task leaves the
task started and its job leased. -/
theorem failedLaunch_not_recorded :
    ¬ Prog.Ensures ((undisturbedLaunch strictlyBefore "job").calls none)
      (fun after result => LaunchRecorded sampleTask after result)
      sampleLaunch (startTask (sampleNode sampleStart []) sampleTask 0) := by
  intro hRecorded
  have hRun : ((startTask (sampleNode sampleStart []) sampleTask 0).run
      ((undisturbedLaunch strictlyBefore "job").respond none
        fun _ => { job := .ok (.failed "exec" none) }) sampleLaunch).any
      (fun last => (last.1.shared.job "job").any fun row => row.updateState ≠ none) = true := by
    decide +kernel
  obtain ⟨last, hLast, hLeased⟩ := (Option.any_eq_true _ _).mp hRun
  obtain ⟨row, hRow, hTaken⟩ := (Option.any_eq_true _ _).mp hLeased
  have hIdle : ∀ db, LeavesSchedule "job" db db := fun _ => ⟨rfl, fun _ _ _ => Iff.rfl⟩
  obtain ⟨found, hFound, hFree, -⟩ :=
    (Surroundings.ensures_respond hIdle hRecorded _ last hLast).unleased
  obtain rfl : found = row := Option.some.inj (hFound.symm.trans hRow)
  exact of_decide_eq_true hTaken hFree

end TernScheduler
