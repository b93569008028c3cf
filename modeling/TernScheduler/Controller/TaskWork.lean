import TernScheduler.System

/-!
# The operations of the calls

What `startTask` and `taskFinished` do under their lease is made of few kinds of
operations: reads and moves of tasks, new tasks, the launch, the clock, keys and events.

* `WorksWithin P` says that all of these kinds are in `P`.
* `WorksWithin.uses_startTaskInLease` and `WorksWithin.uses_taskFinishedInLease` conclude
  that the work uses operations in `P` only.
* `AllowsCalls P` is what it takes for all operations of every call to be in `P`, which is
  `AllowsCalls.uses_program`.
-/

namespace TernScheduler

open Interleaving

/-- The operations of the work on tasks of the job are in `P`.  No move goes to
`fail-restarted`. -/
structure WorksWithin (P : Operation → Prop) (schedule : PrimaryKeyType) (now : Date) :
    Prop where
  find : ∀ limit conditional, P (outside (.findTasks 0 limit conditional))
  move : ∀ (pk : PrimaryKeyType) (expected newState : TaskStateType) (extra : TaskPatch),
    newState ≠ .failRestarted →
      P (outside (.updateTask pk { extra with state := some newState } (stateEquals expected)))
  create : ∀ pk executeAt, P (outside (.createTask (pendingTask pk schedule now executeAt)))
  launch : ∀ taskId jobName context, P (outside (.startJob taskId jobName context))
  clock : P (outside .currentTimeUTC)
  key : P (outside .createPrimaryKey)
  emit : ∀ event, P (outside (.emit event))

namespace WorksWithin

variable {P : Operation → Prop} {sched : ScheduledJobDataModel} {now : Date} {node : Node}
  {task : TaskModel}

theorem uses_markTaskState {schedule : PrimaryKeyType} (h : WorksWithin P schedule now)
    {pk : PrimaryKeyType} {expected newState : TaskStateType} {extra : TaskPatch}
    (hState : newState ≠ .failRestarted) : (markTaskState pk expected newState extra).Uses P := by
  refine Promise.uses_bind (Promise.uses_perform (h.move pk expected newState extra hState) _)
    fun count => ?_
  split
  · exact Promise.uses_resolve ()
  · refine Promise.uses_bind (Promise.uses_perform (h.find _ _) _) fun tasks => ?_
    cases tasks with
    | nil => exact Promise.uses_reject _
    | cons found rest => exact Promise.uses_reject _

theorem uses_emit {schedule : PrimaryKeyType} (h : WorksWithin P schedule now)
    (event : SchedulerEvent) : (TernScheduler.emit event).Uses P :=
  Promise.uses_perform (h.emit event) _

theorem uses_currentTimeUTC {schedule : PrimaryKeyType} (h : WorksWithin P schedule now) :
    currentTimeUTC.Uses P :=
  Promise.uses_perform h.clock _

theorem uses_addTaskDuplicateCheck (h : WorksWithin P sched.pk now) {executeAt : JsDate} :
    (addTaskDuplicateCheck now sched task executeAt).Uses P := by
  refine Promise.uses_bind (Promise.uses_perform (h.find _ _) _) fun queuedTasks => ?_
  split
  · exact Promise.uses_bind (h.uses_emit _) fun _ => Promise.uses_resolve _
  · refine Promise.uses_bind (Promise.uses_perform h.key _) fun newTaskPk => ?_
    refine Promise.uses_bind (Promise.uses_perform (h.create newTaskPk executeAt) _) fun _ => ?_
    exact Promise.uses_bind (h.uses_emit _) fun _ =>
      Promise.uses_bind (h.uses_emit _) fun _ => Promise.uses_resolve _

theorem uses_ofExcept {α : Type} (answer : Except JsError α) :
    (Promise.ofExcept answer : Js α).Uses P := trivial

theorem uses_retryTask (h : WorksWithin P sched.pk now) {failureReason : String} :
    (retryTask node now sched task failureReason).Uses P := by
  refine Promise.uses_bind (uses_ofExcept _) fun retry => ?_
  refine Promise.uses_bind (uses_ofExcept _) fun retryInSeconds => ?_
  cases retryInSeconds with
  | some seconds =>
      exact Promise.uses_bind h.uses_addTaskDuplicateCheck fun _ => Promise.uses_resolve _
  | none =>
      refine Promise.uses_bind (uses_ofExcept _) fun strategy => ?_
      cases strategy with
      | finish create createAfterTaskFinishes =>
          refine Promise.uses_bind (uses_ofExcept _) fun taskRunDate => ?_
          cases taskRunDate with
          | disable => exact Promise.uses_resolve _
          | queue runAt =>
              exact Promise.uses_bind h.uses_addTaskDuplicateCheck fun _ =>
                Promise.uses_resolve _
      | start create createAfterTaskStarts =>
          exact Promise.uses_bind (h.uses_emit _) fun _ => Promise.uses_resolve _
      | new create => exact Promise.uses_bind (h.uses_emit _) fun _ => Promise.uses_resolve _

theorem uses_launchTask {schedule : PrimaryKeyType} (h : WorksWithin P schedule now) :
    (launchTask node sched task).Uses P := by
  refine Promise.uses_bind (Promise.uses_bind (uses_ofExcept _) fun dup =>
    Promise.uses_bind (Promise.uses_perform (h.find _ _) _) fun _ => uses_ofExcept _)
      fun shouldSkip => ?_
  split
  · exact Promise.uses_resolve none
  · refine Promise.uses_handle (Promise.uses_bind (Promise.uses_perform (h.launch _ _ _) _)
      fun _ => Promise.uses_resolve _) fun reason => ?_
    exact Promise.uses_bind h.uses_currentTimeUTC fun _ =>
      Promise.uses_bind (h.uses_markTaskState (by decide)) fun _ => Promise.uses_reject reason

theorem uses_recordLaunch (h : WorksWithin P sched.pk now)
    (execStatus : Option JobExecutionState) :
    (recordLaunch node now sched task execStatus).Uses P := by
  -- Each record asks for the time and moves the task.
  have hMove : ∀ {α : Type} {expected newState : TaskStateType} {extra : Date → TaskPatch}
      {rest : Js α}, newState ≠ .failRestarted → rest.Uses P →
      (currentTimeUTC >>= fun at_ =>
        markTaskState task.pk expected newState (extra at_) >>= fun _ => rest).Uses P :=
    fun hState hRest => Promise.uses_bind h.uses_currentTimeUTC fun _ =>
      Promise.uses_bind (h.uses_markTaskState hState) fun _ => hRest
  cases execStatus with
  | none => exact hMove (by decide) (Promise.uses_resolve _)
  | some status =>
      cases status with
      | running jobId =>
          exact hMove (by decide) (Promise.uses_bind (h.uses_emit _) fun _ =>
            Promise.uses_resolve _)
      | didNotStart result => exact hMove (by decide) (Promise.uses_resolve _)
      | completed jobId result =>
          exact hMove (by decide) (hMove (by decide) (Promise.uses_resolve _))
      | failed jobId result => exact hMove (by decide) (hMove (by decide) h.uses_retryTask)
      | other state => exact Promise.uses_reject _

theorem uses_addFollowUp (h : WorksWithin P sched.pk now)
    (currentTask : LeaseExitStateValue (Option TaskModel)) :
    (addFollowUp node now sched currentTask).Uses P := by
  unfold addFollowUp
  split
  · exact Promise.uses_resolve ()
  · split
    · exact Promise.uses_resolve ()
    · refine Promise.uses_bind (uses_ofExcept _) fun strategy => ?_
      cases strategy with
      | start create createAfterTaskStarts =>
          refine Promise.uses_bind (uses_ofExcept _) fun taskRunDate => ?_
          cases taskRunDate with
          | disable => exact Promise.uses_resolve ()
          | queue runAt =>
              exact Promise.uses_bind h.uses_addTaskDuplicateCheck fun _ =>
                Promise.uses_resolve ()
      | finish create createAfterTaskFinishes => exact Promise.uses_resolve ()
      | new create => exact Promise.uses_resolve ()

theorem uses_startTaskInLease (h : WorksWithin P sched.pk now) :
    (startTaskInLease node task now sched).Uses P :=
  Promise.uses_bind (h.uses_markTaskState (by decide)) fun _ =>
    Promise.uses_bind h.uses_launchTask fun execStatus =>
      Promise.uses_bind (h.uses_recordLaunch execStatus) fun currentTask =>
        Promise.uses_bind (h.uses_addFollowUp currentTask) fun _ => Promise.uses_resolve _

/-- The operations of `taskFinished` under its lease. -/
theorem uses_taskFinishedInLease (h : WorksWithin P sched.pk now)
    (result : JobExecutionState) : (taskFinishedInLease node task result now sched).Uses P := by
  cases result with
  | failed jobId info =>
      exact Promise.uses_bind (h.uses_markTaskState (by decide)) fun _ =>
        Promise.uses_bind h.uses_retryTask fun _ => Promise.uses_resolve _
  | completed jobId info =>
      refine Promise.uses_bind (h.uses_markTaskState (by decide)) fun _ => ?_
      refine Promise.uses_bind (h.uses_emit _) fun _ => ?_
      refine Promise.uses_bind (uses_ofExcept _) fun strategy => ?_
      cases strategy with
      | finish create createAfterTaskFinishes =>
          refine Promise.uses_bind (uses_ofExcept _) fun taskRunDate => ?_
          cases taskRunDate with
          | disable => exact Promise.uses_resolve _
          | queue runAt =>
              exact Promise.uses_bind h.uses_addTaskDuplicateCheck fun _ =>
                Promise.uses_resolve _
      | start create createAfterTaskStarts => exact Promise.uses_resolve _
      | new create => exact Promise.uses_resolve _
  | running jobId => exact Promise.uses_reject _
  | didNotStart info => exact Promise.uses_reject _
  | other state => exact Promise.uses_reject _

end WorksWithin

/-! ## Whole calls -/

/-- The call writes the task table. -/
def Act.WritesTask : Act → Prop
  | .createTask _ | .updateTask .. => True
  | _ => False

/-- Everything but some writes of tasks is in `P`: no move to `fail-restarted` is needed,
nor a new task that is not a `pendingTask`. -/
structure AllowsCalls (P : Act → Prop) : Prop where
  other : ∀ act, ¬ act.WritesTask → P act
  move : ∀ (pk : PrimaryKeyType) (expected newState : TaskStateType) (extra : TaskPatch),
    newState ≠ .failRestarted →
      P (.updateTask pk { extra with state := some newState } (stateEquals expected))
  create : ∀ pk schedule now executeAt, P (.createTask (pendingTask pk schedule now executeAt))

/-- The kinds of call a label does not change. -/
theorem uses_inScope {α : Type} {P : Act → Prop} {scope : Scope} {promise : Js α}
    (h : promise.Uses fun op : Operation => P op.act) :
    (inScope scope promise).Uses fun op : Operation => P op.act := by
  have hRelabel : ∀ program : Prog signature (Except JsError α),
      program.Uses (fun op : Operation => P op.act) →
        (relabel scope program).Uses fun op : Operation => P op.act := by
    intro program hUses
    induction program with
    | ret value => trivial
    | call op next ih => exact ⟨hUses.1, fun reply => ih reply (hUses.2 reply)⟩
  exact hRelabel promise h

namespace AllowsCalls

variable {P : Act → Prop} {node : Node} {now : Date} {α : Type}

theorem uses_ask {β : Type} {act : Act} {answer : act.Reply → Except JsError β}
    (h : AllowsCalls P) (hOther : ¬ act.WritesTask) :
    (ask act answer).Uses fun op : Operation => P op.act :=
  ⟨h.other act hOther, fun _ => trivial⟩

theorem worksWithin (h : AllowsCalls P) (schedule : PrimaryKeyType) :
    WorksWithin (fun op : Operation => P op.act) schedule now where
  find _ _ := h.other _ id
  move := h.move
  create _ _ := h.create _ _ _ _
  launch _ _ _ := h.other _ id
  clock := h.other _ id
  key := h.other _ id
  emit _ := h.other _ id

theorem endsWithin (h : AllowsCalls P) (leaseOwner : LeaseIdType) (pk : PrimaryKeyType) :
    EndsWithin (fun op : Operation => P op.act) leaseOwner pk where
  find := h.other _ id
  emit _ := h.other _ id
  release _ _ := h.other _ id
  needsRepair _ _ _ := h.other _ id

theorem uses_settleLease {work : Js (LeaseExitState α)} {leaseOwner : LeaseIdType}
    (hWork : work.Uses fun op : Operation => P op.act) :
    (inScope (.callback leaseOwner) (settleLease work)).Uses fun op : Operation => P op.act :=
  uses_inScope (Promise.uses_handle hWork fun _ => Promise.uses_resolve _)

theorem uses_leaseAttempt (h : AllowsCalls P) {updateOperation : ScheduleUpdateStateType}
    {jobPk : PrimaryKeyType} {updateTaskPk : Option PrimaryKeyType} {leaseOwner : LeaseIdType} :
    (leaseAttempt node updateOperation jobPk updateTaskPk now leaseOwner).Uses
      fun op : Operation => P op.act :=
  Promise.uses_bind (h.uses_ask id) fun count =>
    uses_rejectUnlessUpdated (P := fun op : Operation => P op.act) (h.other _ id) _ count

theorem uses_retries (h : AllowsCalls P) {attempt previous : Js Unit} {delays : List Int}
    (hAttempt : attempt.Uses fun op : Operation => P op.act)
    (hPrevious : previous.Uses fun op : Operation => P op.act) :
    (delays.foldl (retryLease attempt) previous).Uses fun op : Operation => P op.act := by
  induction delays generalizing previous with
  | nil => exact hPrevious
  | cons delay delays ih =>
      refine ih (Promise.uses_handle (Promise.uses_handle hPrevious fun reason => ?_)
        fun _ => hAttempt)
      exact Promise.uses_bind (h.uses_ask id) fun _ => Promise.uses_reject reason

theorem uses_runUpdateInLease (h : AllowsCalls P) {updateOperation : ScheduleUpdateStateType}
    {jobPk : PrimaryKeyType} {updateTaskPk : Option PrimaryKeyType}
    {withLease : ScheduledJobDataModel → LeaseIdType → Js (LeaseExitState α)}
    (hWork : ∀ sched leaseOwner,
      (withLease sched leaseOwner).Uses fun op : Operation => P op.act) :
    (runUpdateInLease node updateOperation jobPk updateTaskPk now withLease).Uses
      fun op : Operation => P op.act := by
  refine Promise.uses_bind (h.uses_ask id) fun leaseOwner => ?_
  refine Promise.uses_bind (h.uses_retries h.uses_leaseAttempt h.uses_leaseAttempt) fun _ => ?_
  refine Promise.uses_bind (Promise.uses_bind (h.uses_ask id) fun _ => Promise.uses_resolve _)
    fun found => ?_
  cases found with
  | none => exact Promise.uses_reject _
  | some sched =>
      exact Promise.uses_bind (uses_settleLease (hWork sched leaseOwner)) fun result =>
        (h.endsWithin leaseOwner sched.pk).uses_closeLease now result

theorem uses_createScheduledJobAlone (h : AllowsCalls P) {scheduledJob : NewScheduledJob}
    {withLease : ScheduledJobDataModel → PrimaryKeyType → Js (LeaseExitState α)}
    (hWork : ∀ sched taskPk, (withLease sched taskPk).Uses fun op : Operation => P op.act) :
    (createScheduledJobAlone node scheduledJob now withLease).Uses
      fun op : Operation => P op.act := by
  refine Promise.uses_bind (h.uses_ask id) fun leaseOwner => ?_
  refine Promise.uses_bind (h.uses_ask id) fun schedPk => ?_
  refine Promise.uses_bind (h.uses_ask id) fun createdTaskPk => ?_
  refine Promise.uses_bind (Promise.uses_handle (Promise.uses_bind (h.uses_ask id) fun _ =>
    uses_settleLease (hWork _ _)) fun reason => ?_) fun result =>
      (h.endsWithin leaseOwner _).uses_closeLease now result
  refine Promise.uses_bind (Promise.uses_handle
    ((h.endsWithin leaseOwner schedPk).uses_needsRepair now false none) fun _ => ?_)
    fun _ => Promise.uses_reject _
  exact Promise.uses_bind (h.uses_ask id) fun _ => Promise.uses_reject _

theorem uses_createScheduledJob (h : AllowsCalls P) {schedule : NewScheduledJob} :
    (createScheduledJob node schedule now).Uses fun op : Operation => P op.act := by
  refine h.uses_createScheduledJobAlone fun sched createdTaskPk => ?_
  refine Promise.uses_bind (WorksWithin.uses_ofExcept _) fun strat => ?_
  refine Promise.uses_bind (WorksWithin.uses_ofExcept _) fun taskRunDate => ?_
  have hAdd : (addTask (pendingTask createdTaskPk sched.pk now taskRunDate)).Uses
      fun op : Operation => P op.act := ⟨h.create _ _ _ _, fun _ => trivial⟩
  refine Promise.uses_bind hAdd fun _ => ?_
  exact Promise.uses_bind (h.uses_ask id) fun _ => Promise.uses_resolve _

theorem uses_startTask (h : AllowsCalls P) {task : TaskModel} :
    (startTask node task now).Uses fun op : Operation => P op.act := by
  refine Promise.uses_handle (Promise.uses_bind (h.uses_runUpdateInLease fun sched _ =>
    (h.worksWithin sched.pk).uses_startTaskInLease) fun _ => Promise.uses_resolve ())
    fun reason => ?_
  split
  · exact h.uses_ask id
  · exact Promise.uses_reject _

theorem uses_taskFinished (h : AllowsCalls P) {execJobId : ExecutionJobId}
    {result : JobExecutionState} :
    (taskFinished node execJobId result now).Uses fun op : Operation => P op.act := by
  have hFound : (getTaskByExecutionJobId execJobId).Uses fun op : Operation => P op.act := by
    refine Promise.uses_bind (h.uses_ask id) fun rows => ?_
    split
    · exact Promise.uses_resolve none
    · exact Promise.uses_resolve _
    · exact Promise.uses_reject _
  unfold taskFinished
  split
  · exact Promise.uses_reject _
  · refine Promise.uses_bind hFound fun found => ?_
    cases found with
    | none => exact Promise.uses_reject _
    | some task =>
        refine Promise.uses_handle (Promise.uses_bind (h.uses_runUpdateInLease fun sched _ =>
          (h.worksWithin sched.pk).uses_taskFinishedInLease _) fun _ => Promise.uses_resolve ())
          fun reason => ?_
        split
        · exact h.uses_ask id
        · exact h.uses_ask id
        · exact Promise.uses_reject _

theorem uses_disableSchedule (h : AllowsCalls P) {schedule : ScheduledJobModel}
    {reason : Option String} :
    (disableSchedule node schedule reason now).Uses fun op : Operation => P op.act :=
  Promise.uses_bind (h.uses_runUpdateInLease fun _ _ => Promise.uses_resolve _) fun _ =>
    Promise.uses_resolve ()

theorem uses_performRepair (h : AllowsCalls P) {schedule : ScheduledJobDataModel} :
    (performRepair schedule).Uses fun op : Operation => P op.act := by
  have hAddTask : (repairAddTask schedule).Uses fun op : Operation => P op.act := by
    unfold repairAddTask
    split
    · exact Promise.uses_resolve _
    · split
      · refine Promise.uses_bind (h.uses_ask id) fun tasks => ?_
        split
        · exact Promise.uses_resolve _
        · exact Promise.uses_reject _
      · exact Promise.uses_bind (h.uses_ask id) fun _ => Promise.uses_reject _
  unfold performRepair
  split
  · exact hAddTask
  · split
    · exact Promise.uses_reject _
    · split
      · exact Promise.uses_reject _
      · split
        · exact Promise.uses_reject _
        · exact Promise.uses_bind (h.uses_ask id) fun _ => Promise.uses_resolve _

theorem uses_repairExpiredLease (h : AllowsCalls P) {jobPk : PrimaryKeyType}
    {leaseId : LeaseIdType} {leaseTimeSeconds : Int} :
    (repairExpiredLeaseForScheduledJob node.zone jobPk leaseId now leaseTimeSeconds).Uses
      fun op : Operation => P op.act := by
  refine Promise.uses_bind (Promise.uses_bind (h.uses_ask id) fun _ => Promise.uses_resolve _)
    fun found => ?_
  cases found with
  | none => exact Promise.uses_resolve none
  | some src =>
      refine Promise.uses_bind (h.uses_ask id) fun count => ?_
      refine Promise.uses_bind (h.uses_ask id) fun jobs => ?_
      cases jobs with
      | nil => exact Promise.uses_reject _
      | cons job rest =>
          refine (?_ : Promise.Uses _ (if count > 0 then pure (some job) else pure none))
          split
          · exact Promise.uses_resolve _
          · exact Promise.uses_resolve _

theorem uses_repairExpiredSchedule (h : AllowsCalls P) {srcSchedule : ScheduledJobModel} :
    (repairExpiredSchedule node srcSchedule now).Uses fun op : Operation => P op.act := by
  refine Promise.uses_bind (h.uses_ask id) fun leaseId => ?_
  refine Promise.uses_bind h.uses_repairExpiredLease fun found => ?_
  cases found with
  | none => exact Promise.uses_resolve ()
  | some schedule =>
      refine Promise.uses_handle (Promise.uses_bind (uses_inScope h.uses_performRepair)
        fun _ => (h.endsWithin leaseId srcSchedule.pk).uses_release _ _) fun reason => ?_
      exact Promise.uses_bind ((h.endsWithin leaseId srcSchedule.pk).uses_release _ _)
        fun _ => h.uses_ask id

/-- **The operations of every call.** -/
theorem uses_program (h : AllowsCalls P) (request : Request) :
    request.program.Uses fun op : Operation => P op.act := by
  obtain ⟨node, now, call⟩ := request
  cases call with
  | createScheduledJob schedule => exact h.uses_createScheduledJob
  | startTask task => exact Promise.uses_bind h.uses_startTask fun _ => Promise.uses_resolve _
  | taskFinished execJobId result =>
      exact Promise.uses_bind h.uses_taskFinished fun _ => Promise.uses_resolve _
  | disableSchedule schedule reason =>
      exact Promise.uses_bind h.uses_disableSchedule fun _ => Promise.uses_resolve _
  | repairExpiredSchedule srcSchedule =>
      exact Promise.uses_bind h.uses_repairExpiredSchedule fun _ => Promise.uses_resolve _

end AllowsCalls

end TernScheduler
