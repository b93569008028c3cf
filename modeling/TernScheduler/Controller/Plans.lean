import TernScheduler.Controller.CourseCalls
import TernScheduler.Controller.TaskWork

/-!
# What a call does is planned by the row it reads

A call launches the job that the row of its schedule names, and gives the schedule
new tasks at the times its strategies answer for that row.  The contract of a call
says when it may do so, not what it launches or at which time; that is the subject of
the protocol here, whose state is the last row of the schedule table that the call
has read.

* `Planned` is the times the strategies of a node answer.
* `MayPlan` is the guard: the row a creation stores, the job a launch names, and the
  time of a new task.
* `Request.honors_plan` says that every call keeps to it.
-/

namespace TernScheduler

open Interleaving

/-- What a call has read and done that its plan depends on: the last row of the
schedule table it has read or created, with the condition it was looked up by, and
whether it has queued a task. -/
structure Plan where
  read : Option (Conditional ScheduledJobColumn × ScheduledJobDataModel) := none
  queued : Bool := false

/-- After one more call. -/
def Plan.next (plan : Plan) : (act : Act) → act.Reply → Plan
  | .findSchedules _ _ conditional, .ok (row :: _) =>
      { plan with read := some (conditional, row) }
  | .createSchedule row, .ok _ => { plan with read := some (sjPkEquals row.pk, row) }
  | .updateTask _ newValues _, .ok (_ + 1) =>
      { plan with queued := plan.queued || decide (newValues.state = some .queued) }
  | _, _ => plan

/-- `scheduledJob` as `createScheduledJobAlone` stores it. -/
def NewScheduledJob.stored (scheduledJob : NewScheduledJob) : NewScheduledJob :=
  { scheduledJob with
    previousSchedule := orNull scheduledJob.previousSchedule
    previousReason := orNull scheduledJob.previousReason }

/-- The times at which a call may give the schedule a new task: those its strategies
answer for the row it has read, and for a retry the time of the retry. -/
inductive Planned (request : Request) (sched : ScheduledJobDataModel) : JsDate → Prop
  | first (schedule : NewScheduledJob) (strat : TaskCreationStrategy) (runAt : JsDate)
      (hCall : request.call = .createScheduledJob schedule)
      (hDefinition : sched.toNewScheduledJob = schedule.stored)
      (hStrat : request.node.taskCreationReg.get schedule.taskCreationStrategy = .ok strat)
      (hAnswer : strat.createFromNewSchedule request.now sched.toScheduledJobModel =
        .ok runAt) :
      Planned request sched runAt
  | afterStart (task : TaskModel) (runAt : JsDate) (hCall : request.call = .startTask task)
      (hAnswer : request.node.afterStart request.now sched = some (.queue runAt)) :
      Planned request sched runAt
  | afterFinish (runAt : JsDate) (hCall : request.call.advances = true)
      (hAnswer : request.node.afterFinish request.now sched = some (.queue runAt)) :
      Planned request sched runAt
  | retry (task : TaskModel) (reason : String) (seconds : JsNumber)
      (hCall : request.call.advances = true)
      (hAnswer : request.node.retryAnswer sched task reason = some (some seconds)) :
      Planned request sched (retryTime request.node.zone request.now seconds)

/-- The call starts a task. -/
def Call.starts : Call → Bool
  | .startTask _ => true
  | _ => false

/-- The operations that a plan is about. -/
def Act.Plans : Act → Prop
  | .createSchedule _ | .findSchedules .. | .createTask _ | .startJob .. => True
  | _ => False

/-- The row `createScheduledJob` stores. -/
def newRow (request : Request) (schedule : NewScheduledJob) (leaseId : LeaseIdType)
    (pk taskPk : PrimaryKeyType) : ScheduledJobDataModel :=
  leasedRow request.node.zone (newScheduledJobModel schedule request.now pk taskPk) leaseId
    request.now request.node.leaseBehavior.leaseTimeSeconds

/-- What a call may store, launch and plan, given what it has read and done.  A task
is only followed by another one after it was queued. -/
def MayPlan (request : Request) (plan : Plan) : Act → Prop
  | .createSchedule row =>
      ∃ schedule leaseId pk taskPk, request.call = .createScheduledJob schedule ∧
        row = newRow request schedule leaseId pk taskPk
  | .startJob taskId jobName context =>
      ∃ task sched, request.call = .startTask task ∧ taskId = task.pk ∧
        plan.read = some (sjPkEquals task.schedule, sched) ∧
          jobName = sched.jobName ∧ context = sched.jobContext
  | .createTask row =>
      (request.call.starts = true → plan.queued = true) ∧
        ∃ asked sched pk runAt, plan.read = some (asked, sched) ∧
          Planned request sched runAt ∧ row = pendingTask pk sched.pk request.now runAt
  | _ => True

/-- The protocol of the plans. -/
def planProtocol (request : Request) : Protocol signature Plan where
  next plan operation reply := plan.next operation.act reply
  may plan operation := MayPlan request plan operation.act

theorem mayPlan_of_calm {request : Request} {plan : Plan} {act : Act}
    (hCalm : ¬ act.Plans) : MayPlan request plan act := by
  cases act <;> first | trivial | exact absurd trivial hCalm

/-! ## The work on a row -/

/-- The operations no plan is about are in `P`, and new tasks at planned times. -/
structure AddsAsPlanned (P : Act → Prop) (request : Request) (sched : ScheduledJobDataModel) :
    Prop where
  calm : ∀ act, ¬ act.Plans → P act
  create : ∀ pk runAt, Planned request sched runAt →
    P (.createTask (pendingTask pk sched.pk request.now runAt))

/-- The launch of the job the row names is in `P` as well. -/
structure WorksAsPlanned (P : Act → Prop) (request : Request) (sched : ScheduledJobDataModel) :
    Prop extends AddsAsPlanned P request sched where
  launch : ∀ task, request.call = .startTask task →
    P (.startJob task.pk sched.jobName sched.jobContext)

namespace AddsAsPlanned

variable {P : Act → Prop} {request : Request} {sched : ScheduledJobDataModel}
  {task : TaskModel} {α : Type}

theorem uses_ask (h : AddsAsPlanned P request sched) {act : Act}
    {answer : act.Reply → Except JsError α} (hCalm : ¬ act.Plans) :
    (ask act answer).Uses fun op : Operation => P op.act :=
  ⟨h.calm act hCalm, fun _ => trivial⟩

theorem uses_ofExcept (answer : Except JsError α) :
    (Promise.ofExcept answer : Js α).Uses fun op : Operation => P op.act := trivial

theorem uses_markTaskState (h : AddsAsPlanned P request sched) {pk : PrimaryKeyType}
    {expected newState : TaskStateType} {extra : TaskPatch} :
    (markTaskState pk expected newState extra).Uses fun op : Operation => P op.act := by
  refine Promise.uses_bind (h.uses_ask id) fun count => ?_
  split
  · exact Promise.uses_resolve ()
  · refine Promise.uses_bind (h.uses_ask id) fun tasks => ?_
    cases tasks with
    | nil => exact Promise.uses_reject _
    | cons found rest => exact Promise.uses_reject _

theorem uses_addTaskDuplicateCheck (h : AddsAsPlanned P request sched) {runAt : JsDate}
    (hPlanned : Planned request sched runAt) :
    (addTaskDuplicateCheck request.now sched task runAt).Uses
      fun op : Operation => P op.act := by
  refine Promise.uses_bind (h.uses_ask id) fun queuedTasks => ?_
  split
  · exact Promise.uses_bind (h.uses_ask id) fun _ => Promise.uses_resolve _
  · refine Promise.uses_bind (h.uses_ask id) fun newTaskPk => ?_
    refine Promise.uses_bind (Promise.uses_perform (h.create newTaskPk runAt hPlanned) _)
      fun _ => ?_
    exact Promise.uses_bind (h.uses_ask id) fun _ =>
      Promise.uses_bind (h.uses_ask id) fun _ => Promise.uses_resolve _

/-- What an answer of the strategy after a finish plans. -/
theorem planned_afterFinish (hCall : request.call.advances = true)
    {create : Date → ScheduledJobModel → Except JsError JsDate}
    {createAfterTaskFinishes : Date → ScheduledJobModel → Except JsError TaskCreationAction}
    {runAt : JsDate}
    (hStrategy : request.node.taskCreationReg.get sched.taskCreationStrategy =
      .ok (.finish create createAfterTaskFinishes))
    (hAnswer : createAfterTaskFinishes request.now sched.toScheduledJobModel =
      .ok (.queue runAt)) : Planned request sched runAt := by
  refine .afterFinish runAt hCall ?_
  simp [Node.afterFinish, hStrategy, hAnswer, Except.toOption]

theorem uses_answered {β : Type} {answer : Except JsError α} {rest : α → Js β}
    (hRest : ∀ value, answer = .ok value → (rest value).Uses fun op : Operation => P op.act) :
    ((Promise.ofExcept answer : Js α) >>= rest).Uses fun op : Operation => P op.act := by
  cases answer with
  | ok value => exact hRest value rfl
  | error e => exact Promise.uses_reject e

theorem uses_retryTask (h : AddsAsPlanned P request sched)
    (hCall : request.call.advances = true) {failureReason : String} :
    (retryTask request.node request.now sched task failureReason).Uses
      fun op : Operation => P op.act := by
  refine uses_answered fun retry hRetry => uses_answered fun retryInSeconds hAnswer => ?_
  have hRetryAnswer : request.node.retryAnswer sched task failureReason =
      some retryInSeconds := by
    simp [Node.retryAnswer, hRetry, hAnswer, Except.toOption]
  cases retryInSeconds with
  | some seconds =>
      exact Promise.uses_bind (h.uses_addTaskDuplicateCheck
        (.retry task failureReason seconds hCall hRetryAnswer)) fun _ => Promise.uses_resolve _
  | none =>
      refine uses_answered fun strategy hStrategy => ?_
      cases strategy with
      | finish create createAfterTaskFinishes =>
          refine uses_answered fun taskRunDate hRunDate => ?_
          cases taskRunDate with
          | disable => exact Promise.uses_resolve _
          | queue runAt =>
              exact Promise.uses_bind (h.uses_addTaskDuplicateCheck
                (planned_afterFinish hCall hStrategy hRunDate)) fun _ => Promise.uses_resolve _
      | start create createAfterTaskStarts =>
          exact Promise.uses_bind (h.uses_ask id) fun _ => Promise.uses_resolve _
      | new create => exact Promise.uses_bind (h.uses_ask id) fun _ => Promise.uses_resolve _

theorem uses_recordLaunch (h : AddsAsPlanned P request sched)
    (hCall : request.call.advances = true) (execStatus : Option JobExecutionState) :
    (recordLaunch request.node request.now sched task execStatus).Uses
      fun op : Operation => P op.act := by
  -- Each record asks for the time and moves the task.
  have hMove : ∀ {expected newState : TaskStateType} {extra : Date → TaskPatch}
      {rest : Js (LeaseExitStateValue (Option TaskModel))},
      (rest.Uses fun op : Operation => P op.act) →
      (currentTimeUTC >>= fun at_ =>
        markTaskState task.pk expected newState (extra at_) >>= fun _ => rest).Uses
          fun op : Operation => P op.act :=
    fun hRest => Promise.uses_bind (h.uses_ask id) fun _ =>
      Promise.uses_bind h.uses_markTaskState fun _ => hRest
  cases execStatus with
  | none => exact hMove (Promise.uses_resolve _)
  | some status =>
      cases status with
      | running jobId =>
          exact hMove (Promise.uses_bind (h.uses_ask id) fun _ => Promise.uses_resolve _)
      | didNotStart result => exact hMove (Promise.uses_resolve _)
      | completed jobId result => exact hMove (hMove (Promise.uses_resolve _))
      | failed jobId result => exact hMove (hMove (h.uses_retryTask hCall))
      | other state => exact Promise.uses_reject _

theorem uses_addFollowUp (h : AddsAsPlanned P request sched)
    (hCall : request.call = .startTask task)
    (currentTask : LeaseExitStateValue (Option TaskModel)) :
    (addFollowUp request.node request.now sched currentTask).Uses
      fun op : Operation => P op.act := by
  unfold addFollowUp
  split
  · exact Promise.uses_resolve ()
  · split
    · exact Promise.uses_resolve ()
    · refine uses_answered fun strategy hStrategy => ?_
      cases strategy with
      | start create createAfterTaskStarts =>
          refine uses_answered fun taskRunDate hRunDate => ?_
          cases taskRunDate with
          | disable => exact Promise.uses_resolve ()
          | queue runAt =>
              have hAnswer : request.node.afterStart request.now sched =
                  some (.queue runAt) := by
                simp [Node.afterStart, hStrategy, hRunDate, Except.toOption]
              exact Promise.uses_bind (h.uses_addTaskDuplicateCheck
                (.afterStart task runAt hCall hAnswer)) fun _ => Promise.uses_resolve ()
      | finish create createAfterTaskFinishes => exact Promise.uses_resolve ()
      | new create => exact Promise.uses_resolve ()

/-- `taskFinished` works on the row as planned. -/
theorem uses_taskFinishedInLease (h : AddsAsPlanned P request sched)
    (hCall : request.call.advances = true) (result : JobExecutionState) :
    (taskFinishedInLease request.node task result request.now sched).Uses
      fun op : Operation => P op.act := by
  cases result with
  | failed jobId info =>
      exact Promise.uses_bind h.uses_markTaskState fun _ =>
        Promise.uses_bind (h.uses_retryTask hCall) fun _ => Promise.uses_resolve _
  | completed jobId info =>
      refine Promise.uses_bind h.uses_markTaskState fun _ => ?_
      refine Promise.uses_bind (h.uses_ask id) fun _ => ?_
      refine uses_answered fun strategy hStrategy => ?_
      cases strategy with
      | finish create createAfterTaskFinishes =>
          refine uses_answered fun taskRunDate hRunDate => ?_
          cases taskRunDate with
          | disable => exact Promise.uses_resolve _
          | queue runAt =>
              exact Promise.uses_bind (h.uses_addTaskDuplicateCheck
                (planned_afterFinish hCall hStrategy hRunDate)) fun _ => Promise.uses_resolve _
      | start create createAfterTaskStarts => exact Promise.uses_resolve _
      | new create => exact Promise.uses_resolve _
  | running jobId => exact Promise.uses_reject _
  | didNotStart info => exact Promise.uses_reject _
  | other state => exact Promise.uses_reject _

/-- `createScheduledJob` adds the first task as planned. -/
theorem uses_firstTask (h : AddsAsPlanned P request sched) {schedule : NewScheduledJob}
    (hCall : request.call = .createScheduledJob schedule)
    (hDefinition : sched.toNewScheduledJob = schedule.stored) (createdTaskPk : PrimaryKeyType) :
    ((do
      let strat ← Promise.ofExcept
        (request.node.taskCreationReg.get schedule.taskCreationStrategy)
      let taskRunDate ← Promise.ofExcept
        (strat.createFromNewSchedule request.now sched.toScheduledJobModel)
      let task := pendingTask createdTaskPk sched.pk request.now taskRunDate
      addTask task
      emit (.taskCreated task)
      pure (.value { value := sched.pk })) : Js (LeaseExitState PrimaryKeyType)).Uses
        fun op : Operation => P op.act := by
  refine uses_answered fun strat hStrat => uses_answered fun taskRunDate hAnswer => ?_
  have hPlanned : Planned request sched taskRunDate :=
    .first schedule strat taskRunDate hCall hDefinition hStrat hAnswer
  exact Promise.uses_bind (Promise.uses_perform (h.create createdTaskPk _ hPlanned) _) fun _ =>
    Promise.uses_bind (h.uses_ask id) fun _ => Promise.uses_resolve _

end AddsAsPlanned

namespace WorksAsPlanned

open AddsAsPlanned

variable {P : Act → Prop} {request : Request} {sched : ScheduledJobDataModel}
  {task : TaskModel}

theorem uses_launchTask (h : WorksAsPlanned P request sched)
    (hCall : request.call = .startTask task) :
    (launchTask request.node sched task).Uses fun op : Operation => P op.act := by
  refine Promise.uses_bind (Promise.uses_bind (uses_ofExcept _) fun dup =>
    Promise.uses_bind (h.uses_ask id) fun _ => uses_ofExcept _) fun shouldSkip => ?_
  split
  · exact Promise.uses_resolve none
  · refine Promise.uses_handle (Promise.uses_bind (Promise.uses_perform (h.launch task hCall) _)
      fun _ => Promise.uses_resolve _) fun reason => ?_
    exact Promise.uses_bind (h.uses_ask id) fun _ =>
      Promise.uses_bind h.uses_markTaskState fun _ => Promise.uses_reject reason

theorem advances_of_startTask (hCall : request.call = .startTask task) :
    request.call.advances = true := by rw [hCall]; rfl

/-- What `startTask` does on the row once the task is queued is planned. -/
theorem uses_startQueuedTask (h : WorksAsPlanned P request sched)
    (hCall : request.call = .startTask task) :
    ((do
      let execStatus ← launchTask request.node sched task
      let currentTask ← recordLaunch request.node request.now sched task execStatus
      addFollowUp request.node request.now sched currentTask
      pure (.value { value := () })) : Js (LeaseExitState Unit)).Uses
        fun op : Operation => P op.act :=
  Promise.uses_bind (h.uses_launchTask hCall) fun execStatus =>
    Promise.uses_bind (h.uses_recordLaunch (advances_of_startTask hCall) execStatus)
      fun currentTask =>
        Promise.uses_bind (h.uses_addFollowUp hCall currentTask) fun _ =>
          Promise.uses_resolve _

end WorksAsPlanned

/-! ## Calls keep to their plan -/

section Calls

variable {request : Request} {plan : Plan} {α : Type}

/-- The call has read the row, and has queued its task if it starts one. -/
structure ReadyFor (request : Request) (asked : Conditional ScheduledJobColumn)
    (sched : ScheduledJobDataModel) (plan : Plan) : Prop where
  read_eq : plan.read = some (asked, sched)
  queued : request.call.starts = true → plan.queued = true

/-- The operations a call makes on the row it has read. -/
def OnRow (request : Request) (asked : Conditional ScheduledJobColumn)
    (sched : ScheduledJobDataModel) : Act → Prop
  | .createSchedule _ | .findSchedules .. => False
  | act => ∀ plan, ReadyFor request asked sched plan → MayPlan request plan act

/-- Work on a row keeps to the plan, and reads no other row. -/
theorem plan_of_work {asked : Conditional ScheduledJobColumn} {sched : ScheduledJobDataModel}
    {work : Js α} (hWork : work.Uses fun op : Operation => OnRow request asked sched op.act)
    (hReady : ReadyFor request asked sched plan) :
    work.Honors (planProtocol request) (fun _ _ => True) (fun _ _ => True) plan := by
  refine (Promise.honors_of_uses (I := ReadyFor request asked sched) hWork hReady ?_).mono
    (fun _ _ _ => trivial) fun _ _ _ => trivial
  rintro plan ⟨scope, act⟩ hReady hOnRow
  cases act with
  | createSchedule row => exact hOnRow.elim
  | findSchedules start limit conditional => exact hOnRow.elim
  | updateTask pk newValues conditional =>
      refine ⟨trivial, fun reply => ?_⟩
      rcases reply with e | _ | count
      · exact hReady
      · exact hReady
      · exact ⟨hReady.read_eq, fun hStarts => by
          simp [planProtocol, Plan.next, hReady.queued hStarts]⟩
  | _ => exact ⟨hOnRow plan hReady, fun _ => hReady⟩

/-- What is done on a row keeps to the plan. -/
theorem worksOnRow {asked : Conditional ScheduledJobColumn} {sched : ScheduledJobDataModel}
    (hAsked : ∀ task, request.call = .startTask task → asked = sjPkEquals task.schedule) :
    WorksAsPlanned (OnRow request asked sched) request sched where
  calm act hCalm := by
    cases act <;> first | exact fun _ _ => trivial | exact absurd trivial hCalm
  launch task hCall plan hReady := ⟨task, sched, hCall, rfl,
    hAsked task hCall ▸ hReady.read_eq, rfl, rfl⟩
  create pk runAt hPlanned plan hReady :=
    ⟨hReady.queued, asked, sched, pk, runAt, hReady.read_eq, hPlanned, rfl⟩

/-- The operation is one no plan is about, or a lookup of a row. -/
def Act.Free (act : Act) : Prop :=
  ¬ act.Plans ∨ ∃ start limit conditional, act = .findSchedules start limit conditional

/-- Free operations keep to the plan, whatever was read. -/
theorem plan_of_free {promise : Js α}
    (hFree : promise.Uses fun op : Operation => op.act.Free) :
    promise.Honors (planProtocol request) (fun _ _ => True) (fun _ _ => True) plan := by
  refine Promise.honors_of_uses (I := fun _ => True) hFree trivial ?_
  rintro plan ⟨scope, act⟩ - (hCalm | ⟨start, limit, conditional, rfl⟩)
  · exact ⟨mayPlan_of_calm hCalm, fun _ => trivial⟩
  · exact ⟨trivial, fun _ => trivial⟩

theorem endsFree (leaseOwner : LeaseIdType) (pk : PrimaryKeyType) :
    EndsWithin (fun op : Operation => op.act.Free) leaseOwner pk where
  find := Or.inr ⟨_, _, _, rfl⟩
  emit _ := Or.inl id
  release _ _ := Or.inl id
  needsRepair _ _ _ := Or.inl id

/-- The attempts at a lease are free. -/
theorem attemptsFree {attempt previous : Js Unit} {delays : List Int}
    (hAttempt : attempt.Uses fun op : Operation => op.act.Free)
    (hPrevious : previous.Uses fun op : Operation => op.act.Free) :
    (delays.foldl (retryLease attempt) previous).Uses fun op : Operation => op.act.Free := by
  induction delays generalizing previous with
  | nil => exact hPrevious
  | cons delay delays ih =>
      refine ih (Promise.uses_handle (Promise.uses_handle hPrevious fun reason => ?_)
        fun _ => hAttempt)
      exact Promise.uses_bind ⟨Or.inl id, fun _ => trivial⟩ fun _ => Promise.uses_reject reason

/-- Work under a lease that keeps to the plan, and the end of the lease after it. -/
theorem plan_workAndClose {leaseId : LeaseIdType} {sched : ScheduledJobDataModel}
    {work : Js (LeaseExitState α)}
    (hWork : work.Honors (planProtocol request) (fun _ _ => True) (fun _ _ => True) plan) :
    (inScope (.callback leaseId) (settleLease work) >>= fun result =>
      closeLease sched leaseId request.now result).Honors (planProtocol request)
        (fun _ _ => True) (fun _ _ => True) plan := by
  have hClose : ∀ {after : Plan} (result : LeaseExitState α),
      (closeLease sched leaseId request.now result).Honors (planProtocol request)
        (fun _ _ => True) (fun _ _ => True) after :=
    fun result => plan_of_free ((endsFree _ _).uses_closeLease _ result)
  -- The guard does not depend on the scope of a call.
  refine Promise.sat_bind.mpr ((honors_inScope (P := planProtocol request) _ _).mpr
    (Promise.sat_handle.mpr (Promise.Sat.mono hWork ?_ ?_)))
  · exact fun _ result _ => hClose result
  · exact fun _ e _ => hClose (.error e false none)

/-- `runUpdateInLease` keeps to the plan when its work does. -/
theorem plan_runUpdateInLease {operation : ScheduleUpdateStateType} {jobPk : PrimaryKeyType}
    {taskPk : Option PrimaryKeyType}
    {withLease : ScheduledJobDataModel → LeaseIdType → Js (LeaseExitState α)}
    (hWork : ∀ sched leaseId plan, plan.read = some (sjPkEquals jobPk, sched) →
      (withLease sched leaseId).Honors (planProtocol request) (fun _ _ => True)
        (fun _ _ => True) plan) :
    (runUpdateInLease request.node operation jobPk taskPk request.now withLease).Honors
      (planProtocol request) (fun _ _ => True) (fun _ _ => True) plan := by
  refine Promise.sat_bind.mpr (honors_leaseOwnerStrategy.mpr ⟨trivial, fun leaseId => ?_⟩)
  have hAttempt : (leaseAttempt request.node operation jobPk taskPk request.now leaseId).Uses
      fun op : Operation => op.act.Free :=
    Promise.uses_bind ⟨Or.inl id, fun _ => trivial⟩ fun count =>
      uses_rejectUnlessUpdated (endsFree leaseId jobPk).find _ count
  refine Promise.sat_bind.mpr ((plan_of_free (attemptsFree hAttempt hAttempt)).mono
    (fun after _ _ => ?_) fun _ _ _ => trivial)
  refine Promise.sat_bind.mpr (Promise.sat_bind.mpr ((honors_findSchedules _ _ _).mpr
    ⟨trivial, fun rows => ?_, fun e => trivial⟩))
  cases rows with
  | nil => trivial
  | cons sched rest => exact plan_workAndClose (hWork sched leaseId _ rfl)

theorem plan_createScheduledJob {schedule : NewScheduledJob}
    (hCall : request.call = .createScheduledJob schedule) :
    (createScheduledJob request.node schedule request.now).Honors (planProtocol request)
      (fun _ _ => True) (fun _ _ => True) plan := by
  refine Promise.sat_bind.mpr (honors_leaseOwnerStrategy.mpr ⟨trivial, fun leaseId => ?_⟩)
  refine Promise.sat_bind.mpr (honors_createPrimaryKeyStrat.mpr ⟨trivial, fun schedPk => ?_⟩)
  refine Promise.sat_bind.mpr (honors_createPrimaryKeyStrat.mpr
    ⟨trivial, fun createdTaskPk => ?_⟩)
  have hOther : ∀ task, request.call = .startTask task →
      sjPkEquals schedPk = sjPkEquals task.schedule := by
    intro task hStart
    rw [hCall] at hStart
    cases hStart
  have hClose : ∀ {after : Plan} (result : LeaseExitState PrimaryKeyType),
      (closeLease (newRow request schedule leaseId schedPk createdTaskPk) leaseId request.now
        result).Honors (planProtocol request) (fun _ _ => True) (fun _ _ => True) after :=
    fun result => plan_of_free ((endsFree _ _).uses_closeLease _ result)
  refine Promise.sat_bind.mpr (Promise.sat_handle.mpr (Promise.sat_bind.mpr
    ((honors_createSchedule _).mpr ⟨⟨schedule, leaseId, schedPk, createdTaskPk, hCall, rfl⟩,
      fun _ => ?_, fun e => ?_⟩)))
  · have hReady : ReadyFor request (sjPkEquals schedPk)
        (newRow request schedule leaseId schedPk createdTaskPk)
        (plan.next (.createSchedule (newRow request schedule leaseId schedPk createdTaskPk))
          (.ok ())) := ⟨rfl, fun hStarts => by rw [hCall] at hStarts; cases hStarts⟩
    refine (honors_inScope (P := planProtocol request) _ _).mpr (Promise.sat_handle.mpr
      (Promise.Sat.mono (plan_of_work
        ((worksOnRow hOther).uses_firstTask hCall rfl createdTaskPk) hReady) ?_ ?_))
    · exact fun _ result _ => hClose result
    · exact fun _ e _ => hClose (.error e false none)
  · -- The row could not be stored; the source asks for its repair all the same.
    have hEmit : ∀ e2, (emit (.generalError e2)).Uses fun op : Operation => op.act.Free :=
      fun e2 => ⟨Or.inl id, fun _ => trivial⟩
    refine (plan_of_free (Promise.uses_bind (Promise.uses_handle
      ((endsFree leaseId schedPk).uses_needsRepair request.now false none) fun e2 =>
        Promise.uses_bind (hEmit e2) fun _ => Promise.uses_reject e)
      fun _ => Promise.uses_reject e)).mono ?_ fun _ _ _ => trivial
    exact fun _ result _ => hClose result

/-- The start of a task keeps to the plan: the task is queued first. -/
theorem plan_startTaskInLease {task : TaskModel} (hCall : request.call = .startTask task)
    {sched : ScheduledJobDataModel} (hRead : plan.read = some (sjPkEquals task.schedule, sched)) :
    (startTaskInLease request.node task request.now sched).Honors (planProtocol request)
      (fun _ _ => True) (fun _ _ => True) plan := by
  have hAsked : ∀ other, request.call = .startTask other →
      sjPkEquals task.schedule = sjPkEquals other.schedule := by
    intro other hOther
    rw [hCall] at hOther
    cases hOther
    rfl
  refine Promise.sat_bind.mpr (Promise.sat_bind.mpr ((honors_updateTask _ _ _).mpr
    ⟨trivial, fun count => ?_, fun e => trivial⟩))
  cases count with
  | zero =>
      -- The task was not pending, and the call ends with the row it finds instead.
      refine Promise.sat_bind.mpr ((honors_findTasks _ _ _).mpr
        ⟨trivial, fun tasks => ?_, fun e => trivial⟩)
      cases tasks with
      | nil => trivial
      | cons found rest => trivial
  | succ count =>
      have hReady : ReadyFor request (sjPkEquals task.schedule) sched
          (plan.next (.updateTask task.pk
            { executionQueued := some (some request.now), state := some .queued }
            (stateEquals .pending)) (.ok (count + 1))) :=
        ⟨hRead, fun _ => by simp [Plan.next]⟩
      exact plan_of_work ((worksOnRow hAsked).uses_startQueuedTask hCall) hReady

theorem plan_startTask {task : TaskModel} (hCall : request.call = .startTask task) :
    (startTask request.node task request.now).Honors (planProtocol request)
      (fun _ _ => True) (fun _ _ => True) plan := by
  refine Promise.sat_handle.mpr (Promise.sat_bind.mpr ((plan_runUpdateInLease
    fun sched _ _ hRead => plan_startTaskInLease hCall hRead).mono (fun _ _ _ => trivial)
      fun after e _ => ?_))
  split
  · exact (honors_emit _).mpr ⟨trivial, fun _ => trivial⟩
  · trivial

theorem plan_taskFinished {execJobId : ExecutionJobId} {result : JobExecutionState}
    (hCall : request.call = .taskFinished execJobId result) :
    (taskFinished request.node execJobId result request.now).Honors (planProtocol request)
      (fun _ _ => True) (fun _ _ => True) plan := by
  have hAdvances : request.call.advances = true := by rw [hCall]; rfl
  have hNotice : ∀ {plan : Plan} task,
      (finishFoundTask request.node task result request.now).Honors (planProtocol request)
        (fun _ _ => True) (fun _ _ => True) plan := by
    intro plan task
    have hAsked : ∀ other, request.call = .startTask other →
        sjPkEquals task.schedule = sjPkEquals other.schedule := by
      intro other hOther
      rw [hCall] at hOther
      cases hOther
    refine Promise.sat_handle.mpr (Promise.sat_bind.mpr ((plan_runUpdateInLease
      fun sched _ after hRead => plan_of_work
        ((worksOnRow hAsked).uses_taskFinishedInLease hAdvances result)
          ⟨hRead, fun hStarts => by rw [hCall] at hStarts; cases hStarts⟩).mono
      (fun _ _ _ => trivial) fun after e _ => ?_))
    split
    · exact (honors_emit _).mpr ⟨trivial, fun _ => trivial⟩
    · exact (honors_emit _).mpr ⟨trivial, fun _ => trivial⟩
    · trivial
  cases result with
  | running jobId => trivial
  | _ =>
      refine Promise.sat_bind.mpr (Promise.sat_bind.mpr ((honors_findTasks _ _ _).mpr
        ⟨trivial, fun rows => ?_, fun e => trivial⟩))
      rcases rows with _ | ⟨row, _ | ⟨other, rest⟩⟩
      · trivial
      · exact hNotice row
      · trivial

theorem plan_disableSchedule {schedule : ScheduledJobModel} {reason : Option String} :
    (disableSchedule request.node schedule reason request.now).Honors (planProtocol request)
      (fun _ _ => True) (fun _ _ => True) plan :=
  Promise.sat_bind.mpr ((plan_runUpdateInLease fun _ _ _ _ =>
    plan_of_free (Promise.uses_resolve _)).mono (fun _ _ _ => trivial) fun _ _ _ => trivial)

/-- The operations of a repair are free. -/
theorem free_of_calm {operation : Operation} (hCalm : operation.act.Calm) :
    operation.act.Free := by
  obtain ⟨scope, act⟩ := operation
  cases act with
  | findSchedules start limit conditional => exact Or.inr ⟨_, _, _, rfl⟩
  | updateSchedule | findTasks | createLeaseId | emit => exact Or.inl id
  | _ => exact hCalm.elim

/-- **Every call keeps to its plan**, whatever the replies it gets. -/
theorem Request.honors_plan (request : Request) :
    request.program.Honors (planProtocol request) (fun _ _ => True) (fun _ _ => True) {} := by
  unfold Request.program
  split
  · rename_i schedule hCall
    exact plan_createScheduledJob hCall
  · rename_i task hCall
    exact Promise.sat_bind.mpr (plan_startTask hCall)
  · rename_i execJobId result hCall
    exact Promise.sat_bind.mpr (plan_taskFinished hCall)
  · exact Promise.sat_bind.mpr plan_disableSchedule
  · exact plan_of_free (Promise.uses_bind (Prog.Uses.mono calm_repairExpiredSchedule
      fun _ => free_of_calm) fun _ => Promise.uses_resolve _)

end Calls

end TernScheduler
