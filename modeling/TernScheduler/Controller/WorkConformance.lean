import TernScheduler.Controller.Contract

/-!
# Work under a lease follows the contract

The first part of the walk over the programs of `controller/`, method by method: what a
call does inside the lease of its schedule, on the tasks of that.  Each method has one
lemma, stated for the session of a call at work, and the callers cite it.

* `honors_startTaskInLease` and `honors_taskFinishedInLease` are about the work of the two
  calls that move a task on.
-/

namespace TernScheduler

open Interleaving

/-- The contract as seen by the work done under a lease. -/
abbrev atWork (request : Request) (leaseId : LeaseIdType) :
    Protocol signature Session :=
  relabelled (contract request) (.callback leaseId)

section Work

variable {request : Request} {task : TaskModel} {leaseId : LeaseIdType}
  {sched : ScheduledJobDataModel} {job : PrimaryKeyType} {facts : List Fact}
  {α : Type}

/-- A call at work may issue whatever its contract lets it do. -/
theorem may_atWork {act : Act}
    (hAct : MayAct request (.callback leaseId)
      (.working task leaseId sched job facts) act) :
    (atWork request leaseId).may (.working task leaseId sched job facts)
      (outside act) := by
  refine ⟨fun other hScope => ?_, hAct⟩
  cases hScope
  exact ⟨rfl, by simp [Session.working], rfl⟩

/-- The session is still at work, with more facts than before. -/
def StillWorking (task : TaskModel) (leaseId : LeaseIdType)
    (sched : ScheduledJobDataModel) (job : PrimaryKeyType) (facts : List Fact)
    (after : Session) : Prop :=
  ∃ later, facts <:+ later ∧ after = .working task leaseId sched job later

theorem StillWorking.refl :
    StillWorking task leaseId sched job facts
      (.working task leaseId sched job facts) :=
  ⟨facts, List.suffix_refl facts, rfl⟩

theorem StillWorking.of_cons {fact : Fact} {after : Session}
    (h : StillWorking task leaseId sched job (fact :: facts) after) :
    StillWorking task leaseId sched job facts after := by
  obtain ⟨later, hSuffix, rfl⟩ := h
  exact ⟨later, (List.suffix_cons fact facts).trans hSuffix, rfl⟩

/-- A task update that was answered, but moved no task. -/
def Missed (pk : PrimaryKeyType) (old new : TaskStateType)
    (facts later : List Fact) : Prop :=
  ∃ newValues, newValues.state = some new ∧
    ((∃ e, later = .wroteTask pk newValues (stateEquals old) (.error e) :: facts) ∨
      ∃ limit conditional reply,
        later = .foundTasks limit conditional reply ::
          .wroteTask pk newValues (stateEquals old) (.ok 0) :: facts)

/-- `markTaskState` either moves the task or records that it did not. -/
theorem honors_markTaskState {old new : TaskStateType} {extra : TaskPatch}
    {resolved : Session → Unit → Prop} {rejected : Session → JsError → Prop}
    (hMove : MayMove request sched task facts old new extra.executionJobId)
    (hDone : ∀ fact, Moved task.pk old new fact →
      resolved (.working task leaseId sched task.schedule (fact :: facts)) ())
    (hMissed : ∀ e later, Missed task.pk old new facts later →
      rejected (.working task leaseId sched task.schedule later) e) :
    (markTaskState task.pk old new extra).Honors (atWork request leaseId) resolved
      rejected (.working task leaseId sched task.schedule facts) := by
  refine Promise.sat_bind.mpr ((honors_updateTask _ _ _).mpr ⟨?_, ?_, ?_⟩)
  · exact may_atWork ⟨⟨leaseId, rfl⟩, sched, task, old, new, rfl, rfl, rfl, rfl, rfl,
      rfl, hMove⟩
  · rintro (_ | count)
    · -- No row was in the expected state; the source reads the task to say why.
      refine Promise.sat_bind.mpr ((honors_findTasks _ _ _).mpr ⟨?_, ?_, ?_⟩)
      · exact may_atWork ⟨rfl, fun hJob => by cases hJob⟩
      · intro tasks
        have hLater := fun e => hMissed e _
          ⟨{ extra with state := some new }, rfl,
            Or.inr ⟨1, tkPkEquals task.pk, .ok tasks, rfl⟩⟩
        cases tasks with
        | nil => exact hLater (.taskNotFound task.pk)
        | cons found rest => exact hLater (.invalidTaskState found new old)
      · intro e
        exact hMissed e _ ⟨{ extra with state := some new }, rfl,
          Or.inr ⟨1, tkPkEquals task.pk, .error e, rfl⟩⟩
    · exact hDone _ ⟨{ extra with state := some new }, count, rfl, rfl⟩
  · intro e
    exact hMissed e _ ⟨{ extra with state := some new }, rfl, Or.inl ⟨e, rfl⟩⟩

theorem honors_emit_atWork (event : SchedulerEvent)
    {resolved : Session → Unit → Prop} {rejected : Session → JsError → Prop}
    (hDone : resolved (.working task leaseId sched job facts) ()) :
    (emit event).Honors (atWork request leaseId) resolved rejected
      (.working task leaseId sched job facts) :=
  (honors_emit event).mpr ⟨may_atWork trivial, fun _ => hDone⟩

theorem honors_currentTimeUTC_atWork
    {resolved : Session → Date → Prop} {rejected : Session → JsError → Prop}
    (hDone : ∀ date, resolved (.working task leaseId sched job facts) date) :
    currentTimeUTC.Honors (atWork request leaseId) resolved rejected
      (.working task leaseId sched job facts) :=
  honors_currentTimeUTC.mpr ⟨may_atWork trivial, hDone⟩

/-- Looking for tasks of the job records what was found. -/
theorem honors_getTasks_atWork (states : List TaskStateType) (limit : Nat)
    {resolved : Session → List TaskModel → Prop}
    {rejected : Session → JsError → Prop}
    (hDone : ∀ found, resolved (.working task leaseId sched job
      (.foundTasks limit (taskOf sched.pk states) (.ok found) :: facts)) found)
    (hFail : ∀ e, rejected (.working task leaseId sched job
      (.foundTasks limit (taskOf sched.pk states) (.error e) :: facts)) e) :
    (getTasksForScheduledJob sched.toScheduledJobModel states limit).Honors
      (atWork request leaseId) resolved rejected
      (.working task leaseId sched job facts) :=
  (honors_findTasks _ _ _).mpr
    ⟨may_atWork ⟨rfl, fun hJob => by cases hJob⟩, hDone, hFail⟩

/-- `addTaskDuplicateCheck` adds a task only after finding none pending. -/
theorem honors_addTaskDuplicateCheck {now : Date} {previous : TaskModel}
    {executeAt : JsDate}
    (hAsked : (∃ runAt, request.asks task sched = some (.queue runAt)) ∨
      FailedAfterStart facts) :
    (addTaskDuplicateCheck now sched previous executeAt).Honors (atWork request leaseId)
      (fun after exit => StillWorking task leaseId sched job facts after ∧
        exit.pasture = false)
      (fun after _ => StillWorking task leaseId sched job facts after)
      (.working task leaseId sched job facts) := by
  have hRead : ∀ reply, StillWorking task leaseId sched job facts
      (.working task leaseId sched job
        (.foundTasks duplicatePendingTaskLimit (taskOf sched.pk [.pending]) reply ::
          facts)) :=
    fun reply => StillWorking.of_cons .refl
  refine Promise.sat_bind.mpr (honors_getTasks_atWork _ _ ?_ fun e => hRead _)
  intro queuedTasks
  cases queuedTasks with
  | cons first rest =>
      exact Promise.sat_bind.mpr (honors_emit_atWork _ ⟨hRead _, rfl⟩)
  | nil =>
      refine Promise.sat_bind.mpr (honors_createPrimaryKeyStrat.mpr
        ⟨may_atWork trivial, fun newTaskPk => ?_⟩)
      refine Promise.sat_bind.mpr ((honors_addTask _).mpr ⟨may_atWork ?_, ?_, ?_⟩)
      · refine ⟨⟨leaseId, rfl⟩, rfl, rfl, sched, rfl, rfl, Or.inr ⟨task, rfl, ?_, ?_⟩⟩
        · exact Or.inl ⟨by decide, rfl, rfl⟩
        · refine hAsked.imp_right ?_
          rintro ⟨pk, first, second, earlier, hFirst, hSecond, hSuffix⟩
          exact ⟨pk, first, second, earlier, hFirst, hSecond,
            hSuffix.trans (List.suffix_cons _ _)⟩
      · intro _
        refine Promise.sat_bind.mpr (honors_emit_atWork _ ?_)
        refine Promise.sat_bind.mpr (honors_emit_atWork _ ?_)
        exact ⟨StillWorking.of_cons (StillWorking.of_cons .refl), rfl⟩
      · intro e
        exact StillWorking.of_cons (StillWorking.of_cons .refl)

/-- `addTaskDuplicateCheck` inside `retryTask`, whose exit value may be
absent. -/
private theorem honors_addTask_nullable {now : Date} {executeAt : JsDate}
    {Q : Prop} (hQ : Q)
    (hAsked : (∃ runAt, request.asks task sched = some (.queue runAt)) ∨
      FailedAfterStart facts) :
    (addTaskDuplicateCheck now sched task executeAt >>= fun exit =>
      (pure exit.nullable : Js (LeaseExitStateValue (Option TaskModel)))).Honors
      (atWork request leaseId)
      (fun after exit => StillWorking task leaseId sched job facts after ∧
        (exit.pasture = false → Q))
      (fun after _ => StillWorking task leaseId sched job facts after ∧ Q)
      (.working task leaseId sched job facts) := by
  refine Promise.sat_bind.mpr ((honors_addTaskDuplicateCheck hAsked).mono ?_ ?_)
  · intro after exit hAfter
    exact ⟨hAfter.1, fun _ => hQ⟩
  · intro after e hAfter
    exact ⟨hAfter, hQ⟩

/-- `retryTask` adds a task only when the strategies ask for one, and leaves the
job enabled only when they do not ask to disable it. -/
theorem honors_retryTask {now : Date} {reason : String}
    (hAsked : (∃ runAt, request.node.afterFailure now sched task reason =
        some (.queue runAt)) →
      (∃ runAt, request.asks task sched = some (.queue runAt)) ∨
        FailedAfterStart facts) :
    (retryTask request.node now sched task reason).Honors (atWork request leaseId)
      (fun after exit => StillWorking task leaseId sched job facts after ∧
        (exit.pasture = false →
          request.node.afterFailure now sched task reason ≠ some .disable))
      (fun after _ => StillWorking task leaseId sched job facts after ∧
        request.node.afterFailure now sched task reason ≠ some .disable)
      (.working task leaseId sched job facts) := by
  refine Promise.sat_bind.mpr ((Promise.sat_ofExcept _).mpr ?_)
  cases hRetry : request.node.retryReg.get sched.retryStrategy with
  | error e => exact ⟨.refl, by simp [Node.afterFailure, Node.retryAnswer, hRetry]⟩
  | ok retry =>
      refine Promise.sat_bind.mpr ((Promise.sat_ofExcept _).mpr ?_)
      cases hAnswer : retry sched.toScheduledJobModel task reason with
      | error e =>
          exact ⟨.refl, by
            simp [Node.afterFailure, Node.retryAnswer, hRetry, hAnswer, Except.toOption]⟩
      | ok answer =>
          cases answer with
          | some seconds =>
              have hAction : request.node.afterFailure now sched task reason =
                  some (.queue (retryTime request.node.zone now seconds)) := by
                simp [Node.afterFailure, Node.retryAnswer, hRetry, hAnswer,
                  Except.toOption]
              exact honors_addTask_nullable (by simp [hAction]) (hAsked ⟨_, hAction⟩)
          | none =>
              have hAction : request.node.afterFailure now sched task reason =
                  request.node.afterFinish now sched := by
                simp [Node.afterFailure, Node.retryAnswer, hRetry, hAnswer,
                  Except.toOption]
              refine Promise.sat_bind.mpr ((Promise.sat_ofExcept _).mpr ?_)
              cases hCreation :
                  request.node.taskCreationReg.get sched.taskCreationStrategy with
              | error e =>
                  exact ⟨.refl, by simp [hAction, Node.afterFinish, hCreation]⟩
              | ok strategy =>
                  cases strategy with
                  | finish create after =>
                      refine Promise.sat_bind.mpr
                        ((Promise.sat_ofExcept _).mpr ?_)
                      cases hDate : after now sched.toScheduledJobModel with
                      | error e =>
                          exact ⟨.refl, by
                            simp [hAction, Node.afterFinish, hCreation, hDate,
                              Except.toOption]⟩
                      | ok action =>
                          have hFinish : request.node.afterFinish now sched =
                              some action := by
                            simp [Node.afterFinish, hCreation, hDate, Except.toOption]
                          cases action with
                          | disable =>
                              exact ⟨.refl, fun hPasture => by cases hPasture⟩
                          | queue runAt =>
                              exact honors_addTask_nullable
                                (by simp [hAction, hFinish])
                                (hAsked ⟨_, hAction.trans hFinish⟩)
                  | start create after =>
                      exact Promise.sat_bind.mpr (honors_emit_atWork _
                        ⟨.refl, fun _ => by
                          simp [hAction, Node.afterFinish, hCreation]⟩)
                  | new create =>
                      exact Promise.sat_bind.mpr (honors_emit_atWork _
                        ⟨.refl, fun _ => by
                          simp [hAction, Node.afterFinish, hCreation]⟩)

/-- Where a launch may leave the session: still at work, and, if the job
framework answered, with the task cleared to run. -/
def Launched (request : Request) (task : TaskModel) (leaseId : LeaseIdType)
    (sched : ScheduledJobDataModel) (after : Session) :
    Option JobExecutionState → Prop
  | none => StillWorking task leaseId sched task.schedule [] after
  | some _ =>
      ∃ later, Cleared request.node sched task later ∧
        after = .working task leaseId sched task.schedule later

/-- `launchTask` asks the job framework only after the task was queued and the
duplicate strategy let it run. -/
theorem honors_launchTask {queued : Fact} (hCall : request.call = .startTask task)
    (hQueued : Moved task.pk .pending .queued queued) :
    (launchTask request.node sched task).Honors (atWork request leaseId)
      (Launched request task leaseId sched)
      (fun after _ => StillWorking task leaseId sched task.schedule [] after)
      (.working task leaseId sched task.schedule [queued]) := by
  refine Promise.sat_bind.mpr (Promise.sat_bind.mpr
    ((Promise.sat_ofExcept _).mpr ?_))
  cases hDup : request.node.duplicateTaskReg.get sched.duplicateStrategy with
  | error e => exact StillWorking.of_cons .refl
  | ok dup =>
      refine Promise.sat_bind.mpr (honors_getTasks_atWork _ _ (fun found => ?_)
        fun e => StillWorking.of_cons (StillWorking.of_cons .refl))
      refine (Promise.sat_ofExcept _).mpr ?_
      cases hSkip : dup.shouldSkip sched.toScheduledJobModel found task with
      | error e => exact StillWorking.of_cons (StillWorking.of_cons .refl)
      | ok shouldSkip =>
          cases shouldSkip with
          | true => exact StillWorking.of_cons (StillWorking.of_cons .refl)
          | false =>
              refine Promise.sat_handle.mpr (Promise.sat_bind.mpr
                ((honors_startJob _ _ _).mpr ⟨may_atWork ?_, ?_, ?_⟩))
              · exact ⟨⟨leaseId, rfl⟩, task, found, queued, dup.duplicateFindCount,
                  taskOf sched.pk [.started], hCall, rfl, hQueued, rfl⟩
              · intro answer
                exact ⟨_, ⟨dup, found, answer, [queued], hDup, hSkip, rfl⟩, rfl⟩
              · intro e
                refine Promise.sat_bind.mpr
                  (honors_currentTimeUTC_atWork fun failedAt => ?_)
                refine Promise.sat_bind.mpr (honors_markTaskState
                  (.abandon .startError hCall (Or.inl rfl)) ?_ ?_)
                · intro fact _
                  exact ⟨_, List.nil_suffix, rfl⟩
                · intro e' later _
                  exact ⟨_, List.nil_suffix, rfl⟩

/-- `recordLaunch` marks the task started only when it was cleared to run. -/
theorem honors_recordLaunch {now : Date} {execStatus : Option JobExecutionState}
    {before : Session} (hCall : request.call = .startTask task)
    (hBefore : Launched request task leaseId sched before execStatus) :
    (recordLaunch request.node now sched task execStatus).Honors
      (atWork request leaseId)
      (fun after _ => StillWorking task leaseId sched task.schedule [] after)
      (fun after _ => StillWorking task leaseId sched task.schedule [] after)
      before := by
  have hWorking : ∀ later, StillWorking task leaseId sched task.schedule []
      (.working task leaseId sched task.schedule later) :=
    fun later => ⟨later, List.nil_suffix, rfl⟩
  cases execStatus with
  | none =>
      obtain ⟨later, -, rfl⟩ := hBefore
      refine Promise.sat_bind.mpr (honors_currentTimeUTC_atWork fun skippedAt => ?_)
      exact Promise.sat_bind.mpr (honors_markTaskState
        (.abandon .completed hCall (Or.inr (Or.inl rfl)))
        (fun _ _ => hWorking _) fun _ _ _ => hWorking _)
  | some state =>
      obtain ⟨later, hCleared, rfl⟩ := hBefore
      cases state with
      | other state => exact hWorking _
      | didNotStart result =>
          refine Promise.sat_bind.mpr
            (honors_currentTimeUTC_atWork fun failedAt => ?_)
          exact Promise.sat_bind.mpr (honors_markTaskState
            (.abandon .startError hCall (Or.inl rfl))
            (fun _ _ => hWorking _) fun _ _ _ => hWorking _)
      | running jobId =>
          refine Promise.sat_bind.mpr
            (honors_currentTimeUTC_atWork fun startedAt => ?_)
          refine Promise.sat_bind.mpr (honors_markTaskState
            (.start jobId hCall hCleared) (fun fact _ => ?_) fun _ _ _ => hWorking _)
          exact Promise.sat_bind.mpr (honors_emit_atWork _ (hWorking _))
      | completed jobId result =>
          refine Promise.sat_bind.mpr
            (honors_currentTimeUTC_atWork fun startedAt => ?_)
          refine Promise.sat_bind.mpr (honors_markTaskState
            (.start jobId hCall hCleared) (fun fact _ => ?_) fun _ _ _ => hWorking _)
          refine Promise.sat_bind.mpr
            (honors_currentTimeUTC_atWork fun completedAt => ?_)
          exact Promise.sat_bind.mpr (honors_markTaskState
            (.finish .completed (Or.inl rfl))
            (fun _ _ => hWorking _) fun _ _ _ => hWorking _)
      | failed jobId result =>
          refine Promise.sat_bind.mpr
            (honors_currentTimeUTC_atWork fun startedAt => ?_)
          refine Promise.sat_bind.mpr (honors_markTaskState
            (.start jobId hCall hCleared) (fun first hFirst => ?_)
            fun _ _ _ => hWorking _)
          refine Promise.sat_bind.mpr
            (honors_currentTimeUTC_atWork fun failedAt => ?_)
          refine Promise.sat_bind.mpr (honors_markTaskState
            (.abandon .failed hCall (Or.inr (Or.inr rfl)))
            (fun second hSecond => ?_) fun _ _ _ => hWorking _)
          -- The second update expects the state the first one left behind, so
          -- this point is reached only if someone queued the task again.
          refine (honors_retryTask fun _ => Or.inr ?_).mono ?_ ?_
          · exact ⟨task.pk, first, second, later, hFirst, hSecond,
              List.suffix_refl _⟩
          · rintro after exit ⟨⟨later', -, rfl⟩, -⟩
            exact hWorking _
          · rintro after e ⟨⟨later', -, rfl⟩, -⟩
            exact hWorking _

/-- `addFollowUp` adds a task only when the creation strategy asks for one. -/
theorem honors_addFollowUp {currentTask : LeaseExitStateValue (Option TaskModel)}
    (hCall : request.call = .startTask task) :
    (addFollowUp request.node request.now sched currentTask).Honors
      (atWork request leaseId)
      (fun after _ => StillWorking task leaseId sched job facts after)
      (fun after _ => StillWorking task leaseId sched job facts after)
      (.working task leaseId sched job facts) := by
  unfold addFollowUp
  split
  · exact .refl
  · split
    · exact .refl
    · rename_i current hCurrent
      refine Promise.sat_bind.mpr ((Promise.sat_ofExcept _).mpr ?_)
      cases hCreation :
          request.node.taskCreationReg.get sched.taskCreationStrategy with
      | error e => exact .refl
      | ok strategy =>
          cases strategy with
          | finish create after => exact .refl
          | new create => exact .refl
          | start create after =>
              refine Promise.sat_bind.mpr ((Promise.sat_ofExcept _).mpr ?_)
              cases hDate : after request.now sched.toScheduledJobModel with
              | error e => exact .refl
              | ok action =>
                  cases action with
                  | disable => exact .refl
                  | queue runAt =>
                      have hAsked : request.asks task sched = some (.queue runAt) := by
                        simp [Request.asks, hCall, Node.afterStart, hCreation, hDate,
                          Except.toOption]
                      refine Promise.sat_bind.mpr
                        ((honors_addTaskDuplicateCheck (Or.inl ⟨_, hAsked⟩)).mono
                          ?_ ?_)
                      · exact fun after exit hAfter => hAfter.1
                      · exact fun after e hAfter => hAfter

/-- What `startTask` does under the lease. -/
theorem honors_startTaskInLease (hCall : request.call = .startTask task) :
    (startTaskInLease request.node task request.now sched).Honors
      (atWork request leaseId)
      (fun after _ => StillWorking task leaseId sched task.schedule [] after)
      (fun after _ => StillWorking task leaseId sched task.schedule [] after)
      (.working task leaseId sched task.schedule []) := by
  have hWorking : ∀ later, StillWorking task leaseId sched task.schedule []
      (.working task leaseId sched task.schedule later) :=
    fun later => ⟨later, List.nil_suffix, rfl⟩
  refine Promise.sat_bind.mpr (honors_markTaskState (.queue hCall rfl)
    (fun queued hQueued => ?_) fun _ _ _ => hWorking _)
  refine Promise.sat_bind.mpr ((honors_launchTask hCall hQueued).mono ?_ ?_)
  · intro launched execStatus hLaunched
    refine Promise.sat_bind.mpr ((honors_recordLaunch hCall hLaunched).mono ?_ ?_)
    · rintro recorded currentTask ⟨later, -, rfl⟩
      refine Promise.sat_bind.mpr ((honors_addFollowUp hCall).mono ?_ ?_)
      · rintro after _ ⟨final, -, rfl⟩
        exact hWorking _
      · rintro after e ⟨final, -, rfl⟩
        exact hWorking _
    · exact fun after e hAfter => hAfter
  · exact fun after e hAfter => hAfter

/-- What the work of a completion notice leaves: the attempt to move the task out
of started, and a pasture flag the contract lets the call close with. -/
def NoticeWorked (request : Request) (result : JobExecutionState) (task : TaskModel)
    (leaseId : LeaseIdType) (sched : ScheduledJobDataModel) (after : Session)
    (pasture : Bool) : Prop :=
  ∃ later, after = .working task leaseId sched task.schedule later ∧
    (result.Finished → ∃ newValues reply,
      .wroteTask task.pk newValues (stateEquals .started) reply ∈ later ∧
        (newValues.state = some .completed ∨
          newValues.state = some .completeError)) ∧
    MayLeavePasture request after pasture

/-- A missed update leaves a session that moved nothing. -/
private theorem noticeWorked_of_missed {execJobId : ExecutionJobId}
    {result : JobExecutionState} {new : TaskStateType} {later : List Fact}
    (hCall : request.call = .taskFinished execJobId result)
    (hNew : new = .completed ∨ new = .completeError)
    (hMissed : Missed task.pk .started new [] later) (pasture : Bool) :
    NoticeWorked request result task leaseId sched
      (.working task leaseId sched task.schedule later) pasture := by
  obtain ⟨newValues, hState, hLater⟩ := hMissed
  have hNewState : newValues.state = some .completed ∨
      newValues.state = some .completeError := by
    rcases hNew with rfl | rfl
    · exact Or.inl hState
    · exact Or.inr hState
  refine ⟨later, rfl, fun _ => ?_, ?_⟩
  · rcases hLater with ⟨e, rfl⟩ | ⟨limit, conditional, reply, rfl⟩
    · exact ⟨newValues, _, List.mem_cons_self, hNewState⟩
    · exact ⟨newValues, _, List.mem_cons_of_mem _ List.mem_cons_self, hNewState⟩
  · unfold MayLeavePasture
    rw [hCall]
    intro _
    refine ⟨task, sched, rfl, rfl, fun _ => ?_⟩
    rcases hLater with ⟨e, rfl⟩ | ⟨limit, conditional, reply, rfl⟩
    · exact ⟨_, List.mem_cons_self, _, _, _, _, rfl, fun count => by simp⟩
    · exact ⟨_, List.mem_cons_of_mem _ List.mem_cons_self, _, _, _, _, rfl,
        fun count => by simp⟩

/-- A moved task leaves a session that may close with any flag the strategies
agree with. -/
private theorem noticeWorked_of_moved {execJobId : ExecutionJobId}
    {result : JobExecutionState} {new : TaskStateType} {fact : Fact}
    {after : Session} {pasture : Bool}
    (hCall : request.call = .taskFinished execJobId result)
    (hNew : new = .completed ∨ new = .completeError)
    (hMoved : Moved task.pk .started new fact)
    (hAfter : StillWorking task leaseId sched task.schedule [fact] after)
    (hAsks : pasture = false → request.asks task sched ≠ some .disable) :
    NoticeWorked request result task leaseId sched after pasture := by
  obtain ⟨later, hSuffix, rfl⟩ := hAfter
  refine ⟨later, rfl, fun _ => ?_, ?_⟩
  · obtain ⟨newValues, count, rfl, hState⟩ := hMoved
    refine ⟨newValues, _, hSuffix.subset List.mem_cons_self, ?_⟩
    rcases hNew with rfl | rfl
    · exact Or.inl hState
    · exact Or.inr hState
  · unfold MayLeavePasture
    rw [hCall]
    exact fun hPasture => ⟨task, sched, rfl, rfl,
      fun hDisable => absurd hDisable (hAsks hPasture)⟩

/-- A result that is not a finished one is rejected before any task is touched. -/
private theorem noticeWorked_of_not_finished {execJobId : ExecutionJobId}
    {result : JobExecutionState} (hCall : request.call = .taskFinished execJobId result)
    (hResult : ¬ result.Finished) :
    NoticeWorked request result task leaseId sched
      (.working task leaseId sched task.schedule []) false := by
  refine ⟨[], rfl, fun hFinished => absurd hFinished hResult, ?_⟩
  unfold MayLeavePasture
  rw [hCall]
  refine fun _ => ⟨task, sched, rfl, rfl, fun hDisable => ?_⟩
  cases result with
  | completed jobId info => exact absurd trivial hResult
  | failed jobId info => exact absurd trivial hResult
  | _ => simp [Request.asks, hCall, Node.afterResult] at hDisable

/-- What `taskFinished` does under the lease. -/
theorem honors_taskFinishedInLease {execJobId : ExecutionJobId}
    {result : JobExecutionState}
    (hCall : request.call = .taskFinished execJobId result) :
    (taskFinishedInLease request.node task result request.now sched).Honors
      (atWork request leaseId)
      (fun after exit =>
        NoticeWorked request result task leaseId sched after exit.pasture)
      (fun after _ => NoticeWorked request result task leaseId sched after false)
      (.working task leaseId sched task.schedule []) := by
  cases result with
  | failed jobId info =>
      have hAsks : request.asks task sched =
          request.node.afterFailure request.now sched task (info.getD "") := by
        simp [Request.asks, hCall, Node.afterResult]
      refine Promise.sat_bind.mpr (honors_markTaskState
        (.finish .completeError (Or.inr rfl)) (fun fact hMoved => ?_)
        fun e later hMissed => noticeWorked_of_missed hCall (Or.inr rfl) hMissed false)
      refine Promise.sat_bind.mpr ((honors_retryTask fun hAction => ?_).mono ?_ ?_)
      · exact Or.inl (hAsks ▸ hAction)
      · rintro after exit ⟨hAfter, hPasture⟩
        exact noticeWorked_of_moved hCall (Or.inr rfl) hMoved hAfter
          fun hFlag => hAsks ▸ hPasture hFlag
      · rintro after e ⟨hAfter, hNotDisabled⟩
        exact noticeWorked_of_moved hCall (Or.inr rfl) hMoved hAfter
          fun _ => hAsks ▸ hNotDisabled
  | completed jobId info =>
      have hAsks : request.asks task sched =
          request.node.afterFinish request.now sched := by
        simp [Request.asks, hCall, Node.afterResult]
      refine Promise.sat_bind.mpr (honors_markTaskState
        (.finish .completed (Or.inl rfl)) (fun fact hMoved => ?_)
        fun e later hMissed => noticeWorked_of_missed hCall (Or.inl rfl) hMissed false)
      have hDone : ∀ {after : Session} {pasture : Bool},
          StillWorking task leaseId sched task.schedule [fact] after →
          (pasture = false → request.node.afterFinish request.now sched ≠
            some .disable) →
          NoticeWorked request (.completed jobId info) task leaseId sched after
            pasture :=
        fun hAfter hFlag => noticeWorked_of_moved hCall (Or.inl rfl) hMoved hAfter
          fun hPasture => hAsks ▸ hFlag hPasture
      refine Promise.sat_bind.mpr (honors_emit_atWork _ ?_)
      refine Promise.sat_bind.mpr ((Promise.sat_ofExcept _).mpr ?_)
      cases hCreation :
          request.node.taskCreationReg.get sched.taskCreationStrategy with
      | error e => exact hDone .refl fun _ => by simp [Node.afterFinish, hCreation]
      | ok strategy =>
          cases strategy with
          | start create after =>
              exact hDone .refl fun _ => by simp [Node.afterFinish, hCreation]
          | new create =>
              exact hDone .refl fun _ => by simp [Node.afterFinish, hCreation]
          | finish create after =>
              refine Promise.sat_bind.mpr ((Promise.sat_ofExcept _).mpr ?_)
              cases hDate : after request.now sched.toScheduledJobModel with
              | error e =>
                  exact hDone .refl fun _ => by
                    simp [Node.afterFinish, hCreation, hDate, Except.toOption]
              | ok action =>
                  have hFinish : request.node.afterFinish request.now sched =
                      some action := by
                    simp [Node.afterFinish, hCreation, hDate, Except.toOption]
                  cases action with
                  | disable => exact hDone .refl fun hPasture => by cases hPasture
                  | queue runAt =>
                      refine Promise.sat_bind.mpr
                        ((honors_addTaskDuplicateCheck
                          (Or.inl ⟨runAt, hAsks.trans hFinish⟩)).mono ?_ ?_)
                      · exact fun after exit hAfter =>
                          hDone hAfter.1 fun _ => by simp [hFinish]
                      · exact fun after e hAfter =>
                          hDone hAfter fun _ => by simp [hFinish]
  | running jobId => exact noticeWorked_of_not_finished hCall id
  | didNotStart info => exact noticeWorked_of_not_finished hCall id
  | other state => exact noticeWorked_of_not_finished hCall id

end Work

end TernScheduler
