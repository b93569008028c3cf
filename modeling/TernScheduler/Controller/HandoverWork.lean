import TernScheduler.Controller.Recurrence

/-!
# Work under a lease hands the chain on

What the calls at work do about the tasks of a recurring job: one that is used up is
followed by a next one, unless the call ends with an error that it answers for.

* `Carrying` is what the work leaves behind, and `handing_startTaskInLease` and
  `handing_taskFinishedInLease` are the results.
-/

namespace TernScheduler

open Interleaving

/-- The protocol as seen by the work done under a lease. -/
abbrev handing (kind : ChainKind) (request : Request) (leaseId : LeaseIdType) :
    Protocol signature Session :=
  relabelled (handover kind request) (.callback leaseId)

section Work

variable {kind : ChainKind} {request : Request} {task : TaskModel}
  {leaseId : LeaseIdType} {sched : ScheduledJobDataModel} {job : PrimaryKeyType}
  {facts : List Fact} {α : Type}

theorem may_handing {session : Session} {act : Act} (hAct : ¬ act.Releases) :
    (handing kind request leaseId).may session (outside act) :=
  fun hReleases => absurd hReleases hAct

/-- The session has more facts than before, and the chain is carried on if it must
be. -/
def Carrying (kind : ChainKind) (request : Request) (task : TaskModel)
    (leaseId : LeaseIdType) (sched : ScheduledJobDataModel) (job : PrimaryKeyType)
    (facts : List Fact) (must : Prop) (after : Session) : Prop :=
  ∃ later, facts <:+ later ∧ after = .working task leaseId sched job later ∧
    (must → Chained kind request sched later)

theorem Carrying.of_suffix {earlier : List Fact} {must : Prop} {after : Session}
    (h : Carrying kind request task leaseId sched job facts must after)
    (hSuffix : earlier <:+ facts) :
    Carrying kind request task leaseId sched job earlier must after := by
  obtain ⟨later, hLater, hAfter, hMust⟩ := h
  exact ⟨later, hSuffix.trans hLater, hAfter, hMust⟩

theorem handing_emit (event : SchedulerEvent) {resolved : Session → Unit → Prop}
    {rejected : Session → JsError → Prop}
    (hDone : resolved (.working task leaseId sched job facts) ()) :
    (emit event).Honors (handing kind request leaseId) resolved rejected
      (.working task leaseId sched job facts) :=
  (honors_emit event).mpr ⟨may_handing id, fun _ => hDone⟩

theorem handing_currentTimeUTC {resolved : Session → Date → Prop}
    {rejected : Session → JsError → Prop}
    (hDone : ∀ date, resolved (.working task leaseId sched job facts) date) :
    currentTimeUTC.Honors (handing kind request leaseId) resolved rejected
      (.working task leaseId sched job facts) :=
  honors_currentTimeUTC.mpr ⟨may_handing id, hDone⟩

/-- `markTaskState` moves the task, or rejects; a rejection that is no error is out
of the ordinary. -/
theorem handing_markTaskState {old new : TaskStateType} {extra : TaskPatch}
    {resolved : Session → Unit → Prop} {rejected : Session → JsError → Prop}
    (hDone : ∀ fact, Moved task.pk old new fact →
      resolved (.working task leaseId sched job (fact :: facts)) ())
    (hMissed : ∀ e later, facts <:+ later → (e.truthy = false → ¬ Ordinary kind later) →
      rejected (.working task leaseId sched job later) e) :
    (markTaskState task.pk old new extra).Honors (handing kind request leaseId) resolved
      rejected (.working task leaseId sched job facts) := by
  have hTruthy : ∀ {e : JsError} {fact : Fact} {later : List Fact}, fact ∈ later →
      (fact.Ordinary kind → e.truthy = true) → e.truthy = false → ¬ Ordinary kind later := by
    intro e fact later hFact hOrdinary hFalsy hLater
    rw [hOrdinary (hLater.1 fact hFact)] at hFalsy
    cases hFalsy
  refine Promise.sat_bind.mpr ((honors_updateTask _ _ _).mpr
    ⟨may_handing id, fun count => ?_, fun e => ?_⟩)
  · rcases count with _ | count
    · refine Promise.sat_bind.mpr ((honors_findTasks _ _ _).mpr
        ⟨may_handing id, fun tasks => ?_, fun e => ?_⟩)
      · cases tasks with
        | nil =>
            exact hMissed _ _ ((List.suffix_cons _ _).trans (List.suffix_cons _ _))
              fun hFalsy => by cases hFalsy
        | cons found rest =>
            exact hMissed _ _ ((List.suffix_cons _ _).trans (List.suffix_cons _ _))
              fun hFalsy => by cases hFalsy
      · exact hMissed e _ ((List.suffix_cons _ _).trans (List.suffix_cons _ _))
          (hTruthy List.mem_cons_self fun hOrdinary => hOrdinary e rfl)
    · exact hDone _ ⟨_, count, rfl, rfl⟩
  · exact hMissed e _ (List.suffix_cons _ _)
      (hTruthy List.mem_cons_self fun hOrdinary => hOrdinary e rfl)

theorem Carrying.of_missed {e : JsError} {later : List Fact} (hSuffix : facts <:+ later)
    (hMissed : e.truthy = false → ¬ Ordinary kind later) :
    Carrying kind request task leaseId sched job facts (e.truthy = false)
      (.working task leaseId sched job later) :=
  ⟨later, hSuffix, rfl, fun hFalsy _ _ hOrdinary => absurd hOrdinary (hMissed hFalsy)⟩

/-- `addTaskDuplicateCheck` sees a pending task or leaves one. -/
theorem handing_addTaskDuplicateCheck {now : Date} {previous : TaskModel}
    {executeAt : JsDate} :
    (addTaskDuplicateCheck now sched previous executeAt).Honors
      (handing kind request leaseId)
      (fun after _ => Carrying kind request task leaseId sched job facts True after)
      (fun after e => Carrying kind request task leaseId sched job facts
        (e.truthy = false) after)
      (.working task leaseId sched job facts) := by
  refine Promise.sat_bind.mpr ((honors_findTasks _ _ _).mpr
    ⟨may_handing id, fun queuedTasks => ?_, fun e => ?_⟩)
  · cases queuedTasks with
    | cons first rest =>
        refine Promise.sat_bind.mpr (handing_emit _ ?_)
        refine ⟨_, List.suffix_cons _ _, rfl, fun _ _ _ _ => Or.inl ?_⟩
        exact ⟨.pending, kind.live_pending, rfl⟩
    | nil =>
        refine Promise.sat_bind.mpr (honors_createPrimaryKeyStrat.mpr
          ⟨may_handing id, fun newTaskPk => ?_⟩)
        refine Promise.sat_bind.mpr ((honors_addTask _).mpr
          ⟨may_handing id, fun _ => ?_, fun e => ?_⟩)
        · refine Promise.sat_bind.mpr (handing_emit _ ?_)
          refine Promise.sat_bind.mpr (handing_emit _ ?_)
          exact ⟨_, (List.suffix_cons _ _).trans (List.suffix_cons _ _), rfl,
            fun _ _ _ _ => Or.inl kind.live_pending⟩
        · refine Carrying.of_missed ((List.suffix_cons _ _).trans (List.suffix_cons _ _))
            fun hFalsy hOrdinary => ?_
          rw [hOrdinary.1 _ List.mem_cons_self e rfl] at hFalsy
          cases hFalsy
  · refine Carrying.of_missed (List.suffix_cons _ _) fun hFalsy hOrdinary => ?_
    rw [hOrdinary.1 _ List.mem_cons_self e rfl] at hFalsy
    cases hFalsy

/-- `retryTask` carries the chain on, when a start of a task does not depend on it. -/
theorem handing_retryTask {now : Date} {reason : String}
    (hStart : kind = .start → Chained kind request sched facts) :
    (retryTask request.node now sched task reason).Honors (handing kind request leaseId)
      (fun after _ => Carrying kind request task leaseId sched job facts True after)
      (fun after e => Carrying kind request task leaseId sched job facts
        (e.truthy = false) after)
      (.working task leaseId sched job facts) := by
  have hAdd : ∀ executeAt, (addTaskDuplicateCheck now sched task executeAt >>= fun exit =>
      (pure exit.nullable : Js (LeaseExitStateValue (Option TaskModel)))).Honors
      (handing kind request leaseId)
      (fun after _ => Carrying kind request task leaseId sched job facts True after)
      (fun after e => Carrying kind request task leaseId sched job facts
        (e.truthy = false) after)
      (.working task leaseId sched job facts) :=
    fun executeAt => Promise.sat_bind.mpr handing_addTaskDuplicateCheck
  have hSame : ∀ {must : Prop}, (must → Chained kind request sched facts) →
      Carrying kind request task leaseId sched job facts must
        (.working task leaseId sched job facts) :=
    fun hMust => ⟨facts, List.suffix_refl facts, rfl, hMust⟩
  have hError : ∀ {e : JsError}, e.truthy = true →
      Carrying kind request task leaseId sched job facts (e.truthy = false)
        (.working task leaseId sched job facts) := by
    intro e hTruthy
    exact hSame fun hFalsy => by rw [hTruthy] at hFalsy; cases hFalsy
  refine Promise.sat_bind.mpr ((Promise.sat_ofExcept _).mpr ?_)
  cases hRetry : request.node.retryReg.get sched.retryStrategy with
  | error e => exact hError (StrategyRegistry.truthy_of_get hRetry)
  | ok retry =>
      refine Promise.sat_bind.mpr ((Promise.sat_ofExcept _).mpr ?_)
      cases hAnswer : retry sched.toScheduledJobModel task reason with
      | error e =>
          -- Only for the kind that waits for a finish does the throw matter.
          refine hSame fun hFalsy hRecurs hThrows hOrdinary => ?_
          cases kind with
          | start => exact hStart rfl hRecurs hThrows hOrdinary
          | finish =>
              rw [hThrows rfl retry _ task reason e hRetry hAnswer] at hFalsy
              cases hFalsy
      | ok answer =>
          cases answer with
          | some seconds => exact hAdd _
          | none =>
              refine Promise.sat_bind.mpr ((Promise.sat_ofExcept _).mpr ?_)
              cases hCreation :
                  request.node.taskCreationReg.get sched.taskCreationStrategy with
              | error e => exact hError (StrategyRegistry.truthy_of_get hCreation)
              | ok strategy =>
                  cases strategy with
                  | finish create next =>
                      refine Promise.sat_bind.mpr ((Promise.sat_ofExcept _).mpr ?_)
                      cases hNext : next now sched.toScheduledJobModel with
                      | error e =>
                          refine hSame fun _ hRecurs => ?_
                          obtain ⟨runAt, hQueue⟩ := (hRecurs.of_finish hCreation).2 now
                            sched.toScheduledJobModel
                          rw [hNext] at hQueue
                          cases hQueue
                      | ok action =>
                          cases action with
                          | queue runAt => exact hAdd runAt
                          | disable =>
                              refine hSame fun _ hRecurs => ?_
                              obtain ⟨runAt, hQueue⟩ := (hRecurs.of_finish hCreation).2 now
                                sched.toScheduledJobModel
                              rw [hNext] at hQueue
                              cases hQueue
                  | start create next =>
                      refine Promise.sat_bind.mpr (handing_emit _ (hSame fun _ hRecurs => ?_))
                      exact hStart (hRecurs.of_start hCreation).1 hRecurs
                  | new create =>
                      refine Promise.sat_bind.mpr (handing_emit _ (hSame fun _ hRecurs => ?_))
                      exact absurd hCreation hRecurs.not_new

/-- What a launch leaves: a skipped task was skipped for a started one, and a
started job has reported back. -/
def LaunchedOn (kind : ChainKind) (request : Request) (task : TaskModel)
    (leaseId : LeaseIdType) (sched : ScheduledJobDataModel) (job : PrimaryKeyType)
    (after : Session) : Option JobExecutionState → Prop
  | none => Carrying kind request task leaseId sched job [] (kind = .finish) after
  | some state => ∃ later, after = .working task leaseId sched job later ∧
      (Ordinary kind later → state.Reported ∧ kind.Continues state)

/-- `launchTask` skips a task only for a started one. -/
theorem handing_launchTask :
    (launchTask request.node sched task).Honors (handing kind request leaseId)
      (LaunchedOn kind request task leaseId sched job)
      (fun after e => Carrying kind request task leaseId sched job [] (e.truthy = false)
        after)
      (.working task leaseId sched job facts) := by
  refine Promise.sat_bind.mpr (Promise.sat_bind.mpr ((Promise.sat_ofExcept _).mpr ?_))
  cases hDup : request.node.duplicateTaskReg.get sched.duplicateStrategy with
  | error e =>
      refine ⟨facts, List.nil_suffix, rfl, fun hFalsy => ?_⟩
      rw [StrategyRegistry.truthy_of_get hDup] at hFalsy
      cases hFalsy
  | ok dup =>
      refine Promise.sat_bind.mpr ((honors_findTasks _ _ _).mpr
        ⟨may_handing id, fun found => ?_, fun e => ?_⟩)
      · refine (Promise.sat_ofExcept _).mpr ?_
        cases hSkip : dup.shouldSkip sched.toScheduledJobModel found task with
        | error e =>
            refine ⟨_, List.nil_suffix, rfl, fun _ hRecurs => ?_⟩
            rcases hRecurs.duplicate with hRun | hRun <;> rw [hDup] at hRun <;>
              cases hRun <;> cases hSkip
        | ok shouldSkip =>
            cases shouldSkip with
            | true =>
                refine ⟨_, List.nil_suffix, rfl, fun hFinish hRecurs _ _ => Or.inl ?_⟩
                -- Only always-skip skips, and only when it was shown a started task.
                rcases hRecurs.duplicate with hRun | hRun <;> rw [hDup] at hRun <;> cases hRun
                · cases hSkip
                · cases found with
                  | nil => cases hSkip
                  | cons first rest => exact ⟨.started, hFinish ▸ Or.inr rfl, rfl⟩
            | false =>
                refine Promise.sat_handle.mpr (Promise.sat_bind.mpr
                  ((honors_startJob _ _ _).mpr ⟨may_handing id, fun state => ?_,
                    fun e => ?_⟩))
                · refine ⟨_, rfl, fun hOrdinary => ?_⟩
                  obtain ⟨_, hReply, hReported⟩ := hOrdinary.1 _ List.mem_cons_self
                  cases hReply
                  exact hReported
                · have hNotOrdinary : ∀ {later : List Fact},
                      .startedJob task.pk (.error e) ∈ later → ¬ Ordinary kind later := by
                    intro later hFact hLater
                    obtain ⟨_, hReply, -⟩ := hLater.1 _ hFact
                    cases hReply
                  refine Promise.sat_bind.mpr (handing_currentTimeUTC fun failedAt => ?_)
                  refine Promise.sat_bind.mpr (handing_markTaskState (fun fact _ => ?_)
                    fun e' later hSuffix _ => ?_)
                  · exact ⟨_, List.nil_suffix, rfl, fun _ _ _ hOrdinary =>
                      absurd hOrdinary
                        (hNotOrdinary (List.mem_cons_of_mem _ List.mem_cons_self))⟩
                  · exact ⟨later, List.nil_suffix, rfl, fun _ _ _ hOrdinary =>
                      absurd hOrdinary (hNotOrdinary (hSuffix.subset List.mem_cons_self))⟩
      · refine (Carrying.of_missed (List.suffix_cons _ _) fun hFalsy hOrdinary => ?_).of_suffix
          List.nil_suffix
        rw [hOrdinary.1 _ List.mem_cons_self e rfl] at hFalsy
        cases hFalsy

/-- What the record of a launch leaves: the chain is carried on, unless the next
task is still to be added. -/
def Recorded (kind : ChainKind) (request : Request) (task : TaskModel)
    (leaseId : LeaseIdType) (sched : ScheduledJobDataModel) (job : PrimaryKeyType)
    (after : Session) (exit : LeaseExitStateValue (Option TaskModel)) : Prop :=
  ∃ later, after = .working task leaseId sched job later ∧
    (kind = .finish → Chained kind request sched later) ∧
    (Ordinary kind later → exit.pasture = false ∧ exit.value ≠ none)

/-- `recordLaunch` leaves the task started, or finds it skipped for a started one. -/
theorem handing_recordLaunch {now : Date} {execStatus : Option JobExecutionState}
    {before : Session}
    (hBefore : LaunchedOn kind request task leaseId sched job before execStatus) :
    (recordLaunch request.node now sched task execStatus).Honors
      (handing kind request leaseId) (Recorded kind request task leaseId sched job)
      (fun after e => Carrying kind request task leaseId sched job [] (e.truthy = false)
        after)
      before := by
  have hMissed : ∀ {facts later : List Fact} {e : JsError}, facts <:+ later →
      (e.truthy = false → ¬ Ordinary kind later) →
      Carrying kind request task leaseId sched job [] (e.truthy = false)
        (.working task leaseId sched job later) :=
    fun _ hMissed => Carrying.of_missed List.nil_suffix hMissed
  cases execStatus with
  | none =>
      obtain ⟨facts, -, rfl, hSkipped⟩ := hBefore
      refine Promise.sat_bind.mpr (handing_currentTimeUTC fun skippedAt => ?_)
      refine Promise.sat_bind.mpr (handing_markTaskState (fun fact hMoved => ?_)
        fun e later hSuffix hLater => hMissed hSuffix hLater)
      refine ⟨_, rfl, fun hFinish hRecurs hThrows hOrdinary => Or.inr ⟨?_, ?_⟩,
        fun _ => ⟨rfl, by simp⟩⟩
      · obtain ⟨newValues, count, rfl, -⟩ := hMoved
        rintro ⟨state, hLive, hExpected⟩
        rw [← stateEquals_injective hExpected] at hLive
        exact kind.not_live_queued hLive
      · exact hSkipped hFinish hRecurs hThrows (hOrdinary.of_suffix (List.suffix_cons _ _))
  | some state =>
      obtain ⟨facts, rfl, hReported⟩ := hBefore
      -- Once the task is marked as started the chain of the other kind goes on.
      have hStarted : ∀ {fact : Fact}, Moved task.pk .queued .started fact →
          kind = .finish → Chained kind request sched (fact :: facts) := by
        rintro fact ⟨newValues, count, rfl, hState⟩ rfl - - -
        exact Or.inl ⟨.started, Or.inr rfl, hState⟩
      have hNever : ∀ {later : List Fact} {exit : LeaseExitStateValue (Option TaskModel)},
          facts <:+ later → ¬ (state.Reported ∧ kind.Continues state) →
          Recorded kind request task leaseId sched job
            (.working task leaseId sched job later) exit := by
        intro later exit hSuffix hNot
        have hNotOrdinary : ¬ Ordinary kind later := fun hOrdinary =>
          hNot (hReported (hOrdinary.of_suffix hSuffix))
        exact ⟨later, rfl, fun _ _ _ hOrdinary => absurd hOrdinary hNotOrdinary,
          fun hOrdinary => absurd hOrdinary hNotOrdinary⟩
      cases state with
      | other text =>
          exact ⟨facts, List.nil_suffix, rfl, fun hFalsy => by cases hFalsy⟩
      | didNotStart result =>
          refine Promise.sat_bind.mpr (handing_currentTimeUTC fun failedAt => ?_)
          exact Promise.sat_bind.mpr (handing_markTaskState
            (fun fact _ => hNever (List.suffix_cons _ _) fun h => h.1)
            fun e later hSuffix hLater => hMissed hSuffix hLater)
      | running jobId =>
          refine Promise.sat_bind.mpr (handing_currentTimeUTC fun startedAt => ?_)
          refine Promise.sat_bind.mpr (handing_markTaskState (fun fact hMoved => ?_)
            fun e later hSuffix hLater => hMissed hSuffix hLater)
          exact Promise.sat_bind.mpr (handing_emit _
            ⟨_, rfl, hStarted hMoved, fun _ => ⟨rfl, by simp⟩⟩)
      | completed jobId result =>
          refine Promise.sat_bind.mpr (handing_currentTimeUTC fun startedAt => ?_)
          refine Promise.sat_bind.mpr (handing_markTaskState (fun fact _ => ?_)
            fun e later hSuffix hLater => hMissed hSuffix hLater)
          refine Promise.sat_bind.mpr (handing_currentTimeUTC fun completedAt => ?_)
          refine Promise.sat_bind.mpr (handing_markTaskState (fun second _ => ?_)
            fun e later hSuffix hLater => hMissed hSuffix hLater)
          cases kind with
          | start => exact ⟨_, rfl, fun hFinish => (by cases hFinish), fun _ => ⟨rfl, by simp⟩⟩
          | finish =>
              exact hNever ((List.suffix_cons _ _).trans (List.suffix_cons _ _))
                fun h => by cases h.2
      | failed jobId result =>
          refine Promise.sat_bind.mpr (handing_currentTimeUTC fun startedAt => ?_)
          refine Promise.sat_bind.mpr (handing_markTaskState (fun first hFirst => ?_)
            fun e later hSuffix hLater => hMissed hSuffix hLater)
          refine Promise.sat_bind.mpr (handing_currentTimeUTC fun failedAt => ?_)
          refine Promise.sat_bind.mpr (handing_markTaskState (fun second hSecond => ?_)
            fun e later hSuffix hLater => hMissed hSuffix hLater)
          -- The second move expects the state the first one left behind.
          have hNotOrdinary : ∀ {later : List Fact}, second :: first :: facts <:+ later →
              ¬ Ordinary kind later := fun hSuffix hOrdinary =>
            (hOrdinary.of_suffix hSuffix).2
              ⟨task.pk, first, second, facts, hFirst, hSecond, List.suffix_refl _⟩
          refine (handing_retryTask fun _ _ _ hOrdinary =>
            absurd hOrdinary (hNotOrdinary (List.suffix_refl _))).mono ?_ ?_
          · rintro after exit ⟨later, hSuffix, rfl, -⟩
            exact ⟨later, rfl, fun _ _ _ hOrdinary => absurd hOrdinary (hNotOrdinary hSuffix),
              fun hOrdinary => absurd hOrdinary (hNotOrdinary hSuffix)⟩
          · rintro after e ⟨later, hSuffix, rfl, -⟩
            exact ⟨later, List.nil_suffix, rfl, fun _ _ _ hOrdinary =>
              absurd hOrdinary (hNotOrdinary hSuffix)⟩

/-- `addFollowUp` adds the next task, if the start of a task asks for it. -/
theorem handing_addFollowUp {now : Date} {currentTask : LeaseExitStateValue (Option TaskModel)}
    {before : Session}
    (hBefore : Recorded kind request task leaseId sched job before currentTask) :
    (addFollowUp request.node now sched currentTask).Honors (handing kind request leaseId)
      (fun after _ => Carrying kind request task leaseId sched job [] True after)
      (fun after e => Carrying kind request task leaseId sched job [] (e.truthy = false)
        after)
      before := by
  obtain ⟨facts, rfl, hFinish, hExit⟩ := hBefore
  have hSame : ∀ {must : Prop}, (must → Chained kind request sched facts) →
      Carrying kind request task leaseId sched job [] must
        (.working task leaseId sched job facts) :=
    fun hMust => ⟨facts, List.nil_suffix, rfl, hMust⟩
  unfold addFollowUp
  split
  · rename_i hPasture
    refine hSame fun _ _ _ hOrdinary => ?_
    rw [(hExit hOrdinary).1] at hPasture
    cases hPasture
  · split
    · rename_i hNone
      exact hSame fun _ _ _ hOrdinary => absurd hNone (hExit hOrdinary).2
    · rename_i current _
      refine Promise.sat_bind.mpr ((Promise.sat_ofExcept _).mpr ?_)
      cases hCreation : request.node.taskCreationReg.get sched.taskCreationStrategy with
      | error e =>
          refine hSame fun hFalsy => ?_
          rw [StrategyRegistry.truthy_of_get hCreation] at hFalsy
          cases hFalsy
      | ok strategy =>
          cases strategy with
          | finish create next =>
              exact hSame fun _ hRecurs => hFinish (hRecurs.of_finish hCreation).1 hRecurs
          | new create => exact hSame fun _ hRecurs => absurd hCreation hRecurs.not_new
          | start create next =>
              refine Promise.sat_bind.mpr ((Promise.sat_ofExcept _).mpr ?_)
              have hQueues : ∀ {result : Except JsError TaskCreationAction},
                  next now sched.toScheduledJobModel = result →
                  Recurs kind request.node sched.toNewScheduledJob →
                  ∃ runAt, result = .ok (.queue runAt) := by
                rintro result rfl hRecurs
                exact (hRecurs.of_start hCreation).2 now sched.toScheduledJobModel
              cases hNext : next now sched.toScheduledJobModel with
              | error e =>
                  refine hSame fun _ hRecurs => ?_
                  obtain ⟨runAt, hQueue⟩ := hQueues hNext hRecurs
                  cases hQueue
              | ok action =>
                  cases action with
                  | disable =>
                      refine hSame fun _ hRecurs => ?_
                      obtain ⟨runAt, hQueue⟩ := hQueues hNext hRecurs
                      cases hQueue
                  | queue runAt =>
                      refine Promise.sat_bind.mpr (handing_addTaskDuplicateCheck.mono ?_ ?_)
                      · exact fun after exit hAfter => hAfter.of_suffix List.nil_suffix
                      · exact fun after e hAfter => hAfter.of_suffix List.nil_suffix

/-- What `startTask` does under the lease carries the chain on. -/
theorem handing_startTaskInLease {now : Date} :
    (startTaskInLease request.node task now sched).Honors (handing kind request leaseId)
      (fun after _ => Carrying kind request task leaseId sched job [] True after)
      (fun after e => Carrying kind request task leaseId sched job [] (e.truthy = false)
        after)
      (.working task leaseId sched job []) := by
  refine Promise.sat_bind.mpr (handing_markTaskState (fun queued _ => ?_)
    fun e later hSuffix hLater => Carrying.of_missed hSuffix hLater)
  refine Promise.sat_bind.mpr (handing_launchTask.mono ?_ fun _ _ hAfter => hAfter)
  intro launched execStatus hLaunched
  refine Promise.sat_bind.mpr ((handing_recordLaunch hLaunched).mono ?_
    fun _ _ hAfter => hAfter)
  intro recorded currentTask hRecorded
  exact Promise.sat_bind.mpr (handing_addFollowUp hRecorded)

/-- A finish does not use up what a chain of the other kind lives on. -/
theorem chained_of_finished {fact : Fact} {new : TaskStateType}
    (hCall : request.call.creates = false) (hMoved : Moved task.pk .started new fact) :
    kind = .start → Chained kind request sched [fact] := by
  rintro rfl - - -
  obtain ⟨newValues, count, rfl, -⟩ := hMoved
  refine Or.inr ⟨?_, hCall⟩
  rintro ⟨state, hLive, hExpected⟩
  rw [← stateEquals_injective hExpected] at hLive
  cases hLive

/-- What `taskFinished` does under the lease carries the chain on. -/
theorem handing_taskFinishedInLease {result : JobExecutionState} {now : Date}
    (hCall : request.call.creates = false) :
    (taskFinishedInLease request.node task result now sched).Honors
      (handing kind request leaseId)
      (fun after _ => Carrying kind request task leaseId sched job [] True after)
      (fun after e => Carrying kind request task leaseId sched job [] (e.truthy = false)
        after)
      (.working task leaseId sched job []) := by
  -- a truthy error never releases the row, so nothing has to be pending
  have hRejected : ∀ {e : JsError}, e.truthy = true →
      Carrying kind request task leaseId sched job [] (e.truthy = false)
        (.working task leaseId sched job []) := by
    intro e hTruthy
    refine ⟨[], List.nil_suffix, rfl, fun hFalsy => ?_⟩
    rw [hTruthy] at hFalsy
    cases hFalsy
  cases result with
  | running jobId => exact hRejected rfl
  | didNotStart info => exact hRejected rfl
  | other state => exact hRejected rfl
  | failed jobId info =>
      refine Promise.sat_bind.mpr (handing_markTaskState (fun fact hMoved => ?_)
        fun e later hSuffix hLater => Carrying.of_missed hSuffix hLater)
      refine Promise.sat_bind.mpr
        ((handing_retryTask (chained_of_finished hCall hMoved)).mono ?_ ?_)
      · exact fun after exit hAfter => hAfter.of_suffix List.nil_suffix
      · exact fun after e hAfter => hAfter.of_suffix List.nil_suffix
  | completed jobId info =>
      refine Promise.sat_bind.mpr (handing_markTaskState (fun fact hMoved => ?_)
        fun e later hSuffix hLater => Carrying.of_missed hSuffix hLater)
      -- a job that queues at the start had its next task before this one could end
      have hKept : kind = .start → Chained kind request sched [fact] :=
        chained_of_finished hCall hMoved
      have hSame : ∀ {must : Prop}, (must → Chained kind request sched [fact]) →
          Carrying kind request task leaseId sched job [] must
            (.working task leaseId sched job [fact]) :=
        fun hMust => ⟨_, List.nil_suffix, rfl, hMust⟩
      refine Promise.sat_bind.mpr (handing_emit _ ?_)
      refine Promise.sat_bind.mpr ((Promise.sat_ofExcept _).mpr ?_)
      cases hCreation : request.node.taskCreationReg.get sched.taskCreationStrategy with
      | error e =>
          refine hSame fun hFalsy => ?_
          rw [StrategyRegistry.truthy_of_get hCreation] at hFalsy
          cases hFalsy
      | ok strategy =>
          cases strategy with
          | start create next =>
              exact hSame fun _ hRecurs => hKept (hRecurs.of_start hCreation).1 hRecurs
          | new create => exact hSame fun _ hRecurs => absurd hCreation hRecurs.not_new
          | finish create next =>
              refine Promise.sat_bind.mpr ((Promise.sat_ofExcept _).mpr ?_)
              cases hNext : next now sched.toScheduledJobModel with
              | error e =>
                  refine hSame fun _ hRecurs => ?_
                  obtain ⟨runAt, hQueue⟩ :=
                    (hRecurs.of_finish hCreation).2 now sched.toScheduledJobModel
                  rw [hNext] at hQueue
                  cases hQueue
              | ok action =>
                  cases action with
                  | disable =>
                      refine hSame fun _ hRecurs => ?_
                      obtain ⟨runAt, hQueue⟩ :=
                        (hRecurs.of_finish hCreation).2 now sched.toScheduledJobModel
                      rw [hNext] at hQueue
                      cases hQueue
                  | queue runAt =>
                      refine Promise.sat_bind.mpr (handing_addTaskDuplicateCheck.mono ?_ ?_)
                      · exact fun after exit hAfter => hAfter.of_suffix List.nil_suffix
                      · exact fun after e hAfter => hAfter.of_suffix List.nil_suffix

end Work

end TernScheduler
