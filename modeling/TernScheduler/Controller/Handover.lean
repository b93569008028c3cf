import TernScheduler.Controller.HandoverWork

/-!
# Handing the chain of a recurring job on

A lease is given up only when the chain of its job goes on.  The protocol is followed when
the strategies of the job always ask for a next task and jobs report back.

* `HandsOn` is what the work under a lease has to see to.
* `Request.honors_handover` is the result, for each of the calls.
-/

namespace TernScheduler

open Interleaving

/-! ## Leases -/

section Lease

variable {kind : ChainKind} {request : Request} {session : Session}
  {leaseId : LeaseIdType} {pk : PrimaryKeyType} {α : Type}

theorem may_handover {act : Act} (hAct : ¬ act.Releases) :
    (handover kind request).may session (outside act) :=
  fun hReleases => absurd hReleases hAct

/-- After `rejectUnlessUpdated` nothing is left to hand on. -/
theorem handover_rejectUnlessUpdated {leaseError : ScheduledJobDataModel → JsError}
    {count : Nat} :
    (rejectUnlessUpdated pk leaseError count).Honors (handover kind request)
      (fun _ _ => True) (fun _ _ => True) session := by
  unfold rejectUnlessUpdated
  split
  · trivial
  · refine Promise.sat_bind.mpr ((honors_findSchedules _ _ _).mpr
      ⟨may_handover id, fun rows => ?_, fun e => trivial⟩)
    cases rows with
    | nil => trivial
    | cons row rest => trivial

/-- `closeLease` releases the lease only if the work ended without an error. -/
theorem handover_closeLease {sched : ScheduledJobDataModel} {now : Date}
    {result : LeaseExitState α}
    (hRelease : result.asError = none → MayRelease kind request session) :
    (closeLease sched leaseId now result).Honors (handover kind request)
      (fun _ _ => True) (fun _ _ => True) session := by
  -- events write no row
  have hEmit : ∀ {event : SchedulerEvent} {resolved : Session → Unit → Prop}
      {rejected : Session → JsError → Prop}, resolved session () →
      (emit event).Honors (handover kind request) resolved rejected session :=
    fun hDone => (honors_emit _).mpr ⟨may_handover id, fun _ => hDone⟩
  have hPastured : ∀ {resolved : Session → Unit → Prop}
      {rejected : Session → JsError → Prop}, resolved session () →
      (emitIfPastured sched result.pasture).Honors (handover kind request) resolved
        rejected session := by
    intro resolved rejected hDone
    unfold emitIfPastured
    split
    · exact hEmit hDone
    · exact hDone
  -- only a release needs the leave of the hand-over; a row marked for repair keeps its state
  have hUpdate : ∀ {newValues : ScheduledJobPatch} {leaseError : ScheduledJobDataModel → JsError},
      (newValues.updateState = some none → MayRelease kind request session) →
      (updateSchedule sched.pk newValues (leasedBy leaseId) >>=
        rejectUnlessUpdated sched.pk leaseError).Honors (handover kind request)
        (fun _ _ => True) (fun _ _ => True) session := by
    intro newValues leaseError hMay
    exact Promise.sat_bind.mpr ((honors_updateSchedule _ _ _).mpr
      ⟨fun hReleases _ => hMay hReleases, fun count => handover_rejectUnlessUpdated,
        fun e => trivial⟩)
  have hEnd : (endLease sched leaseId now result).Honors (handover kind request)
      (fun _ _ => True) (fun _ _ => True) session := by
    unfold endLease
    split
    · split
      · rename_i error _ hInstance
        rw [JsError.not_instanceOf_invalidScheduleDefinition] at hInstance
        cases hInstance
      · exact Promise.sat_bind.mpr (hPastured (hUpdate fun hState => by cases hState))
    · rename_i hNone
      exact Promise.sat_bind.mpr (hPastured (hUpdate fun _ => hRelease hNone))
  refine Promise.sat_bind.mpr (Promise.sat_handle.mpr (hEnd.mono ?_ ?_))
  · intro after _ _
    split <;> trivial
  · intro after e _
    split
    · exact Promise.sat_bind.mpr ((honors_emit _).mpr ⟨may_handover id, fun _ => trivial⟩)
    · trivial

/-- The work leaves a session that may release its lease, unless it ends with an
error. -/
def HandsOn (kind : ChainKind) (request : Request) (session : Session)
    (leaseId : LeaseIdType) (work : Js (LeaseExitState α)) : Prop :=
  work.Honors (handing kind request leaseId)
    (fun after exit => exit.asError = none → MayRelease kind request after)
    (fun after e => e.truthy = false → MayRelease kind request after) session

/-- The work, and then the end of the lease. -/
theorem handover_workAndClose {sched : ScheduledJobDataModel} {now : Date}
    {work : Js (LeaseExitState α)} (hWork : HandsOn kind request session leaseId work) :
    (inScope (.callback leaseId) (settleLease work) >>= fun result =>
      closeLease sched leaseId now result).Honors (handover kind request)
      (fun _ _ => True) (fun _ _ => True) session := by
  refine Promise.sat_bind.mpr ((honors_inScope _ _).mpr
    (Promise.sat_handle.mpr (Promise.Sat.mono hWork ?_ ?_)))
  · exact fun after exit hAfter => handover_closeLease hAfter
  · intro after e hAfter
    refine handover_closeLease fun hNone => hAfter ?_
    simpa [LeaseExitState.asError] using hNone

/-- `runUpdateInLease` hands the chain on when its work does. -/
theorem handover_runUpdateInLease {operation : ScheduleUpdateStateType}
    {taskPk : Option PrimaryKeyType} {now : Date}
    {withLease : ScheduledJobDataModel → LeaseIdType → Js (LeaseExitState α)}
    (hJob : session.job = none)
    (hWork : ∀ leaseId sched, HandsOn kind request
      { session with leaseId := some leaseId, job := some pk, sched := some sched }
      leaseId (withLease sched leaseId)) :
    (runUpdateInLease request.node operation pk taskPk now withLease).Honors
      (handover kind request) (fun _ _ => True) (fun _ _ => True) session := by
  refine Promise.sat_bind.mpr (honors_leaseOwnerStrategy.mpr
    ⟨may_handover id, fun leaseId => ?_⟩)
  -- an attempt that fails reads the row, and learns nothing while there is no lease
  have hAttempt : (leaseAttempt request.node operation pk taskPk now leaseId).Honors
      (handover kind request)
      (fun after _ => after = { session with leaseId := some leaseId, job := some pk })
      (fun after _ => after = { session with leaseId := some leaseId })
      { session with leaseId := some leaseId } := by
    refine Promise.sat_bind.mpr ((honors_updateSchedule _ _ _).mpr
      ⟨may_handover fun hReleases => (by cases hReleases), fun count => ?_, fun e => rfl⟩)
    have hSame : ∀ reply, ({ session with leaseId := some leaseId } : Session).afterRead reply =
        { session with leaseId := some leaseId } := Session.afterRead_of_unleased hJob
    cases count with
    | zero =>
        refine Promise.sat_bind.mpr ((honors_findSchedules _ _ _).mpr
          ⟨may_handover id, fun rows => ?_, fun e => hSame _⟩)
        cases rows with
        | nil => exact hSame _
        | cons row rest => exact hSame _
    | succ count => exact rfl
  refine Promise.sat_bind.mpr ((honors_retryLease
    (fun _ => ⟨may_handover id, fun _ => rfl⟩) hAttempt _).mono ?_ fun _ _ _ => trivial)
  rintro after _ rfl
  refine Promise.sat_bind.mpr (Promise.sat_bind.mpr ((honors_findSchedules _ _ _).mpr
    ⟨may_handover id, fun rows => ?_, fun e => trivial⟩))
  cases rows with
  | nil => trivial
  | cons sched rest => exact handover_workAndClose (hWork leaseId sched)

/-- Work that carries the chain on may release its lease. -/
theorem handsOn_of_carrying {task : TaskModel} {sched : ScheduledJobDataModel}
    {work : Js (LeaseExitState α)}
    (h : work.Honors (handing kind request leaseId)
      (fun after _ => Carrying kind request task leaseId sched pk [] True after)
      (fun after e => Carrying kind request task leaseId sched pk [] (e.truthy = false) after)
      (.working task leaseId sched pk [])) :
    HandsOn kind request (.working task leaseId sched pk []) leaseId work := by
  refine Promise.Sat.mono h ?_ ?_
  · rintro after exit ⟨later, -, rfl, hMust⟩ -
    exact ⟨sched, rfl, hMust trivial⟩
  · rintro after e ⟨later, -, rfl, hMust⟩ hFalsy
    exact ⟨sched, rfl, hMust hFalsy⟩

end Lease

/-! ## Calls -/

section Calls

variable {kind : ChainKind} {request : Request}

theorem handover_createScheduledJob {schedule : NewScheduledJob} :
    (createScheduledJob request.node schedule request.now).Honors (handover kind request)
      (fun _ _ => True) (fun _ _ => True) {} := by
  refine Promise.sat_bind.mpr (honors_leaseOwnerStrategy.mpr
    ⟨may_handover id, fun leaseId => ?_⟩)
  refine Promise.sat_bind.mpr (honors_createPrimaryKeyStrat.mpr
    ⟨may_handover id, fun schedPk => ?_⟩)
  refine Promise.sat_bind.mpr (honors_createPrimaryKeyStrat.mpr
    ⟨may_handover id, fun createdTaskPk => ?_⟩)
  refine Promise.sat_bind.mpr (Promise.sat_handle.mpr (Promise.sat_bind.mpr
    ((honors_createSchedule _).mpr ⟨may_handover id, fun _ => ?_, fun e => ?_⟩)))
  · refine (honors_inScope _ _).mpr (Promise.sat_handle.mpr ?_)
    refine Promise.sat_bind.mpr ((Promise.sat_ofExcept _).mpr ?_)
    -- an error marks the row for repair unless it is falsy
    have hReject : ∀ {after : Session} {sched : ScheduledJobDataModel} {e : JsError},
        (e.truthy = false → MayRelease kind request after) →
        (closeLease sched leaseId request.now
          (LeaseExitState.error e false none : LeaseExitState PrimaryKeyType)).Honors
          (handover kind request) (fun _ _ => True) (fun _ _ => True) after := by
      intro after sched e hFalsy
      refine handover_closeLease fun hNone => hFalsy ?_
      simpa [LeaseExitState.asError] using hNone
    cases hCreation : request.node.taskCreationReg.get schedule.taskCreationStrategy with
    | error e =>
        refine hReject fun hFalsy => ?_
        rw [StrategyRegistry.truthy_of_get hCreation] at hFalsy
        cases hFalsy
    | ok strat =>
        refine Promise.sat_bind.mpr ((Promise.sat_ofExcept _).mpr ?_)
        cases hDate : strat.createFromNewSchedule request.now _ with
        | error e =>
            refine hReject fun _ => ⟨_, rfl, fun hRecurs => ?_⟩
            obtain ⟨create, next, hGet, hCreate, -⟩ := hRecurs.creation
            have hStrat : strat = kind.strategy create next :=
              Except.ok.inj (hCreation.symm.trans hGet)
            rw [hStrat, ChainKind.createFromNewSchedule_strategy] at hDate
            obtain ⟨runAt, hRun⟩ := hCreate request.now _
            cases hDate.symm.trans hRun
        | ok taskRunDate =>
            refine Promise.sat_bind.mpr ((honors_addTask _).mpr
              ⟨may_handing id, fun _ => ?_, fun e => ?_⟩)
            · refine Promise.sat_bind.mpr ((honors_emit _).mpr
                ⟨may_handing id, fun _ => handover_closeLease fun _ => ⟨_, rfl, ?_⟩⟩)
              exact fun _ _ _ => Or.inl kind.live_pending
            · refine hReject fun hFalsy => ⟨_, rfl, fun _ _ hOrdinary => ?_⟩
              rw [hOrdinary.1 _ List.mem_cons_self e rfl] at hFalsy
              cases hFalsy
  · refine Promise.sat_bind.mpr (Promise.sat_handle.mpr (Promise.sat_bind.mpr
      ((honors_updateSchedule _ _ _).mpr
        ⟨may_handover fun hReleases => (by cases hReleases), fun count => ?_, fun e2 => ?_⟩)))
    · exact handover_rejectUnlessUpdated.mono (fun _ _ _ => trivial) fun after e2 _ =>
        Promise.sat_bind.mpr ((honors_emit _).mpr ⟨may_handover id, fun _ => trivial⟩)
    · exact Promise.sat_bind.mpr ((honors_emit _).mpr ⟨may_handover id, fun _ => trivial⟩)

theorem handover_startTask {task : TaskModel} {now : Date} :
    (startTask request.node task now).Honors (handover kind request)
      (fun _ _ => True) (fun _ _ => True) { task := some task } := by
  refine Promise.sat_handle.mpr (Promise.sat_bind.mpr
    ((handover_runUpdateInLease rfl fun leaseId sched =>
      handsOn_of_carrying handing_startTaskInLease).mono (fun _ _ _ => trivial) ?_))
  intro after e _
  split
  · exact (honors_emit _).mpr ⟨may_handover id, fun _ => trivial⟩
  · trivial

theorem handover_taskFinished {execJobId : ExecutionJobId} {result : JobExecutionState}
    {now : Date} (hCall : request.call.creates = false) :
    (taskFinished request.node execJobId result now).Honors (handover kind request)
      (fun _ _ => True) (fun _ _ => True) {} := by
  have hNotice : ∀ task, (finishFoundTask request.node task result now).Honors
      (handover kind request)
      (fun _ _ => True) (fun _ _ => True) { task := some task } := by
    intro task
    refine Promise.sat_handle.mpr (Promise.sat_bind.mpr
      ((handover_runUpdateInLease rfl fun leaseId sched =>
        handsOn_of_carrying (handing_taskFinishedInLease hCall)).mono
        (fun _ _ _ => trivial) ?_))
    intro after e _
    split
    · exact (honors_emit _).mpr ⟨may_handover id, fun _ => trivial⟩
    · exact (honors_emit _).mpr ⟨may_handover id, fun _ => trivial⟩
    · trivial
  cases result with
  | running jobId => trivial
  | _ =>
      refine Promise.sat_bind.mpr (Promise.sat_bind.mpr ((honors_findTasks _ _ _).mpr
        ⟨may_handover id, fun rows => ?_, fun e => trivial⟩))
      rcases rows with _ | ⟨row, _ | ⟨other, rest⟩⟩
      · trivial
      · exact hNotice row
      · trivial

/-- A call that is not responsible for a chain may do anything. -/
theorem handover_of_other (hCall : ¬ (request.call.creates ∨ request.call.advances))
    {promise : Js (Option PrimaryKeyType)} {session : Session} :
    promise.Honors (handover kind request) (fun _ _ => True) (fun _ _ => True) session := by
  have hAny : Prog.Honors (handover kind request) (fun _ _ => True) session promise :=
    Prog.honors_of_may (fun _ _ _ hChain => absurd hChain hCall) session promise
  refine Prog.Sat.mono hAny fun after settled _ => ?_
  cases settled <;> trivial

/-- **Every call hands the chain on**, whatever the replies it gets. -/
theorem Request.honors_handover (request : Request) :
    request.program.Honors (handover kind request) (fun _ _ => True) (fun _ _ => True)
      (.start request.call) := by
  unfold Request.program
  split
  · rename_i schedule hCall
    rw [hCall]
    exact handover_createScheduledJob
  · rename_i task hCall
    rw [hCall]
    exact Promise.sat_bind.mpr handover_startTask
  · rename_i execJobId result hCall
    rw [hCall]
    exact Promise.sat_bind.mpr (handover_taskFinished (by rw [hCall]; rfl))
  · rename_i schedule reason hCall
    exact handover_of_other (by rw [hCall]; simp [Call.creates, Call.advances])
  · rename_i srcSchedule hCall
    exact handover_of_other (by rw [hCall]; simp [Call.creates, Call.advances])

end Calls

end TernScheduler
