import TernScheduler.Controller.LeaseConformance

/-!
# Every call follows its contract

The calls of the controller are put together from leases and work under them, and the
repairs from the leases of others.

* `Request.honors_contract` is the result, for each of the calls.
-/

namespace TernScheduler

open Interleaving

section Calls

variable {request : Request}

theorem honors_createScheduledJob {schedule : NewScheduledJob}
    (hCall : request.call = .createScheduledJob schedule) :
    (createScheduledJob request.node schedule request.now).Honors (contract request)
      (fun after _ => Settles request after) (fun after _ => Settles request after)
      {} := by
  refine honors_createScheduledJobAlone hCall fun leaseId sched taskPk job hJob => ?_
  obtain rfl : sched.pk = job := Option.some.inj hJob
  -- a creation moves no task, so whatever it has recorded settles it
  have hReady : ∀ facts pasture, ReadyToClose request leaseId sched sched.pk
      (.creating leaseId sched facts) pasture := by
    intro facts pasture
    refine ⟨rfl, rfl, rfl, rfl, ?_, ?_⟩
    · unfold MayLeavePasture
      rw [hCall]
      trivial
    · intro execJobId result hOther
      rw [hCall] at hOther
      cases hOther
  have hMay : ∀ {act : Act} {facts : List Fact},
      MayAct request (.callback leaseId) (.creating leaseId sched facts) act →
      (atWork request leaseId).may (.creating leaseId sched facts) (outside act) := by
    intro act facts hAct
    refine ⟨fun other hScope => ?_, hAct⟩
    cases hScope
    exact ⟨rfl, by simp [Session.creating], rfl⟩
  refine Promise.sat_bind.mpr ((Promise.sat_ofExcept _).mpr ?_)
  cases request.node.taskCreationReg.get schedule.taskCreationStrategy with
  | error e => exact hReady [] false
  | ok strat =>
      refine Promise.sat_bind.mpr ((Promise.sat_ofExcept _).mpr ?_)
      cases strat.createFromNewSchedule request.now sched.toScheduledJobModel with
      | error e => exact hReady [] false
      | ok taskRunDate =>
          refine Promise.sat_bind.mpr ((honors_addTask _).mpr
            ⟨hMay ⟨⟨leaseId, rfl⟩, rfl, rfl, sched, rfl, rfl,
              Or.inl ⟨schedule, hCall, rfl⟩⟩, fun _ => ?_, fun e => hReady _ false⟩)
          exact Promise.sat_bind.mpr ((honors_emit _).mpr
            ⟨hMay trivial, fun _ => hReady _ _⟩)

theorem honors_startTask {task : TaskModel}
    (hCall : request.call = .startTask task) :
    (startTask request.node task request.now).Honors (contract request)
      (fun after _ => Settles request after) (fun after _ => Settles request after)
      { task := some task } := by
  -- only a notice owes anything when it settles
  have hSettles : ∀ after : Session, Settles request after := by
    intro after execJobId result hOther
    rw [hCall] at hOther
    cases hOther
  have hWork : ∀ leaseId sched, WorksUnderLease request
      { task := some task, leaseId := some leaseId, job := some task.schedule,
        sched := some sched } leaseId sched
      (startTaskInLease request.node task request.now sched) := by
    intro leaseId sched job hJob
    obtain rfl : task.schedule = job := Option.some.inj hJob
    have hReady : ∀ {after : Session} (pasture : Bool),
        StillWorking task leaseId sched task.schedule [] after →
        ReadyToClose request leaseId sched task.schedule after pasture := by
      rintro after pasture ⟨later, -, rfl⟩
      refine ⟨rfl, rfl, rfl, rfl, ?_, hSettles _⟩
      unfold MayLeavePasture
      rw [hCall]
      trivial
    exact (honors_startTaskInLease hCall).mono (fun after exit hAfter => hReady _ hAfter)
      fun after e hAfter => hReady _ hAfter
  refine Promise.sat_handle.mpr (Promise.sat_bind.mpr
    ((honors_runUpdateInLease rfl rfl rfl ?_ hWork).mono ?_ ?_))
  · intro leaseId
    unfold Leases
    rw [hCall]
    exact ⟨task, rfl, rfl⟩
  · exact fun after _ _ => hSettles after
  · intro after e _
    split
    · exact honors_emit_outside _ (hSettles after)
    · exact hSettles after

theorem honors_taskFinished {execJobId : ExecutionJobId} {result : JobExecutionState}
    (hCall : request.call = .taskFinished execJobId result) :
    (taskFinished request.node execJobId result request.now).Honors (contract request)
      (fun after _ => Settles request after) (fun after _ => Settles request after)
      {} := by
  have hUnleased : ∀ task, Settles request { task := task } :=
    fun task _ _ _ _ hHeld => absurd rfl hHeld
  -- the task is looked up by the job id; two of them reject the call
  have hLookup : ∀ handler : Option TaskModel → Js Unit,
      (∀ task, (handler (some task)).Honors (contract request)
        (fun after _ => Settles request after) (fun after _ => Settles request after)
        { task := some task }) →
      (∀ session : Session, session = {} → (handler none).Honors (contract request)
        (fun after _ => Settles request after) (fun after _ => Settles request after)
        session) →
      (getTaskByExecutionJobId execJobId >>= handler).Honors (contract request)
        (fun after _ => Settles request after) (fun after _ => Settles request after)
        {} := by
    intro handler hSome hNone
    refine Promise.sat_bind.mpr (Promise.sat_bind.mpr
      ((honors_findTasks _ _ _).mpr ⟨may_outside ⟨rfl, fun _ => ⟨rfl, execJobId, result,
        hCall, rfl⟩⟩, fun rows => ?_, fun e => hUnleased none⟩))
    rcases rows with _ | ⟨row, _ | ⟨other, rest⟩⟩
    · exact hNone _ rfl
    · exact hSome row
    · exact hUnleased none
  -- what the work has written under the lease is what the notice has to settle
  have hWork : ∀ task leaseId sched, WorksUnderLease request
      { task := some task, leaseId := some leaseId, job := some task.schedule,
        sched := some sched } leaseId sched
      (taskFinishedInLease request.node task result request.now sched) := by
    intro task leaseId sched job hJob
    obtain rfl : task.schedule = job := Option.some.inj hJob
    have hReady : ∀ {after : Session} (pasture : Bool),
        NoticeWorked request result task leaseId sched after pasture →
        ReadyToClose request leaseId sched task.schedule after pasture := by
      rintro after pasture ⟨later, rfl, hWrote, hPasture⟩
      refine ⟨rfl, rfl, rfl, rfl, hPasture, ?_⟩
      intro otherId otherResult hOther hFinished _ _
      rw [hCall] at hOther
      cases hOther
      obtain ⟨newValues, reply, hMem, hState⟩ := hWrote hFinished
      exact ⟨task, newValues, reply, rfl, hMem, hState⟩
    exact (honors_taskFinishedInLease hCall).mono
      (fun after exit hAfter => hReady _ hAfter) fun after e hAfter => hReady _ hAfter
  -- an error of the work is only told of
  have hNotice : ∀ task, (finishFoundTask request.node task result request.now).Honors
      (contract request)
      (fun after _ => Settles request after) (fun after _ => Settles request after)
      { task := some task } := by
    intro task
    refine Promise.sat_handle.mpr (Promise.sat_bind.mpr
      ((honors_runUpdateInLease rfl rfl rfl ?_ (hWork task)).mono ?_ ?_))
    · intro leaseId
      unfold Leases
      rw [hCall]
      exact ⟨task, rfl, rfl⟩
    · exact fun after _ hAfter => hAfter
    · intro after e hAfter
      split
      · exact honors_emit_outside _ hAfter
      · exact honors_emit_outside _ hAfter
      · exact hAfter
  cases result with
  | running jobId => exact hUnleased none
  | didNotStart info =>
      exact hLookup _ hNotice fun session hSession => hSession ▸ hUnleased none
  | completed jobId info =>
      exact hLookup _ hNotice fun session hSession => hSession ▸ hUnleased none
  | failed jobId info =>
      exact hLookup _ hNotice fun session hSession => hSession ▸ hUnleased none
  | other state =>
      exact hLookup _ hNotice fun session hSession => hSession ▸ hUnleased none

theorem honors_disableSchedule {schedule : ScheduledJobModel} {reason : Option String}
    (hCall : request.call = .disableSchedule schedule reason) :
    (disableSchedule request.node schedule reason request.now).Honors (contract request)
      (fun after _ => Settles request after) (fun after _ => Settles request after)
      {} := by
  have hSettles : ∀ after : Session, Settles request after := by
    intro after execJobId result hOther
    rw [hCall] at hOther
    cases hOther
  refine Promise.sat_bind.mpr ((honors_runUpdateInLease rfl rfl rfl ?_ ?_).mono ?_ ?_)
  · intro leaseId
    unfold Leases
    rw [hCall]
  · intro leaseId sched job hJob
    obtain rfl : schedule.pk = job := Option.some.inj hJob
    refine ⟨rfl, rfl, rfl, rfl, ?_, hSettles _⟩
    unfold MayLeavePasture
    rw [hCall]
    rfl
  · exact fun after _ _ => hSettles after
  · exact fun after _ _ => hSettles after

/-- The session of a repair that holds the lease it took over. -/
def Repairing (leaseId : LeaseIdType) (schedule : ScheduledJobDataModel)
    (job : PrimaryKeyType) (after : Session) : Prop :=
  after.leaseId = some leaseId ∧ after.job = some job ∧
    after.sched = some schedule ∧ after.closed = false

/-- Looking for tasks during a repair keeps what the repair holds. -/
private theorem honors_getTasks_repairing {leaseId : LeaseIdType}
    {schedule : ScheduledJobDataModel} {job : PrimaryKeyType} {session : Session}
    {scheduledJob : ScheduledJobModel} {states : List TaskStateType} {limit : Nat}
    {resolved : Session → List TaskModel → Prop} {rejected : Session → JsError → Prop}
    (hSession : Repairing leaseId schedule job session)
    (hDone : ∀ after tasks, Repairing leaseId schedule job after → resolved after tasks)
    (hFail : ∀ after e, Repairing leaseId schedule job after → rejected after e) :
    (getTasksForScheduledJob scheduledJob states limit).Honors
      (relabelled (contract request) (.repair leaseId)) resolved rejected session := by
  obtain ⟨hLeaseId, hJob, hSched, hOpen⟩ := hSession
  have hLookup : ∀ reply, Repairing leaseId schedule job
      (session.afterLookup limit (taskOf scheduledJob.pk states) reply) := by
    intro reply
    unfold Session.afterLookup
    rw [hJob]
    exact ⟨hLeaseId, hJob, hSched, hOpen⟩
  refine (honors_findTasks _ _ _).mpr ⟨⟨fun other hScope => (by cases hScope), rfl,
    fun hNone => ?_⟩, fun tasks => hDone _ _ (hLookup _), fun e => hFail _ _ (hLookup _)⟩
  rw [hJob] at hNone
  cases hNone

/-- `performRepair` only looks for tasks, and asks to keep the job enabled only
when the row it was given is enabled. -/
theorem honors_performRepair {leaseId : LeaseIdType} {schedule : ScheduledJobDataModel}
    {job : PrimaryKeyType} {session : Session}
    (hSession : Repairing leaseId schedule job session) :
    (performRepair schedule).Honors (relabelled (contract request) (.repair leaseId))
      (fun after exit => Repairing leaseId schedule job after ∧
        (exit.pastureReason.isSome = false → schedule.pasture = false))
      (fun after _ => Repairing leaseId schedule job after) session := by
  unfold performRepair
  split
  · unfold repairAddTask
    split
    · exact ⟨hSession, fun hNone => by cases hNone⟩
    · rename_i hPasture
      -- the job was not pastured when it was read, so it may be released unpastured
      have hEnabled : schedule.pasture = false := by simpa using hPasture
      split
      · refine Promise.sat_bind.mpr (honors_getTasks_repairing hSession
          (fun after tasks hAfter => ?_) fun after e hAfter => hAfter)
        split
        · exact ⟨hAfter, fun _ => hEnabled⟩
        · exact hAfter
      · exact Promise.sat_bind.mpr (honors_getTasks_repairing hSession
          (fun after tasks hAfter => hAfter) fun after e hAfter => hAfter)
  · split
    · exact hSession
    · split
      · exact hSession
      · split
        · exact hSession
        · exact Promise.sat_bind.mpr ((honors_emit _).mpr
            ⟨⟨fun other hScope => (by cases hScope), trivial⟩,
              fun _ => ⟨hSession, fun hNone => by cases hNone⟩⟩)

/-- `repairExpiredLeaseForScheduledJob` answers a row only with the lease. -/
theorem honors_repairExpiredLease {zone : TimeZone} {leaseId : LeaseIdType}
    {srcSchedule : ScheduledJobModel} {leaseTimeSeconds : Int}
    (hCall : request.call = .repairExpiredSchedule srcSchedule) :
    (repairExpiredLeaseForScheduledJob zone srcSchedule.pk leaseId request.now
      leaseTimeSeconds).Honors (contract request)
      (fun after found => ∀ schedule, found = some schedule →
        Repairing leaseId schedule srcSchedule.pk after)
      (fun _ _ => True) { leaseId := some leaseId } := by
  refine Promise.sat_bind.mpr (Promise.sat_bind.mpr
    ((honors_findSchedules _ _ _).mpr ⟨may_outside
      ⟨srcSchedule.pk, rfl, rfl, rfl, fun _ hHeld => (by cases hHeld)⟩,
      fun rows => ?_, fun e => trivial⟩))
  cases rows with
  | nil => exact fun schedule hFound => by cases hFound
  | cons src rest =>
      refine Promise.sat_bind.mpr ((honors_updateSchedule _ _ _).mpr
        ⟨may_outside (Or.inr (Or.inl ⟨srcSchedule, leaseId, _, _, hCall, rfl, rfl, rfl,
          rfl, rfl, rfl⟩)), fun count => ?_, fun e => trivial⟩)
      cases count with
      -- another call was faster: the row is read once more, for the error only
      | zero =>
          refine Promise.sat_bind.mpr ((honors_findSchedules _ _ _).mpr
            ⟨may_outside ⟨srcSchedule.pk, rfl, rfl, rfl,
              fun _ hHeld => (by cases hHeld)⟩, fun jobs => ?_, fun e => trivial⟩)
          cases jobs with
          | nil => trivial
          | cons job others => exact fun schedule hFound => by cases hFound
      | succ count =>
          refine Promise.sat_bind.mpr ((honors_findSchedules _ _ _).mpr
            ⟨may_outside ⟨srcSchedule.pk, rfl, rfl, rfl,
              fun _ hHeld => Or.inl (Option.some.inj hHeld)⟩, fun jobs => ?_,
              fun e => trivial⟩)
          cases jobs with
          | nil => trivial
          | cons job others =>
              intro schedule hFound
              obtain rfl : job = schedule := Option.some.inj hFound
              exact ⟨rfl, rfl, rfl, rfl⟩

theorem honors_repairExpiredSchedule {srcSchedule : ScheduledJobModel}
    (hCall : request.call = .repairExpiredSchedule srcSchedule) :
    (repairExpiredSchedule request.node srcSchedule request.now).Honors
      (contract request) (fun after _ => Settles request after)
      (fun after _ => Settles request after) {} := by
  have hSettles : ∀ after : Session, Settles request after := by
    intro after execJobId result hOther
    rw [hCall] at hOther
    cases hOther
  refine Promise.sat_bind.mpr (honors_leaseOwnerStrategy.mpr
    ⟨may_outside ⟨rfl, rfl⟩, fun leaseId => ?_⟩)
  refine Promise.sat_bind.mpr ((honors_repairExpiredLease hCall).mono ?_
    fun after e _ => hSettles after)
  intro taken found hFound
  cases found with
  | none => exact hSettles taken
  | some schedule =>
      have hRelease : ∀ {session : Session} {pasture : Bool} {reason : Option String},
          Repairing leaseId schedule srcSchedule.pk session →
          (pasture = false → schedule.pasture = false) →
          (releaseScheduledJobLease leaseId srcSchedule.pk pasture reason).Honors
            (contract request) (fun _ _ => True)
            (fun after _ => after.leaseId = some leaseId ∧
              after.job = some srcSchedule.pk ∧ after.closed = false) session := by
        rintro session pasture reason ⟨hLeaseId, hJob, hSched, hOpen⟩ hPasture
        refine (honors_releaseScheduledJobLease ⟨leaseId, pasture, reason, hLeaseId,
          hOpen, fun job hHeld => ?_, Or.inl rfl, rfl, ?_⟩).mono
          (fun _ _ _ => trivial) ?_
        · exact Or.inl (Option.some.inj (hJob.symm.trans hHeld))
        · unfold MayLeavePasture
          rw [hCall]
          exact fun hFlag => ⟨schedule, hSched, hPasture hFlag⟩
        · rintro after e ⟨⟨-, hAfterLease, hAfterJob, -⟩, hAfterOpen⟩
          exact ⟨hAfterLease.trans hLeaseId, hAfterJob.trans hJob, hAfterOpen⟩
      refine Promise.sat_handle.mpr (Promise.sat_bind.mpr
        ((honors_inScope _ _).mpr
          ((honors_performRepair (hFound schedule rfl)).mono ?_ ?_)))
      · rintro repaired exitBehavior ⟨hRepairing, hPasture⟩
        refine (hRelease hRepairing hPasture).mono (fun after _ _ => hSettles after) ?_
        rintro after e ⟨hLeaseId, hJob, hOpen⟩
        -- The first release was refused; the second one asks for pasture.
        refine Promise.sat_bind.mpr ((honors_releaseScheduledJobLease
          ⟨leaseId, true, _, hLeaseId, hOpen, fun job hHeld => ?_, Or.inl rfl, rfl,
            ?_⟩).mono (fun final _ _ => honors_emit_outside _ (hSettles final))
          fun final e' _ => hSettles final)
        · exact Or.inl (Option.some.inj (hJob.symm.trans hHeld))
        · unfold MayLeavePasture
          rw [hCall]
          exact fun hFlag => by cases hFlag
      · intro repaired e hRepairing
        refine Promise.sat_bind.mpr ((hRelease hRepairing
          fun hFlag => by cases hFlag).mono
          (fun final _ _ => honors_emit_outside _ (hSettles final))
          fun final e' _ => hSettles final)

/-- **Every call follows its contract**, whatever the replies it gets. -/
theorem Request.honors_contract (request : Request) :
    request.program.Honors (contract request) (fun after _ => Settles request after)
      (fun after _ => Settles request after) (.start request.call) := by
  unfold Request.program
  split
  · rename_i schedule hCall
    rw [hCall]
    exact honors_createScheduledJob hCall
  · rename_i task hCall
    rw [hCall]
    exact Promise.sat_bind.mpr (honors_startTask hCall)
  · rename_i execJobId result hCall
    rw [hCall]
    exact Promise.sat_bind.mpr (honors_taskFinished hCall)
  · rename_i schedule reason hCall
    rw [hCall]
    exact Promise.sat_bind.mpr (honors_disableSchedule hCall)
  · rename_i srcSchedule hCall
    rw [hCall]
    exact Promise.sat_bind.mpr (honors_repairExpiredSchedule hCall)

end Calls

end TernScheduler
