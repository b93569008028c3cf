import TernScheduler.Controller.Contract
import TernScheduler.Datastore.Alone

/-!
# Calls that come too late

A node that starts or finishes a task which another node has already moved on
still takes the lease of the job.  Its work then fails on the state of the task,
and `runUpdateInLease` ends the lease the way it ends it after any error: the job
is left owned, with an expired lease, for the repair to pick up.

* `LeftAlone` says that a call left the row of the job and every task as it found
  them.
* `losing_calls_harmless_iff` says which losing calls do that: only the notices
  about a job id that two tasks carry, which never get as far as the lease.
-/

namespace TernScheduler

open Interleaving KeyedTable Database

/-- The call expects the task in a state it is no longer in. -/
inductive Loses (task : TaskModel) : Call → Prop
  | start (given : TaskModel) (hPk : given.pk = task.pk)
      (hSchedule : given.schedule = task.schedule) (hState : task.state ≠ .pending) :
      Loses task (.startTask given)
  | finish (jobId : ExecutionJobId) (result : JobExecutionState)
      (hFinished : result.Finished) (hJob : task.executionJobId = some jobId)
      (hState : task.state ≠ .started) : Loses task (.taskFinished jobId result)

/-- The row of the job is as it was, and so is every task. -/
def LeftAlone (schedule : PrimaryKeyType) (before after : Database) : Prop :=
  after.job schedule = before.job schedule ∧ after.taskTable = before.taskTable

/-- The tasks that carry a job id. -/
def carriers (db : Database) (jobId : ExecutionJobId) : List TaskModel :=
  db.taskTable.rows.filter fun row => row.executionJobId = some jobId

/-- The job is leased, or waits to be repaired. -/
def Taken (schedule : PrimaryKeyType) (db : Database) : Prop :=
  ∃ row, db.job schedule = some row ∧ row.updateState ≠ none

theorem LeftAlone.refl (schedule : PrimaryKeyType) (db : Database) :
    LeftAlone schedule db db := ⟨rfl, rfl⟩

theorem LeftAlone.trans {schedule : PrimaryKeyType} {first middle last : Database}
    (h : LeftAlone schedule first middle) (h' : LeftAlone schedule middle last) :
    LeftAlone schedule first last :=
  ⟨h'.1.trans h.1, h'.2.trans h.2⟩

variable {reading : BeforeDateReading} {db : Database} {schedule : PrimaryKeyType}
  {row : ScheduledJobDataModel} {task : TaskModel} {node : Node} {now : Date} {α : Type}

/-! ## The lease of a call whose work fails -/

/-- The retries change nothing when the first attempt is granted. -/
theorem ensures_retries {attempt : Js Unit} {resolved : Database → Unit → Prop}
    (delays : List Int) {previous : Js Unit}
    (hPrevious : Ensures reading resolved (fun _ _ => False) db previous) :
    Ensures reading resolved (fun _ _ => False) db
      (delays.foldl (retryLease attempt) previous) := by
  induction delays generalizing previous with
  | nil => exact hPrevious
  | cons seconds delays ih =>
      apply ih
      refine Promise.sat_handle.mpr (Promise.sat_handle.mpr ?_)
      exact hPrevious.mono (fun _ _ h => h) fun _ _ h => h.elim

/-- **A lease whose work fails is not given back.**  The work rejects and changes
nothing; the job is left taken. -/
theorem ensures_runUpdateInLease_taken {updateOperation : ScheduleUpdateStateType}
    {updateTaskPk : Option PrimaryKeyType}
    {withLease : ScheduledJobDataModel → LeaseIdType → Js (LeaseExitState α)}
    (hRow : db.job schedule = some row) (hFree : row.updateState = none)
    (hWork : ∀ leased sched leaseId, leased.taskTable = db.taskTable →
      Ensures reading (fun _ _ => False)
        (fun after reason => after = leased ∧ reason.truthy = true)
        leased (withLease sched leaseId)) :
    Ensures reading (fun after _ => Taken schedule after)
      (fun after _ => Taken schedule after) db
      (runUpdateInLease node updateOperation schedule updateTaskPk now withLease) := by
  unfold runUpdateInLease
  refine Promise.sat_bind.mpr (ensures_leaseOwnerStrategy fun leaseId => ?_)
  refine Promise.sat_bind.mpr ?_
  have hGranted : Ensures reading
      (fun leased _ => leased.taskTable = db.taskTable ∧
        ∃ sched, leased.job schedule = some sched ∧ sched.updateState ≠ none ∧
          sched.leaseOwner = some leaseId)
      (fun _ _ => False) db
      (leaseAttempt node updateOperation schedule updateTaskPk now leaseId) := by
    refine ensures_leaseScheduledJob hRow hFree fun leased hJob hTasks => ?_
    exact ⟨hTasks, _, hJob, by simp [ScheduledJobPatch.apply, leasePatch], rfl⟩
  refine Promise.Sat.mono (ensures_retries _ hGranted) ?_ fun _ _ h => h.elim
  rintro leased - ⟨hTasks, sched, hSched, hLeased, hOwner⟩
  refine Promise.sat_bind.mpr (ensures_getScheduledJob hSched ?_)
  refine Promise.sat_bind.mpr (ensures_inScope (Promise.sat_handle.mpr ?_))
  refine Promise.Sat.mono (hWork leased sched leaseId hTasks) (fun _ _ h => h.elim) ?_
  rintro after reason ⟨rfl, hTruthy⟩
  -- The error state is recognised, so the lease ends in the mark for repair.
  have hError : (LeaseExitState.error reason false none : LeaseExitState α).asError =
      some reason := by simp [LeaseExitState.asError, hTruthy]
  show Ensures reading _ _ after (closeLease sched leaseId now _)
  unfold closeLease endLease
  simp only [hError, JsError.not_instanceOf_invalidScheduleDefinition]
  have hMarked : Ensures reading (fun marked _ => Taken schedule marked)
      (fun _ _ => False) after
      (markLeasedScheduledJobNeedsRepair sched.pk leaseId now false none) := by
    obtain rfl := pk_of_job hSched
    refine ensures_markLeasedScheduledJobNeedsRepair hSched hLeased hOwner ?_
    exact fun marked hJob => ⟨_, hJob, hLeased⟩
  refine Promise.sat_bind.mpr (Promise.sat_handle.mpr ?_)
  exact hMarked.mono (fun _ _ hTaken => hTaken) fun _ _ h => h.elim

/-! ## The losing calls -/

/-- A late `startTask` leaves the job taken. -/
theorem ensures_startTask_taken {given : TaskModel} (hRow : db.job schedule = some row)
    (hFree : row.updateState = none) (hTask : db.task given.pk = some task)
    (hSchedule : given.schedule = schedule) (hState : task.state ≠ .pending) :
    Ensures reading (fun after _ => Taken schedule after)
      (fun after _ => Taken schedule after) db (startTask node given now) := by
  subst hSchedule
  unfold startTask
  refine Promise.sat_handle.mpr (Promise.sat_bind.mpr ?_)
  refine Promise.Sat.mono (ensures_runUpdateInLease_taken hRow hFree ?_) (fun _ _ h => h) ?_
  · intro leased sched leaseId hTasks
    have hStored : leased.task given.pk = some task := by
      rw [Database.task, hTasks]
      exact hTask
    exact Promise.sat_bind.mpr (ensures_markTaskState_missed hStored hState ⟨rfl, rfl⟩)
  · intro after reason hTaken
    cases reason with
    | leaseNotObtained ourLeaseId job leaseOwner leaseExpires => exact ensures_emit hTaken
    | _ => exact hTaken

/-- The rows a lookup by job id reads. -/
theorem select_jobIdEquals (db : Database) (jobId : ExecutionJobId) (limit : Nat) :
    (db.taskTable.select 0 limit
      fun row => (jobIdEquals jobId).holds reading row.column) =
      (carriers db jobId).take limit := by
  have hSame : (fun row : TaskModel => (jobIdEquals jobId).holds reading row.column) =
      fun row => decide (row.executionJobId = some jobId) := by
    funext row
    rw [Bool.eq_iff_iff, holds_jobIdEquals, decide_eq_true_iff]
  rw [hSame]
  rfl

theorem mem_carriers {jobId : ExecutionJobId} (hTask : db.task task.pk = some task)
    (hJob : task.executionJobId = some jobId) : task ∈ carriers db jobId :=
  List.mem_filter.mpr ⟨(task_eq_some_iff.mp hTask).1, by simpa using hJob⟩

/-- A late notice about a task that alone carries its job id leaves the job taken. -/
theorem ensures_taskFinished_taken {jobId : ExecutionJobId} {result : JobExecutionState}
    (hRow : db.job task.schedule = some row) (hFree : row.updateState = none)
    (hTask : db.task task.pk = some task) (hAlone : carriers db jobId = [task])
    (hFinished : result.Finished) (hState : task.state ≠ .started) :
    Ensures reading (fun after _ => Taken task.schedule after)
      (fun after _ => Taken task.schedule after) db
      (taskFinished node jobId result now) := by
  have hLookup : Ensures reading (fun after found => after = db ∧ found = some task)
      (fun _ _ => False) db (getTaskByExecutionJobId jobId) := by
    refine Promise.sat_bind.mpr (ensures_findTasks ?_)
    rw [select_jobIdEquals, hAlone]
    exact ⟨rfl, rfl⟩
  -- under the lease the first thing is to end the task, and that misses
  have hInLease : ∀ leased sched leaseId, leased.taskTable = db.taskTable →
      Ensures reading (fun _ _ => False)
        (fun after reason => after = leased ∧ reason.truthy = true) leased
        ((fun sched _ => taskFinishedInLease node task result now sched :
          ScheduledJobDataModel → LeaseIdType → _) sched leaseId) := by
    intro leased sched leaseId hTasks
    have hStored : leased.task task.pk = some task := by
      rw [Database.task, hTasks]
      exact hTask
    have hMissed : ∀ newState extra, Ensures reading (fun _ (_ : Unit) => False)
        (fun after reason => after = leased ∧ reason.truthy = true) leased
        (markTaskState task.pk .started newState extra) := fun newState extra =>
      ensures_markTaskState_missed hStored hState ⟨rfl, rfl⟩
    cases result with
    | completed id info =>
        exact Promise.sat_bind.mpr ((hMissed .completed _).mono (fun _ _ h => h.elim)
          fun _ _ h => h)
    | failed id info =>
        exact Promise.sat_bind.mpr ((hMissed .completeError _).mono (fun _ _ h => h.elim)
          fun _ _ h => h)
    | running id => exact hFinished.elim
    | didNotStart info => exact hFinished.elim
    | other state => exact hFinished.elim
  cases result with
  | running id => exact hFinished.elim
  | _ =>
      refine Promise.sat_bind.mpr (hLookup.mono ?_ fun _ _ h => h.elim)
      rintro after found ⟨rfl, rfl⟩
      refine Promise.sat_handle.mpr (Promise.sat_bind.mpr ?_)
      -- the error of the miss is caught and told of; the row stays marked for repair
      refine Promise.Sat.mono (ensures_runUpdateInLease_taken hRow hFree hInLease)
        (fun _ _ h => h) ?_
      intro after reason hTaken
      cases reason with
      | leaseNotObtained ourLeaseId job leaseOwner leaseExpires =>
          exact ensures_emit hTaken
      | invalidTaskState found newState expectedState => exact ensures_emit hTaken
      | _ => exact hTaken

/-- A notice about a job id that two tasks carry is refused before any lease is
taken. -/
theorem ensures_taskFinished_ambiguous {jobId : ExecutionJobId}
    {result : JobExecutionState} (hTwo : 2 ≤ (carriers db jobId).length) :
    Ensures reading (fun after _ => LeftAlone schedule db after)
      (fun after _ => LeftAlone schedule db after) db
      (taskFinished node jobId result now) := by
  have hLookup : Ensures reading (fun _ _ => False) (fun after _ => after = db) db
      (getTaskByExecutionJobId jobId) := by
    refine Promise.sat_bind.mpr (ensures_findTasks ?_)
    rw [select_jobIdEquals]
    match hCarriers : carriers db jobId with
    | [] => simp [hCarriers] at hTwo
    | [single] => simp [hCarriers] at hTwo
    | first :: second :: rest => exact rfl
  cases result with
  | running id => exact LeftAlone.refl schedule db
  | _ =>
      refine Promise.sat_bind.mpr (hLookup.mono (fun _ _ h => h.elim) ?_)
      rintro after reason rfl
      exact LeftAlone.refl schedule after

/-! ## When losing does no harm -/

/-- What a call ensures however it settles, its request ensures. -/
theorem ensures_request {post : Database → Prop} {promise : Js Unit}
    (h : Ensures reading (fun after _ => post after) (fun after _ => post after) db promise) :
    Prog.Ensures (served reading) (fun after _ => post after) db
      (promise >>= fun _ => pure none : Js (Option PrimaryKeyType)) := by
  have hSettled : Ensures reading (fun after _ => post after) (fun after _ => post after) db
      (promise >>= fun _ => pure none : Js (Option PrimaryKeyType)) :=
    Promise.sat_bind.mpr h
  refine Prog.Sat.mono hSettled fun after settled hPost => ?_
  cases settled with
  | ok value => exact hPost
  | error reason => exact hPost

/-- A losing call that can get the lease leaves the job taken. -/
theorem losing_request_taken {request : Request} (hRow : db.job task.schedule = some row)
    (hFree : row.updateState = none) (hTask : db.task task.pk = some task)
    (hLoses : Loses task request.call)
    (hAlone : ∀ jobId result, request.call = .taskFinished jobId result →
      (carriers db jobId).length < 2) :
    request.program.Ensures (served reading) (fun after _ => Taken task.schedule after) db := by
  obtain ⟨node, now, call⟩ := request
  cases hLoses with
  | start given hPk hSchedule hState =>
      exact ensures_request
        (ensures_startTask_taken hRow hFree (hPk.symm ▸ hTask) hSchedule hState)
  | finish jobId result hFinished hJob hState =>
      have hMem := mem_carriers hTask hJob
      have hFew := hAlone jobId result rfl
      have hCarriers : carriers db jobId = [task] := by
        obtain ⟨single, hSingle⟩ := List.length_eq_one_iff.mp
          (Nat.le_antisymm (Nat.le_of_lt_succ hFew) (List.length_pos_of_mem hMem))
        rw [hSingle, List.mem_singleton] at hMem
        rw [hSingle, hMem]
      exact ensures_request
        (ensures_taskFinished_taken hRow hFree hTask hCarriers hFinished hState)

/-- **Which losing calls do no harm.**  The job is free and the task is not in the
state the calls expect.  Every one of the calls, run one after the other, leaves
the job and all tasks as it found them if and only if every one of them is a notice
about a job id that at least two tasks carry. -/
theorem losing_calls_harmless_iff {requests : List Request}
    (hRow : db.job task.schedule = some row) (hFree : row.updateState = none)
    (hTask : db.task task.pk = some task)
    (hLoses : ∀ request ∈ requests, Loses task request.call) :
    Each (served reading) Request.program (LeftAlone task.schedule) db requests ↔
      ∀ request ∈ requests, ∃ jobId result, request.call = .taskFinished jobId result ∧
        2 ≤ (carriers db jobId).length := by
  constructor
  · intro hEach request hRequest
    by_contra hNotShared
    obtain ⟨reached, ⟨hJob, hTasks⟩, hHarmless⟩ := hEach.exists_of_mem
      (served_total reading) (LeftAlone.refl _) (fun _ _ _ => LeftAlone.trans) hRequest
    have hReachedTask : reached.task task.pk = some task := by
      rw [Database.task, hTasks]
      exact hTask
    have hTaken : request.program.Ensures (served reading)
        (fun after _ => Taken task.schedule after) reached := by
      refine losing_request_taken (hJob.trans hRow) hFree hReachedTask
        (hLoses request hRequest) fun jobId result hCall => ?_
      rw [carriers, hTasks]
      exact Nat.lt_of_not_le fun hTwo => hNotShared ⟨jobId, result, hCall, hTwo⟩
    -- Some run of the call ends, and there the job would be free and taken.
    obtain ⟨after, settled, hAfter, row', hRow', hLeased⟩ :=
      (hHarmless.and hTaken).exists_end (served_total reading)
    have hSame : some row' = some row := hRow'.symm.trans (hAfter.1.trans (hJob.trans hRow))
    exact hLeased ((Option.some.inj hSame).symm ▸ hFree)
  · intro hShared
    refine each_of_forall (LeftAlone.refl _) (fun _ _ _ => LeftAlone.trans) ?_
    intro request hRequest reached hReached
    obtain ⟨jobId, result, hCall, hTwo⟩ := hShared request hRequest
    obtain ⟨node, now, call⟩ := request
    obtain rfl : call = .taskFinished jobId result := hCall
    have hStill : 2 ≤ (carriers reached jobId).length := by
      rw [carriers, hReached.2]
      exact hTwo
    exact ensures_request (ensures_taskFinished_ambiguous hStill)

/-- A second `startTask` of the sample task does harm. -/
theorem sample_second_start_harms :
    ¬ Each (served strictlyBefore) Request.program (LeftAlone "job")
      (samplePool false { sampleTask with state := .started }).shared
      [⟨sampleNode sampleStart [], 1, .startTask sampleTask⟩] := by
  intro hEach
  have hRow : (samplePool false { sampleTask with state := .started }).shared.job "job" =
      some (sampleJob false) := by decide +kernel
  have hTask : (samplePool false { sampleTask with state := .started }).shared.task "task" =
      some { sampleTask with state := .started } := by decide +kernel
  have hLoses : ∀ request ∈ [(⟨sampleNode sampleStart [], 1, .startTask sampleTask⟩ : Request)],
      Loses { sampleTask with state := .started } request.call := by
    intro request hRequest
    rw [List.mem_singleton.mp hRequest]
    exact .start sampleTask rfl rfl (by decide)
  obtain ⟨jobId, result, hCall, -⟩ :=
    (losing_calls_harmless_iff hRow rfl hTask hLoses).mp hEach _ List.mem_cons_self
  cases hCall

/-- The sample task is started and its job is free. -/
private def startedAndFree (pool : SchedulerPool) : Bool :=
  ((pool.shared.job "job").any fun row => row.updateState = none) &&
    (pool.shared.task "task").any fun row =>
      row.pk = "task" && row.schedule = "job" && row.state = .started

/-- **A late call does harm.**  The sample task is launched, and then `startTask` is
called for it again: the second call leaves the job waiting for a repair. -/
theorem late_start_harms :
    ¬ ∀ (pool : SchedulerPool) (row : ScheduledJobDataModel) (task : TaskModel)
        (requests : List Request),
      Run (scheduler strictlyBefore) anySchedule (emptyPool 0) pool →
      pool.shared.job task.schedule = some row → row.updateState = none →
      pool.shared.task task.pk = some task →
      (∀ request ∈ requests, Loses task request.call) →
      Each (served strictlyBefore) Request.program (LeftAlone task.schedule) pool.shared
        requests := by
  intro hHarmless
  have hDriven : ((driver strictlyBefore).drive (fun _ _ _ => true)
      (createSample sampleFinish ++
        .spawn ⟨sampleNode sampleFinish [], 1, .startTask sampleTask⟩ ::
          turns 1 10 { leaseId := "start" })
      (emptyPool 0)).any startedAndFree = true := by
    decide +kernel
  obtain ⟨pool, hRun, hTest⟩ := Driver.exists_run_of_drive (A := anySchedule)
    (fun _ _ _ _ => trivial) hDriven
  simp only [startedAndFree, Bool.and_eq_true] at hTest
  obtain ⟨row, hRow, hFree⟩ := (Option.any_eq_true _ _).mp hTest.1
  obtain ⟨task, hTask, hStored⟩ := (Option.any_eq_true _ _).mp hTest.2
  simp only [Bool.and_eq_true, decide_eq_true_eq] at hStored hFree
  obtain ⟨⟨hPk, hSchedule⟩, hState⟩ := hStored
  rw [← hPk] at hTask
  rw [← hSchedule] at hRow
  have hLoses : Loses task (.startTask sampleTask) :=
    .start sampleTask hPk.symm hSchedule.symm (by rw [hState]; decide)
  -- the second start would have to leave the row alone, and it takes its lease
  have hEach := hHarmless pool row task
    [⟨sampleNode sampleFinish [], 2, .startTask sampleTask⟩] hRun hRow hFree hTask
    (fun request hRequest => by rw [List.mem_singleton.mp hRequest]; exact hLoses)
  have hTaken : (Request.program ⟨sampleNode sampleFinish [], 2, .startTask sampleTask⟩).Ensures
      (served strictlyBefore) (fun after _ => Taken task.schedule after) pool.shared :=
    losing_request_taken hRow hFree hTask hLoses fun _ _ hCall => by cases hCall
  obtain ⟨after, settled, ⟨hAfter, -⟩, row', hRow', hLeased⟩ :=
    (Prog.Ensures.and hEach hTaken).exists_end (served_total strictlyBefore)
  have hSame : some row' = some row := hRow'.symm.trans (hAfter.1.trans hRow)
  exact hLeased ((Option.some.inj hSame).symm ▸ hFree)

end TernScheduler
