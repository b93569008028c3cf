import TernScheduler.Controller.Creation
import TernScheduler.Datastore.Effects
import TernScheduler.Library.Sessions

/-!
# Creation is all or repairable

A creation makes its writes one by one, and any of them may be rejected or be the last
one before the node stops.  The job it leaves is leased, so that a repair will find it,
or disabled, or absent, or it has its one pending task.

* `Recoverable` is what is kept of the jobs that were created, by every step.
* `creation_all_or_repairable` is the law, over runs of any number of creations.
-/

namespace TernScheduler

open Interleaving Database

/-- A task is rejected with an error object, if it is. -/
def Act.RejectsWithErrors : (act : Act) → act.Reply → Prop
  | .createTask _, .error e => e.truthy = true
  | _, _ => True

instance : (act : Act) → (reply : act.Reply) → Decidable (act.RejectsWithErrors reply)
  | .createTask _, .error e => inferInstanceAs (Decidable (e.truthy = true))
  | .createTask _, .ok _ => isTrue trivial
  | .createSchedule _, _ | .findSchedules .., _ | .updateSchedule .., _ => isTrue trivial
  | .findTasks .., _ | .updateTask .., _ | .startJob .., _ => isTrue trivial
  | .currentTimeUTC, _ | .createPrimaryKey, _ | .createLeaseId, _ => isTrue trivial
  | .retryDelay _, _ | .emit _, _ => isTrue trivial

/-- Jobs are created, and what strategies throw and tasks are rejected with are error
objects. -/
def creations : RunCondition signature Database Request Settled :=
  fun _ event _ => (∀ request ∈ event.request, request.ThrowsErrors) ∧
    ∀ entry ∈ event.entry, entry.op.act.RejectsWithErrors entry.reply

/-- Every task has its job. -/
def TasksHaveJobs (db : Database) : Prop :=
  ∀ task ∈ db.taskTable, db.job task.schedule ≠ none

/-- The creations since `before` left all or something to repair: every task has its
job, and a job that is neither leased nor disabled has one task, which is pending. -/
structure AllOrRepairable (before after : Database) : Prop where
  tasks : TasksHaveJobs after
  jobs : ∀ row ∈ after.scheduledJobTable, before.job row.pk = none → Unleased row →
    row.pasture = false → ∃ task ∈ after.taskTable, task.schedule = row.pk ∧
      task.state = .pending ∧ ∀ other ∈ after.taskTable, other.schedule = row.pk → other = task

/-- The creations of a pool. -/
def creationOf (pool : SchedulerPool) (pid : Nat) : Option (Request × Creation) :=
  pool.stateOf creationProtocol (fun _ => {}) pid

/-- What is kept of the creations: each stored its own job, a task is the pending task
of the creation that added it, and a job that is neither leased nor disabled has its
task. -/
structure Recoverable (before : Database) (states : Nat → Option (Request × Creation))
    (db : Database) : Prop where
  stays : ∀ pk, before.job pk ≠ none → db.job pk ≠ none
  job : ∀ pid request creation pk, states pid = some (request, creation) →
    creation.job = some pk → before.job pk = none ∧ db.job pk ≠ none
  single : ∀ pid pid' request request' creation creation' pk,
    states pid = some (request, creation) →
    states pid' = some (request', creation') →
    creation.job = some pk → creation'.job = some pk → pid = pid'
  task : ∀ pid request creation task, states pid = some (request, creation) →
    creation.task = some task →
    creation.job = some task.schedule ∧ db.task task.pk = some task ∧ task.state = .pending
  added : ∀ pk row, db.task pk = some row → before.task pk = some row ∨
    ∃ pid request creation, states pid = some (request, creation) ∧
      creation.task = some row
  complete : ∀ pk row, db.job pk = some row → before.job pk = none → Unleased row →
    row.pasture = false → ∃ pid request creation,
      states pid = some (request, creation) ∧ creation.job = some pk ∧
        creation.task ≠ none

/-- A creation whose task is not rejected with anything but an error object is not
misled. -/
theorem Creation.misled_next (creation : Creation) {act : Act} {reply : act.Reply}
    (hErrors : act.RejectsWithErrors reply) :
    (creation.next act reply).misled = creation.misled := by
  cases act with
  | createSchedule row => cases reply <;> rfl
  | createTask row =>
      cases reply with
      | error e =>
          have hTruthy : e.truthy = true := hErrors
          simp [Creation.next, hTruthy]
      | ok done => rfl
  | _ => rfl

/-- What a creation does to the tables, with one operation. -/
inductive CreationChange (creation : Creation) (db after : Database) : Creation → Prop
  | kept (hTasks : ∀ pk, after.task pk = db.task pk)
      (hStored : ∀ pk, db.job pk ≠ none → after.job pk ≠ none)
      (hJobs : ∀ pk row, after.job pk = some row → Unleased row → row.pasture = false →
        (∃ old, db.job pk = some old ∧ Unleased old ∧ old.pasture = false) ∨
          (creation.job = some pk ∧ creation.task ≠ none)) :
      CreationChange creation db after creation
  | stored (row : ScheduledJobDataModel) (hNoTask : creation.task = none)
      (hLeased : ¬ Unleased row)
      (hAbsent : db.job row.pk = none)
      (hTasks : ∀ pk, after.task pk = db.task pk)
      (hJobs : ∀ pk, after.job pk = if pk = row.pk then some row else db.job pk) :
      CreationChange creation db after { creation with job := some row.pk }
  | added (row : TaskModel) (hJob : creation.job = some row.schedule)
      (hNone : creation.task = none) (hPending : row.state = .pending)
      (hAbsent : db.task row.pk = none)
      (hTasks : ∀ pk, after.task pk = if pk = row.pk then some row else db.task pk)
      (hJobs : ∀ pk, after.job pk = db.job pk) :
      CreationChange creation db after { creation with task := some row }

variable {reading : BeforeDateReading} {before db after : Database}
  {pool pool' : SchedulerPool} {event : Event signature Database Request}
  {states : Nat → Option (Request × Creation)}

/-- An operation that leaves the tables alone. -/
theorem CreationChange.of_same {creation : Creation}
    (hJobs : ∀ pk, after.job pk = db.job pk) (hTasks : ∀ pk, after.task pk = db.task pk) :
    CreationChange creation db after creation :=
  .kept hTasks (fun pk => (hJobs pk).symm ▸ id)
    fun pk row hRow hFree hPasture => Or.inl ⟨row, hJobs pk ▸ hRow, hFree, hPasture⟩

/-- A write to the row of a job that expects the lease. -/
theorem MayCreation.change_updateSchedule {creation : Creation} {pk : PrimaryKeyType}
    {newValues : ScheduledJobPatch} {conditional : Conditional ScheduledJobColumn}
    {reply : Except JsError Nat}
    (hMay : MayCreation creation (.updateSchedule pk newValues conditional))
    (hMisled : creation.misled = false)
    (hExec : Exec reading db (.updateSchedule pk newValues conditional) reply after) :
    CreationChange creation db after creation := by
  have hTasks : ∀ pk, after.task pk = db.task pk := by
    cases hExec.taskEffect with
    | kept _ hTasks => exact hTasks
  cases hExec.scheduleEffect with
  | kept _ hJobs => exact .of_same hJobs hTasks
  | updated _ _ _ count row hRow hHolds hJobs =>
      obtain ⟨⟨leaseId, rfl⟩, hCases⟩ := hMay
      obtain ⟨hState, hOwner⟩ := (holds_leasedBy leaseId).mp hHolds
      refine .kept hTasks (fun other hStored => ?_) fun other row' hRow' hFree hPasture => ?_
      · rw [hJobs]
        split
        · exact Option.some_ne_none _
        · exact hStored
      · rw [hJobs] at hRow'
        split at hRow'
        · rename_i hOther
          cases hRow'
          rcases hCases with ⟨hKeepsState, hKeepsOwner⟩ | hAsks | ⟨hJob, hTask | hLed⟩
          · -- The lease the write expects is still there.
            rcases hFree with h | h <;>
              simp [ScheduledJobPatch.apply, hKeepsState, hKeepsOwner, hState, hOwner] at h
          · simp [ScheduledJobPatch.apply, hAsks] at hPasture
          · exact Or.inr ⟨hOther ▸ hJob, hTask⟩
          · rw [hMisled] at hLed
            cases hLed
        · exact Or.inl ⟨row', hRow', hFree, hPasture⟩

/-- **Inversion of an operation of a creation.** -/
theorem MayCreation.change {creation : Creation} {act : Act} {reply : act.Reply}
    (hMay : MayCreation creation act) (hMisled : creation.misled = false)
    (hErrors : act.RejectsWithErrors reply) (hExec : Exec reading db act reply after) :
    CreationChange creation db after (creation.next act reply) := by
  cases act with
  | createSchedule row =>
      have hTasks : ∀ pk, after.task pk = db.task pk := by
        cases hExec.taskEffect with
        | kept _ hTasks => exact hTasks
      obtain ⟨-, hNoTask, hLeased⟩ := hMay
      cases hExec.scheduleEffect with
      | kept hNot hJobs =>
          cases reply with
          | error e => exact .of_same hJobs hTasks
          | ok done => exact absurd trivial hNot
      | created _ hAbsent hJobs =>
          exact .stored row hNoTask hLeased hAbsent hTasks hJobs
  | createTask row =>
      have hJobs : ∀ pk, after.job pk = db.job pk := by
        cases hExec.scheduleEffect with
        | kept _ hJobs => exact hJobs
      obtain ⟨hJob, hNone, hPending⟩ := hMay
      cases hExec.taskEffect with
      | kept hNot hTasks =>
          cases reply with
          | error e =>
              -- an addition that was rejected leaves the creation where it was
              have hSame : creation.next (.createTask row) (.error e) = creation := by
                have hTruthy : e.truthy = true := hErrors
                simp [Creation.next, hTruthy]
              rw [hSame]
              exact .of_same hJobs hTasks
          | ok done => exact absurd trivial hNot
      | created _ hAbsent hTasks =>
          exact .added row hJob hNone hPending hAbsent hTasks hJobs
  | updateSchedule pk newValues conditional =>
      exact hMay.change_updateSchedule hMisled hExec
  | updateTask pk newValues conditional => exact hMay.elim
  | _ =>
      cases hExec.scheduleEffect with
      | kept _ hJobs =>
          cases hExec.taskEffect with
          | kept _ hTasks => exact .of_same hJobs hTasks

/-! ## What every step keeps -/

/-- The creations after the one of the given number has moved on. -/
def moveOn (states : Nat → Option (Request × Creation)) (actor : Nat) (request : Request)
    (next : Creation) (pid : Nat) : Option (Request × Creation) :=
  if pid = actor then some (request, next) else states pid

section Steps

variable {actor : Nat} {actorRequest : Request} {creation : Creation}

theorem moveOn_same (hActor : states actor = some (actorRequest, creation)) :
    moveOn states actor actorRequest creation = states := by
  funext pid
  unfold moveOn
  split
  · rename_i hPid
    rw [hPid, hActor]
  · rfl

/-- A creation is the one that moved on, or it is as it was. -/
theorem moveOn_cases {next other : Creation} {pid : Nat} {request : Request}
    (h : moveOn states actor actorRequest next pid = some (request, other)) :
    (pid = actor ∧ other = next) ∨ (pid ≠ actor ∧ states pid = some (request, other)) := by
  unfold moveOn at h
  split at h
  · rename_i hPid
    cases h
    exact Or.inl ⟨hPid, rfl⟩
  · rename_i hPid
    exact Or.inr ⟨hPid, h⟩

/-- A creation with a property the one that moves on lacks is as it was. -/
theorem moveOn_of_not {next other : Creation} {P : Creation → Prop} {pid : Nat}
    {request : Request} (hActor : states actor = some (actorRequest, creation))
    (hNot : ¬ P creation) (hState : states pid = some (request, other)) (hOther : P other) :
    moveOn states actor actorRequest next pid = some (request, other) := by
  unfold moveOn
  split
  · rename_i hPid
    rw [hPid, hActor] at hState
    cases hState
    exact absurd hOther hNot
  · exact hState

/-- A creation that has stored nothing stores its job, leased. -/
theorem Recoverable.stored (h : Recoverable before states db)
    (hActor : states actor = some (actorRequest, creation)) {row : ScheduledJobDataModel}
    (hNoTask : creation.task = none) (hLeased : ¬ Unleased row)
    (hAbsent : db.job row.pk = none) (hTasks : ∀ pk, after.task pk = db.task pk)
    (hJobs : ∀ pk, after.job pk = if pk = row.pk then some row else db.job pk) :
    Recoverable before (moveOn states actor actorRequest { creation with job := some row.pk })
      after := by
  have hStored : ∀ pk, db.job pk ≠ none → after.job pk ≠ none := by
    intro pk hOld
    rw [hJobs]
    split
    · exact Option.some_ne_none _
    · exact hOld
  have hOwn : after.job row.pk ≠ none := by simp [hJobs]
  -- Nobody else has stored a job with this key, since there is none.
  have hUnused : ∀ {pid request other}, states pid = some (request, other) →
      other.job ≠ some row.pk := fun hState hJob => (h.job _ _ _ _ hState hJob).2 hAbsent
  refine ⟨fun pk hOld => hStored pk (h.stays pk hOld), ?_, ?_, ?_, ?_, ?_⟩
  · intro pid request other pk hState hJob
    rcases moveOn_cases hState with ⟨-, rfl⟩ | ⟨-, hOld⟩
    · cases hJob
      exact ⟨by_contra fun hBefore => h.stays row.pk hBefore hAbsent, hOwn⟩
    · exact (h.job pid request other pk hOld hJob).imp_right (hStored pk)
  · intro pid pid' request request' other other' pk hState hState' hJob hJob'
    rcases moveOn_cases hState with ⟨hPid, rfl⟩ | ⟨-, hOld⟩
    · rcases moveOn_cases hState' with ⟨hPid', -⟩ | ⟨-, hOld'⟩
      · rw [hPid, hPid']
      · cases hJob
        exact absurd hJob' (hUnused hOld')
    · rcases moveOn_cases hState' with ⟨-, rfl⟩ | ⟨-, hOld'⟩
      · cases hJob'
        exact absurd hJob (hUnused hOld)
      · exact h.single pid pid' request request' other other' pk hOld hOld' hJob hJob'
  · intro pid request other task hState hTask
    rcases moveOn_cases hState with ⟨-, rfl⟩ | ⟨-, hOld⟩
    · rw [hNoTask] at hTask
      cases hTask
    · rw [hTasks]
      exact h.task pid request other task hOld hTask
  · intro pk task hRow
    rw [hTasks] at hRow
    refine (h.added pk task hRow).imp_right ?_
    rintro ⟨pid, request, other, hOld, hTask⟩
    exact ⟨pid, request, other, moveOn_of_not (P := fun c => c.task ≠ none) hActor
      (fun hHas => hHas hNoTask) hOld (by simp [hTask]), hTask⟩
  · intro pk other hRow hBefore hFree hPasture
    rw [hJobs] at hRow
    split at hRow
    · cases hRow
      exact absurd hFree hLeased
    · obtain ⟨pid, request, owner, hOld, hJob, hTask⟩ :=
        h.complete pk other hRow hBefore hFree hPasture
      exact ⟨pid, request, owner, moveOn_of_not (P := fun c => c.task ≠ none) hActor
        (fun hHas => hHas hNoTask) hOld hTask, hJob, hTask⟩

/-- A creation adds the task of its job. -/
theorem Recoverable.addTask (h : Recoverable before states db)
    (hActor : states actor = some (actorRequest, creation)) {row : TaskModel}
    (hJob : creation.job = some row.schedule) (hNone : creation.task = none)
    (hPending : row.state = .pending) (hAbsent : db.task row.pk = none)
    (hTasks : ∀ pk, after.task pk = if pk = row.pk then some row else db.task pk)
    (hJobs : ∀ pk, after.job pk = db.job pk) :
    Recoverable before (moveOn states actor actorRequest { creation with task := some row })
      after := by
  have hOwn : moveOn states actor actorRequest { creation with task := some row } actor =
      some (actorRequest, { creation with task := some row }) := if_pos rfl
  refine ⟨fun pk hOld => by rw [hJobs]; exact h.stays pk hOld, ?_, ?_, ?_, ?_, ?_⟩
  · intro pid request other pk hState hOther
    rw [hJobs]
    rcases moveOn_cases hState with ⟨-, rfl⟩ | ⟨-, hOld⟩
    · exact h.job actor actorRequest creation pk hActor hOther
    · exact h.job pid request other pk hOld hOther
  · intro pid pid' request request' other other' pk hState hState' hOther hOther'
    rcases moveOn_cases hState with ⟨rfl, rfl⟩ | ⟨-, hOld⟩
    · rcases moveOn_cases hState' with ⟨hPid', -⟩ | ⟨-, hOld'⟩
      · exact hPid'.symm
      · exact h.single pid pid' _ request' creation other' pk hActor hOld' hOther hOther'
    · rcases moveOn_cases hState' with ⟨rfl, rfl⟩ | ⟨-, hOld'⟩
      · exact h.single pid pid' request _ other creation pk hOld hActor hOther hOther'
      · exact h.single pid pid' request request' other other' pk hOld hOld' hOther hOther'
  · intro pid request other task hState hTask
    rcases moveOn_cases hState with ⟨-, rfl⟩ | ⟨-, hOld⟩
    · cases hTask
      exact ⟨hJob, by simp [hTasks], hPending⟩
    · -- the key of the new task was free, so no other creation has it
      obtain ⟨hOtherJob, hRow, hState⟩ := h.task pid request other task hOld hTask
      have hNe : task.pk ≠ row.pk := by
        intro hSame
        rw [hSame, hAbsent] at hRow
        cases hRow
      exact ⟨hOtherJob, by rw [hTasks, if_neg hNe, hRow], hState⟩
  · intro pk task hRow
    rw [hTasks] at hRow
    split at hRow
    · cases hRow
      exact Or.inr ⟨actor, actorRequest, _, hOwn, rfl⟩
    · refine (h.added pk task hRow).imp_right ?_
      rintro ⟨pid, request, other, hOld, hTask⟩
      exact ⟨pid, request, other, moveOn_of_not (P := fun c => c.task ≠ none) hActor
        (fun hHas => hHas hNone) hOld (by simp [hTask]), hTask⟩
  · intro pk other hRow hBefore hFree hPasture
    rw [hJobs] at hRow
    -- a creation that had a task already is not the one that adds this one
    obtain ⟨pid, request, owner, hOld, hOwnerJob, hTask⟩ :=
      h.complete pk other hRow hBefore hFree hPasture
    exact ⟨pid, request, owner, moveOn_of_not (P := fun c => c.task ≠ none) hActor
      (fun hHas => hHas hNone) hOld hTask, hOwnerJob, hTask⟩

/-- **Step lemma.**  Every operation of a creation keeps what is kept of them. -/
theorem Recoverable.step {next : Creation} (h : Recoverable before states db)
    (hActor : states actor = some (actorRequest, creation))
    (hChange : CreationChange creation db after next) :
    Recoverable before (moveOn states actor actorRequest next) after := by
  cases hChange with
  | kept hTasks hStored hJobs =>
      rw [moveOn_same hActor]
      refine ⟨fun pk hOld => hStored pk (h.stays pk hOld), ?_, h.single, ?_, ?_, ?_⟩
      · intro pid request other pk hState hJob
        exact (h.job pid request other pk hState hJob).imp_right (hStored pk)
      · intro pid request other task hState hTask
        rw [hTasks]
        exact h.task pid request other task hState hTask
      · intro pk row hRow
        rw [hTasks] at hRow
        exact h.added pk row hRow
      · intro pk row hRow hBefore hFree hPasture
        rcases hJobs pk row hRow hFree hPasture with ⟨old, hOld, hOldFree, hOldPasture⟩ | hOwn
        · exact h.complete pk old hOld hBefore hOldFree hOldPasture
        · exact ⟨actor, actorRequest, creation, hActor, hOwn⟩
  | stored row hNoTask hLeased hAbsent hTasks hJobs =>
      exact h.stored hActor hNoTask hLeased hAbsent hTasks hJobs
  | added row hJob hNone hPending hAbsent hTasks hJobs =>
      exact h.addTask hActor hJob hNone hPending hAbsent hTasks hJobs

/-- A creation that starts has stored nothing. -/
theorem Recoverable.quiet {states' : Nat → Option (Request × Creation)}
    (h : Recoverable before states db)
    (hKept : ∀ pid state, states pid = some state → states' pid = some state)
    (hNew : ∀ pid request creation, states' pid = some (request, creation) →
      states pid = some (request, creation) ∨ creation = {})
    (hJobs : ∀ pk, after.job pk = db.job pk) (hTasks : ∀ pk, after.task pk = db.task pk) :
    Recoverable before states' after := by
  refine ⟨fun pk hOld => by rw [hJobs]; exact h.stays pk hOld, ?_, ?_, ?_, ?_, ?_⟩
  · intro pid request other pk hState hJob
    rw [hJobs]
    rcases hNew pid request other hState with hOld | rfl
    · exact h.job pid request other pk hOld hJob
    · cases hJob
  · intro pid pid' request request' other other' pk hState hState' hJob hJob'
    rcases hNew pid request other hState with hOld | rfl
    · rcases hNew pid' request' other' hState' with hOld' | rfl
      · exact h.single pid pid' request request' other other' pk hOld hOld' hJob hJob'
      · cases hJob'
    · cases hJob
  · intro pid request other task hState hTask
    rw [hTasks]
    rcases hNew pid request other hState with hOld | rfl
    · exact h.task pid request other task hOld hTask
    · cases hTask
  · intro pk row hRow
    rw [hTasks] at hRow
    refine (h.added pk row hRow).imp_right ?_
    rintro ⟨pid, request, other, hState, hTask⟩
    exact ⟨pid, request, other, hKept pid _ hState, hTask⟩
  · intro pk row hRow hBefore hFree hPasture
    rw [hJobs] at hRow
    obtain ⟨pid, request, other, hState, hRest⟩ :=
      h.complete pk row hRow hBefore hFree hPasture
    exact ⟨pid, request, other, hKept pid _ hState, hRest⟩

end Steps

/-! ## The law -/

/-- After any creations, what is kept of them holds, and none was misled. -/
theorem recoverable_of_run (hRun : Run (scheduler reading) creations (.start before) pool) :
    (∀ pid request creation, creationOf pool pid = some (request, creation) →
      request.ThrowsErrors ∧ creation.misled = false) ∧
        Recoverable before (creationOf pool) pool.shared := by
  have hIdle : (Pool.start before : SchedulerPool).Idle := Pool.start_idle _
  refine hRun.invariant (I := fun pool =>
    (∀ pid request creation, creationOf pool pid = some (request, creation) →
      request.ThrowsErrors ∧ creation.misled = false) ∧
        Recoverable before (creationOf pool) pool.shared) ?_ ?_
  · have hNone : ∀ pid, creationOf (Pool.start before : SchedulerPool) pid = none :=
      Pool.stateOf_idle hIdle
    refine ⟨fun pid _ _ hState => ?_, fun _ => id, fun pid _ _ _ hState => ?_,
      fun pid _ _ _ _ _ _ hState => ?_, fun pid _ _ _ hState => ?_,
      fun _ _ => Or.inl, fun _ row hRow hAbsent => ?_⟩
    · rw [hNone] at hState
      cases hState
    · rw [hNone] at hState
      cases hState
    · rw [hNone] at hState
      cases hState
    · rw [hNone] at hState
      cases hState
    · rw [show (Pool.start before : SchedulerPool).shared = before from rfl, hAbsent] at hRow
      cases hRow
  · rintro pool event pool' hBefore ⟨hSound, hRecoverable⟩ hStep ⟨hStarts, hErrors⟩
    have hHonors := hBefore.honors (fun request => request.honors_creation) hIdle
    cases hStep.moves (hBefore.logOwned hIdle) hHonors with
    | quiet _ _ hShared _ hKept hNew =>
        constructor
        · intro pid request creation hState
          rcases hNew pid request creation hState with hOld | ⟨rfl, rfl⟩
          · exact hSound pid request creation hOld
          · exact ⟨hStarts request rfl, rfl⟩
        · refine hRecoverable.quiet hKept (fun pid request creation hState =>
            (hNew pid request creation hState).imp_right (·.2)) ?_ ?_
          · exact (Database.tables_of_quiet hShared).1
          · exact (Database.tables_of_quiet hShared).2
    | performed actor request creation op reply _ hActor hMay hExec _ hStates =>
        -- the state of the call that acts moves on, those of the others stay
        obtain ⟨hThrows, hMisled⟩ := hSound actor request creation hActor
        have hReply := hErrors _ rfl
        have hMoved : creationOf pool' = moveOn (creationOf pool) actor request
            (creation.next op.act reply) := funext hStates
        rw [hMoved]
        constructor
        · intro pid other state hState
          unfold moveOn at hState
          split at hState
          · cases hState
            exact ⟨hThrows, (creation.misled_next hReply).trans hMisled⟩
          · exact hSound pid other state hState
        · exact hRecoverable.step hActor ((hMay hThrows).change hMisled hReply hExec)

/-- **Creation is all or repairable.**  From any store in which every task has its job:
whatever the strategies answer, whichever calls are rejected, and wherever nodes stop,
any number of creations leave no task without its job, and a job they created is leased
or disabled unless it has one task, which is pending. -/
theorem creation_all_or_repairable
    (hRun : Run (scheduler reading) creations (.start before) pool)
    (hBefore : TasksHaveJobs before) : AllOrRepairable before pool.shared := by
  obtain ⟨-, hSound⟩ := recoverable_of_run hRun
  constructor
  · intro task hTask
    rcases hSound.added task.pk task (task_of_mem hTask) with
      hOld | ⟨pid, request, creation, hState, hAdded⟩
    · exact hSound.stays _ (hBefore task (task_eq_some_iff.mp hOld).1)
    · obtain ⟨hJob, -, -⟩ := hSound.task pid request creation task hState hAdded
      exact (hSound.job pid request creation _ hState hJob).2
  · intro row hRow hNew hFree hPasture
    obtain ⟨pid, request, creation, hState, hJob, hHas⟩ :=
      hSound.complete row.pk row (job_of_mem hRow) hNew hFree hPasture
    obtain ⟨task, hTask⟩ := Option.ne_none_iff_exists'.mp hHas
    obtain ⟨hSchedule, hStored, hPending⟩ := hSound.task pid request creation task hState hTask
    have hSame : task.schedule = row.pk := Option.some.inj (hSchedule.symm.trans hJob)
    refine ⟨task, (task_eq_some_iff.mp hStored).1, hSame, hPending, fun other hOther hOf => ?_⟩
    rcases hSound.added other.pk other (task_of_mem hOther) with
      hOld | ⟨pid', request', creation', hState', hTask'⟩
    · exact absurd hNew (hOf ▸ hBefore other (task_eq_some_iff.mp hOld).1)
    · -- The job has one creation, and that creation has one task.
      have hJob' := (hSound.task pid' request' creation' other hState' hTask').1
      rw [hOf] at hJob'
      obtain rfl := hSound.single pid pid' request request' creation creation' row.pk hState
        hState' hJob hJob'
      rw [hState] at hState'
      cases hState'
      exact Option.some.inj (hTask'.symm.trans hTask)

/-- One creation succeeds, and another has its task rejected and marks its job. -/
private def twoCreations : List (Turn Request Answers) :=
  createSample sampleFinish ++
    .spawn ⟨sampleNode sampleFinish [], 0, .createScheduledJob sampleSchedule⟩ ::
    .run 1 { leaseId := "other" } :: .run 1 { primaryKey := "second" } ::
    .run 1 { primaryKey := "lost" } :: .run 1 {} ::
    .run 1 { rejects := some (.tern "down") } :: turns 1 1 {}

/-- The sample job is complete, and the job whose task was rejected is leased. -/
theorem sample_creation_recovered :
    ∃ pool : SchedulerPool, (pool.shared.job "job").any (·.leaseOwner = none) = true ∧
      (pool.shared.job "second").any (·.leaseOwner = some "other") = true ∧
        AllOrRepairable (.empty 0) pool.shared := by
  have hDriven : ((driver strictlyBefore).drive
      (fun _ event _ => decide (∀ entry ∈ event.entry,
        entry.op.act.RejectsWithErrors entry.reply))
      twoCreations (.start (.empty 0))).any (fun pool =>
        (pool.shared.job "job").any (·.leaseOwner = none) &&
          (pool.shared.job "second").any (·.leaseOwner = some "other")) = true := by
    decide +kernel
  obtain ⟨pool, hRun, hTest⟩ := Driver.exists_run_of_turns (A := creations)
    (fun turn hTurn _ event _ hTake hCheck => by
      refine ⟨fun request hRequest => ?_, of_decide_eq_true hCheck⟩
      cases event with
      | spawned other =>
          cases hRequest
          obtain rfl := Driver.spawn_of_take hTake
          simp only [twoCreations, createSample, turns, List.mem_append, List.mem_cons,
            List.mem_replicate, reduceCtorEq, and_false, or_false,
            Turn.spawn.injEq] at hTurn
          rcases hTurn with rfl | rfl <;>
            exact ⟨sampleSchedule, rfl, fun strat sched e hGet hThrown => by
              cases hGet
              cases hThrown⟩
      | _ => cases hRequest) hDriven
  rw [Bool.and_eq_true] at hTest
  exact ⟨pool, hTest.1, hTest.2, creation_all_or_repairable hRun fun task hTask =>
    absurd hTask (by simp [Database.empty])⟩

end TernScheduler
