import TernScheduler.Controller.LeasedWork
import TernScheduler.Controller.PlanRuns

/-!
# Queued tasks

A task leaves the state it is created in when a call queues it, as the first thing the
call does to it.  A task is never pending again after that, and keeps its schedule and
its time.

* `MayMove.of_queue` says which call queues a task.
* `hasQueued_of_plan` and `job_of_queued` are what a call that has queued its task knows.
* `TaskChange.of_row` and the lemmas after it are what an operation does to the stored tasks.
-/

namespace TernScheduler

open Interleaving Database

variable {A : RunCondition signature Database Request Settled}

/-- The fact that a task was queued. -/
def Fact.Queued : Fact → Prop
  | .wroteTask _ newValues _ (.ok (_ + 1)) => newValues.state = some .queued
  | _ => False

/-- The call has queued its task. -/
def Session.HasQueued (session : Session) : Prop := ∃ fact ∈ session.facts, fact.Queued

/-- The fact that a new task was asked for. -/
def Fact.Adds : Fact → Prop
  | .createdTask .. => True
  | _ => False

/-! ## What calls know -/

/-- A task leaves the state it is created in by being queued, as the first thing its
call does. -/
theorem MayMove.of_queue {request : Request} {sched : ScheduledJobDataModel} {task : TaskModel}
    {facts : List Fact} {old new : TaskStateType} {jobId : Option (Option ExecutionJobId)}
    (hMove : MayMove request sched task facts old new jobId)
    (hQueue : old = .pending ∨ new = .queued) :
    request.call = .startTask task ∧ facts = [] ∧ old = .pending := by
  cases hMove with
  | queue hCall hFirst => exact ⟨hCall, hFirst, rfl⟩
  | start jobId hCall hCleared => rcases hQueue with h | h <;> cases h
  | abandon new hCall hNew =>
      rcases hQueue with h | rfl
      · cases h
      · rcases hNew with h | h | h <;> cases h
  | finish new hNew =>
      rcases hQueue with h | rfl
      · cases h
      · rcases hNew with h | h <;> cases h

section Calls

variable {reading : BeforeDateReading} {first : SchedulerPool}

/-- A call knows from its facts that it has queued its task. -/
theorem hasQueued_of_plan {pid : Nat} {request request' : Request} {session : Session}
    {plan : Plan} (hSession : sessionOf pool pid = some (request, session))
    (hPlan : planOf pool pid = some (request', plan)) :
    request = request' ∧ (plan.queued = true → session.HasQueued) := by
  refine Pool.stateOf_related (R := fun (session : Session) (plan : Plan) =>
    plan.queued = true → session.HasQueued) (fun _ h => by cases h) ?_ hSession hPlan
  rintro request session plan ⟨scope, act⟩ reply hBefore hQueued
  have hKept : plan.queued = true → (session.next act reply).HasQueued := by
    intro hOld
    obtain ⟨fact, hFact, hQueues⟩ := hBefore hOld
    exact ⟨fact, Session.mem_facts_next hFact, hQueues⟩
  cases act with
  | updateTask pk newValues conditional =>
      rcases reply with e | _ | count
      · exact hKept hQueued
      · exact hKept hQueued
      · rcases Bool.or_eq_true_iff.mp hQueued with hOld | hNew
        · exact hKept hOld
        · have hState : newValues.state = some .queued := of_decide_eq_true hNew
          exact ⟨_, List.mem_cons_self, hState⟩
  | findSchedules start limit conditional =>
      rcases reply with e | _ | ⟨row, rest⟩ <;> exact hKept hQueued
  | createSchedule row => rcases reply with e | done <;> exact hKept hQueued
  | _ => exact hKept hQueued

/-- A call has queued its task before an operation, or queues it by the operation. -/
theorem Session.HasQueued.of_next {session : Session} {act : Act} {reply : act.Reply}
    (hQueued : (session.next act reply).HasQueued) :
    session.HasQueued ∨ ∃ fact, act.fact reply = some fact ∧ fact.Queued := by
  obtain ⟨fact, hFact, hQueues⟩ := hQueued
  rcases Session.of_mem_facts_next hFact with hOld | hNew
  · exact Or.inl ⟨fact, hOld, hQueues⟩
  · exact Or.inr ⟨fact, hNew, hQueues⟩

theorem Session.HasQueued.job_ne {session : Session} (hQueued : session.HasQueued)
    (hSound : session.Sound) : session.job ≠ none := by
  intro hJob
  obtain ⟨fact, hFact, -⟩ := hQueued
  rw [hSound.inactive hJob] at hFact
  cases hFact

/-- A call that has queued its task holds the job of the task. -/
theorem job_of_queued (hRun : Run (scheduler reading) A first pool) (hIdle : first.Idle) :
    ∀ pid request session, sessionOf pool pid = some (request, session) →
      ∀ task, request.call = .startTask task → session.HasQueued →
        session.job = some task.schedule := by
  refine session_invariant (I := fun request session => ∀ task,
    request.call = .startTask task → session.HasQueued → session.job = some task.schedule)
      hRun hIdle ?_ ?_
  · rintro request task - ⟨fact, hFact, -⟩
    rw [Session.facts_start] at hFact
    cases hFact
  · intro request session scope act reply db after hBefore hMay hExec task hCall hQueued
    rcases hQueued.of_next with hOld | ⟨fact, hFact, hQueues⟩
    · exact hMay.keeps_job (hBefore task hCall hOld)
    · cases act <;> simp only [Act.fact, Option.some.injEq, reduceCtorEq] at hFact
      all_goals subst hFact
      · exact hQueues.elim
      · exact hQueues.elim
      · -- the task is queued by an update of the one that the call starts
        rename_i pk newValues conditional
        obtain ⟨-, -, sched, moved, old, new, -, -, -, hJob, -, hNew, hMove⟩ := hMay
        have hState : newValues.state = some .queued := by
          rcases reply with e | _ | count
          · exact hQueues.elim
          · exact hQueues.elim
          · exact hQueues
        obtain rfl : new = .queued := Option.some.inj (hNew.symm.trans hState)
        obtain ⟨hMovedCall, -, -⟩ := hMove.of_queue (Or.inr rfl)
        obtain rfl : moved = task := Call.startTask.inj (hMovedCall.symm.trans hCall)
        exact hJob
      · exact hQueues.elim

/-- A call that creates a job has no task. -/
theorem task_of_create (hRun : Run (scheduler reading) A first pool) (hIdle : first.Idle) :
    ∀ pid request session, sessionOf pool pid = some (request, session) →
      ∀ schedule, request.call = .createScheduledJob schedule → session.task = none := by
  refine session_invariant (I := fun request session => ∀ schedule,
    request.call = .createScheduledJob schedule → session.task = none) hRun hIdle ?_ ?_
  · intro request schedule hCall
    rw [hCall]
    rfl
  · intro request session scope act reply db after hBefore hMay hExec schedule hCall
    have hNone := hBefore schedule hCall
    have hChange := session.change act reply
    generalize session.next act reply = next at hChange ⊢
    cases hChange with
    | found start limit conditional row hJob =>
        -- Only a call for a completion notice looks a task up.
        obtain ⟨-, execJobId, result, hNotice, -⟩ := hMay.2.2 hJob
        rw [hCall] at hNotice
        cases hNotice
    | _ => exact hNone

end Calls

/-! ## What an operation does to the tasks -/

section Changes

variable {request : Request} {session : Session} {scope : Scope} {db after : Database}
  {act : Act} {reply : act.Reply} {pk : PrimaryKeyType} {row : TaskModel}

/-- A row was there before, planned for the same time, or is the row that is added. -/
theorem TaskChange.of_row (hChange : TaskChange request session scope db after act reply)
    (hRow : after.task pk = some row) :
    (∃ old, db.task pk = some old ∧ old.schedule = row.schedule ∧
      old.executeAt = row.executeAt ∧ (row.state = .pending → old.state = .pending)) ∨
      (act = .createTask row ∧ pk = row.pk ∧ row.state = .pending) := by
  cases hChange with
  | kept _ hTasks => exact Or.inl ⟨row, hTasks pk ▸ hRow, rfl, rfl, id⟩
  | added new leaseId hScope hAdd hAbsent hTasks =>
      rw [hTasks] at hRow
      split at hRow
      · rename_i hPk
        cases hRow
        exact Or.inr ⟨rfl, hPk, hAdd.1⟩
      · exact Or.inl ⟨row, hRow, rfl, rfl, id⟩
  | moved task sched leaseId current target newValues count old _ _ _ _ hOld hState hTarget
      hMove hTasks =>
      rw [hTasks] at hRow
      split at hRow
      · rename_i hPk
        cases hRow
        refine Or.inl ⟨old, hPk ▸ hOld, rfl, rfl, fun hPending => ?_⟩
        -- No task becomes pending again.
        have hRank := hMove.rank_lt
        rw [show (newValues.apply old).state = target by simp [TaskPatch.apply, hTarget]]
          at hPending
        rw [hPending] at hRank
        exact absurd hRank (Nat.not_lt_zero _)
      · exact Or.inl ⟨row, hRow, rfl, rfl, id⟩

/-- Only the first thing a call does to a task takes a pending one away. -/
theorem TaskChange.pending_kept
    (hChange : TaskChange request session scope db after act reply)
    (hFacts : session.facts ≠ []) (hRow : db.task pk = some row)
    (hPending : row.state = .pending) : after.task pk = some row := by
  cases hChange with
  | kept _ hTasks => exact (hTasks pk).trans hRow
  | added new leaseId hScope hAdd hAbsent hTasks =>
      have hNe : pk ≠ new.pk := by
        rintro rfl
        rw [hAbsent] at hRow
        cases hRow
      rw [hTasks, if_neg hNe, hRow]
  | moved task sched leaseId current target newValues count old _ _ _ _ hOld hState hTarget
      hMove hTasks =>
      have hNe : pk ≠ task.pk := by
        rintro rfl
        obtain rfl : old = row := Option.some.inj (hOld.symm.trans hRow)
        exact hFacts (hMove.of_queue (Or.inl (hState.symm.trans hPending))).2.1
      rw [hTasks, if_neg hNe, hRow]

/-- The task an operation queues was pending, and is not any more. -/
theorem TaskChange.queued (hChange : TaskChange request session scope db after act reply)
    {fact : Fact} (hFact : act.fact reply = some fact) (hQueued : fact.Queued) :
    ∃ task row, request.call = .startTask task ∧ session.job = some task.schedule ∧
      db.task task.pk = some row ∧ row.state = .pending ∧
        ∀ other, after.task task.pk = some other → other.state ≠ .pending := by
  cases hChange with
  | kept hNone _ =>
      cases act with
      | updateTask pk newValues conditional =>
          cases hFact
          rcases reply with e | _ | count
          · exact hQueued.elim
          · exact hQueued.elim
          · exact absurd trivial hNone
      | _ => cases hFact <;> exact hQueued.elim
  | added => cases hFact; exact hQueued.elim
  | moved task sched leaseId current target newValues count old _ _ _ hJob hOld hState hTarget
      hMove hTasks =>
      cases hFact
      obtain rfl : target = .queued := Option.some.inj (hTarget.symm.trans hQueued)
      obtain ⟨hCall, -, rfl⟩ := hMove.of_queue (Or.inr rfl)
      refine ⟨task, old, hCall, hJob, hOld, hState, fun other hOther => ?_⟩
      rw [hTasks, if_pos rfl] at hOther
      cases hOther
      simp [TaskPatch.apply, hTarget]

/-- A row keeps its schedule and its time. -/
theorem TaskChange.planned_kept
    (hChange : TaskChange request session scope db after act reply)
    (hOld : ∀ row, act ≠ .createTask row) (pk : PrimaryKeyType) :
    (after.task pk).map (fun row => (row.schedule, row.executeAt)) =
      (db.task pk).map fun row => (row.schedule, row.executeAt) := by
  cases hChange with
  | kept _ hTasks => rw [hTasks]
  | added row => exact absurd rfl (hOld row)
  | moved task sched leaseId current target newValues count old _ _ _ _ hRow _ _ _ hTasks =>
      rw [hTasks]
      split
      · rename_i hPk
        rw [hPk, hRow]
        rfl
      · rfl

/-- A job keeps its name and its context. -/
theorem texts_kept {reading : BeforeDateReading} (hExec : Exec reading db act reply after)
    (hOld : ∀ row, act ≠ .createSchedule row) (pk : PrimaryKeyType) :
    (after.job pk).map (fun row => (row.jobName, row.jobContext)) =
      (db.job pk).map fun row => (row.jobName, row.jobContext) := by
  cases hExec.scheduleEffect with
  | kept _ hJobs => rw [hJobs]
  | created row => exact absurd rfl (hOld row)
  | updated other newValues conditional count row hRow hHolds hJobs =>
      rw [hJobs]
      split
      · rename_i hPk
        rw [hPk, hRow]
        rfl
      · rfl

end Changes

end TernScheduler
