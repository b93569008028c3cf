import TernScheduler.Controller.LeasedWork
import TernScheduler.Library.Isolation

/-!
# Calls at work are isolated

A schedule has one call at work at most, and only that call writes the tasks of the
schedule.  So a call at work finds the schedule and its tasks as it would if it ran
alone.

* `others_keep` is the step lemma: other calls leave the tasks of the schedule alone.
* `isolates_schedules` is the rule that carries it, and the row of the schedule, over whole
  runs.
-/

namespace TernScheduler

open Interleaving Database

variable {reading : BeforeDateReading}
  {A : RunCondition signature Database Request Settled} {clock : Date}
  {pool pool' : SchedulerPool} {event : Event signature Database Request}

/-- The tasks of a schedule are the same in both states. -/
def SameTasks (schedule : PrimaryKeyType) (db after : Database) : Prop :=
  ∀ pk row, row.schedule = schedule → (after.task pk = some row ↔ db.task pk = some row)

theorem SameTasks.trans {schedule : PrimaryKeyType} {db between after : Database}
    (hFirst : SameTasks schedule db between) (hSecond : SameTasks schedule between after) :
    SameTasks schedule db after := fun pk row hSchedule =>
  (hSecond pk row hSchedule).trans (hFirst pk row hSchedule)

theorem sameTasks_of_eq {schedule : PrimaryKeyType} {db after : Database}
    (hTasks : ∀ pk, after.task pk = db.task pk) : SameTasks schedule db after :=
  fun pk row _ => by rw [hTasks]

/-- While a call is at work nobody else touches the tasks of its schedule. -/
theorem others_keep (hRun : Run (scheduler reading) A (emptyPool clock) pool)
    (hLeases : ∀ pool event pool', A pool event pool' → leasesRespected pool event pool')
    (hTasksStored : TasksStored pool) {pid actor : Nat} {request actorRequest : Request}
    {session before : Session} {leaseId : LeaseIdType} {pk : PrimaryKeyType} {scope : Scope}
    {act : Act} {reply : act.Reply} (hWork : AtWork pool pid request session leaseId pk)
    (hOther : pid ≠ actor)
    (hStep : Step (scheduler reading) pool
      (.ran ⟨actor, ⟨scope, act⟩, reply, pool.shared⟩) pool')
    (hActor : sessionOf pool actor = some (actorRequest, before))
    (hMay : May actorRequest before ⟨scope, act⟩)
    (hExec : Exec reading pool.shared act reply pool'.shared) :
    SameTasks pk pool.shared pool'.shared := by
  have hIdle := emptyPool_idle clock
  have hSound := session_sound hRun hIdle hActor
  -- The other call would be at work on the same job.
  have hApart : ∀ leaseId' job, AtWork pool actor actorRequest before leaseId' job →
      job ≠ pk := by
    rintro leaseId' job hActorWork rfl
    exact hOther ((owned_atWork hRun hLeases).unique
      (leaseIdsDistinct hRun hIdle fun _ _ _ hA => (hLeases _ _ _ hA).1) hWork hActorWork)
  intro taskPk row hSchedule
  cases hMay.taskChange hExec with
  | kept _ hTasks => rw [hTasks]
  | added new leaseId' hScope hAdd hAbsent hTasks =>
      subst hScope
      have hNew : new.schedule ≠ pk := hApart leaseId' _ (atWork_of_performed hStep hActor hMay
        trivial (hAdd.job_eq hSound (hMay.1 leaseId' rfl).2.1))
      rw [hTasks]
      split
      · rename_i hPk
        subst hPk
        refine ⟨fun hRow => ?_, fun hRow => by rw [hAbsent] at hRow; cases hRow⟩
        cases hRow
        exact absurd hSchedule hNew
      · exact Iff.rfl
  | moved task sched leaseId' current target newValues count old hScope _ hTask hJob hOld hState
      hTarget hMove hTasks =>
      subst hScope
      have hTaskSchedule : task.schedule ≠ pk :=
        hApart leaseId' _ (atWork_of_performed hStep hActor hMay trivial hJob)
      obtain ⟨stored, hStored, hSame⟩ :=
        hTasksStored actor actorRequest before task hActor hTask
      obtain rfl : old = stored := Option.some.inj (hOld.symm.trans hStored)
      rw [hTasks]
      split
      · rename_i hPk
        subst hPk
        constructor
        · intro hRow
          cases hRow
          exact absurd (hSame.symm.trans hSchedule) hTaskSchedule
        · intro hRow
          obtain rfl : old = row := Option.some.inj (hOld.symm.trans hRow)
          exact absurd (hSame.symm.trans hSchedule) hTaskSchedule
      · exact Iff.rfl

/-- The row of a schedule and its tasks are the same in both states. -/
structure SameSchedule (schedule : PrimaryKeyType) (db after : Database) : Prop where
  job : after.job schedule = db.job schedule
  tasks : SameTasks schedule db after

/-- The call is at work on the schedule. -/
def AtWorkOn (pool : SchedulerPool) (pid : Nat) (schedule : PrimaryKeyType) : Prop :=
  ∃ request session leaseId, AtWork pool pid request session leaseId schedule

/-- **Calls at work are isolated**: other calls leave their schedules alone. -/
theorem isolates_schedules
    (hLeases : ∀ pool event pool', A pool event pool' → leasesRespected pool event pool')
    (hStored : ∀ pool event pool', A pool event pool' → startsStoredTasks pool event pool') :
    Isolates (scheduler reading) A (emptyPool clock) AtWorkOn SameSchedule where
  trans schedule db between after hFirst hSecond :=
    ⟨hSecond.job.trans hFirst.job, hFirst.tasks.trans hSecond.tasks⟩
  keeps pool event pool' hRun hStep hA pid schedule hOthers hWorks := by
    have hIdle := emptyPool_idle clock
    obtain ⟨request, session, leaseId, hWork⟩ := hWorks
    cases moves_of_step hRun hIdle hStep with
    | quiet _ _ hJobs hTasks _ _ hNew =>
        rcases hNew pid request session hWork.session_eq with hOld | ⟨-, rfl⟩
        · exact ⟨⟨request, session, leaseId, hOld, hWork.working.before hStep hOld,
            hWork.leaseId_eq, hWork.job_eq⟩, hJobs schedule, sameTasks_of_eq hTasks⟩
        · have hJob := hWork.job_eq
          rw [Session.job_start] at hJob
          cases hJob
    | performed actor actorRequest before scope act reply _ hActor hMay hExec _ hSessions =>
        have hPid : pid ≠ actor := (hOthers _ rfl).symm
        have hSession := hWork.session_eq
        rw [hSessions, if_neg hPid] at hSession
        have hBefore : AtWork pool pid request session leaseId schedule :=
          ⟨hSession, hWork.working.before hStep hSession, hWork.leaseId_eq, hWork.job_eq⟩
        have hOther : before.leaseId ≠ some leaseId := fun hSame =>
          hPid (leaseIdsDistinct hRun hIdle (fun _ _ _ hA => (hLeases _ _ _ hA).1) pid actor
            request _ session before leaseId hSession hActor hBefore.leaseId_eq hSame)
        -- The row is owned by the call before and after the step.
        obtain ⟨old, hOld, -⟩ := owned_atWork hRun hLeases pid request session leaseId schedule
          hBefore
        obtain ⟨row, hRow, hOwner⟩ := owned_atWork (.tail hRun hStep hA) hLeases pid request
          session leaseId schedule hWork
        have hKept := (hMay.leaseChange hExec).row_of_other (by simp [hOld]) hOther hRow hOwner
        exact ⟨⟨request, session, leaseId, hBefore⟩, hRow.trans hKept.symm,
          others_keep hRun hLeases (tasksStored hRun hIdle hStored) hBefore hPid hStep hActor
            hMay hExec⟩

end TernScheduler
