import TernScheduler.Controller.PlanRuns
import TernScheduler.Properties.SingleLaunch
import TernScheduler.Wire.Runs

/-!
# What the wired system launches, and when

The controller launches the task it is handed, and hands on the texts of the row it
has read; whether these are the right ones is decided by the polls and listeners
around it.

* `launched_after_executeAt`: over SQL, a job is only launched once the time its task
  is stored with has passed by the clock of the hosts, whatever clock the calls are given.
* `launches_what_was_scheduled`: over either backend, what is launched is the job and
  the context a client gave for the schedule of the task.
-/

namespace TernScheduler

open Interleaving

variable {backend : Backend} {A : RunCondition signature Database Request Settled}
  {clock : Date} {pool pool' : SchedulerPool} {wired : Wired}

/-- A run in which the sample task is launched. -/
theorem exists_wiredRun_launching :
    ∃ wired, WiredRun .sql anySchedule (Wired.start 0) wired ∧
      wired.pool.log.any (fun entry => entry.op.act.launches "first") = true := by
  have hDriven : ((wireDriver .sql (sampleNode sampleStart [])).driveMail (fun _ _ _ => true)
      (wiredLaunches sampleSchedule 1 3) (Wired.start 0)).any (fun wired =>
        wired.pool.log.any fun entry => entry.op.act.launches "first") = true := by
    decide +kernel
  exact exists_wiredRun rfl (fun _ _ _ _ _ => trivial) hDriven

/-- **No job is launched before its time**, over SQL: when the job framework is asked to run
a task, the task is stored with a time that has passed by the clock of the hosts, which the
polls for tasks read. -/
theorem launched_after_executeAt (hRun : WiredRun .sql A (Wired.start clock) wired) :
    ∀ entry ∈ wired.pool.log, ∀ taskId jobName context,
      entry.op.act = .startJob taskId jobName context →
        ∃ task date, entry.before.task taskId = some task ∧ task.executeAt = some date ∧
          date < entry.before.clock := by
  have hIdle := emptyPool_idle clock
  refine hRun.projects.logged hIdle fun pool entry pool' hBefore hStep _ taskId jobName context
    hAct => ?_
  obtain ⟨request, session, task, sched, hSession, hCall, rfl, -⟩ :=
    launcher_of_step hBefore hIdle hStep hAct
  have hRaised := raised_session hBefore hIdle (fun _ _ _ hBoth => hBoth.2) _ _ _ hSession
  obtain ⟨row, hRow, hCreated⟩ := hRaised.stored task hCall
  obtain ⟨host, hHost, -, hAccepted⟩ := hRaised.timed
  obtain ⟨now, hNow, date, hDate, hBefore⟩ := hAccepted task hCall
  have hDue : date < now := of_decide_eq_true hBefore
  rw [before_eq_of_step hStep]
  refine ⟨row, date, hRow, (TaskModel.executeAt_of_asCreated hCreated).trans hDate, ?_⟩
  exact Int.lt_of_lt_of_le hDue (Int.le_trans hNow hHost)

/-- The sample task is launched once its time has passed. -/
theorem sample_launched_after :
    ∃ wired : Wired, wired.pool.log.any (fun entry => entry.op.act.launches "first") = true ∧
      ∀ entry ∈ wired.pool.log, ∀ taskId jobName context,
        entry.op.act = .startJob taskId jobName context →
          ∃ task date, entry.before.task taskId = some task ∧ task.executeAt = some date ∧
            date < entry.before.clock := by
  obtain ⟨wired, hRun, hLaunched⟩ := exists_wiredRun_launching
  exact ⟨wired, hLaunched, launched_after_executeAt hRun⟩

/-- **What is launched is what was scheduled.**  The job name and the context that the
job framework is given are those of a client's request to create the schedule that the
task is stored under. -/
theorem launches_what_was_scheduled (hRun : WiredRun backend A (Wired.start clock) wired) :
    ∀ entry ∈ wired.pool.log, ∀ taskId jobName context,
      entry.op.act = .startJob taskId jobName context →
        ∃ task definition, entry.before.task taskId = some task ∧
          CreatedBy wired.pool task.schedule definition ∧
            jobName = definition.jobName ∧ context = definition.jobContext := by
  have hIdle := emptyPool_idle clock
  refine hRun.projects.invariant (I := fun pool => ∀ entry : SchedulerEntry, entry ∈ pool.log →
    ∀ taskId jobName context,
    entry.op.act = .startJob taskId jobName context →
      ∃ task definition, entry.before.task taskId = some task ∧
        CreatedBy pool task.schedule definition ∧
          jobName = definition.jobName ∧ context = definition.jobContext) ?_ ?_
  · intro entry hEntry
    cases hEntry
  · intro pool event pool' hBefore hAll hStep _ entry hEntry taskId jobName context hAct
    have hMoves := moves_of_step hBefore hIdle hStep
    by_cases hOld : entry ∈ pool.log
    · obtain ⟨task, definition, hTask, hCreated, hTexts⟩ :=
        hAll entry hOld taskId jobName context hAct
      exact ⟨task, definition, hTask, hCreated.kept hMoves, hTexts⟩
    · obtain rfl : event = .ran entry := by
        cases hStep with
        | run => exact congrArg Event.ran ((List.mem_cons.mp hEntry).resolve_right hOld).symm
        | _ => exact absurd hEntry hOld
      obtain ⟨request, session, task, job, hSession, hCall, rfl, hJob, hTexts⟩ :=
        launcher_of_step hBefore hIdle hStep hAct
      have hRaised := raised_session hBefore hIdle (fun _ _ _ hBoth => hBoth.2) _ _ _ hSession
      obtain ⟨row, hRow, hRowCreated⟩ := hRaised.stored task hCall
      rw [before_eq_of_step hStep]
      refine ⟨row, job.toNewScheduledJob, hRow, ?_, hTexts⟩
      rw [TaskModel.schedule_of_asCreated hRowCreated]
      exact (job_created hBefore task.schedule job hJob).kept hMoves

/-- The sample task is launched with the texts its client gave. -/
theorem sample_launches_scheduled :
    ∃ wired : Wired, wired.pool.log.any (fun entry => entry.op.act.launches "first") = true ∧
      ∀ entry ∈ wired.pool.log, ∀ taskId jobName context,
        entry.op.act = .startJob taskId jobName context →
          ∃ task definition, entry.before.task taskId = some task ∧
            CreatedBy wired.pool task.schedule definition ∧
              jobName = definition.jobName ∧ context = definition.jobContext := by
  obtain ⟨wired, hRun, hLaunched⟩ := exists_wiredRun_launching
  exact ⟨wired, hLaunched, launches_what_was_scheduled hRun⟩

end TernScheduler
