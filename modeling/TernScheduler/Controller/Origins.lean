import TernScheduler.Controller.Queueing

/-!
# Where a task comes from

Every stored task was added by a call, at a time that the strategies of its node answered for
the job of the task, as its client defined it.

* `PlannedFor` says so of a row, and of the call that has added it.
* `tasks_planned` is the run lemma.
-/

namespace TernScheduler

open Interleaving Database

variable {reading : BeforeDateReading}
  {A : RunCondition signature Database Request Settled} {clock : Date}
  {pool pool' : SchedulerPool} {event : Event signature Database Request}

/-- The call with the request has added the task. -/
def AddedBy (pool : SchedulerPool) (pk : PrimaryKeyType) (request : Request) : Prop :=
  ∃ added ∈ pool.log, ∃ task session, added.op.act = .createTask task ∧ task.pk = pk ∧
    sessionOf pool added.pid = some (request, session)

/-- The call with the request has added the task, at a time its node has planned for the job
of the task, which is stored. -/
def PlannedFor (pool : SchedulerPool) (row : TaskModel) (request : Request) : Prop :=
  AddedBy pool row.pk request ∧ ∃ sched job, sched.pk = row.schedule ∧
    pool.shared.job row.schedule = some job ∧
      sched.toNewScheduledJob = job.toNewScheduledJob ∧ Planned request sched row.executeAt

theorem AddedBy.kept (hMoves : Moves reading pool event pool') {pk : PrimaryKeyType}
    {request : Request} (hAdded : AddedBy pool pk request) : AddedBy pool' pk request := by
  obtain ⟨added, hLogged, task, session, hAct, hPk, hSession⟩ := hAdded
  obtain ⟨session', hSession', -, -⟩ := hMoves.session_persists hSession
  refine ⟨added, ?_, task, session', hAct, hPk, hSession'⟩
  cases hMoves with
  | quiet _ _ _ _ hLog => exact hLog ▸ hLogged
  | performed _ _ _ _ _ _ _ _ _ _ hLog => exact hLog ▸ List.mem_cons_of_mem _ hLogged

/-- A row stays planned while it keeps its key, its schedule and its time. -/
theorem PlannedFor.kept (hMoves : Moves reading pool event pool') {old row : TaskModel}
    {request : Request} (hPlanned : PlannedFor pool old request) (hPk : old.pk = row.pk)
    (hSchedule : old.schedule = row.schedule) (hAt : old.executeAt = row.executeAt) :
    PlannedFor pool' row request := by
  obtain ⟨hAdded, sched, job, hSched, hJob, hDefinition, hTime⟩ := hPlanned
  obtain ⟨job', hJob', hKept⟩ := hMoves.definition_kept hJob
  exact ⟨hPk ▸ hAdded.kept hMoves, sched, job', hSched.trans hSchedule, hSchedule ▸ hJob',
    hDefinition.trans hKept.symm, hAt ▸ hTime⟩

/-- A stored task is as it was planned, or is added by the step, as the call of the step has
planned it. -/
inductive OriginStep (pool : SchedulerPool) (event : Event signature Database Request)
    (pool' : SchedulerPool) (row : TaskModel) : Prop
  | old (stored : TaskModel) (hStored : pool.shared.task row.pk = some stored)
      (hSchedule : stored.schedule = row.schedule) (hAt : stored.executeAt = row.executeAt) :
      OriginStep pool event pool' row
  | new (entry : SchedulerEntry) (request : Request) (session : Session)
      (hEvent : event = .ran entry) (hAct : entry.op.act = .createTask row)
      (hSession : sessionOf pool entry.pid = some (request, session))
      (hMay : May request session entry.op) (hPlanned : PlannedFor pool' row request) :
      OriginStep pool event pool' row

/-- **Step lemma.**  The row an operation adds is where the plan of its call had it. -/
theorem originStep_of_step (hRun : Run (scheduler reading) A (emptyPool clock) pool)
    (hStep : Step (scheduler reading) pool event pool') {row : TaskModel}
    (hRow : row ∈ pool'.shared.taskTable) : OriginStep pool event pool' row := by
  have hIdle := emptyPool_idle clock
  have hStored := task_of_mem hRow
  cases moves_of_step hRun hIdle hStep with
  | quiet _ _ _ hTasks => exact .old row (by rw [← hTasks, hStored]) rfl rfl
  | performed pid request session scope act reply _ hSession hMay hExec hLog hSessions =>
      rcases (hMay.taskChange hExec).of_row hStored with ⟨old, hOld, hSchedule, hAt, -⟩ |
        ⟨rfl, -, -⟩
      · exact .old old hOld hSchedule hAt
      · obtain ⟨planner, plan, hPlan, -, asked, sched, pk, runAt, hRead, hPlanned, rfl⟩ :=
          mayPlan_of_step hRun hIdle hStep
        obtain ⟨rfl, -⟩ := hasQueued_of_plan hSession hPlan
        obtain ⟨⟨job, hJob, hDefinition⟩, -⟩ :=
          reads_stored hRun hIdle pid request plan hPlan asked sched hRead
        obtain ⟨job', hJob', hSame⟩ := (moves_of_step hRun hIdle hStep).definition_kept hJob
        refine .new _ request session rfl rfl hSession hMay ⟨⟨_, by
          rw [hLog]; exact List.mem_cons_self, _, session.next _ reply, rfl, rfl, ?_⟩, sched, job',
          rfl, hJob', (hSame.trans hDefinition).symm, hPlanned⟩
        rw [hSessions, if_pos rfl]

end TernScheduler
