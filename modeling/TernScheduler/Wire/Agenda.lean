import TernScheduler.Controller.Isolation
import TernScheduler.Controller.Launching
import TernScheduler.Controller.Queueing
import TernScheduler.Library.Agenda
import TernScheduler.Properties.SingleLaunch
import TernScheduler.Wire.Runs
import Mathlib.Data.Int.Order.Basic
import Mathlib.Order.WithBot

/-!
# The wired system keeps an agenda

The calls of all nodes, their leases and their conditional updates come down to the moves
of one agenda: jobs are posted, tasks planned, taken and launched.  The agenda asks for
more than any call can see: a task is planned after all the others of its job, and only
the last one is launched.

* `agendaOf` is the agenda of a state.
* `HeadsQueue` is what carries the argument: the task a call has queued is the last of
  its schedule, and no other one is pending until the call adds it.
* `agenda_of_step` maps a step to a move, and `agenda_of_run` is the run lemma.
-/

namespace TernScheduler

open Interleaving Database Planning

variable {A : RunCondition signature Database Request Settled} {clock : Date}
  {pool pool' : SchedulerPool} {event : Event signature Database Request}
  {Kind : NewScheduledJob → Prop}

/-- The time that calls read is never behind the clock of the host. -/
def CurrentTimeUTCStrategy.NeverLags (strategy : CurrentTimeUTCStrategy) : Prop :=
  ∀ host now, strategy host now → host ≤ now

/-- The clock of the node is never behind that of its host.  For jobs of a kind, the node plans a
task only after the start of another one, and then for a later date than it reads: nothing is
planned after a finish, and failed tasks are not retried. -/
structure Node.PlansAhead (node : Node) (Kind : NewScheduledJob → Prop) : Prop where
  clock : node.currentTimeUTC.NeverLags
  afterStart : ∀ now sched date, Kind sched.toNewScheduledJob →
    node.afterStart now sched = some (.queue (some date)) → now < date
  afterFinish : ∀ now sched runAt, Kind sched.toNewScheduledJob →
    node.afterFinish now sched ≠ some (.queue runAt)
  retry : ∀ sched task reason seconds, Kind sched.toNewScheduledJob →
    node.retryAnswer sched task reason ≠ some (some seconds)

/-- Only jobs of the kind are created, and every call is made by a node that plans ahead for
them. -/
def plansAhead (Kind : NewScheduledJob → Prop) :
    RunCondition signature Database Request Settled :=
  fun pool event pool' => (∀ request ∈ event.request, request.node.PlansAhead Kind) ∧
    createsOnly Kind pool event pool'

/-! ## The agenda of a state -/

/-- The time of a date.  That of an Invalid Date never comes. -/
def JsDate.time : JsDate → WithTop Date
  | some date => date
  | none => ⊤

@[simp] theorem JsDate.time_some (date : Date) : JsDate.time (some date) = (date : WithTop Date) :=
  rfl

@[simp] theorem JsDate.time_none : JsDate.time none = ⊤ := rfl

/-- The job and the context an operation hands to the job framework. -/
def Act.launched : Act → Option (PrimaryKeyType × String × String)
  | .startJob taskId jobName context => some (taskId, jobName, context)
  | _ => none

theorem launched_of_launches {act : Act} {pk : PrimaryKeyType}
    (hLaunches : act.launches pk = true) :
    ∃ launch, act.launched = some launch ∧ launch.1 = pk := by
  cases act <;> simp only [Act.launches, decide_eq_true_eq, reduceCtorEq] at hLaunches
  exact ⟨_, rfl, hLaunches⟩

theorem launches_of_launched {act : Act} {launch : PrimaryKeyType × String × String}
    (hLaunched : act.launched = some launch) : act.launches launch.1 = true := by
  cases act <;> simp only [Act.launched, Option.some.injEq, reduceCtorEq] at hLaunched
  subst hLaunched
  simp [Act.launches]

/-- The agenda of a state: jobs with their names and contexts, tasks with their schedules
and times. -/
def agendaOf (pool : SchedulerPool) :
    Agenda PrimaryKeyType PrimaryKeyType (String × String) (WithTop Date) where
  clock := pool.shared.clock
  jobs pk := (pool.shared.job pk).map fun row => (row.jobName, row.jobContext)
  tasks pk := (pool.shared.task pk).map fun row => (row.schedule, row.executeAt.time)
  pending pk := ∃ row, pool.shared.task pk = some row ∧ row.state = .pending
  launched := pool.log.filterMap fun entry => entry.op.act.launched

/-- The tasks of a schedule are planned for times up to the given one. -/
def UpTo (db : Database) (schedule : PrimaryKeyType) (time : WithTop Date) : Prop :=
  ∀ pk row, db.task pk = some row → row.schedule = schedule → row.executeAt.time ≤ time

/-- No task of the schedule is pending. -/
def NonePending (db : Database) (schedule : PrimaryKeyType) : Prop :=
  ∀ pk row, db.task pk = some row → row.schedule = schedule → row.state ≠ .pending

/-- The time is the last of the schedule unless a task is pending, and none is before the
call has asked for a new one. -/
structure Heads (db : Database) (session : Session) (schedule : PrimaryKeyType)
    (time : WithTop Date) : Prop where
  last : NonePending db schedule → UpTo db schedule time
  alone : (∀ fact ∈ session.facts, ¬ fact.Adds) → NonePending db schedule

/-- The task a call has queued is the last of its schedule. -/
def HeadsQueue (pool : SchedulerPool) : Prop :=
  ∀ pid request session leaseId pk task, AtWork pool pid request session leaseId pk →
    request.call = .startTask task → session.HasQueued →
      Heads pool.shared session pk task.executeAt.time

/-- It stays so while the tasks of the schedule stay as they are. -/
theorem Heads.congr {db after : Database} {session : Session} {schedule : PrimaryKeyType}
    {time : WithTop Date} (hHeads : Heads db session schedule time)
    (hSame : SameTasks schedule db after) : Heads after session schedule time where
  last hNone pk row hRow hSchedule :=
    hHeads.last (fun pk row hRow hSchedule => hNone pk row ((hSame pk row hSchedule).mpr hRow)
      hSchedule) pk row ((hSame pk row hSchedule).mp hRow) hSchedule
  alone hFacts pk row hRow hSchedule :=
    hHeads.alone hFacts pk row ((hSame pk row hSchedule).mp hRow) hSchedule


/-! ## Along a run -/

/-- The run condition of the agenda: no lease is taken from a call at work, nodes plan
ahead, and every call is raised by the wiring. -/
abbrev timedRun (Kind : NewScheduledJob → Prop) :
    RunCondition signature Database Request Settled :=
  (leasesRespected.and (plansAhead Kind)).and (raisedByWire .sql)

section Runs

variable (hRun : Run (scheduler Backend.sql.reading) (timedRun Kind) (emptyPool clock) pool)
include hRun

theorem tasksStored_of_timed : TasksStored pool :=
  tasksStored hRun (emptyPool_idle clock) fun _ _ _ hBoth =>
    startsStoredTasks_of_raised hBoth.2

theorem knowledge_of_timed {state : TaskStateType} : Knowledge state pool :=
  knowledge hRun (fun _ _ _ hBoth => hBoth.1.1) fun _ hBefore =>
    Or.inr (tasksStored_of_timed hBefore)

theorem plansAhead_of_timed {pid : Nat} {request : Request} {session : Session}
    (hSession : sessionOf pool pid = some (request, session)) : request.node.PlansAhead Kind :=
  request_of_session (Q := fun request => request.node.PlansAhead Kind) hRun
    (emptyPool_idle clock) (fun _ _ _ hBoth => hBoth.1.2.1) pid request session hSession

/-- The task a call starts is stored under its key, and was due before the call. -/
theorem started_of_timed {pid : Nat} {request : Request} {session : Session}
    {task : TaskModel} (hSession : sessionOf pool pid = some (request, session))
    (hCall : request.call = .startTask task) :
    (∃ row, pool.shared.task task.pk = some row ∧ row.schedule = task.schedule ∧
      row.executeAt = task.executeAt) ∧ ∃ date, task.executeAt = some date ∧
        date < request.now ∧ date < pool.shared.clock := by
  have hRaised := raised_session hRun (emptyPool_idle clock) (fun _ _ _ hBoth => hBoth.2)
    pid request session hSession
  obtain ⟨row, hRow, hCreated⟩ := hRaised.stored task hCall
  obtain ⟨host, hHost, hReads, hAccepted⟩ := hRaised.timed
  obtain ⟨now, hNow, date, hDate, hBefore⟩ := hAccepted task hCall
  have hDue : date < host := Int.lt_of_lt_of_le (of_decide_eq_true hBefore) hNow
  have hCalled : host ≤ request.now := (plansAhead_of_timed hRun hSession).clock _ _ hReads
  exact ⟨⟨row, hRow, TaskModel.schedule_of_asCreated hCreated,
    TaskModel.executeAt_of_asCreated hCreated⟩, date, hDate, Int.lt_of_lt_of_le hDue hCalled,
    Int.lt_of_lt_of_le hDue hHost⟩

/-- **Step lemma for the head of a schedule.** -/
theorem headsQueue_kept (hAgenda : (agendaOf pool).Sound) (hHeads : HeadsQueue pool)
    (hStep : Step (scheduler Backend.sql.reading) pool event pool') : HeadsQueue pool' := by
  have hIdle := emptyPool_idle clock
  intro pid request session leaseId pk task hAtWork hCall hQueued
  cases moves_of_step hRun hIdle hStep with
  | quiet _ _ _ hTasks _ _ hNew =>
      rcases hNew pid request session hAtWork.session_eq with hOld | ⟨-, rfl⟩
      · exact (hHeads pid request session leaseId pk task
          ⟨hOld, hAtWork.working.before hStep hOld, hAtWork.leaseId_eq, hAtWork.job_eq⟩ hCall
          hQueued).congr (sameTasks_of_eq hTasks)
      · have hJob := hAtWork.job_eq
        rw [Session.job_start] at hJob
        cases hJob
  | performed actor actorRequest before scope act reply _ hActor hMay hExec _ hSessions =>
      have hChange := hMay.taskChange hExec
      have hSound := session_sound hRun hIdle hActor
      have hSession := hAtWork.session_eq
      rw [hSessions] at hSession
      split at hSession
      · rename_i hPid
        subst hPid
        cases hSession
        -- No task is pending after the operation, unless it adds one.
        have hAlone : (∀ fact ∈ (before.next act reply).facts, ¬ fact.Adds) →
            ∀ taskPk row, pool'.shared.task taskPk = some row → row.state = .pending →
              ∃ old, pool.shared.task taskPk = some old ∧ old.schedule = row.schedule ∧
                old.executeAt = row.executeAt ∧ old.state = .pending := by
          intro hFacts taskPk row hRow hPending
          rcases hChange.of_row hRow with ⟨old, hOld, hSame, hAt, hWas⟩ | ⟨rfl, -, -⟩
          · exact ⟨old, hOld, hSame, hAt, hWas hPending⟩
          · exact absurd trivial (hFacts _ List.mem_cons_self)
        rcases hQueued.of_next with hOld | ⟨fact, hFact, hQueues⟩
        · have hWork := hAtWork.before_own hStep hActor hMay hSound (hOld.job_ne hSound)
          have hBefore := hHeads pid request before leaseId pk task hWork hCall hOld
          have hFirst : before.facts ≠ [] := by
            obtain ⟨fact, hFact, -⟩ := hOld
            exact List.ne_nil_of_mem hFact
          constructor
          · intro hNone taskPk row hRow hSchedule
            have hUpTo := hBefore.last fun otherPk other hOther hSame hPending =>
              hNone otherPk other (hChange.pending_kept hFirst hOther hPending) hSame hPending
            rcases hChange.of_row hRow with ⟨old, hOldRow, hSame, hAt, -⟩ | ⟨-, -, hPending⟩
            · exact hAt ▸ hUpTo taskPk old hOldRow (hSame.trans hSchedule)
            · exact absurd hPending (hNone taskPk row hRow hSchedule)
          · intro hFacts taskPk row hRow hSchedule hPending
            obtain ⟨old, hOldRow, hSame, -, hWas⟩ := hAlone hFacts taskPk row hRow hPending
            exact hBefore.alone (fun fact hFact => hFacts fact (Session.mem_facts_next hFact))
              taskPk old hOldRow (hSame.trans hSchedule) hWas
        · -- The task is queued by this operation, and was the pending one.
          obtain ⟨started, row, hStarts, hJob, hRow, hPending, hAfter⟩ :=
            hChange.queued hFact hQueues
          obtain rfl : started = task := Call.startTask.inj (hStarts.symm.trans hCall)
          have hWork := hAtWork.before_own hStep hActor hMay hSound (by rw [hJob]; simp)
          obtain rfl : started.schedule = pk := Option.some.inj (hJob.symm.trans hWork.job_eq)
          obtain ⟨⟨stored, hStored, hSame, hAt⟩, -⟩ := started_of_timed hRun hActor hCall
          obtain rfl : stored = row := Option.some.inj (hStored.symm.trans hRow)
          have hTask : (agendaOf pool).tasks started.pk =
              some (started.schedule, started.executeAt.time) := by
            simp [agendaOf, hStored, hSame, hAt]
          constructor
          · intro hNone taskPk other hOther hSchedule
            rcases hChange.of_row hOther with ⟨old, hOld, hOldSame, hOldAt, -⟩ | ⟨-, -, hNew⟩
            · refine hAgenda.last started.pk taskPk started.schedule started.executeAt.time _
                ⟨stored, hStored, hPending⟩ hTask ?_
              simp [agendaOf, hOld, hOldSame, hOldAt, hSchedule]
            · exact absurd hNew (hNone taskPk other hOther hSchedule)
          · intro hFacts taskPk other hOther hSchedule hWaits
            obtain ⟨old, hOld, hOldSame, hOldAt, hWas⟩ := hAlone hFacts taskPk other hOther hWaits
            obtain rfl : started.pk = taskPk := hAgenda.pending_unique
              ⟨stored, hStored, hPending⟩ ⟨old, hOld, hWas⟩ hTask
              (show _ = some (started.schedule, old.executeAt.time) by
                simp [agendaOf, hOld, hOldSame, hSchedule])
            exact hAfter other hOther hWaits
      · rename_i hPid
        have hWork : AtWork pool pid request session leaseId pk :=
          ⟨hSession, hAtWork.working.before hStep hSession, hAtWork.leaseId_eq,
            hAtWork.job_eq⟩
        exact (hHeads pid request session leaseId pk task hWork hCall hQueued).congr
          (others_keep hRun (fun _ _ _ hBoth => hBoth.1.1) (tasksStored_of_timed hRun) hWork hPid
            hStep hActor hMay hExec)

/-- The task is the first of its schedule, or it is added by the call that has started the last
one, and planned for a later time. -/
def AddedLast (db : Database) (request : Request) (row : TaskModel) : Prop :=
  (∀ pk other, db.task pk = some other → other.schedule ≠ row.schedule) ∨
    ∃ task, request.call = .startTask task ∧ task.schedule = row.schedule ∧
      task.executeAt.time < row.executeAt.time ∧ UpTo db row.schedule task.executeAt.time

/-- A task that is added goes to the end of its schedule. -/
theorem last_of_added (hHeads : HeadsQueue pool) {pid : Nat} {scope : Scope} {row : TaskModel}
    {reply : Except JsError Unit} {request : Request} {session : Session}
    (hStep : Step (scheduler Backend.sql.reading) pool
      (.ran ⟨pid, ⟨scope, .createTask row⟩, reply, pool.shared⟩) pool')
    (hSession : sessionOf pool pid = some (request, session))
    (hMay : May request session ⟨scope, .createTask row⟩) :
    NonePending pool.shared row.schedule ∧ AddedLast pool.shared request row := by
  have hIdle := emptyPool_idle clock
  have hSound := session_sound hRun hIdle hSession
  obtain ⟨⟨leaseId, rfl⟩, hAdd⟩ := hMay.2
  have hJob : session.job = some row.schedule := hAdd.job_eq hSound (hMay.1 leaseId rfl).2.1
  have hWork : AtWork pool pid request session leaseId row.schedule :=
    atWork_of_performed hStep hSession hMay trivial hJob
  have hNone : NonePending pool.shared row.schedule :=
    knowledge_of_timed hRun pid request session leaseId row.schedule hWork
      (knowsNone_of_puts_pending hMay hSound hJob hAdd.1)
  refine ⟨hNone, ?_⟩
  obtain ⟨request', plan, hPlan, hQueued, asked, sched, pk, runAt, hRead, hPlanned, rfl⟩ :=
    mayPlan_of_step hRun hIdle hStep
  obtain ⟨rfl, hHasQueued⟩ := hasQueued_of_plan hSession hPlan
  have hAhead := plansAhead_of_timed hRun hSession
  have hKind : Kind sched.toNewScheduledJob :=
    kind_of_created hRun hIdle (fun _ _ _ hBoth => hBoth.1.2.2) (read_created hRun hPlan hRead)
  cases hPlanned with
  | first schedule strat _ hCall hDefinition hStrat hAnswer =>
      -- A job that is being created has no tasks at all.
      have hFacts : session.facts = [] := by
        obtain ⟨-, -, -, -, -, ⟨-, -, hFacts⟩ | ⟨task, hTask, -⟩⟩ := hAdd
        · exact hFacts
        · rw [task_of_create hRun hIdle pid request session hSession schedule hCall] at hTask
          cases hTask
      refine Or.inl fun taskPk row hRow hSchedule => ?_
      exact absurd rfl (knowledge_of_timed hRun pid request session leaseId sched.pk hWork
        (Or.inr ⟨⟨schedule, hCall⟩, hFacts⟩) taskPk row hRow hSchedule)
  | afterStart task _ hCall hAnswer =>
      have hTaskQueued := hHasQueued (hQueued (by rw [hCall]; rfl))
      have hSchedule := job_of_queued hRun hIdle pid request session hSession task hCall hTaskQueued
      obtain ⟨-, date, hDate, hDue, -⟩ := started_of_timed hRun hSession hCall
      have hAfter : task.executeAt.time < JsDate.time runAt := by
        cases runAt with
        | none => simp [hDate]
        | some next =>
            have hNext : request.now < next := hAhead.afterStart _ _ _ hKind hAnswer
            simpa [hDate] using Int.lt_trans hDue hNext
      exact Or.inr ⟨task, hCall, Option.some.inj (hSchedule.symm.trans hJob), hAfter,
        (hHeads pid request session leaseId sched.pk task hWork hCall hTaskQueued).last hNone⟩
  | afterFinish _ hCall hAnswer => exact absurd hAnswer (hAhead.afterFinish _ _ _ hKind)
  | retry task reason seconds hCall hAnswer =>
      exact absurd hAnswer (hAhead.retry _ _ _ _ hKind)

omit hRun in
/-- The other tasks of the schedule are planned for earlier times. -/
theorem AddedLast.executeAt_lt {db : Database} {request : Request} {row : TaskModel}
    (hLast : AddedLast db request row) {pk : PrimaryKeyType} {other : TaskModel}
    (hOther : db.task pk = some other) (hSchedule : other.schedule = row.schedule) :
    other.executeAt.time < row.executeAt.time := by
  rcases hLast with hFirst | ⟨task, -, -, hTime, hUpTo⟩
  · exact absurd hSchedule (hFirst pk other hOther)
  · exact (hUpTo pk other hOther hSchedule).trans_lt hTime

end Runs

/-! ## Moves of the agenda -/

/-- An agenda is that of a state when it agrees with it key by key. -/
theorem agendaOf_eq
    {agenda : Agenda PrimaryKeyType PrimaryKeyType (String × String) (WithTop Date)}
    (hClock : (pool.shared.clock : WithTop Date) = agenda.clock)
    (hJobs : ∀ pk, (agendaOf pool).jobs pk = agenda.jobs pk)
    (hTasks : ∀ pk, (agendaOf pool).tasks pk = agenda.tasks pk)
    (hPending : ∀ pk, (agendaOf pool).pending pk ↔ agenda.pending pk)
    (hLaunched : (agendaOf pool).launched = agenda.launched) : agendaOf pool = agenda :=
  Agenda.ext hClock (funext hJobs) (funext hTasks) (funext fun pk => propext (hPending pk))
    hLaunched

theorem tasks_of_mem {row : TaskModel} (hRow : row ∈ pool.shared.taskTable) :
    (agendaOf pool).tasks row.pk = some (row.schedule, row.executeAt.time) := by
  simp [agendaOf, task_of_mem hRow]

/-- The launches of a state whose agenda was reached by moves are in the order of their
times. -/
theorem launches_of_agenda {clock : WithTop Date}
    (hReachable : Agenda.Reachable clock (agendaOf pool)) :
    pool.log.Pairwise fun later earlier =>
      ∀ row ∈ pool.shared.taskTable, ∀ row' ∈ pool.shared.taskTable,
        row.schedule = row'.schedule → later.op.act.launches row.pk = true →
          earlier.op.act.launches row'.pk = true →
            row'.executeAt.time < row.executeAt.time := by
  have hOrdered := Agenda.launched_in_order hReachable
  refine (List.pairwise_filterMap.mp hOrdered).imp fun {later earlier} hBefore row hRow row' hRow'
    hSchedule hLater hEarlier => ?_
  obtain ⟨launch, hLaunch, hKey⟩ := launched_of_launches hLater
  obtain ⟨launch', hLaunch', hKey'⟩ := launched_of_launches hEarlier
  refine hBefore launch hLaunch launch' hLaunch' row'.schedule _ _ ?_ ?_
  · rw [hKey, ← hSchedule]
    exact tasks_of_mem hRow
  · rw [hKey']
    exact tasks_of_mem hRow'

theorem agendaOf_emptyPool (clock : Date) :
    agendaOf (emptyPool clock) = Agenda.empty (clock : WithTop Date) :=
  agendaOf_eq rfl (fun _ => rfl) (fun _ => rfl)
    (fun _ => ⟨fun ⟨_, hRow, _⟩ => (nomatch hRow), False.elim⟩) rfl

section Performed

variable {pid : Nat} {request : Request} {session : Session} {scope : Scope} {act : Act}
  {reply : act.Reply}

/-- An operation that creates nothing and launches nothing. -/
theorem agenda_same (hExec : Exec Backend.sql.reading pool.shared act reply pool'.shared)
    (hLog : pool'.log = ⟨pid, ⟨scope, act⟩, reply, pool.shared⟩ :: pool.log)
    (hJob : ∀ row, act ≠ .createSchedule row) (hNone : act.launched = none)
    (hTasks : ∀ pk, pool'.shared.task pk = pool.shared.task pk) :
    agendaOf pool' = agendaOf pool := by
  refine agendaOf_eq (congrArg _ hExec.clock) (texts_kept hExec hJob) (fun pk => ?_)
    (fun pk => ?_) ?_
  · simp only [agendaOf, hTasks]
  · simp only [agendaOf, hTasks]
  · simp [agendaOf, hLog, hNone]

/-- A job that is created is posted. -/
theorem agenda_of_createSchedule {row : ScheduledJobDataModel}
    {reply : Act.Reply (.createSchedule row)}
    (hExec : Exec Backend.sql.reading pool.shared (.createSchedule row) reply pool'.shared)
    (hLog : pool'.log = ⟨pid, ⟨scope, .createSchedule row⟩, reply, pool.shared⟩ :: pool.log) :
    Relation.ReflTransGen Agenda.Step (agendaOf pool) (agendaOf pool') := by
  have hTasks := hExec.task_kept id
  have hLaunched : (agendaOf pool').launched = (agendaOf pool).launched := by
    simp [agendaOf, hLog, Act.launched]
  cases hExec.scheduleEffect with
  | kept _ hJobs =>
      have hSame : agendaOf pool' = agendaOf pool :=
        agendaOf_eq (congrArg _ hExec.clock) (fun pk => by simp only [agendaOf, hJobs])
          (fun pk => by simp only [agendaOf, hTasks]) (fun pk => by simp only [agendaOf, hTasks])
          hLaunched
      rw [hSame]
  | created _ hAbsent hJobs =>
      have hPost : agendaOf pool' = { agendaOf pool with
          jobs := fun other => if other = row.pk then some (row.jobName, row.jobContext)
            else (agendaOf pool).jobs other } := by
        refine agendaOf_eq (congrArg _ hExec.clock) (fun pk => ?_)
          (fun pk => by simp only [agendaOf, hTasks])
          (fun pk => by simp only [agendaOf, hTasks]) hLaunched
        simp only [agendaOf, hJobs]
        split <;> rfl
      rw [hPost]
      exact .single (.post _ _ _ (by simp [agendaOf, hAbsent]))

variable (hRun : Run (scheduler Backend.sql.reading) (timedRun Kind) (emptyPool clock) pool)
include hRun

/-- A task that is added is planned. -/
theorem agenda_of_createTask (hHeads : HeadsQueue pool) {row : TaskModel}
    {reply : Act.Reply (.createTask row)}
    (hStep : Step (scheduler Backend.sql.reading) pool
      (.ran ⟨pid, ⟨scope, .createTask row⟩, reply, pool.shared⟩) pool')
    (hSession : sessionOf pool pid = some (request, session))
    (hMay : May request session ⟨scope, .createTask row⟩)
    (hExec : Exec Backend.sql.reading pool.shared (.createTask row) reply pool'.shared)
    (hLog : pool'.log = ⟨pid, ⟨scope, .createTask row⟩, reply, pool.shared⟩ :: pool.log) :
    Relation.ReflTransGen Agenda.Step (agendaOf pool) (agendaOf pool') := by
  have hIdle := emptyPool_idle clock
  cases hMay.taskChange hExec with
  | kept _ hTasks =>
      rw [agenda_same hExec hLog (fun _ h => by cases h) rfl hTasks]
  | added _ leaseId hScope hAdd hAbsent hTasks =>
      obtain ⟨hNone, hLast⟩ := last_of_added hRun hHeads hStep hSession hMay
      -- the new task is planned and pending, and nothing else has changed
      have hPlan : agendaOf pool' = { agendaOf pool with
          tasks := fun other => if other = row.pk then some (row.schedule, row.executeAt.time)
            else (agendaOf pool).tasks other
          pending := fun other => other = row.pk ∨ (agendaOf pool).pending other } := by
        refine agendaOf_eq (congrArg _ hExec.clock) (texts_kept hExec fun _ h => by cases h)
          (fun pk => ?_)
          (fun pk => ?_) (by simp [agendaOf, hLog, Act.launched])
        · simp only [agendaOf, hTasks]
          split <;> rfl
        · simp only [agendaOf, hTasks]
          by_cases hPk : pk = row.pk
          · simp [hPk, hAdd.1]
          · simp [hPk]
      rw [hPlan]
      refine .single (.plan _ _ _ _ ?_ (by simp [agendaOf, hAbsent]) ?_ ?_)
      · have hJob : session.job = some row.schedule :=
          hAdd.job_eq (session_sound hRun hIdle hSession) (hMay.1 leaseId hScope).2.1
        have hStored := job_stored hRun hIdle pid request session _ hSession hJob
        simpa [agendaOf] using hStored
      · rintro pk before hTask ⟨waiting, hWaiting, hPending⟩
        simp only [agendaOf, hWaiting, Option.map_some, Option.some.injEq, Prod.mk.injEq] at hTask
        exact hNone pk waiting hWaiting hTask.1 hPending
      · intro pk before hTask
        obtain ⟨other, hOther, hSame⟩ := Option.map_eq_some_iff.mp hTask
        obtain ⟨hSchedule, rfl⟩ := Prod.mk.inj hSame
        exact hLast.executeAt_lt hOther hSchedule

/-- A task that is queued is taken; it moves on unseen after that. -/
theorem agenda_of_updateTask {pk : PrimaryKeyType} {newValues : TaskPatch}
    {conditional : Conditional TaskColumn}
    {reply : Act.Reply (.updateTask pk newValues conditional)}
    (hSession : sessionOf pool pid = some (request, session))
    (hMay : May request session ⟨scope, .updateTask pk newValues conditional⟩)
    (hExec : Exec Backend.sql.reading pool.shared (.updateTask pk newValues conditional) reply
      pool'.shared)
    (hLog : pool'.log =
      ⟨pid, ⟨scope, .updateTask pk newValues conditional⟩, reply, pool.shared⟩ :: pool.log) :
    Relation.ReflTransGen Agenda.Step (agendaOf pool) (agendaOf pool') := by
  have hIdle := emptyPool_idle clock
  have hChange := hMay.taskChange hExec
  have hPlanned : ∀ pk, (agendaOf pool').tasks pk = (agendaOf pool).tasks pk := by
    intro pk
    have hKept := congrArg (Option.map (Prod.map id JsDate.time))
      (hChange.planned_kept (fun _ h => by cases h) pk)
    simpa [agendaOf, Function.comp_def] using hKept
  have hTexts := texts_kept hExec fun _ h => by cases h
  have hLaunched : (agendaOf pool').launched = (agendaOf pool).launched := by
    simp [agendaOf, hLog, Act.launched]
  cases hChange with
  | kept _ hTasks =>
      rw [agenda_same hExec hLog (fun _ h => by cases h) rfl hTasks]
  | moved task sched leaseId current target _ count row _ _ _ _ hRow hOld hTarget hMove hTasks =>
      -- no call moves a task back to pending
      have hTargetNot : target ≠ .pending := by
        rintro rfl
        exact absurd hMove.rank_lt (Nat.not_lt_zero _)
      have hWaits : ∀ other, (agendaOf pool').pending other ↔
          other ≠ task.pk ∧ (agendaOf pool).pending other := by
        intro other
        simp only [agendaOf, hTasks]
        by_cases hPk : other = task.pk
        · simp [hPk, TaskPatch.apply, hTarget, hTargetNot]
        · simp [hPk]
      -- a task that leaves pending is taken; the later moves are none of the agenda
      by_cases hPending : current = .pending
      · subst hPending
        obtain ⟨hCall, -, -⟩ := hMove.of_queue (Or.inl rfl)
        obtain ⟨⟨stored, hStored, hSchedule, hAt⟩, date, hDate, -, hDue⟩ :=
          started_of_timed hRun hSession hCall
        have hPast : task.executeAt.time < pool.shared.clock := by simpa [hDate] using hDue
        have hTake : agendaOf pool' = { agendaOf pool with
            pending := fun other => other ≠ task.pk ∧ (agendaOf pool).pending other } :=
          agendaOf_eq (congrArg _ hExec.clock) hTexts hPlanned hWaits hLaunched
        rw [hTake]
        exact .single (.take _ task.pk task.schedule task.executeAt.time
          (by simp [agendaOf, hStored, hSchedule, hAt]) ⟨row, hRow, hOld⟩ hPast)
      · have hSame : agendaOf pool' = agendaOf pool := by
          refine agendaOf_eq (congrArg _ hExec.clock) hTexts hPlanned
            (fun other => (hWaits other).trans ?_)
            hLaunched
          refine and_iff_right_of_imp ?_
          rintro ⟨waiting, hWaiting, hState⟩ rfl
          obtain rfl : row = waiting := Option.some.inj (hRow.symm.trans hWaiting)
          exact hPending (hOld.symm.trans hState)
        rw [hSame]

/-- The launch of a job is a launch of the last task. -/
theorem agenda_of_startJob (hHeads : HeadsQueue pool) {taskId jobName context : String}
    {reply : Act.Reply (.startJob taskId jobName context)}
    (hStep : Step (scheduler Backend.sql.reading) pool
      (.ran ⟨pid, ⟨scope, .startJob taskId jobName context⟩, reply, pool.shared⟩) pool')
    (hSession : sessionOf pool pid = some (request, session))
    (hMay : May request session ⟨scope, .startJob taskId jobName context⟩)
    (hExec : Exec Backend.sql.reading pool.shared (.startJob taskId jobName context) reply
      pool'.shared)
    (hLog : pool'.log =
      ⟨pid, ⟨scope, .startJob taskId jobName context⟩, reply, pool.shared⟩ :: pool.log) :
    Agenda.Step (agendaOf pool) (agendaOf pool') := by
  have hIdle := emptyPool_idle clock
  obtain ⟨request', session', task, job, hLauncher, hCall, rfl, hJob, rfl, rfl⟩ :=
    launcher_of_step hRun hIdle hStep rfl
  obtain ⟨rfl, rfl⟩ : request' = request ∧ session' = session := by
    simpa using Option.some.inj (hLauncher.symm.trans hSession)
  obtain ⟨⟨stored, hStored, hSchedule, hAt⟩, date, hDate, -, hDue⟩ :=
    started_of_timed hRun hSession hCall
  have hPast : task.executeAt.time < pool.shared.clock := by simpa [hDate] using hDue
  -- The call has queued its task, and has looked for running ones since.
  obtain ⟨⟨leaseId, rfl⟩, started, found, queued, limit, conditional, hStarts, -, hMoved, hFacts⟩ :=
    hMay.2
  obtain rfl : started = task := Call.startTask.inj (hStarts.symm.trans hCall)
  have hQueued : session'.HasQueued := by
    obtain ⟨newValues, count, rfl, hState⟩ := hMoved
    have hFact : Fact.Queued (.wroteTask started.pk newValues (stateEquals .pending)
      (.ok (count + 1))) := hState
    exact ⟨_, by rw [hFacts]; exact List.mem_cons_of_mem _ List.mem_cons_self, hFact⟩
  have hNoneAdded : ∀ fact ∈ session'.facts, ¬ fact.Adds := by
    obtain ⟨newValues, count, rfl, hState⟩ := hMoved
    rw [hFacts]
    simp [Fact.Adds]
  have hWork : AtWork pool pid request' session' leaseId started.schedule :=
    ⟨hSession, working_of_launch hRun hIdle hStep ⟨rfl, trivial⟩, (hMay.1 leaseId rfl).1,
      job_of_queued hRun hIdle pid request' session' hSession started hCall hQueued⟩
  have hHead := hHeads pid request' session' leaseId _ started hWork hCall hQueued
  have hAlone := hHead.alone hNoneAdded
  have hUpTo := hHead.last hAlone
  have hSame : pool'.shared = pool.shared := hExec.same_of_other id
  have hLaunch : agendaOf pool' = { agendaOf pool with
      launched := (started.pk, job.jobName, job.jobContext) :: (agendaOf pool).launched } := by
    refine agendaOf_eq (by rw [hSame]; rfl) (fun pk => ?_) (fun pk => ?_) (fun pk => ?_) ?_
    · simp only [agendaOf, hSame]
    · simp only [agendaOf, hSame]
    · simp only [agendaOf, hSame]
    · simp [agendaOf, hLog, Act.launched]
  rw [hLaunch]
  refine .launch _ started.pk started.schedule started.executeAt.time _
    (by simp [agendaOf, hStored, hSchedule, hAt]) (by simp [agendaOf, hJob]) ?_ ?_ hPast ?_
  · rintro pk before hTask ⟨waiting, hWaiting, hPending⟩
    simp only [agendaOf, hWaiting, Option.map_some, Option.some.injEq, Prod.mk.injEq] at hTask
    exact hAlone pk waiting hWaiting hTask.1 hPending
  · intro pk before hTask
    obtain ⟨other, hOther, hPair⟩ := Option.map_eq_some_iff.mp hTask
    obtain ⟨hOtherSchedule, rfl⟩ := Prod.mk.inj hPair
    exact hUpTo pk other hOther hOtherSchedule
  · intro entry hEntry hKey
    obtain ⟨logged, hLogged, hLaunched⟩ := List.mem_filterMap.mp hEntry
    have hEarlier := launches_of_launched hLaunched
    rw [hKey, (no_earlier_launch hRun hIdle hSession hMay
      (show Act.launches _ _ = true by simp [Act.launches])).2 logged hLogged] at hEarlier
    cases hEarlier

/-- **Every step is a move of the agenda**, or none. -/
theorem agenda_of_step (hHeads : HeadsQueue pool)
    (hStep : Step (scheduler Backend.sql.reading) pool event pool') :
    Relation.ReflTransGen Agenda.Step (agendaOf pool) (agendaOf pool') := by
  have hIdle := emptyPool_idle clock
  have hClock := clock_le_of_step hStep
  cases moves_of_step hRun hIdle hStep with
  | quiet _ _ hJobs hTasks hLog _ _ =>
      have hWait : agendaOf pool' = { agendaOf pool with clock := pool'.shared.clock } := by
        refine agendaOf_eq rfl (fun pk => ?_) (fun pk => ?_) (fun pk => ?_) ?_
        · simp only [agendaOf, hJobs]
        · simp only [agendaOf, hTasks]
        · simp only [agendaOf, hTasks]
        · simp only [agendaOf, hLog]
      rw [hWait]
      exact .single (.wait _ _ (WithTop.coe_le_coe.mpr hClock))
  | performed pid request session scope act reply _ hSession hMay hExec hLog _ =>
      cases act with
      | createSchedule row => exact agenda_of_createSchedule hExec hLog
      | createTask row => exact agenda_of_createTask hRun hHeads hStep hSession hMay hExec hLog
      | updateTask pk newValues conditional =>
          exact agenda_of_updateTask hRun hSession hMay hExec hLog
      | startJob taskId jobName context =>
          exact .single (agenda_of_startJob hRun hHeads hStep hSession hMay hExec hLog)
      | _ => rw [agenda_same hExec hLog (fun _ h => by cases h) rfl (hExec.task_kept id)]

omit hRun in
/-- **Run lemma.**  The agenda of every state is reached by moves, and the task a call has
queued is the last of its schedule. -/
theorem agenda_of_run
    (hRun : Run (scheduler Backend.sql.reading) (timedRun Kind) (emptyPool clock) pool) :
    Agenda.Reachable (clock : WithTop Date) (agendaOf pool) ∧ HeadsQueue pool := by
  have hIdle := emptyPool_idle clock
  refine hRun.invariant (I := fun pool =>
    Agenda.Reachable (clock : WithTop Date) (agendaOf pool) ∧ HeadsQueue pool) ?_ ?_
  · refine ⟨by rw [agendaOf_emptyPool]; exact .refl, ?_⟩
    intro pid request session leaseId pk task hAtWork
    have hSession := hAtWork.session_eq
    rw [sessionOf_idle hIdle] at hSession
    cases hSession
  · rintro pool event pool' hBefore ⟨hReachable, hHeads⟩ hStep -
    exact ⟨hReachable.trans (agenda_of_step hBefore hHeads hStep),
      headsQueue_kept hBefore hReachable.sound hHeads hStep⟩

end Performed

end TernScheduler
