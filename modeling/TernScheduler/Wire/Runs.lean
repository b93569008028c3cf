import TernScheduler.Controller.LeasedWork
import TernScheduler.Wire.Events

/-!
# Runs of the wired system

A run of the wired system is a run of the scheduler in which every call was made
for a message, or by a client.  What a message tells is true when it is posted, and
stays true while it is in flight, because rows are never removed and keep the
columns they were created with.

* `Told` is what a message tells.
* `Raised` is what is known of a call when it is made.
* `WiredRun.projects` is the projection, and `raised_session` what it says of a call
  for the rest of the run.
-/

namespace TernScheduler

open Interleaving

/-- The row as it was created: the columns a task keeps for good, with the others as
a new task has them. -/
def TaskModel.asCreated (row : TaskModel) : TaskModel :=
  { row with
    state := .pending
    executionJobId := none
    executionQueued := none
    executionStarted := none
    executionFinished := none
    completedInfo := none }

@[simp] theorem TaskPatch.apply_asCreated (patch : TaskPatch) (row : TaskModel) :
    (patch.apply row).asCreated = row.asCreated := rfl

theorem TaskModel.schedule_of_asCreated {row row' : TaskModel}
    (h : row.asCreated = row'.asCreated) : row.schedule = row'.schedule :=
  show row.asCreated.schedule = row'.asCreated.schedule from congrArg _ h

theorem TaskModel.executeAt_of_asCreated {row row' : TaskModel}
    (h : row.asCreated = row'.asCreated) : row.executeAt = row'.executeAt :=
  show row.asCreated.executeAt = row'.asCreated.executeAt from congrArg _ h

/-- The task is stored as it was created. -/
def StoredTask (db : Database) (task : TaskModel) : Prop :=
  ∃ row, db.task task.pk = some row ∧ row.asCreated = task.asCreated

/-- The job is stored with this definition. -/
def StoredJob (db : Database) (schedule : ScheduledJobModel) : Prop :=
  ∃ row, db.job schedule.pk = some row ∧
    row.toNewScheduledJob = schedule.toNewScheduledJob

/-- The date passed the backend's `before-date` condition at a reading of the host's clock
no later than the given time. -/
def AcceptedBy (backend : Backend) (time : Date) (executeAt : JsDate) : Prop :=
  ∃ now ≤ time, ∃ date, executeAt = some date ∧ backend.reading now date = true

theorem AcceptedBy.mono {backend : Backend} {time later : Date} {executeAt : JsDate}
    (h : AcceptedBy backend time executeAt) (hLe : time ≤ later) :
    AcceptedBy backend later executeAt := by
  obtain ⟨now, hNow, hAccepted⟩ := h
  exact ⟨now, Int.le_trans hNow hLe, hAccepted⟩

/-- What a message tells, for the rest of the run. -/
def Told (backend : Backend) (db : Database) : WireEvent → Prop
  | .taskReadyToExecute task => StoredTask db task ∧ AcceptedBy backend db.clock task.executeAt
  | .scheduledJobLeaseExpired schedule => StoredJob db schedule
  | .taskQueuedLong task => StoredTask db task
  | .taskExecutingLong task => StoredTask db task
  | .jobExecutionFinished .. => True

/-! ## Messages tell the truth -/

section Posts

variable {backend : Backend} {db : Database} {order : List TaskModel}

theorem storedTask_of_listed (hLists : backend.Lists db.taskTable.rows order)
    {task : TaskModel} (hTask : task ∈ order) : StoredTask db task :=
  ⟨task, Database.task_of_mem (hLists.1.mem_iff.mp hTask), rfl⟩

theorem mem_of_mem_findBefore {key : TaskColumn} {before : JsDate} {state : TaskStateType}
    {limit : Nat} {task : TaskModel}
    (hTask : task ∈ backend.findBefore order limit key before state) : task ∈ order := by
  cases before with
  | none => cases hTask
  | some before => exact List.mem_of_mem_filter (List.mem_of_mem_take hTask)

/-- A row a poll for executable tasks answers with has a date that was accepted. -/
theorem accepted_of_mem_poll {now : Date} {limit : Nat} {task : TaskModel}
    (hTask : task ∈ pollExecutableTasks backend order now limit) :
    ∃ date, task.executeAt = some date ∧ backend.reading now date = true := by
  rw [show pollExecutableTasks backend order now limit =
    Poll.executable.answer backend order now limit from rfl, Poll.answer_eq_take rfl] at hTask
  obtain ⟨-, hAccepts⟩ := List.mem_filter.mp (List.mem_of_mem_take hTask)
  exact (of_decide_eq_true hAccepts).2

/-- What is posted is true. -/
theorem told_of_posts {message : WireMessage} (hPosts : (wiring backend).posts db message) :
    Told backend db message.event := by
  obtain ⟨node, event⟩ := message
  rcases hPosts with ⟨poll, host, hHost, now, jobs, tasks, hReads, hJobs, hTasks, hEvent⟩ |
    ⟨execId, result, hEvent⟩
  · cases poll with
    | scheduledJobsForExpiredLeases =>
        obtain ⟨job, hJob, rfl⟩ := List.mem_map.mp hEvent
        have hStored := hJobs.1.mem_iff.mp (List.mem_of_mem_filter (List.mem_of_mem_take hJob))
        exact ⟨job, Database.job_of_mem hStored, rfl⟩
    | taskReadyToExecute =>
        obtain ⟨task, hTask, rfl⟩ := List.mem_map.mp hEvent
        obtain rfl : now = host := hReads
        exact ⟨storedTask_of_listed hTasks (mem_of_mem_findBefore hTask), now, hHost,
          accepted_of_mem_poll hTask⟩
    | longQueuedTasks timeoutSeconds =>
        obtain ⟨task, hTask, rfl⟩ := List.mem_map.mp hEvent
        exact storedTask_of_listed hTasks (mem_of_mem_findBefore hTask)
    | longExecutingTasks timeoutSeconds =>
        obtain ⟨task, hTask, rfl⟩ := List.mem_map.mp hEvent
        exact storedTask_of_listed hTasks (mem_of_mem_findBefore hTask)
  · obtain rfl : event = .jobExecutionFinished execId result := hEvent
    trivial

end Posts

/-! ## What a step keeps -/

variable {backend : Backend} {reading : BeforeDateReading}
  {A : RunCondition signature Database Request Settled}
  {first pool pool' : SchedulerPool} {event : Event signature Database Request}

/-- Time does not go back. -/
theorem clock_le_of_step (hStep : Step (scheduler reading) pool event pool') :
    pool.shared.clock ≤ pool'.shared.clock := by
  cases hStep with
  | spawn => exact Int.le_refl _
  | run pid request op next reply after hProc hExec =>
      exact Int.le_of_eq (Database.Exec.clock hExec).symm
  | stop => exact Int.le_refl _
  | drift after hDrift =>
      obtain ⟨clock, hClock, rfl⟩ := hDrift
      exact hClock

/-- A row keeps the columns it was created with. -/
theorem Moves.asCreated_kept (hMoves : Moves reading pool event pool')
    {pk : PrimaryKeyType} {row : TaskModel} (hRow : pool.shared.task pk = some row) :
    ∃ row', pool'.shared.task pk = some row' ∧ row'.asCreated = row.asCreated := by
  cases hMoves with
  | quiet _ _ _ hTasks _ _ _ => exact ⟨row, (hTasks pk).trans hRow, rfl⟩
  | performed pid request session scope act reply _ hSession hMay hExec _ _ =>
      cases hMay.taskChange hExec with
      | kept hNone hTasks => exact ⟨row, (hTasks pk).trans hRow, rfl⟩
      | added new leaseId hScope hAdd hAbsent hTasks =>
          have hNe : pk ≠ new.pk := by
            rintro rfl
            rw [hAbsent] at hRow
            cases hRow
          exact ⟨row, by rw [hTasks, if_neg hNe, hRow], rfl⟩
      | moved task sched leaseId current target newValues count old _ _ _ _ hOld _ _ _ hTasks =>
          by_cases hPk : pk = task.pk
          · subst hPk
            obtain rfl : old = row := Option.some.inj (hOld.symm.trans hRow)
            exact ⟨newValues.apply old, by rw [hTasks, if_pos rfl], rfl⟩
          · exact ⟨row, by rw [hTasks, if_neg hPk, hRow], rfl⟩

theorem StoredTask.kept (hMoves : Moves reading pool event pool') {task : TaskModel}
    (hStored : StoredTask pool.shared task) : StoredTask pool'.shared task := by
  obtain ⟨row, hRow, hCreated⟩ := hStored
  obtain ⟨row', hRow', hKept⟩ := hMoves.asCreated_kept hRow
  exact ⟨row', hRow', hKept.trans hCreated⟩

theorem StoredJob.kept (hMoves : Moves reading pool event pool')
    {schedule : ScheduledJobModel} (hStored : StoredJob pool.shared schedule) :
    StoredJob pool'.shared schedule := by
  obtain ⟨row, hRow, hDefinition⟩ := hStored
  obtain ⟨row', hRow', hKept⟩ := hMoves.definition_kept hRow
  exact ⟨row', hRow', hKept.trans hDefinition⟩

/-- **Step lemma.**  What a message tells stays true. -/
theorem Told.kept (hMoves : Moves reading pool event pool')
    (hStep : Step (scheduler reading) pool event pool') {message : WireEvent}
    (hTold : Told backend pool.shared message) : Told backend pool'.shared message := by
  cases message with
  | taskReadyToExecute task =>
      exact ⟨hTold.1.kept hMoves, hTold.2.mono (clock_le_of_step hStep)⟩
  | scheduledJobLeaseExpired schedule => exact StoredJob.kept hMoves hTold
  | taskQueuedLong task => exact StoredTask.kept hMoves hTold
  | taskExecutingLong task => exact StoredTask.kept hMoves hTold
  | jobExecutionFinished execId result => trivial

/-! ## The projection -/

/-- What is known of a call: it was made at what the clock of its node could read, a task is
started for a message about it that was posted by then, and an expired lease repaired for one
about its job. -/
structure Raised (backend : Backend) (db : Database) (request : Request) : Prop where
  timed : ∃ host ≤ db.clock, request.node.currentTimeUTC host request.now ∧
    ∀ task, request.call = .startTask task → AcceptedBy backend host task.executeAt
  stored : ∀ task, request.call = .startTask task → StoredTask db task
  repaired : ∀ schedule, request.call = .repairExpiredSchedule schedule →
    StoredJob db schedule

/-- Every call is made as the wiring makes it. -/
def raisedByWire (backend : Backend) : RunCondition signature Database Request Settled :=
  fun pool event _ => ∀ request ∈ event.request, Raised backend pool.shared request

/-- A call that is started for what a message tells, or by a client. -/
theorem raised_of_starts {db : Database} {request : Request}
    (hStarts : (wiring backend).Starts (fun db message => Told backend db message.event)
      db request) : Raised backend db request := by
  rcases hStarts with ⟨⟨node, told⟩, hTold, call, now, hCall, hReads, rfl⟩ | ⟨hReads, hClient⟩
  · refine ⟨⟨db.clock, Int.le_refl _, hReads, fun task hTask => ?_⟩, fun task hTask => ?_,
      fun schedule hRepair => ?_⟩
    all_goals
      cases told <;> cases hCall <;> first | cases hTask | cases hRepair
    · exact hTold.2
    · exact hTold.1
    · exact hTold
  · refine ⟨⟨db.clock, Int.le_refl _, hReads, fun task hTask => ?_⟩, fun task hTask => ?_,
      fun schedule hRepair => ?_⟩
    · rw [hTask] at hClient
      exact hClient.elim
    · rw [hTask] at hClient
      exact hClient.elim
    · rw [hRepair] at hClient
      exact hClient.elim

/-- **A wired run is a run of the scheduler** in which every call is made as the
wiring makes it. -/
theorem WiredRun.projects {clock : Date} {wired : Wired}
    (hRun : WiredRun backend A (Wired.start clock) wired) :
    Run (scheduler backend.reading) (A.and (raisedByWire backend)) (emptyPool clock)
      wired.pool := by
  have hProjected := MailRun.projects (J := fun db message => Told backend db message.event)
    hRun (fun _ hNone => absurd hNone List.not_mem_nil) (fun _ _ => told_of_posts)
    fun pool event pool' message hBefore hStep hTold =>
      have hEvent : Told backend pool.shared message.event := hTold
      hEvent.kept (moves_of_step hBefore (emptyPool_idle clock) hStep) hStep
  refine hProjected.1.mono fun pool event pool' hBoth => ⟨hBoth.1, fun request hRequest => ?_⟩
  exact raised_of_starts (hBoth.2 request hRequest)

/-- A call stays as it was made. -/
theorem Raised.kept (hMoves : Moves reading pool event pool')
    (hStep : Step (scheduler reading) pool event pool') {request : Request}
    (hRaised : Raised backend pool.shared request) : Raised backend pool'.shared request where
  timed := by
    obtain ⟨host, hHost, hTimed⟩ := hRaised.timed
    exact ⟨host, Int.le_trans hHost (clock_le_of_step hStep), hTimed⟩
  stored task hTask := (hRaised.stored task hTask).kept hMoves
  repaired schedule hRepair := (hRaised.repaired schedule hRepair).kept hMoves

/-- **Run lemma.**  In every state of a run, every call is known to have been made as
the wiring makes it. -/
theorem raised_session (hRun : Run (scheduler reading) A first pool) (hIdle : first.Idle)
    (hWire : ∀ pool event pool', A pool event pool' → raisedByWire backend pool event pool') :
    ∀ pid request session, sessionOf pool pid = some (request, session) →
      Raised backend pool.shared request := by
  refine hRun.invariant (I := fun pool => ∀ pid request session,
    sessionOf pool pid = some (request, session) → Raised backend pool.shared request) ?_ ?_
  · intro pid request session hSession
    rw [sessionOf_idle hIdle] at hSession
    cases hSession
  · intro pool event pool' hBefore hAll hStep hA pid request session hSession
    have hMoves := moves_of_step hBefore hIdle hStep
    have hKept : ∀ {request}, Raised backend pool.shared request →
        Raised backend pool'.shared request := fun hRaised => hRaised.kept hMoves hStep
    cases hMoves with
    | quiet _ _ _ _ _ _ hNew =>
        rcases hNew pid request session hSession with hOld | ⟨hSpawned, -⟩
        · exact hKept (hAll pid request session hOld)
        · exact hKept (hWire _ _ _ hA request (by rw [hSpawned]; rfl))
    | performed actor actorRequest before scope act reply _ hActor _ _ _ hSessions =>
        rw [hSessions] at hSession
        split at hSession
        · cases hSession
          exact hKept (hAll actor _ before hActor)
        · exact hKept (hAll pid request session hSession)

/-- Tasks are started as they are stored. -/
theorem startsStoredTasks_of_raised (hWire : raisedByWire backend pool event pool') :
    startsStoredTasks pool event pool' := by
  intro request hRequest task hTask
  have hRaised := hWire request hRequest
  obtain ⟨node, now, call⟩ := request
  cases call with
  | startTask started =>
      cases hTask
      obtain ⟨row, hRow, hCreated⟩ := hRaised.stored task rfl
      exact ⟨row, hRow, TaskModel.schedule_of_asCreated hCreated⟩
  | _ => cases hTask

end TernScheduler
