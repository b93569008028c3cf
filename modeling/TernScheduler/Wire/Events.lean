import TernScheduler.Datastore.Polling
import TernScheduler.Library.Mailbox
import TernScheduler.System

/-!
# The wiring of a node

`wire/`: background polls turn rows of the database into messages, and the
listeners of `wireDataStore` turn messages into calls of the controller.  The
client API of `basics.ts` makes the other two calls itself.

* A poll reads a clock, asks the database, and emits one message for each row of
  the answer.  It may have read the clock long before the database answers.
* A listener and a client read the clock of the configuration when they are called,
  as does the poll for expired leases; the polls for tasks read the clock of the host.
* The job framework may emit a completion notice at any time, to any number of
  nodes, and more than once.
-/

namespace TernScheduler

open Interleaving

/-- The messages that the polls and the job framework emit. -/
inductive WireEvent
  | scheduledJobLeaseExpired (schedule : ScheduledJobModel)
  | taskReadyToExecute (task : TaskModel)
  | taskQueuedLong (task : TaskModel)
  | taskExecutingLong (task : TaskModel)
  | jobExecutionFinished (execId : ExecutionJobId) (result : JobExecutionState)

/-- `wireDataStore`: the call a listener makes.  The listeners for tasks that take
long only write to the log. -/
def wireDataStore : WireEvent → Option Call
  | .scheduledJobLeaseExpired schedule => some (.repairExpiredSchedule schedule)
  | .taskReadyToExecute task => some (.startTask task)
  | .taskQueuedLong _ => none
  | .taskExecutingLong _ => none
  | .jobExecutionFinished execId result => some (.taskFinished execId result)

/-! ## Background polls -/

/-- `POLL_TASKS_LIMIT`. -/
def pollTasksLimit : Nat := 10

/-- `POLL_JOBS_LIMIT`. -/
def pollJobsLimit : Nat := 10

/-- `pollLeaseExpiredScheduledJobs`, on the rows in the order the backend has them. -/
def pollLeaseExpiredScheduledJobs (backend : Backend) (rows : List ScheduledJobDataModel)
    (now : Date) (limit : Nat) : List ScheduledJobDataModel :=
  (rows.filter fun row =>
    (Conditional.beforeDate .leaseExpires now).holds backend.reading row.column).take limit

/-- The polls of `poll-schedule.ts` and `poll-task.ts`. -/
inductive BackgroundPoll
  | scheduledJobsForExpiredLeases
  | taskReadyToExecute
  | longQueuedTasks (timeoutSeconds : Int)
  | longExecutingTasks (timeoutSeconds : Int)

/-- The clock a poll reads. -/
def BackgroundPoll.clock (node : Node) : BackgroundPoll → CurrentTimeUTCStrategy
  | scheduledJobsForExpiredLeases => node.currentTimeUTC
  | taskReadyToExecute | longQueuedTasks _ | longExecutingTasks _ => standardTime

/-- The messages a poll emits, one for each row the database answers with. -/
def BackgroundPoll.events (zone : TimeZone) (backend : Backend)
    (jobs : List ScheduledJobDataModel) (tasks : List TaskModel) (now : Date) :
    BackgroundPoll → List WireEvent
  | scheduledJobsForExpiredLeases =>
      (pollLeaseExpiredScheduledJobs backend jobs now pollJobsLimit).map fun job =>
        .scheduledJobLeaseExpired job.toScheduledJobModel
  | taskReadyToExecute =>
      (pollExecutableTasks backend tasks now pollTasksLimit).map .taskReadyToExecute
  | longQueuedTasks timeoutSeconds =>
      (pollLongQueuedTasks zone backend tasks now timeoutSeconds pollTasksLimit).map
        .taskQueuedLong
  | longExecutingTasks timeoutSeconds =>
      (pollLongExecutingTasks zone backend tasks now timeoutSeconds pollTasksLimit).map
        .taskExecutingLong

/-- The orders in which a backend may list its rows: the memory table in the order
of insertion, an SQL server in any order. -/
def Backend.Lists {α : Type} (backend : Backend) (rows listed : List α) : Prop :=
  listed.Perm rows ∧ (backend = .memory → listed = rows)

/-! ## The wired system -/

/-- A message, and the node whose listeners it reaches. -/
structure WireMessage where
  node : Node
  event : WireEvent

/-- The calls `TernClient` makes. -/
def Call.OfClient : Call → Prop
  | .createScheduledJob _ | .disableSchedule .. => True
  | .startTask _ | .taskFinished .. | .repairExpiredSchedule _ => False

/-- The nodes over one database: what their polls and the job framework emit, what
their listeners do, and what their clients ask. -/
def wiring (backend : Backend) : Mailing Database Request WireMessage where
  posts db message :=
    (∃ poll : BackgroundPoll, ∃ host ≤ db.clock, ∃ now jobs tasks,
      poll.clock message.node host now ∧ backend.Lists db.scheduledJobTable.rows jobs ∧
        backend.Lists db.taskTable.rows tasks ∧
          message.event ∈ poll.events message.node.zone backend jobs tasks now) ∨
      ∃ execId result, message.event = .jobExecutionFinished execId result
  handler db message request :=
    ∃ call now, wireDataStore message.event = some call ∧
      message.node.currentTimeUTC db.clock now ∧ request = ⟨message.node, now, call⟩
  asks db request :=
    request.node.currentTimeUTC db.clock request.now ∧ request.call.OfClient

/-- A state of the wired system. -/
abbrev Wired := Mailed signature Database Request Settled WireMessage

/-- No rows, no calls and no messages. -/
def Wired.start (clock : Date) : Wired := ⟨emptyPool clock, []⟩

/-- A run of the wired system. -/
abbrev WiredRun (backend : Backend) (A : RunCondition signature Database Request Settled) :
    Wired → Wired → Prop :=
  MailRun (scheduler backend.reading) (wiring backend) A

/-! ## Concrete runs -/

/-- What is chosen in a concrete run: a poll, the row of its answer that is emitted, a
notice of the job framework, or a call of a client. -/
inductive WireChoice
  | poll (poll : BackgroundPoll) (row : Nat)
  | notice (execId : ExecutionJobId) (result : JobExecutionState)
  | create (schedule : NewScheduledJob)
  | disable (schedule : ScheduledJobModel) (reason : Option String)

/-- The driver of the wired system of one node, with the clock of its host.  Polls read
the clock when they are answered, and rows are listed in the order of insertion. -/
def wireDriver (backend : Backend) (node : Node) :
    MailDriver (scheduler backend.reading) WireMessage Answers WireChoice where
  toDriver := driver backend.reading
  posting choice db :=
    match choice with
    | .poll poll row =>
        (poll.events node.zone backend db.scheduledJobTable.rows db.taskTable.rows
          db.clock)[row]?.map fun event => ⟨node, event⟩
    | .notice execId result => some ⟨node, .jobExecutionFinished execId result⟩
    | _ => none
  handling db message :=
    (wireDataStore message.event).map fun call => ⟨node, db.clock, call⟩
  asking choice db :=
    match choice with
    | .create schedule => some ⟨node, db.clock, .createScheduledJob schedule⟩
    | .disable schedule reason => some ⟨node, db.clock, .disableSchedule schedule reason⟩
    | _ => none

theorem wireDriver_follows (backend : Backend) {node : Node}
    (hClock : node.currentTimeUTC = standardTime) :
    (wireDriver backend node).Follows (wiring backend) (fun message => message.node = node)
      fun request => request.node = node where
  posting choice db message h := by
    cases choice with
    | poll poll row =>
        obtain ⟨event, hEvent, rfl⟩ := Option.map_eq_some_iff.mp h
        have hReads : poll.clock node db.clock db.clock := by
          cases poll <;> simp [BackgroundPoll.clock, hClock, standardTime]
        exact ⟨Or.inl ⟨poll, db.clock, Int.le_refl _, db.clock, _, _, hReads,
          ⟨.rfl, fun _ => rfl⟩, ⟨.rfl, fun _ => rfl⟩, List.mem_of_getElem? hEvent⟩, rfl⟩
    | notice execId result =>
        cases h
        exact ⟨Or.inr ⟨execId, result, rfl⟩, rfl⟩
    | create => cases h
    | disable => cases h
  handling db message request hNode h := by
    obtain ⟨call, hCall, rfl⟩ := Option.map_eq_some_iff.mp h
    exact ⟨⟨call, db.clock, hCall, by rw [hNode, hClock]; rfl, by rw [hNode]⟩, rfl⟩
  asking choice db request h := by
    have hReads : node.currentTimeUTC db.clock db.clock := by rw [hClock]; rfl
    cases choice <;> cases h <;> exact ⟨⟨hReads, trivial⟩, rfl⟩

/-- A node performs its next operations, all answered alike. -/
def wiredTurns (pid count : Nat) (answers : Answers) :
    List (MailTurn Request Answers WireChoice) :=
  (turns pid count answers).map .move

/-- The time comes; a poll finds the due task, and it is launched and completes at once. -/
def wiredLaunch (pid : Nat) (time : Date) (leaseId : LeaseIdType) (next : PrimaryKeyType) :
    List (MailTurn Request Answers WireChoice) :=
  .move (.drift { time := time }) :: .post (.poll .taskReadyToExecute 0) :: .handle 0 ::
    wiredTurns pid 16
      { leaseId := leaseId, primaryKey := next, job := .ok (.completed "" none) }

/-- A client creates a job, and its first two tasks are launched in turn. -/
def wiredLaunches (schedule : NewScheduledJob) (first second : Date) :
    List (MailTurn Request Answers WireChoice) :=
  .ask (.create schedule) :: .move (.run 0 { leaseId := "create" }) ::
    .move (.run 0 { primaryKey := "job" }) :: wiredTurns 0 5 { primaryKey := "first" } ++
      wiredLaunch 1 first "launch" "second" ++ wiredLaunch 2 second "relaunch" "third"

/-- A run of one node, driven. -/
theorem exists_wiredRun {backend : Backend} {node : Node}
    (hClock : node.currentTimeUTC = standardTime)
    {A : RunCondition signature Database Request Settled}
    {check : SchedulerPool → Event signature Database Request → SchedulerPool → Bool}
    (hCheck : ∀ pool event pool', check pool event pool' = true →
      (∀ request ∈ event.request, request.node = node) → A pool event pool')
    {test : Wired → Bool} {turns : List (MailTurn Request Answers WireChoice)} {clock : Date}
    (hDriven : ((wireDriver backend node).driveMail check turns (Wired.start clock)).any test =
      true) :
    ∃ wired, WiredRun backend A (Wired.start clock) wired ∧ test wired = true :=
  MailDriver.exists_run_of_driveMail hCheck (wireDriver_follows backend hClock)
    (fun message hMessage => by cases hMessage) hDriven

end TernScheduler
