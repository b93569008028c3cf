import TernScheduler.Controller.TaskWork
import TernScheduler.Properties.DisableRequests

/-!
# Retries that are not counted

The `retryIndex` of a task is documented as the number of the retry it stands for, and a
task that is retried as moved to `fail-restarted`.

* `RetryAsked` and `RetryHonoured` are a retry that a strategy asks for and what should
  come of it, read off the record of a call.
* `Act.Uncounted` is the reason why nothing does: every call that adds a task adds one of
  index zero, and none moves a task to `fail-restarted`.
* `retries_never_counted` says so of every call, and of all tasks in every run.
-/

namespace TernScheduler

open Interleaving Database

/-! ## Retries -/

/-- The task an operation added, if it added one. -/
def addedTask : Exchange signature → Option TaskModel
  | ⟨⟨_, .createTask row⟩, .ok _⟩ => some row
  | _ => none

/-- The only task an operation found, if it found one. -/
def foundTask : Exchange signature → Option TaskModel
  | ⟨⟨_, .findTasks ..⟩, .ok [task]⟩ => some task
  | _ => none

/-- What the retry strategy of the job answers for the task, when the operation read the row
of the job. -/
def retryAnswerOf (node : Node) (task : TaskModel) (failureReason : String) :
    Exchange signature → Option (Option JsNumber)
  | ⟨⟨_, .findSchedules ..⟩, .ok (sched :: _)⟩ => node.retryAnswer sched task failureReason
  | _ => none

/-- The task was found first, and recorded as failed, and the retry strategy answers a number
of seconds for it. -/
structure RetryAsked (node : Node) (failureReason : String) (task : TaskModel) (seconds : Int)
    (record : List (Exchange signature)) : Prop where
  found : record.head?.bind foundTask = some task
  failed : ∃ exchange ∈ record,
    movesTask task.pk [.failed, .completeError, .failRestarted] exchange = true
  answered : ∃ exchange ∈ record,
    retryAnswerOf node task failureReason exchange = some (some (some seconds))

/-- One pending task is added for the schedule, at its time and with the next index. -/
def RetryAdded (task : TaskModel) (executeAt : Date) (record : List (Exchange signature)) : Prop :=
  ∃ row, record.filterMap addedTask = [row] ∧ row.state = .pending ∧
    row.schedule = task.schedule ∧ row.executeAt = some executeAt ∧
    row.retryIndex = task.retryIndex + 1

/-- The failed task is recorded as restarted. -/
def RetryRestarted (task : TaskModel) (record : List (Exchange signature)) : Prop :=
  ∃ exchange ∈ record, movesTask task.pk [.failRestarted] exchange = true

/-- A retry is honoured and counted: the new task and the mark of the old one. -/
structure RetryHonoured (task : TaskModel) (executeAt : Date) (record : List (Exchange signature)) :
    Prop where
  added : RetryAdded task executeAt record
  restarted : RetryRestarted task record

/-- The call adds no task with an index, and moves no task to `fail-restarted`. -/
def Act.Uncounted : Act → Prop
  | .createTask row => row.retryIndex = 0
  | .updateTask _ newValues _ => newValues.state ≠ some .failRestarted
  | _ => True

/-- **No call counts a retry.** -/
theorem allowsCalls_uncounted : AllowsCalls Act.Uncounted where
  other act hOther := by
    cases act with
    | createTask row => exact absurd trivial hOther
    | updateTask pk newValues conditional => exact absurd trivial hOther
    | _ => trivial
  move _ _ _ _ hState := fun hSame => hState (Option.some.inj hSame)
  create _ _ _ _ := rfl

section Record

variable {task : TaskModel} {executeAt : Date} {record : List (Exchange signature)}

/-- A task that is added without counting has the index zero. -/
theorem not_added_of_uncounted (hUncounted : ∀ exchange ∈ record, exchange.1.act.Uncounted) :
    ¬ RetryAdded task executeAt record := by
  rintro ⟨row, hAdded, -, -, -, hIndex⟩
  obtain ⟨⟨⟨scope, act⟩, reply⟩, hMem, hRow⟩ := List.mem_filterMap.mp
    (hAdded ▸ List.mem_singleton_self row : row ∈ record.filterMap addedTask)
  cases act with
  | createTask given =>
      cases reply with
      | ok done =>
          obtain rfl := Option.some.inj hRow
          have hZero : given.retryIndex = 0 := hUncounted _ hMem
          omega
      | error reason => cases hRow
  | _ => cases hRow

/-- A move to `fail-restarted` is a move that counts. -/
theorem not_restarted_of_uncounted (hUncounted : ∀ exchange ∈ record, exchange.1.act.Uncounted) :
    ¬ RetryRestarted task record := by
  rintro ⟨⟨⟨scope, act⟩, reply⟩, hMem, hMoves⟩
  cases act with
  | updateTask pk newValues conditional =>
      rcases reply with reason | _ | count
      · cases hMoves
      · cases hMoves
      · obtain ⟨-, hState⟩ := of_decide_eq_true hMoves
        exact hUncounted _ hMem (List.mem_singleton.mp hState)
  | _ => cases hMoves

end Record

/-! ## Runs -/

/-- A step that does not count keeps the indexes of the tasks. -/
theorem index_of_taskEffect {reading : BeforeDateReading} {db after : Database} {act : Act}
    {reply : act.Reply} (hEffect : TaskEffect reading db act reply after)
    (hUncounted : act.Uncounted)
    (hBefore : ∀ pk row, db.task pk = some row → row.retryIndex = 0) :
    ∀ pk row, after.task pk = some row → row.retryIndex = 0 := by
  intro pk row hRow
  cases hEffect with
  | kept hNone hTasks => exact hBefore pk row ((hTasks pk).symm.trans hRow)
  | created new hAbsent hTasks =>
      rw [hTasks] at hRow
      split at hRow
      · -- Nothing but a new task sets an index.
        obtain rfl := Option.some.inj hRow
        exact hUncounted
      · exact hBefore pk row hRow
  | updated target newValues conditional count old hOld hHolds hTasks =>
      rw [hTasks] at hRow
      split at hRow
      · -- A patch has no index.
        obtain rfl := Option.some.inj hRow
        exact hBefore target old hOld
      · exact hBefore pk row hRow

/-- In every run the index of every task stays zero. -/
theorem index_of_run {reading : BeforeDateReading}
    {A : RunCondition signature Database Request Settled} {first pool : SchedulerPool}
    (hRun : Run (scheduler reading) A first pool) (hIdle : first.Idle)
    (hFirst : ∀ pk row, first.shared.task pk = some row → row.retryIndex = 0) :
    ∀ pk row, pool.shared.task pk = some row → row.retryIndex = 0 := by
  refine hRun.invariant (I := fun pool : SchedulerPool => ∀ pk row,
    pool.shared.task pk = some row → row.retryIndex = 0) hFirst ?_
  intro pool event pool' hBefore hIndex hStep _
  have hUses : ∀ entry, event = .ran entry → entry.op.act.Uncounted := by
    rintro entry rfl
    exact hBefore.uses_of_step allowsCalls_uncounted.uses_program hIdle hStep
  cases hStep with
  | run pid request op next reply after hProc hExec =>
      exact index_of_taskEffect (Exec.taskEffect hExec) (hUses _ rfl) hIndex
  | drift after hDrift =>
      obtain ⟨clock, -, rfl⟩ := hDrift
      exact hIndex
  | spawn request => exact hIndex
  | stop pid proc hProc => exact hIndex

/-- **Retries are never honoured, and never counted**: no call does any of the two things a
retry asks for, whatever it meets, and no run of any calls stores a task with an index that a
strategy could count by. -/
theorem retries_never_counted (around : Surroundings) (node : Node)
    (execJobId : ExecutionJobId) (result : JobExecutionState) (now : Date) (db : Database) :
    Prog.Ensures (around.calls none)
      (fun after _ => ∀ failureReason task seconds,
        RetryAsked node failureReason task seconds after.record →
          ¬ RetryAdded task (now + 1000 * seconds) after.record ∧
            ¬ RetryRestarted task after.record)
      ⟨db, []⟩ (taskFinished node execJobId result now) ∧
    ∀ (reading : BeforeDateReading) (clock : Date) (pool : SchedulerPool),
      Run (scheduler reading) anySchedule (emptyPool clock) pool →
        ∀ pk row, pool.shared.task pk = some row → row.retryIndex = 0 := by
  constructor
  · refine Prog.Sat.mono (ensures_recorded allowsCalls_uncounted.uses_taskFinished ⟨db, []⟩) ?_
    rintro after settled ⟨done, hRecord, hUncounted⟩ failureReason task seconds -
    rw [hRecord]
    exact ⟨not_added_of_uncounted hUncounted, not_restarted_of_uncounted hUncounted⟩
  · intro reading clock pool hRun
    refine index_of_run hRun (emptyPool_idle clock) fun pk row hRow => ?_
    cases hRow

/-- The first task of a new schedule, and its index. -/
theorem retries_never_counted_create :
    ∃ (pool : SchedulerPool) (row : TaskModel), pool.shared.task "task" = some row ∧
      row.retryIndex = 0 := by
  have hDriven : ((driver strictlyBefore).drive (fun _ _ _ => true) (createSample sampleStart)
      (emptyPool 0)).any (fun pool => (pool.shared.task "task").isSome) = true := by
    decide +kernel
  obtain ⟨pool, hRun, hTask⟩ := Driver.exists_run_of_drive (A := anySchedule)
    (fun _ _ _ _ => trivial) hDriven
  obtain ⟨row, hRow⟩ := Option.isSome_iff_exists.mp hTask
  have hCounted := retries_never_counted (undisturbedLease strictlyBefore "")
    (sampleNode sampleStart []) "" (.running "") 0 (.empty 0)
  exact ⟨pool, row, hRow, hCounted.2 strictlyBefore 0 pool hRun "task" row hRow⟩

/-! ## Two retries where one is allowed -/

/-- A node that allows one retry, after five seconds. -/
def onceRetryingNode : Node :=
  { sampleNode (.new fun now _ => .ok (some now)) [] with
    retryReg := fun _ => some fun _ task _ =>
      .ok (if 1 ≤ task.retryIndex then none else some (some 5)) }

/-- A task of the sample job that is running. -/
def runningTask : TaskModel :=
  { sampleTask with state := .started, executionJobId := some "first" }

/-- The sample job and its running task. -/
def sampleFailure : Seen := ⟨(samplePool false runningTask).shared, []⟩

/-- The task fails, its retry is started, and fails as well. -/
def twoFailures : Js Unit := do
  taskFinished onceRetryingNode "first" (.failed "first" none) 0
  startTask onceRetryingNode (pendingTask "retry" "job" 0 (some 5000)) 0
  taskFinished onceRetryingNode "second" (.failed "second" none) 0

/-- Each new task is given a key of its own. -/
def answersTwice (seen : Seen) : Answers :=
  { primaryKey := if (seen.record.filterMap addedTask).isEmpty then "retry" else "again"
    job := .ok (.running "second") }

instance (node : Node) (failureReason : String) (task : TaskModel) (seconds : Int)
    (record : List (Exchange signature)) :
    Decidable (RetryAsked node failureReason task seconds record) :=
  decidable_of_iff (record.head?.bind foundTask = some task ∧
    (∃ exchange ∈ record,
      movesTask task.pk [.failed, .completeError, .failRestarted] exchange = true) ∧
    ∃ exchange ∈ record,
      retryAnswerOf node task failureReason exchange = some (some (some seconds)))
    ⟨fun h => ⟨h.1, h.2.1, h.2.2⟩, fun h => ⟨h.found, h.failed, h.answered⟩⟩

/-- The retry of a failed task is not honoured, and a strategy that allows one retry gets
two. -/
theorem retry_not_honoured :
    ¬ Prog.Ensures ((undisturbedLease strictlyBefore "").calls none)
        (fun after _ => RetryAsked onceRetryingNode "" runningTask 5 after.record →
          RetryHonoured runningTask 5000 after.record)
        sampleFailure (taskFinished onceRetryingNode "first" (.failed "first" none) 0) ∧
      ¬ Prog.Ensures ((undisturbedLease strictlyBefore "").calls none)
        (fun after _ => (after.record.filterMap addedTask).length ≤ 1)
        sampleFailure twoFailures := by
  constructor
  · intro hHonoured
    have hRun : ((taskFinished onceRetryingNode "first" (.failed "first" none) 0).run
        ((undisturbedLease strictlyBefore "").respond none answersTwice) sampleFailure).any
          (fun last => RetryAsked onceRetryingNode "" runningTask 5 last.1.record ∧
            ∀ row ∈ last.1.record.filterMap addedTask, row.retryIndex = 0) = true := by
      decide +kernel
    obtain ⟨last, hLast, hCheck⟩ := (Option.any_eq_true _ _).mp hRun
    obtain ⟨hAsked, hZero⟩ := of_decide_eq_true hCheck
    obtain ⟨row, hAdded, -, -, -, hIndex⟩ := (Surroundings.ensures_respond
      (undisturbedLease_idle strictlyBefore "") hHonoured _ last hLast hAsked).added
    have hRow := hZero row (hAdded ▸ List.mem_singleton_self row)
    omega
  · -- The strategy is asked twice about a task whose index is zero.
    intro hBounded
    have hRun : (twoFailures.run ((undisturbedLease strictlyBefore "").respond none answersTwice)
        sampleFailure).any (fun last => (last.1.record.filterMap addedTask).length = 2) = true := by
      decide +kernel
    obtain ⟨last, hLast, hCheck⟩ := (Option.any_eq_true _ _).mp hRun
    have hLength : (last.1.record.filterMap addedTask).length = 2 := of_decide_eq_true hCheck
    have hMost := Surroundings.ensures_respond (undisturbedLease_idle strictlyBefore "")
      hBounded _ last hLast
    omega

end TernScheduler
