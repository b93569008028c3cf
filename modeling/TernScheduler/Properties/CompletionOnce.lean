import TernScheduler.Controller.CourseRuns
import TernScheduler.Controller.Leases

/-!
# Completion takes effect at most once

Any number of completion notices may report one job, with equal or conflicting
results, and each reads the task before it holds the lease.  The update that finishes
the task expects it started, so it is applied for one notice only; a follow-up task
and a request for pasture come after that update.

* `task_of_notices` says that the notices about one job id work on one task.
* `completion_once` is the law, over every run.
-/

namespace TernScheduler

open Interleaving Database

/-- The call reports the end of the job with the given id. -/
def Call.reports (jobId : ExecutionJobId) : Call → Bool
  | .taskFinished execJobId _ => execJobId = jobId
  | _ => false

/-- The operation was performed by a completion notice about the given job id. -/
def reportedBy (pool : SchedulerPool) (jobId : ExecutionJobId) (entry : SchedulerEntry) :
    Bool :=
  (pool.procs[entry.pid]?).any fun proc => proc.request.call.reports jobId

/-- The operation changed a task row. -/
def changesTask (entry : SchedulerEntry) : Bool :=
  (entry.op.act.changedTask entry.reply).isSome

/-- The notices about one job id take effect once: one of them at most changes a task,
a task is added and pasture asked for only after such a change by the same call, and
they add one task at most. -/
structure CompletesOnce (pool : SchedulerPool) (jobId : ExecutionJobId) : Prop where
  changes : ∀ entry ∈ pool.log, ∀ other ∈ pool.log,
    reportedBy pool jobId entry = true → reportedBy pool jobId other = true →
    changesTask entry = true → changesTask other = true → entry.pid = other.pid
  follows : ∀ later entry earlier, pool.log = later ++ entry :: earlier →
    reportedBy pool jobId entry = true →
    entry.op.act.addsTask = true ∨ entry.op.act.asksPasture = true →
    ∃ change ∈ earlier, change.pid = entry.pid ∧ changesTask change = true
  adds : (pool.log.filter fun entry =>
    reportedBy pool jobId entry && entry.op.act.addsTask).length ≤ 1

variable {reading : BeforeDateReading}
  {A : RunCondition signature Database Request Settled} {clock : Date}
  {first pool pool' : SchedulerPool} {event : Event signature Database Request}
  {jobId : ExecutionJobId}

/-! ## The task of the notices -/

/-- A task keeps its job id. -/
theorem Moves.sameJobId (hMoves : Moves reading pool event pool')
    (hStarted : JobIdsStarted pool.shared) {pk : PrimaryKeyType}
    (hRow : ∃ row, pool.shared.task pk = some row ∧ row.executionJobId = some jobId) :
    ∃ row, pool'.shared.task pk = some row ∧ row.executionJobId = some jobId := by
  obtain ⟨row, hRow, hJobId⟩ := hRow
  cases hMoves with
  | quiet _ _ _ hTasks _ _ _ => exact ⟨row, (hTasks pk).trans hRow, hJobId⟩
  | performed pid request session scope act reply _ _ hMay hExec _ _ =>
      cases hMay.taskChange hExec with
      | kept hNone hTasks => exact ⟨row, (hTasks pk).trans hRow, hJobId⟩
      | added new leaseId hScope hAdd hAbsent hTasks =>
          have hNe : pk ≠ new.pk := by
            rintro rfl
            rw [hAbsent] at hRow
            cases hRow
          exact ⟨row, by rw [hTasks, if_neg hNe, hRow], hJobId⟩
      | moved task sched leaseId old new newValues count target _ _ _ _ hTarget hOld _
          hMove hTasks =>
          -- only a task that is started is given a job id
          by_cases hPk : pk = task.pk
          · subst hPk
            obtain rfl : target = row := Option.some.inj (hTarget.symm.trans hRow)
            refine ⟨newValues.apply target, by rw [hTasks, if_pos rfl], ?_⟩
            rcases hMove.jobId with ⟨hKept, -⟩ | ⟨-, rfl⟩
            · simpa [TaskPatch.apply, hKept] using hJobId
            · -- A task that has a job id was started, and is not started again.
              have hRank := hMove.rank_lt
              rw [← hOld] at hRank
              rcases hStarted task.pk target hTarget (by simp [hJobId]) with h | h | h <;>
                · rw [h] at hRank
                  exact absurd hRank (by decide)
          · exact ⟨row, by rw [hTasks, if_neg hPk, hRow], hJobId⟩

/-- A notice learns of its task by looking its job id up: the task carries the job id,
and no other task does. -/
theorem May.notice_task_next {request : Request} {session : Session} {scope : Scope}
    {act : Act} {reply : act.Reply} {db after : Database} {result : JobExecutionState}
    {task : TaskModel} (hMay : May request session ⟨scope, act⟩)
    (hExec : Exec reading db act reply after)
    (hCall : request.call = .taskFinished jobId result)
    (hTask : (session.next act reply).task = some task) :
    session.task = some task ∨
      db.task task.pk = some task ∧ task.executionJobId = some jobId ∧
        ∀ pk row, db.task pk = some row → row.executionJobId = some jobId → row = task := by
  have hChange := session.change act reply
  generalize session.next act reply = next at hChange hTask
  cases hChange with
  | found start limit conditional row hJob =>
      obtain rfl : row = task := Option.some.inj hTask
      obtain ⟨rfl, hLookup⟩ := hMay.2
      obtain ⟨rfl, execJobId, otherResult, hOther, rfl⟩ := hLookup hJob
      rw [hCall] at hOther
      cases hOther
      obtain ⟨hStored, hHolds⟩ := hExec.findTasks.1 row List.mem_cons_self
      refine Or.inr ⟨hStored, (holds_jobIdEquals jobId).mp hHolds, ?_⟩
      intro pk other hOther hSame
      exact hExec.findTasks_single pk other hOther ((holds_jobIdEquals jobId).mpr hSame)
  | _ => exact Or.inl hTask

/-- The notices about one job id have found one task, if any, and it still carries that
job id. -/
def NoticesOn (pool : SchedulerPool) (jobId : ExecutionJobId) (pk : PrimaryKeyType) : Prop :=
  ∀ pid request session result task, sessionOf pool pid = some (request, session) →
    request.call = .taskFinished jobId result → session.task = some task →
    task.pk = pk ∧ ∃ row, pool.shared.task pk = some row ∧ row.executionJobId = some jobId

/-- **One task for the notices.**  All notices about a job id work on the same task. -/
theorem task_of_notices (hRun : Run (scheduler reading) A (emptyPool clock) pool)
    (jobId : ExecutionJobId) :
    JobIdsStarted pool.shared ∧ ∃ pk, NoticesOn pool jobId pk := by
  have hIdle := emptyPool_idle clock
  refine invariant_of_moves (I := fun pool => JobIdsStarted pool.shared ∧
    ∃ pk, NoticesOn pool jobId pk) hRun hIdle ?_ ?_
  · constructor
    · intro pk row hRow
      cases hRow
    · refine ⟨"", fun pid request session result task hSession => ?_⟩
      rw [sessionOf_idle hIdle] at hSession
      cases hSession
  · rintro pool event pool' - ⟨hStarted, pk, hOn⟩ hMoves -
    refine ⟨jobIdsStarted_of_moves hMoves hStarted, ?_⟩
    have hKept : ∀ {pk : PrimaryKeyType},
        (∃ row, pool.shared.task pk = some row ∧ row.executionJobId = some jobId) →
        ∃ row, pool'.shared.task pk = some row ∧ row.executionJobId = some jobId :=
      hMoves.sameJobId hStarted
    cases hMoves with
    | quiet _ _ _ _ _ _ hNew =>
        refine ⟨pk, fun pid request session result task hSession hCall hTask => ?_⟩
        rcases hNew pid request session hSession with hOld | ⟨-, rfl⟩
        · obtain ⟨hPk, hRow⟩ := hOn pid request session result task hOld hCall hTask
          exact ⟨hPk, hKept hRow⟩
        · rw [hCall] at hTask
          cases hTask
    | performed actor actorRequest before scope act reply _ hActor hMay hExec _ hSessions =>
        have hOthers : ∀ {pid request session result task},
            sessionOf pool pid = some (request, session) →
            request.call = .taskFinished jobId result → session.task = some task →
            task.pk = pk ∧ ∃ row, pool'.shared.task pk = some row ∧
              row.executionJobId = some jobId := by
          intro pid request session result task hSession hCall hTask
          obtain ⟨hPk, hRow⟩ := hOn pid request session result task hSession hCall hTask
          exact ⟨hPk, hKept hRow⟩
        -- The task of the notices stays, unless the actor finds the first one.
        by_cases hHas : ∃ row, pool.shared.task pk = some row ∧ row.executionJobId = some jobId
        · refine ⟨pk, fun pid request session result task hSession hCall hTask => ?_⟩
          rw [hSessions] at hSession
          split at hSession
          · cases hSession
            rcases hMay.notice_task_next hExec hCall hTask with hOld | ⟨hStored, -, hOnly⟩
            · exact hOthers hActor hCall hOld
            · obtain ⟨row, hRow, hJobId⟩ := hHas
              obtain rfl := hOnly pk row hRow hJobId
              have hPk : row.pk = pk := (task_eq_some_iff.mp hRow).2
              exact ⟨hPk, hKept ⟨row, hRow, hJobId⟩⟩
          · exact hOthers hSession hCall hTask
        · have hNone : ∀ {pid request session result task},
              sessionOf pool pid = some (request, session) →
              request.call = .taskFinished jobId result → session.task = some task → False :=
            fun hSession hCall hTask => hHas (hOn _ _ _ _ _ hSession hCall hTask).2
          refine ⟨(before.next act reply).task.elim "" (·.pk),
            fun pid request session result task hSession hCall hTask => ?_⟩
          rw [hSessions] at hSession
          split at hSession
          · cases hSession
            rcases hMay.notice_task_next hExec hCall hTask with hOld | ⟨hStored, hJobId, -⟩
            · exact (hNone hActor hCall hOld).elim
            · rw [hTask]
              exact ⟨rfl, hKept ⟨task, hStored, hJobId⟩⟩
          · exact (hNone hSession hCall hTask).elim

/-! ## The moves of the notices -/

/-- A notice asks for one kind of task update: its own task, from started to an end. -/
def FinishesOwn (request : Request) (session : Session) : Prop :=
  request.call.finishes = true → ∀ pk newValues conditional reply,
    .wroteTask pk newValues conditional reply ∈ session.facts →
    session.job ≠ none ∧ ∃ task new, session.task = some task ∧ pk = task.pk ∧
      conditional = stateEquals .started ∧ newValues.state = some new

theorem finishesOwn (hRun : Run (scheduler reading) A first pool) (hIdle : first.Idle) :
    ∀ pid request session, sessionOf pool pid = some (request, session) →
      FinishesOwn request session := by
  refine session_invariant hRun hIdle ?_ ?_
  · intro request _ pk newValues conditional reply hFact
    rw [Session.facts_start] at hFact
    cases hFact
  · intro request session scope act reply db after hOwn hMay _ hFinishes pk newValues
      conditional given hFact
    rcases Session.of_mem_facts_next hFact with hOld | hNew
    · obtain ⟨hJob, task, new, hTask, hRest⟩ := hOwn hFinishes _ _ _ _ hOld
      obtain ⟨job, hHeld⟩ := Option.ne_none_iff_exists'.mp hJob
      refine ⟨by simp [hMay.keeps_job hHeld], task, new, ?_, hRest⟩
      -- A call that holds a lease keeps the task it is about.
      have hChange := session.change act reply
      generalize session.next act reply = next at hChange
      cases hChange with
      | found start limit condition row hNone => exact absurd hNone hJob
      | _ => exact hTask
    · cases act with
      | updateTask taskPk values condition =>
          cases hNew
          obtain ⟨-, -, sched, task, old, new, -, hTask, hPk, hJob, hCondition, hState,
            hMove⟩ := hMay
          refine ⟨by simp [Session.next, Session.record, hJob], task, new, hTask, hPk, ?_,
            hState⟩
          generalize newValues.executionJobId = written at hMove
          cases hMove with
          | finish new hEnd => exact hCondition
          | queue hCall _ => simp [hCall, Call.finishes] at hFinishes
          | start id hCall _ => simp [hCall, Call.finishes] at hFinishes
          | abandon new hCall _ => simp [hCall, Call.finishes] at hFinishes
      | _ => cases hNew

/-- The call that performed an operation of a notice is that notice. -/
theorem proc_of_reportedBy {entry : SchedulerEntry}
    (hReported : reportedBy pool jobId entry = true) :
    ∃ request program result, pool.procs[entry.pid]? = some ⟨request, program⟩ ∧
      request.call = .taskFinished jobId result := by
  obtain ⟨⟨request, program⟩, hProc, hCall⟩ := (Option.any_eq_true _ _).mp hReported
  cases hRequest : request.call with
  | taskFinished execJobId result =>
      rw [hRequest] at hCall
      obtain rfl : execJobId = jobId := of_decide_eq_true hCall
      exact ⟨request, program, result, hProc, hRequest⟩
  | _ =>
      rw [hRequest] at hCall
      cases hCall

/-- A notice that changes a task moves the task it has found out of started. -/
theorem moved_of_changesTask (hRun : Run (scheduler reading) A first pool)
    (hIdle : first.Idle) {entry : SchedulerEntry} {request : Request} {session : Session}
    {result : JobExecutionState} (hEntry : entry ∈ pool.log)
    (hSession : sessionOf pool entry.pid = some (request, session))
    (hCall : request.call = .taskFinished jobId result) (hChanges : changesTask entry = true) :
    ∃ task new, session.task = some task ∧
      ∃ fact ∈ session.facts, Moved task.pk .started new fact := by
  obtain ⟨pid, ⟨scope, act⟩, reply, before⟩ := entry
  cases act with
  | updateTask pk newValues conditional =>
      rcases reply with e | _ | count
      · cases hChanges
      · cases hChanges
      · have hFact : .wroteTask pk newValues conditional (.ok (count + 1)) ∈ session.facts :=
          mem_facts_of_logged hEntry hSession fun _ => List.mem_cons_self
        obtain ⟨-, task, new, hTask, rfl, rfl, hState⟩ := finishesOwn hRun hIdle pid request
          session hSession (by rw [hCall]; rfl) _ _ _ _ hFact
        exact ⟨task, new, hTask, _, hFact, newValues, count, rfl, hState⟩
  | _ => cases hChanges

/-- The notices about one job id that change a task are one call. -/
theorem changes_of_run (hRun : Run (scheduler reading) A (emptyPool clock) pool)
    {entry other : SchedulerEntry} (hEntry : entry ∈ pool.log) (hOther : other ∈ pool.log)
    (hReported : reportedBy pool jobId entry = true)
    (hReported' : reportedBy pool jobId other = true) (hChanges : changesTask entry = true)
    (hChanges' : changesTask other = true) : entry.pid = other.pid := by
  have hIdle := emptyPool_idle clock
  obtain ⟨request, program, result, hProc, hCall⟩ := proc_of_reportedBy hReported
  obtain ⟨request', program', result', hProc', hCall'⟩ := proc_of_reportedBy hReported'
  have hSession : sessionOf pool entry.pid = some _ := Pool.stateOf_eq_some hProc
  have hSession' : sessionOf pool other.pid = some _ := Pool.stateOf_eq_some hProc'
  obtain ⟨task, new, hTask, fact, hFact, hMoved⟩ :=
    moved_of_changesTask hRun hIdle hEntry hSession hCall hChanges
  obtain ⟨task', new', hTask', fact', hFact', hMoved'⟩ :=
    moved_of_changesTask hRun hIdle hOther hSession' hCall' hChanges'
  -- Both have found the task of the job id, and that task leaves started once.
  obtain ⟨-, pk, hOn⟩ := task_of_notices hRun jobId
  have hPk : task.pk = pk := (hOn _ _ _ _ _ hSession hCall hTask).1
  have hPk' : task'.pk = pk := (hOn _ _ _ _ _ hSession' hCall' hTask').1
  rw [hPk] at hMoved
  rw [hPk'] at hMoved'
  exact movedOnce hRun hIdle _ _ _ _ _ _ hSession hSession' fact hFact fact' hFact' pk
    .started new new' hMoved hMoved'

/-- A notice adds a task or asks for pasture only after it has changed its task. -/
theorem follows_of_run (hRun : Run (scheduler reading) A first pool) (hIdle : first.Idle)
    {later earlier : List SchedulerEntry} {entry : SchedulerEntry}
    (hLog : pool.log = later ++ entry :: earlier)
    (hReported : reportedBy pool jobId entry = true)
    (hAsks : entry.op.act.addsTask = true ∨ entry.op.act.asksPasture = true) :
    ∃ change ∈ earlier, change.pid = entry.pid ∧ changesTask change = true := by
  obtain ⟨request, program, result, hProc, hCall⟩ := proc_of_reportedBy hReported
  have hCourse : courseOf pool entry.pid = some _ := Pool.stateOf_eq_some hProc
  have hFinishes : request.call.finishes = true := by rw [hCall]; rfl
  obtain ⟨change, hMem, hPid, hEnds⟩ := (sequenced_of_run hRun hIdle _ _ _ hCourse).follows
    hFinishes later entry earlier hLog rfl hAsks
  obtain ⟨pk, hEnded⟩ := Option.isSome_iff_exists.mp hEnds
  exact ⟨change, hMem, hPid, by simp [changesTask, Act.changed_of_ended hEnded]⟩

/-- The notices about one job id add one task at most: those that add one are one call,
and that call adds one. -/
theorem adds_of_run (hRun : Run (scheduler reading) A (emptyPool clock) pool) :
    (pool.log.filter fun entry =>
      reportedBy pool jobId entry && entry.op.act.addsTask).length ≤ 1 := by
  have hIdle := emptyPool_idle clock
  have hChange : ∀ entry ∈ pool.log, reportedBy pool jobId entry = true →
      entry.op.act.addsTask = true → ∃ change ∈ pool.log, change.pid = entry.pid ∧
        reportedBy pool jobId change = true ∧ changesTask change = true := by
    intro entry hEntry hReported hAdds
    obtain ⟨later, earlier, hLog⟩ := List.append_of_mem hEntry
    obtain ⟨change, hMem, hPid, hChanges⟩ :=
      follows_of_run hRun hIdle hLog hReported (Or.inl hAdds)
    refine ⟨change, by simp [hLog, hMem], hPid, ?_, hChanges⟩
    rwa [reportedBy, hPid]
  -- all that is added for the job id is added by the call that has ended its task
  by_cases hNone : ∃ entry ∈ pool.log, reportedBy pool jobId entry = true ∧
      entry.op.act.addsTask = true
  · obtain ⟨entry, hEntry, hReported, hAdds⟩ := hNone
    obtain ⟨change, hMem, hPid, hReports, hChanges⟩ := hChange entry hEntry hReported hAdds
    obtain ⟨request, program, result, hProc, hCall⟩ := proc_of_reportedBy hReported
    have hCourse : courseOf pool entry.pid = some _ := Pool.stateOf_eq_some hProc
    have hOwn := (sequenced_of_run hRun hIdle _ _ _ hCourse).adds (by rw [hCall]; rfl)
    have hOwner : ∀ other ∈ pool.log,
        (reportedBy pool jobId other && other.op.act.addsTask) = true →
        other.pid = entry.pid := by
      intro other hOther hBoth
      rw [Bool.and_eq_true] at hBoth
      obtain ⟨change', hMem', hPid', hReports', hChanges'⟩ :=
        hChange other hOther hBoth.1 hBoth.2
      have hSame := changes_of_run hRun hMem' hMem hReports' hReports hChanges' hChanges
      exact hPid'.symm.trans (hSame.trans hPid)
    have hLe : (pool.log.filter fun entry =>
          reportedBy pool jobId entry && entry.op.act.addsTask).length ≤
        (pool.log.filter (addsTaskBy entry.pid)).length := by
      rw [length_filter_of_owner hOwner]
      refine (List.monotone_filter_right pool.log fun other hBoth => ?_).length_le
      simp only [Bool.and_eq_true] at hBoth
      simp [addsTaskBy, hBoth.1, hBoth.2.2]
    rw [hOwn] at hLe
    split at hLe
    · exact hLe
    · omega
  · rw [List.filter_eq_nil_iff.mpr]
    · exact Nat.zero_le 1
    · intro entry hEntry hBoth
      rw [Bool.and_eq_true] at hBoth
      exact hNone ⟨entry, hEntry, hBoth⟩

/-- **Completion takes effect at most once.**  In every run, whatever the leases do and
the store rejects: of the completion notices about one job id, one at most changes a
task; a notice adds a task or asks for pasture only after it has changed its own; and
together they add at most one task. -/
theorem completion_once
    (hRun : Run (scheduler reading) anySchedule (emptyPool clock) pool)
    (jobId : ExecutionJobId) : CompletesOnce pool jobId where
  changes _ hEntry _ hOther := changes_of_run hRun hEntry hOther
  follows _ _ _ hLog := follows_of_run hRun (emptyPool_idle clock) hLog
  adds := adds_of_run hRun

/-- A node launches the sample task, and two notices report its job, completed and
failed; both have read the task before either holds the lease. -/
private def conflictingNotices : List (Turn Request Answers) :=
  .spawn ⟨sampleNode sampleFinish [], 1, .startTask sampleTask⟩ ::
    turns 1 10 { leaseId := "start", job := .ok (.running "run") } ++
  .spawn ⟨sampleNode sampleFinish [], 2, .taskFinished "run" (.completed "run" none)⟩ ::
  .spawn ⟨sampleNode sampleFinish [], 3, .taskFinished "run" (.failed "run" none)⟩ ::
    turns 2 1 {} ++ turns 3 1 {} ++
    turns 2 11 { leaseId := "first", primaryKey := "next" } ++
    turns 3 7 { leaseId := "second", primaryKey := "other" }

/-- Of two conflicting notices one finishes the sample task and adds the next one. -/
theorem sample_completion_once :
    ∃ pool : SchedulerPool,
      pool.shared.taskTable.rows.map (·.state) = [.completed, .pending] ∧
        CompletesOnce pool "run" := by
  have hDriven : ((driver strictlyBefore).drive (fun _ _ _ => true)
      (createSample sampleFinish ++ conflictingNotices) (emptyPool 0)).any (fun pool =>
        pool.shared.taskTable.rows.map (·.state) = [.completed, .pending]) = true := by
    decide +kernel
  obtain ⟨pool, hRun, hTest⟩ := Driver.exists_run_of_drive (A := anySchedule)
    (fun _ _ _ _ => trivial) hDriven
  exact ⟨pool, of_decide_eq_true hTest, completion_once hRun "run"⟩

end TernScheduler
