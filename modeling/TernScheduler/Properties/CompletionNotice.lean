import TernScheduler.Controller.Leases
import TernScheduler.Controller.TaskProgress

/-!
# When a completion notice reaches its task

`taskFinished` looks its task up by job id before anything else.  A notice that
arrives before `markTaskStarted` has stored the job id finds no task, and the call
is rejected.  A notice that finds its task finishes it.

* `notice_finishes_task` is the law, over runs in which the lookup finds the task.
* `notice_lost` is a run in which the notice is faster than the launch.
-/

namespace TernScheduler

open Interleaving Database

/-- The call looks a task up by the given job id. -/
def Act.looksUp (jobId : ExecutionJobId) : Act → Bool
  | .findTasks _ _ (.eq .executionJobId (.text id)) => id = jobId
  | _ => false

/-- The task carries the job id, and no other task does. -/
def CarriesAlone (db : Database) (pk : PrimaryKeyType) (jobId : ExecutionJobId) : Prop :=
  (db.taskTable.rows.filter fun row => row.executionJobId = some jobId).map (·.pk) = [pk]

instance (db : Database) (pk : PrimaryKeyType) (jobId : ExecutionJobId) :
    Decidable (CarriesAlone db pk jobId) := by
  unfold CarriesAlone
  infer_instance

/-- Every store call is answered by the store, and when the call of the given
number looks a task up by the job id, the task carries it, and no other does. -/
def noticeFinds (reading : BeforeDateReading) (pid : Nat) (pk : PrimaryKeyType)
    (jobId : ExecutionJobId) : RunCondition signature Database Request Settled :=
  fun pool event pool' => storeAnswers reading pool event pool' ∧
    ∀ entry ∈ event.entry, entry.pid = pid → entry.op.act.looksUp jobId = true →
      CarriesAlone pool.shared pk jobId

instance (reading : BeforeDateReading) (pid : Nat) (pk : PrimaryKeyType)
    (jobId : ExecutionJobId) (pool : SchedulerPool)
    (event : Event signature Database Request) (pool' : SchedulerPool) :
    Decidable (noticeFinds reading pid pk jobId pool event pool') := by
  unfold noticeFinds
  infer_instance

/-- The call was granted a lease. -/
def Granted (pool : SchedulerPool) (pid : Nat) : Prop :=
  ∃ request session, sessionOf pool pid = some (request, session) ∧ session.job ≠ none

/-- How far a notice has come: the task it found has a job id, its reads of the job
were answered with a row, and once it tried to finish the task the task is
finished. -/
structure NoticeProgress (pk : PrimaryKeyType) (session : Session) (db : Database) :
    Prop where
  found : ∀ task, session.task = some task →
    task.pk = pk ∧ ∃ row, db.task pk = some row ∧ row.executionJobId ≠ none
  kept : session.lost = false
  done : ∀ newValues new reply,
    .wroteTask pk newValues (stateEquals .started) reply ∈ session.facts →
    newValues.state = some new → new.finished →
    ∃ row, db.task pk = some row ∧ row.state.finished

variable {reading : BeforeDateReading} {clock : Date} {pool pool' : SchedulerPool}
  {pid : Nat} {pk : PrimaryKeyType} {jobId : ExecutionJobId}

/-- A lookup by a job id that one task carries finds that task. -/
theorem CarriesAlone.found {db : Database} {row : TaskModel}
    (hAlone : CarriesAlone db pk jobId)
    (hAnswered : Answered reading db (.findTasks 0 2 (jobIdEquals jobId))
      (Except.ok [row])) :
    row.pk = pk ∧ db.task pk = some row ∧ row.executionJobId ≠ none := by
  have hRows := Except.ok.inj hAnswered.findTasks_eq
  have hCondition : (fun row : TaskModel => (jobIdEquals jobId).holds reading row.column) =
      fun row => decide (row.executionJobId = some jobId) := by
    funext row
    rw [Bool.eq_iff_iff, holds_jobIdEquals, decide_eq_true_iff]
  rw [hCondition, KeyedTable.Table.select, List.drop_zero] at hRows
  have hMem : row ∈ db.taskTable.rows.filter
      fun row => decide (row.executionJobId = some jobId) :=
    List.mem_of_mem_take (hRows ▸ List.mem_cons_self)
  have hPk : row.pk = pk := by
    have hKey := List.mem_map_of_mem (f := (·.pk)) hMem
    rw [hAlone] at hKey
    exact List.mem_singleton.mp hKey
  obtain ⟨hStored, hJobId⟩ := List.mem_filter.mp hMem
  refine ⟨hPk, hPk ▸ task_of_mem hStored, ?_⟩
  rw [of_decide_eq_true hJobId]
  exact Option.some_ne_none _

/-- What a notice has achieved stays achieved. -/
theorem NoticeProgress.persists {session : Session}
    (hProgress : NoticeProgress pk session pool.shared)
    (hMoves : Moves reading pool event pool') : NoticeProgress pk session pool'.shared where
  found task hTask :=
    ⟨(hProgress.found task hTask).1, hMoves.jobId_kept (hProgress.found task hTask).2⟩
  kept := hProgress.kept
  done newValues new reply hFact hNew hFinished :=
    hMoves.finished_kept (hProgress.done newValues new reply hFact hNew hFinished)

/-- The task a notice has found after an operation carries a job id. -/
theorem NoticeProgress.found_next {request : Request} {session : Session} {scope : Scope}
    {act : Act} {reply : act.Reply} {result : JobExecutionState} {task : TaskModel}
    (hProgress : NoticeProgress pk session pool.shared)
    (hCall : request.call = .taskFinished jobId result)
    (hMay : May request session ⟨scope, act⟩)
    (hAnswered : Answered reading pool.shared act reply)
    (hFinds : act.looksUp jobId = true → CarriesAlone pool.shared pk jobId)
    (hTask : (session.next act reply).task = some task) :
    task.pk = pk ∧ ∃ row, pool.shared.task pk = some row ∧ row.executionJobId ≠ none := by
  have hChange := session.change act reply
  generalize session.next act reply = next at hChange hTask
  cases hChange with
  | found start limit conditional row hJob =>
      obtain rfl : row = task := Option.some.inj hTask
      obtain ⟨rfl, hLookup⟩ := hMay.2
      obtain ⟨rfl, execJobId, otherResult, hOther, rfl⟩ := hLookup hJob
      rw [hCall] at hOther
      cases hOther
      have hLooks : Act.looksUp jobId (.findTasks 0 2 (jobIdEquals jobId)) = true := by
        simp [Act.looksUp, jobIdEquals]
      obtain ⟨hPk, hRow, hJobId⟩ := (hFinds hLooks).found hAnswered
      exact ⟨hPk, row, hRow, hJobId⟩
  | _ => exact hProgress.found task hTask

/-- A notice that holds the lease of a stored job is answered with its row. -/
theorem NoticeProgress.kept_next {request : Request} {session : Session} {scope : Scope}
    {act : Act} {reply : act.Reply}
    (hProgress : NoticeProgress pk session pool.shared)
    (hMay : May request session ⟨scope, act⟩) (hSound : session.Sound)
    (hAnswered : Answered reading pool.shared act reply)
    (hStored : ∀ job, session.job = some job → pool.shared.job job ≠ none) :
    (session.next act reply).lost = false := by
  have hChange := session.change act reply
  generalize session.next act reply = next at hChange
  cases hChange with
  | lost start limit conditional given hJob hNone =>
      obtain ⟨job, hHeld⟩ := Option.ne_none_iff_exists'.mp hJob
      obtain ⟨target, rfl, rfl, rfl, hTarget⟩ := hMay.2
      have hSame : target = job := by
        rcases hTarget job hHeld with hEq | ⟨sched, hSched, hEq⟩
        · exact hEq
        · exact hEq.trans (hSound.pk_eq job sched hHeld hSched)
      obtain ⟨row, rest, hReply⟩ :=
        hAnswered.findSchedules_ne (hSame ▸ hStored job hHeld)
      exact absurd hReply (hNone row rest)
  | _ => exact hProgress.kept

/-- **Step lemma.**  A notice that tries to finish its task finds it started, and
moves it, or finds it finished. -/
theorem NoticeProgress.done_next {request : Request} {session : Session} {scope : Scope}
    {act : Act} {reply : act.Reply} {newValues : TaskPatch} {new : TaskStateType}
    {given : Except JsError Nat} {db after : Database}
    (hProgress : NoticeProgress pk session db)
    (hMay : May request session ⟨scope, act⟩) (hExec : Exec reading db act reply after)
    (hAnswered : Answered reading db act reply) (hStarted : JobIdsStarted db)
    (hKept : ∀ row, db.task pk = some row → row.state.finished →
      ∃ row', after.task pk = some row' ∧ row'.state.finished)
    (hFact : act.fact reply =
      some (.wroteTask pk newValues (stateEquals .started) given))
    (hNew : newValues.state = some new) (hFinished : new.finished) :
    ∃ row, after.task pk = some row ∧ row.state.finished := by
  cases act with
  | updateTask taskPk values conditional =>
      cases hFact
      obtain ⟨count, rfl⟩ := hAnswered.updateTask_ok
      cases count with
      | zero =>
          obtain ⟨-, -, sched, task, old, target, -, hTask, rfl, -⟩ := hMay
          obtain ⟨-, row, hRow, hJobId⟩ := hProgress.found task hTask
          -- no row was written, so the task had stopped running before, and is finished
          have hNot := hAnswered.updateTask_zero hRow
          rcases hStarted task.pk row hRow hJobId with hState | hState
          · have hHolds : (stateEquals .started).holds reading row.column = true :=
              (holds_stateEquals _).mpr hState
            rw [hHolds] at hNot
            cases hNot
          · exact hKept row hRow hState
      | succ count =>
          have hMoved : Act.MovedTask pk .started new
              (.updateTask pk newValues (stateEquals .started)) (Except.ok (count + 1)) :=
            ⟨rfl, rfl, hNew⟩
          obtain ⟨-, row, -, -, hRow, hState⟩ := row_of_movedTask hExec hMoved
          exact ⟨row, hRow, hState ▸ hFinished⟩
  | _ => cases hFact

/-- The progress of the notice, over runs. -/
theorem noticeProgress
    (hRun : Run (scheduler reading) (noticeFinds reading pid pk jobId) (emptyPool clock)
      pool) :
    JobIdsStarted pool.shared ∧ ∀ request session result,
      sessionOf pool pid = some (request, session) →
      request.call = .taskFinished jobId result →
      NoticeProgress pk session pool.shared := by
  have hIdle := emptyPool_idle clock
  refine invariant_of_moves (I := fun pool => JobIdsStarted pool.shared ∧
    ∀ request session result, sessionOf pool pid = some (request, session) →
      request.call = .taskFinished jobId result →
      NoticeProgress pk session pool.shared) hRun hIdle ?_ ?_
  · constructor
    · intro taskPk row hRow
      cases hRow
    · intro request session result hSession
      rw [sessionOf_idle hIdle] at hSession
      cases hSession
  · rintro pool event pool' hBefore ⟨hStarted, hProgress⟩ hMoves ⟨hAnswers, hFinds⟩
    refine ⟨jobIdsStarted_of_moves hMoves hStarted, ?_⟩
    intro request session result hSession hCall
    have hPersists : ∀ {earlier : Session}, sessionOf pool pid = some (request, earlier) →
        NoticeProgress pk earlier pool'.shared := fun hEarlier =>
      (hProgress request _ result hEarlier hCall).persists hMoves
    cases hMoves with
    | quiet _ _ _ _ _ _ hNew =>
        rcases hNew pid request session hSession with hOld | ⟨-, rfl⟩
        · exact hPersists hOld
        · -- a call that has just started has looked up nothing
          refine ⟨fun task hTask => ?_, ?_, fun newValues new reply hFact => ?_⟩
          · rw [hCall] at hTask
            cases hTask
          · rw [hCall]
            rfl
          · rw [Session.facts_start] at hFact
            cases hFact
    | performed actor actorRequest before scope act reply _ hActor hMay hExec hLog hSessions =>
        rw [hSessions] at hSession
        split at hSession
        · rename_i hPid
          subst hPid
          cases hSession
          have hMoves : Moves reading pool
              (.ran ⟨pid, ⟨scope, act⟩, reply, pool.shared⟩) pool' :=
            .performed pid request before scope act reply pool' hActor hMay hExec hLog
              hSessions
          -- the notice itself has acted
          have hOwn := hProgress request before result hActor hCall
          have hAnswered := hAnswers _ rfl
          constructor
          · intro task hTask
            obtain ⟨hPk, hRow⟩ := hOwn.found_next hCall hMay hAnswered (hFinds _ rfl rfl) hTask
            exact ⟨hPk, hMoves.jobId_kept hRow⟩
          · exact hOwn.kept_next hMay (session_sound hBefore hIdle hActor) hAnswered
              fun job => job_stored hBefore hIdle pid request before job hActor
          · intro newValues new given hFact hNew hFinished
            rcases Session.of_mem_facts_next hFact with hOld | hNewFact
            · exact (hPersists hActor).done newValues new given hOld hNew hFinished
            · exact hOwn.done_next hMay hExec hAnswered hStarted
                (fun row hRow hState => hMoves.finished_kept ⟨row, hRow, hState⟩) hNewFact
                hNew hFinished
        · exact hPersists hSession

/-- **A notice that finds its task finishes it.**  In every run in which every
store call is answered, and the task carries the job id alone when `taskFinished`
looks it up: once that call was granted the lease and has settled, the task is
completed or in completion error, whatever else runs. -/
theorem notice_finishes_task
    (hRun : Run (scheduler reading) (noticeFinds reading pid pk jobId) (emptyPool clock)
      pool)
    {request : Request} {result : JobExecutionState} {settled : Settled}
    (hCall : request.call = .taskFinished jobId result) (hFinished : result.Finished)
    (hSettled : pool.procs[pid]? = some ⟨request, some (.ret settled)⟩)
    (hGranted : Granted pool pid) :
    ∃ row, pool.shared.task pk = some row ∧ row.state.finished := by
  have hIdle := emptyPool_idle clock
  obtain ⟨session, hSession, hSettles⟩ := settles_of_run hRun hIdle hSettled
  obtain ⟨other, held, hHeld, hJob⟩ := hGranted
  rw [hSession] at hHeld
  cases hHeld
  have hProgress := (noticeProgress hRun).2 request session result hSession hCall
  obtain ⟨task, newValues, reply, hTask, hWrote, hNew⟩ :=
    hSettles jobId result hCall hFinished hJob hProgress.kept
  have hPk : task.pk = pk := (hProgress.found task hTask).1
  rw [hPk] at hWrote
  rcases hNew with hNew | hNew
  · exact hProgress.done newValues .completed reply hWrote hNew (Or.inl rfl)
  · exact hProgress.done newValues .completeError reply hWrote hNew (Or.inr rfl)

/-- A node launches the sample task and is told its job id. -/
private def launchSample : List (Turn Request Answers) :=
  .spawn ⟨sampleNode sampleFinish [], 1, .startTask sampleTask⟩ ::
    turns 1 6 { leaseId := "start", job := .ok (.running "run") }

/-- The launch records the job id and releases the lease. -/
private def recordSample : List (Turn Request Answers) := turns 1 4 {}

/-- The job framework reports that the job has finished. -/
private def notifySample (count : Nat) : List (Turn Request Answers) :=
  .spawn ⟨sampleNode sampleFinish [], 2, .taskFinished "run" (.completed "run" none)⟩ ::
    turns 2 count { leaseId := "finish", primaryKey := "next" }

/-- The notice about the given job id, with a completed result, has settled. -/
private def noticeSettled (pid : Nat) (jobId : ExecutionJobId) (pool : SchedulerPool) :
    Bool :=
  match pool.procs[pid]? with
  | some ⟨⟨_, _, .taskFinished id (.completed _ _)⟩, some (.ret _)⟩ => id = jobId
  | _ => false

private theorem noticeSettled_elim {pool : SchedulerPool}
    (h : noticeSettled pid jobId pool = true) :
    ∃ request settled result, request.call = .taskFinished jobId result ∧
      result.Finished ∧ pool.procs[pid]? = some ⟨request, some (.ret settled)⟩ := by
  unfold noticeSettled at h
  split at h
  · rename_i node now id completed info settled hProc
    obtain rfl : id = jobId := of_decide_eq_true h
    exact ⟨_, settled, .completed completed info, rfl, trivial, hProc⟩
  · cases h

/-- The call of the given number was granted a lease. -/
private def holdsJob (pid : Nat) (pool : SchedulerPool) : Bool :=
  (sessionOf pool pid).any fun state => state.2.job.isSome

private theorem granted_of_holdsJob {pool : SchedulerPool} (h : holdsJob pid pool = true) :
    Granted pool pid := by
  obtain ⟨⟨request, session⟩, hSession, hJob⟩ := (Option.any_eq_true _ _).mp h
  exact ⟨request, session, hSession, Option.isSome_iff_ne_none.mp hJob⟩

/-- A notice after the launch finishes the sample task. -/
theorem sample_notice_finishes_task :
    ∃ (pool : SchedulerPool) (row : TaskModel),
      pool.shared.task "task" = some row ∧ row.state.finished := by
  have hDriven : ((driver strictlyBefore).drive
      (fun pool event pool' => noticeFinds strictlyBefore 2 "task" "run" pool event pool')
      (createSample sampleFinish ++ launchSample ++ recordSample ++ notifySample 12)
      (emptyPool 0)).any (fun pool => noticeSettled 2 "run" pool && holdsJob 2 pool) =
      true := by
    decide +kernel
  obtain ⟨pool, hRun, hTest⟩ := Driver.exists_run_of_drive
    (A := noticeFinds strictlyBefore 2 "task" "run") (fun _ _ _ => of_decide_eq_true) hDriven
  rw [Bool.and_eq_true] at hTest
  obtain ⟨request, settled, result, hCall, hFinished, hSettled⟩ := noticeSettled_elim hTest.1
  obtain ⟨row, hRow, hState⟩ := notice_finishes_task hRun hCall hFinished hSettled
    (granted_of_holdsJob hTest.2)
  exact ⟨pool, row, hRow, hState⟩

/-- An update of a schedule row that found no row. -/
def Act.refused : (act : Act) → act.Reply → Bool
  | .updateSchedule .., .ok 0 => true
  | _, _ => false

/-- The call of the given number is told that its job runs. -/
private def toldRunning (launch : Nat) (pk jobId : String) (pool : SchedulerPool) : Bool :=
  match sessionOf pool launch with
  | some (⟨_, _, .startTask task⟩, session) =>
      task.pk = pk && session.facts.any fun fact =>
        match fact with
        | .startedJob taskId (.ok (.running id)) => taskId = pk && id = jobId
        | _ => false
  | _ => false

private theorem toldRunning_elim {launch : Nat} {pool : SchedulerPool}
    (h : toldRunning launch pk jobId pool = true) :
    ∃ request session task, sessionOf pool launch = some (request, session) ∧
      request.call = .startTask task ∧ task.pk = pk ∧
      .startedJob pk (.ok (.running jobId)) ∈ session.facts := by
  unfold toldRunning at h
  split at h
  · rename_i node now task session hSession
    rw [Bool.and_eq_true] at h
    obtain ⟨fact, hFact, hStarted⟩ := List.any_eq_true.mp h.2
    split at hStarted
    · rename_i taskId id
      rw [Bool.and_eq_true] at hStarted
      obtain rfl : taskId = pk := of_decide_eq_true hStarted.1
      obtain rfl : id = jobId := of_decide_eq_true hStarted.2
      exact ⟨_, session, task, hSession, rfl, of_decide_eq_true h.1, hFact⟩
    · cases hStarted
  · cases h

/-- The test for `HasSettled`. -/
private def hasSettled (pid : Nat) (pool : SchedulerPool) : Bool :=
  match pool.procs[pid]? with
  | some ⟨_, some (.ret _)⟩ => true
  | _ => false

private theorem hasSettled_elim {pool : SchedulerPool} (h : hasSettled pid pool = true) :
    HasSettled pool pid := by
  unfold hasSettled at h
  split at h
  · rename_i request settled hProc
    exact ⟨request, settled, hProc⟩
  · cases h

/-- The task is started and its launch and notice have settled. -/
private def leftStarted (middle last : SchedulerPool) : Bool :=
  hasSettled 1 last && noticeSettled 2 "run" last && decide (middle.procs.length ≤ 2) &&
    (last.log.all fun entry => !entry.op.act.refused entry.reply) &&
    (last.shared.task "task").any fun row => row.state = .started

/-- **A notice can be lost.**  The job framework reports the end of a job before the
launch has recorded its id: no store call is rejected and no lease is refused, yet
the task is left started. -/
theorem notice_lost :
    ¬ ∀ (middle last : SchedulerPool) (launch notice : Nat) (jobId : ExecutionJobId)
        (started finished : Request) (session : Session) (task : TaskModel)
        (result : JobExecutionState) (settled : Settled),
      Run (scheduler strictlyBefore) (storeAnswers strictlyBefore) (emptyPool 0) middle →
      sessionOf middle launch = some (started, session) →
      started.call = .startTask task →
      .startedJob task.pk (.ok (.running jobId)) ∈ session.facts →
      Run (scheduler strictlyBefore) (storeAnswers strictlyBefore) middle last →
      HasSettled last launch →
      middle.procs.length ≤ notice → finished.call = .taskFinished jobId result →
      result.Finished → last.procs[notice]? = some ⟨finished, some (.ret settled)⟩ →
      (∀ entry ∈ last.log, entry.op.act.refused entry.reply = false) →
      ∃ row, last.shared.task task.pk = some row ∧ row.state.finished := by
  intro hKept
  have hDriven : ((driver strictlyBefore).drive
      (fun pool event pool' => storeAnswers strictlyBefore pool event pool')
      (createSample sampleFinish ++ launchSample) (emptyPool 0)).any
      (fun middle => toldRunning 1 "task" "run" middle &&
        ((driver strictlyBefore).drive
          (fun pool event pool' => storeAnswers strictlyBefore pool event pool')
          (notifySample 1 ++ recordSample) middle).any (leftStarted middle)) = true := by
    decide +kernel
  -- the run is cut where the job framework has answered the launch
  obtain ⟨middle, hReached, hMiddle⟩ := Driver.exists_run_of_drive
    (A := storeAnswers strictlyBefore) (fun _ _ _ => of_decide_eq_true) hDriven
  rw [Bool.and_eq_true] at hMiddle
  obtain ⟨last, hLater, hLast⟩ := Driver.exists_run_of_drive
    (A := storeAnswers strictlyBefore) (fun _ _ _ => of_decide_eq_true) hMiddle.2
  obtain ⟨started, session, task, hSession, hStart, hPk, hFact⟩ := toldRunning_elim hMiddle.1
  simp only [leftStarted, Bool.and_eq_true] at hLast
  obtain ⟨⟨⟨⟨hLaunched, hNotice⟩, hLength⟩, hNoneRefused⟩, hState⟩ := hLast
  obtain ⟨finished, settled, result, hCall, hFinished, hNoticeProc⟩ :=
    noticeSettled_elim hNotice
  obtain ⟨row, hRow, hRowFinished⟩ := hKept middle last 1 2 "run" started finished session
    task result settled hReached hSession hStart (hPk ▸ hFact) hLater
    (hasSettled_elim hLaunched) (of_decide_eq_true hLength) hCall hFinished hNoticeProc
    (fun entry hEntry => by simpa using List.all_eq_true.mp hNoneRefused entry hEntry)
  obtain ⟨stored, hStored, hStarted⟩ := (Option.any_eq_true _ _).mp hState
  rw [hPk] at hRow
  obtain rfl : row = stored := Option.some.inj (hRow.symm.trans hStored)
  rw [of_decide_eq_true hStarted] at hRowFinished
  rcases hRowFinished with h | h <;> cases h

end TernScheduler
