import TernScheduler.Controller.TaskProgress

/-!
# A task is launched at most once

`startJob` is called only by a `startTask` call that moved the task from pending
to queued itself, and only one call ever does.  The lease plays no part in this:
the argument rests on the conditional update of the task alone, so it holds
under lease takeovers, rejected store calls and nodes that stop anywhere.
-/

namespace TernScheduler

open Interleaving

/-- A call of the job framework for the given task. -/
def Act.launches (pk : PrimaryKeyType) : Act → Bool
  | .startJob taskId _ _ => taskId = pk
  | _ => false

variable {reading : BeforeDateReading}
  {A : RunCondition signature Database Request Settled}
  {first pool : SchedulerPool}

/-- A session that asked for a launch is of a `startTask` call that moved the
task out of pending. -/
theorem queued_of_startedJob (hRun : Run (scheduler reading) A first pool)
    (hIdle : first.Idle) :
    ∀ pid request session, sessionOf pool pid = some (request, session) →
      ∀ pk reply, .startedJob pk reply ∈ session.facts →
        ∃ task queued, request.call = .startTask task ∧ task.pk = pk ∧
          queued ∈ session.facts ∧ Moved pk .pending .queued queued := by
  refine session_invariant (I := fun request session =>
    ∀ pk reply, .startedJob pk reply ∈ session.facts →
      ∃ task queued, request.call = .startTask task ∧ task.pk = pk ∧
        queued ∈ session.facts ∧ Moved pk .pending .queued queued) hRun hIdle ?_ ?_
  · intro request pk reply hFact
    rw [Session.facts_start] at hFact
    cases hFact
  · intro request session scope act given db after hQueued hMay _ pk reply hFact
    rcases Session.of_mem_facts_next hFact with hOld | hNew
    · obtain ⟨task, queued, hCall, hPk, hMem, hMoved⟩ := hQueued pk reply hOld
      exact ⟨task, queued, hCall, hPk, Session.mem_facts_next hMem, hMoved⟩
    · cases act <;> simp only [Act.fact, Option.some.injEq, reduceCtorEq] at hNew
      cases hNew
      obtain ⟨-, -, task, found, queued, limit, conditional, hCall, rfl, hMoved, hFacts⟩ :=
        hMay
      refine ⟨task, queued, hCall, rfl, Session.mem_facts_next ?_, hMoved⟩
      rw [hFacts]
      exact List.mem_cons_of_mem _ List.mem_cons_self

/-- A launch in the log is a fact of the call that asked for it. -/
theorem startedJob_of_logged (hRun : Run (scheduler reading) A first pool)
    (hIdle : first.Idle) {entry : SchedulerEntry} (hEntry : entry ∈ pool.log)
    {pk : PrimaryKeyType} (hLaunch : entry.op.act.launches pk = true) :
    ∃ request session reply, sessionOf pool entry.pid = some (request, session) ∧
      .startedJob pk reply ∈ session.facts := by
  obtain ⟨request, session, hSession⟩ := session_of_logged hRun hIdle hEntry
  obtain ⟨pid, ⟨scope, act⟩, reply, before⟩ := entry
  cases act <;> simp only [Act.launches, decide_eq_true_eq, reduceCtorEq] at hLaunch
  subst hLaunch
  exact ⟨request, session, reply, hSession,
    mem_facts_of_logged hEntry hSession fun _ => List.mem_cons_self⟩

/-- **Step lemma.**  A call that may launch a task moved it out of pending
itself, and nobody has launched it before. -/
theorem no_earlier_launch (hRun : Run (scheduler reading) A first pool)
    (hIdle : first.Idle) {pid : Nat} {request : Request} {session : Session}
    {scope : Scope} {act : Act} {pk : PrimaryKeyType}
    (hSession : sessionOf pool pid = some (request, session))
    (hMay : May request session ⟨scope, act⟩) (hLaunch : act.launches pk = true) :
    (∃ queued ∈ session.facts, Moved pk .pending .queued queued) ∧
      ∀ entry ∈ pool.log, entry.op.act.launches pk = false := by
  cases act <;> simp only [Act.launches, decide_eq_true_eq, reduceCtorEq] at hLaunch
  subst hLaunch
  obtain ⟨-, -, task, found, queued, limit, conditional, hCall, rfl, hMoved, hFacts⟩ := hMay
  have hQueued : queued ∈ session.facts := by
    rw [hFacts]
    exact List.mem_cons_of_mem _ List.mem_cons_self
  refine ⟨⟨queued, hQueued, hMoved⟩, fun entry hEntry => ?_⟩
  cases hOther : entry.op.act.launches task.pk with
  | false => rfl
  | true =>
      obtain ⟨otherRequest, other, reply, hOtherSession, hStarted⟩ :=
        startedJob_of_logged hRun hIdle hEntry hOther
      obtain ⟨-, otherQueued, -, -, hOtherQueued, hOtherMoved⟩ :=
        queued_of_startedJob hRun hIdle _ _ _ hOtherSession _ _ hStarted
      -- Both calls moved the task out of pending, so they are the same call,
      -- and that call has only queued the task and looked for running ones.
      have hSame := movedOnce hRun hIdle _ _ _ _ _ _ hOtherSession hSession _ hOtherQueued
        _ hQueued _ _ _ _ hOtherMoved hMoved
      rw [hSame, hSession] at hOtherSession
      cases hOtherSession
      rw [hFacts] at hStarted
      obtain ⟨newValues, count, rfl, -⟩ := hMoved
      simp at hStarted

/-- Each launch is the first of its task and comes after the call that asks for
it queued the task. -/
def LaunchesFollowQueueing (pk : PrimaryKeyType) (log : List SchedulerEntry) : Prop :=
  ∀ later entry earlier, log = later ++ entry :: earlier →
    entry.op.act.launches pk = true →
    (∀ other ∈ earlier, other.op.act.launches pk = false) ∧
      ∃ mover ∈ earlier, mover.pid = entry.pid ∧
        mover.op.act.MovedTask pk .pending .queued mover.reply

theorem launchesFollowQueueing (hRun : Run (scheduler reading) A first pool)
    (hIdle : first.Idle) (pk : PrimaryKeyType) : LaunchesFollowQueueing pk pool.log := by
  refine invariant_of_moves (I := fun pool => LaunchesFollowQueueing pk pool.log)
    hRun hIdle ?_ ?_
  · intro later entry earlier hLog
    rw [hIdle.2] at hLog
    simp at hLog
  · intro pool event pool' hBefore hFollow hMoves _
    cases hMoves with
    | quiet _ _ _ _ hLog _ _ => exact hLog ▸ hFollow
    | performed pid request session scope act reply _ hSession hMay _ hLog _ =>
        intro later entry earlier hDecomposed hLaunch
        rw [hLog] at hDecomposed
        cases later with
        | nil =>
            obtain ⟨rfl, rfl⟩ := List.cons.inj hDecomposed
            obtain ⟨⟨queued, hQueued, hMoved⟩, hNone⟩ :=
              no_earlier_launch hBefore hIdle hSession hMay hLaunch
            obtain ⟨mover, hMover, hPid, hFact⟩ := logged_of_mem_facts hSession hQueued
            exact ⟨hNone, mover, hMover, hPid, Act.movedTask_of_fact hFact hMoved⟩
        | cons newest later =>
            exact hFollow later entry earlier (List.cons.inj hDecomposed).2 hLaunch

/-- A list in which nothing follows a marked element has at most one. -/
theorem length_filter_le_one {α : Type} {marked : α → Bool} {list : List α}
    (h : ∀ later entry earlier, list = later ++ entry :: earlier →
      marked entry = true → ∀ other ∈ earlier, marked other = false) :
    (list.filter marked).length ≤ 1 := by
  induction list with
  | nil => simp
  | cons head tail ih =>
      by_cases hHead : marked head = true
      · have hTail : tail.filter marked = [] := by
          rw [List.filter_eq_nil_iff]
          intro other hOther
          rw [h [] head tail rfl hHead other hOther]
          exact Bool.false_ne_true
        rw [List.filter_cons_of_pos hHead, hTail]
        simp
      · rw [List.filter_cons_of_neg hHead]
        refine ih fun later entry earlier hSplit => h (head :: later) entry earlier ?_
        rw [hSplit, List.cons_append]

/-- **A task is launched at most once.**  In every run from any database, the job
framework is asked at most once to start a given task, and only by the one
`startTask` call whose `markTaskQueued` had moved the task from pending to
queued. -/
theorem task_launched_at_most_once (hRun : Run (scheduler reading) anySchedule first pool)
    (hIdle : first.Idle) (pk : PrimaryKeyType) :
    (pool.log.filter fun entry => entry.op.act.launches pk).length ≤ 1 ∧
      ∀ later entry earlier, pool.log = later ++ entry :: earlier →
        entry.op.act.launches pk = true →
        (∃ proc task, pool.procs[entry.pid]? = some proc ∧
            proc.request.call = .startTask task ∧ task.pk = pk) ∧
          (∃ mover ∈ earlier, mover.pid = entry.pid ∧
            mover.op.act.MovedTask pk .pending .queued mover.reply ∧
            ∃ row, mover.before.task pk = some row ∧ row.state = .pending) ∧
          ∀ mover ∈ pool.log, mover.op.act.MovedTask pk .pending .queued mover.reply →
            mover.pid = entry.pid := by
  have hFollow := launchesFollowQueueing hRun hIdle pk
  refine ⟨length_filter_le_one fun later entry earlier hSplit hLaunch =>
    (hFollow later entry earlier hSplit hLaunch).1, ?_⟩
  intro later entry earlier hSplit hLaunch
  have hEntry : entry ∈ pool.log := by
    rw [hSplit]
    exact List.mem_append_right _ List.mem_cons_self
  obtain ⟨request, session, reply, hSession, hStarted⟩ :=
    startedJob_of_logged hRun hIdle hEntry hLaunch
  obtain ⟨task, queued, hCall, hPk, hQueued, hMoved⟩ :=
    queued_of_startedJob hRun hIdle _ _ _ hSession _ _ hStarted
  refine ⟨?_, ?_, ?_⟩
  · obtain ⟨proc, hProc, hState⟩ := Option.map_eq_some_iff.mp hSession
    cases hState
    exact ⟨proc, task, hProc, hCall, hPk⟩
  · obtain ⟨-, mover, hMover, hPid, hMovedTask⟩ :=
      hFollow later entry earlier hSplit hLaunch
    have hLogged : mover ∈ pool.log := by
      rw [hSplit]
      exact List.mem_append_right _ (List.mem_cons_of_mem _ hMover)
    obtain ⟨after, hExec⟩ := exec_of_logged hRun hIdle hLogged
    obtain ⟨row, -, hRow, hState, -, -⟩ := row_of_movedTask hExec hMovedTask
    exact ⟨mover, hMover, hPid, hMovedTask, row, hRow, hState⟩
  · intro mover hMover hMovedTask
    -- two calls that have queued one task are one call
    obtain ⟨moverRequest, moverSession, hMoverSession⟩ :=
      session_of_logged hRun hIdle hMover
    obtain ⟨fact, hFact, hFactMoved⟩ :=
      moved_of_logged hMover hMoverSession hMovedTask
    exact movedOnce hRun hIdle _ _ _ _ _ _ hMoverSession hSession _ hFact _ hQueued _ _ _
      _ hFactMoved hMoved

/-- A launch of the sample task, up to the end of the lease, launches it once. -/
theorem sample_task_launched_once :
    ∃ pool : SchedulerPool,
      (pool.log.filter fun entry => entry.op.act.launches "task").length = 1 ∧
        (pool.log.filter fun entry => entry.op.act.launches "task").length ≤ 1 := by
  have hDriven : ((driver strictlyBefore).drive (fun _ _ _ => true)
      (.spawn ⟨sampleNode sampleStart [], 0, .startTask sampleTask⟩ ::
        List.replicate 15 (.run 0 { leaseId := "lease", primaryKey := "next" }))
      (samplePool false sampleTask)).any (fun pool =>
        (pool.log.filter fun entry => entry.op.act.launches "task").length = 1) =
      true := by decide +kernel
  obtain ⟨pool, hRun, hOnce⟩ := Driver.exists_run_of_drive (A := anySchedule)
    (fun _ _ _ _ => trivial) hDriven
  exact ⟨pool, by simpa using hOnce,
    (task_launched_at_most_once hRun (samplePool_idle _ _) "task").1⟩

end TernScheduler
