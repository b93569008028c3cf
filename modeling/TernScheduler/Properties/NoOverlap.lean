import TernScheduler.Controller.LeasedWork

/-!
# No overlap under always-skip

`shouldSkipTask` looks at the started tasks of a job before the launch, and the
task is marked as started only after it.  Under the lease nobody else starts a
task of the job in between, so with the strategy that always skips a task while
another runs, no two tasks of the job are started.

* `no_overlap` is the law, over the runs of `SkipsOverlaps`.
-/

namespace TernScheduler

open Interleaving Database

/-- Every node has the always-skip strategy registered under the name. -/
def registersAlwaysSkip (strategy : StrategyName) :
    RunCondition signature Database Request Settled :=
  fun _ event _ => ∀ request ∈ event.request,
    request.node.duplicateTaskReg.get strategy = .ok alwaysSkipDuplicateTaskStrategy

/-- The runs of the law: no lease is taken over from a call at work, tasks are
started as they are stored, and the name is registered as always-skip. -/
def skipsOverlaps (strategy : StrategyName) :
    RunCondition signature Database Request Settled :=
  fun pool event pool' => leasesRespected pool event pool' ∧
    startsStoredTasks pool event pool' ∧ registersAlwaysSkip strategy pool event pool'

variable {reading : BeforeDateReading} {clock : Date} {strategy : StrategyName}
  {pool : SchedulerPool}

/-- The job skips a task while another runs. -/
def SkipsWhileRunning (strategy : StrategyName) (db : Database) (pk : PrimaryKeyType) :
    Prop :=
  ∃ row, db.job pk = some row ∧ row.duplicateStrategy = strategy

/-- A call that marks a task as started has looked for a running one, in vain. -/
theorem knowsNone_of_puts_started {request : Request} {session : Session}
    {scope : Scope} {act : Act} {pk : PrimaryKeyType}
    (hMay : May request session ⟨scope, act⟩) (hSound : session.Sound)
    (hJob : session.job = some pk)
    (hStrategy : ∀ sched, session.sched = some sched →
      sched.duplicateStrategy = strategy)
    (hRegistered : request.node.duplicateTaskReg.get strategy =
      .ok alwaysSkipDuplicateTaskStrategy)
    (hPuts : act.Puts .started) : KnowsNone request session pk .started := by
  cases act with
  | createTask row =>
      obtain ⟨-, -, hPending, -⟩ := hMay
      have hStarted : row.state = .started := hPuts
      rw [hPending] at hStarted
      cases hStarted
  | updateTask taskPk newValues conditional =>
      obtain ⟨-, -, sched, task, old, new, hSched, -, -, -, -, hNew, hMove⟩ := hMay
      obtain rfl : new = .started := Option.some.inj (hNew.symm.trans hPuts)
      have hPk : sched.pk = pk := hSound.pk_eq pk sched hJob hSched
      generalize newValues.executionJobId = executionJobId at hMove
      cases hMove with
      | start jobId hCall hCleared =>
          obtain ⟨dup, found, answer, earlier, hDup, hSkip, hFacts⟩ := hCleared
          rw [hStrategy sched hSched, hRegistered] at hDup
          cases hDup
          -- The strategy let the task run, so it was shown no running task.
          have hFound : found = [] := by
            cases found with
            | nil => rfl
            | cons first rest => simp [alwaysSkipDuplicateTaskStrategy] at hSkip
          refine Or.inl ?_
          rw [hFacts, hFound, hPk]
          exact Or.inl ⟨Nat.one_pos, rfl, rfl⟩
      | abandon new hCall hState => rcases hState with h | h | h <;> cases h
      | finish new hState => rcases hState with h | h <;> cases h
  | _ => exact hPuts.elim

/-- **No overlap under always-skip.**  In every run in which no lease is taken
over while the work done under it still has store calls to make, no two tasks of
a job with the always-skip strategy are started. -/
theorem no_overlap
    (hRun : Run (scheduler reading) (skipsOverlaps strategy) (emptyPool clock) pool) :
    ∀ job ∈ pool.shared.scheduledJobTable, job.duplicateStrategy = strategy →
      ∀ row ∈ pool.shared.taskTable, ∀ row' ∈ pool.shared.taskTable,
        row.schedule = job.pk → row'.schedule = job.pk →
        row.state = .started → row'.state = .started → row = row' := by
  have hIdle := emptyPool_idle clock
  have hLeases : ∀ pool event pool', skipsOverlaps strategy pool event pool' →
      leasesRespected pool event pool' := fun _ _ _ h => h.1
  have hOne : AtMostOne .started (SkipsWhileRunning strategy) pool.shared := by
    refine atMostOne_of_knowledge hRun hLeases
      (fun pool hBefore => Or.inr (tasksStored hBefore hIdle fun _ _ _ h => h.2.1)) ?_ ?_
    · intro pool event pool' hMoves pk hStored hSkips
      -- the duplicate strategy of a job is never written
      obtain ⟨old, hOld⟩ := Option.ne_none_iff_exists'.mp hStored
      obtain ⟨row, hRow, hStrategy⟩ := hSkips
      obtain ⟨row', hRow', hKept⟩ := hMoves.definition_kept hOld
      obtain rfl : row = row' := Option.some.inj (hRow.symm.trans hRow')
      refine ⟨old, hOld, ?_⟩
      rw [← hStrategy]
      exact congrArg (·.duplicateStrategy) hKept.symm
    · intro pool pid request session leaseId pk act hBefore hWork hSkips hMay hPuts
      have hHolding := holding hBefore fun _ _ _ h => h.1.1
      obtain ⟨owned, hOwned, hOwner⟩ :=
        owned_atWork hBefore hLeases pid request session leaseId pk hWork
      obtain ⟨row, hRow, hStrategy⟩ := hSkips
      obtain rfl : owned = row := Option.some.inj (hOwned.symm.trans hRow)
      refine knowsNone_of_puts_started hMay (session_sound hBefore hIdle hWork.session_eq)
        hWork.job_eq (fun sched hSched => ?_)
        (request_of_session hBefore hIdle (fun _ _ _ h => h.2.2) pid request session
          hWork.session_eq) hPuts
      -- the row the call goes by is the stored one, as it has the lease
      have hCurrent : owned = sched := hHolding.current pid request session pk leaseId owned
        sched hWork.session_eq hWork.job_eq hWork.leaseId_eq (hWork.closed_eq hBefore hIdle)
        hSched hRow hOwner
      exact hCurrent ▸ hStrategy
  intro job hJob hStrategy row hRow row' hRow' hSchedule hSchedule' hStarted hStarted'
  have hKey : row.pk = row'.pk :=
    hOne row.pk row'.pk row row' (task_of_mem hRow) (task_of_mem hRow')
      (hSchedule.trans hSchedule'.symm) ⟨job, hSchedule ▸ job_of_mem hJob, hStrategy⟩
      hStarted hStarted'
  exact KeyedTable.Table.eq_of_key_eq hRow hRow' hKey

/-- A node is asked to start a task of the sample job, which keeps running if it
is launched. -/
private def askToStart (pid count : Nat) (task : TaskModel) (leaseId : LeaseIdType)
    (next : PrimaryKeyType) : List (Turn Request Answers) :=
  .spawn ⟨sampleNode sampleStart [], 1, .startTask task⟩ ::
    turns pid count { leaseId := leaseId, primaryKey := next }

/-- The sample task runs, another task of the job is skipped, and only the first
one is started. -/
theorem sample_no_overlap :
    ∃ pool : SchedulerPool,
      pool.shared.taskTable.rows.map (·.state) = [.started, .completed, .pending] ∧
      ∀ job ∈ pool.shared.scheduledJobTable, job.duplicateStrategy = "" →
        ∀ row ∈ pool.shared.taskTable, ∀ row' ∈ pool.shared.taskTable,
          row.schedule = job.pk → row'.schedule = job.pk →
          row.state = .started → row'.state = .started → row = row' := by
  have hDriven : ((driver strictlyBefore).drive
      (fun pool event pool' =>
        decide (freshLeaseIds pool event pool' ∧ noTakeover pool event pool' ∧
          startsStoredTasks pool event pool'))
      (createSample sampleStart ++ askToStart 1 15 sampleTask "first" "next" ++
        askToStart 2 13 (pendingTask "next" "job" 1 (some 1)) "second" "last") (emptyPool 0)).any
      (fun pool =>
        pool.shared.taskTable.rows.map (·.state) = [.started, .completed, .pending]) =
      true := by
    decide +kernel
  obtain ⟨pool, hRun, hStates⟩ := Driver.exists_run_of_turns (A := skipsOverlaps "")
    (fun turn hTurn _ event _ hTake hCheck => by
      obtain ⟨hFresh, hNone, hStored⟩ := of_decide_eq_true hCheck
      refine ⟨⟨hFresh, noTakeoverAtWork_of_noTakeover hNone⟩, hStored, fun request hRequest => ?_⟩
      cases event with
      | spawned other =>
          cases hRequest
          obtain rfl := Driver.spawn_of_take hTake
          simp [createSample, askToStart, turns] at hTurn
          rcases hTurn with rfl | rfl | rfl <;> rfl
      | _ => cases hRequest) hDriven
  exact ⟨pool, of_decide_eq_true hStates, no_overlap hRun⟩

end TernScheduler
