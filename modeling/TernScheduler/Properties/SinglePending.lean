import TernScheduler.Controller.LeasedWork

/-!
# At most one pending task per schedule

`addTaskDuplicateCheck` looks for pending tasks and adds one in two separate
steps, and a launch can get there twice.  The lease makes the two steps atomic:
nobody else adds a task of the job in between, and the call itself looks again.

* `single_pending_task` is the law, over runs in which no lease is taken over
  while the work done under it still has store calls to make.
-/

namespace TernScheduler

open Interleaving Database

variable {reading : BeforeDateReading} {clock : Date} {pool : SchedulerPool}

/-- **At most one pending task per schedule.**  In every run in which no lease is
taken over while the work done under it still has store calls to make, no two
tasks of one schedule are pending. -/
theorem single_pending_task
    (hRun : Run (scheduler reading) leasesRespected (emptyPool clock) pool) :
    ∀ row ∈ pool.shared.taskTable, ∀ row' ∈ pool.shared.taskTable,
      row.schedule = row'.schedule → row.state = .pending → row'.state = .pending →
      row = row' := by
  have hOne : AtMostOne .pending (fun _ _ => True) pool.shared := by
    refine atMostOne_of_knowledge hRun (fun _ _ _ h => h) (fun _ _ => Or.inl rfl)
      (fun _ _ _ _ _ _ _ => trivial) ?_
    intro pool pid request session leaseId pk act hBefore hWork _ hMay hPuts
    exact knowsNone_of_puts_pending hMay
      (session_sound hBefore (emptyPool_idle clock) hWork.session_eq) hWork.job_eq hPuts
  intro row hRow row' hRow' hSchedule hPending hPending'
  have hKey : row.pk = row'.pk :=
    hOne row.pk row'.pk row row' (task_of_mem hRow) (task_of_mem hRow') hSchedule trivial
      hPending hPending'
  exact KeyedTable.Table.eq_of_key_eq hRow hRow' hKey

/-- The launch of the sample task adds the next one, and it is the only pending
task. -/
theorem sample_single_pending :
    ∃ pool : SchedulerPool, pool.shared.taskTable.rows.length = 2 ∧
      ∀ row ∈ pool.shared.taskTable, ∀ row' ∈ pool.shared.taskTable,
        row.schedule = row'.schedule → row.state = .pending → row'.state = .pending →
        row = row' := by
  have hDriven : ((driver strictlyBefore).drive
      (fun pool event pool' =>
        decide (freshLeaseIds pool event pool' ∧ noTakeover pool event pool'))
      (createSample sampleStart ++
        .spawn ⟨sampleNode sampleStart [], 1, .startTask sampleTask⟩ ::
          turns 1 15 { leaseId := "start", primaryKey := "next" })
      (emptyPool 0)).any (fun pool => pool.shared.taskTable.rows.length = 2) = true := by
    decide +kernel
  obtain ⟨pool, hRun, hLength⟩ := Driver.exists_run_of_drive (A := leasesRespected)
    (fun _ _ _ hCheck => (of_decide_eq_true hCheck).imp_right noTakeoverAtWork_of_noTakeover)
    hDriven
  exact ⟨pool, of_decide_eq_true hLength, single_pending_task hRun⟩

end TernScheduler
