import TernScheduler.Controller.Isolation

/-!
# Isolation

`startTask`, `taskFinished` and `createScheduledJob` read and write the tasks of a schedule
in several store calls, and nothing but the lease keeps the calls of other nodes from coming
in between.

* `work_isolated`: when no lease is taken from a call at work, a call finds its schedule and
  the tasks of it as its own last operation left them.
-/

namespace TernScheduler

open Interleaving Database

variable {reading : BeforeDateReading} {clock : Date} {pool : SchedulerPool}

/-- The call that performed an operation has leased or created the job. -/
def HoldsJob (pool : SchedulerPool) (entry : SchedulerEntry) (schedule : PrimaryKeyType) :
    Prop :=
  ∃ request session, sessionOf pool entry.pid = some (request, session) ∧
    session.job = some schedule

/-- **A call at work has its schedule to itself.**  Take a store call made under a lease, and
the last operation of the same call before it, with any operations of other calls in between:
the row of the schedule and its tasks are the same in all the states in between. -/
theorem work_isolated
    (hRun : Run (scheduler reading) (leasesRespected.and startsStoredTasks) (emptyPool clock)
      pool) :
    ∀ newer work mid own older, pool.log = newer ++ work :: (mid ++ own :: older) →
      own.pid = work.pid → (∀ entry ∈ mid, entry.pid ≠ work.pid) →
        (∃ leaseId, WorksUnder leaseId work.op) →
          ∃ schedule, HoldsJob pool work schedule ∧
            ∀ entry ∈ mid, SameSchedule schedule entry.before work.before := by
  have hIdle := emptyPool_idle clock
  refine (isolates_schedules (fun _ _ _ => And.left) fun _ _ _ => And.right).isolated
    (C := fun work => ∃ leaseId, WorksUnder leaseId work.op) (G := HoldsJob) ?_ ?_ hRun hIdle
  · rintro pool ⟨pid, ⟨scope, act⟩, reply, before⟩ pool' hBefore hStep - ⟨leaseId, hScope, hStore⟩
    obtain rfl : scope = .callback leaseId := hScope
    obtain rfl : before = pool.shared := before_eq_of_step hStep
    cases moves_of_step hBefore hIdle hStep with
    | quiet _ _ _ _ hLog =>
        cases hStep
        exact absurd hLog (List.cons_ne_self _ _)
    | performed _ request session _ _ _ _ hSession hMay hExec hLog hSessions =>
        obtain ⟨schedule, hJob⟩ := Option.ne_none_iff_exists'.mp (hMay.1 leaseId rfl).2.1
        refine ⟨schedule, ⟨request, session, leaseId,
          atWork_of_performed hStep hSession hMay hStore hJob⟩, request, session.next act reply,
          ?_, hMay.keeps_job hJob⟩
        rw [hSessions, if_pos rfl]
  · rintro pool event pool' hBefore hStep entry schedule ⟨request, session, hSession, hJob⟩
    obtain ⟨session', hSession', -, hKept⟩ :=
      (moves_of_step hBefore hIdle hStep).session_persists hSession
    exact ⟨request, session', hSession', hKept schedule hJob⟩

/-- A node launches the sample task; while it does, another one creates a job and its first
task. -/
def createMeanwhile : List (Turn Request Answers) :=
  createSample sampleStart ++
    .spawn ⟨sampleNode sampleStart [], 1, .startTask sampleTask⟩ ::
      turns 1 4 { leaseId := "launch" } ++
    .spawn ⟨sampleNode sampleStart [], 1, .createScheduledJob sampleSchedule⟩ ::
      .run 2 { leaseId := "other" } :: .run 2 { primaryKey := "other" } ::
        turns 2 5 { primaryKey := "second" } ++ turns 1 3 {}

/-- The creation comes between two operations of the launch, which does not notice. -/
theorem sample_work_isolated :
    ∃ pool : SchedulerPool, (pool.log.take 11).map (·.pid) = [1, 1, 1, 2, 2, 2, 2, 2, 2, 2, 1] ∧
      ∀ newer work mid own older, pool.log = newer ++ work :: (mid ++ own :: older) →
        own.pid = work.pid → (∀ entry ∈ mid, entry.pid ≠ work.pid) →
          (∃ leaseId, WorksUnder leaseId work.op) →
            ∃ schedule, HoldsJob pool work schedule ∧
              ∀ entry ∈ mid, SameSchedule schedule entry.before work.before := by
  have hDriven : ((driver strictlyBefore).drive
      (fun pool event pool' => decide (freshLeaseIds pool event pool' ∧
        noTakeover pool event pool' ∧ startsStoredTasks pool event pool'))
      createMeanwhile (emptyPool 0)).any (fun pool =>
        decide ((pool.log.take 11).map (·.pid) = [1, 1, 1, 2, 2, 2, 2, 2, 2, 2, 1])) = true := by
    decide +kernel
  obtain ⟨pool, hRun, hPids⟩ := Driver.exists_run_of_drive
    (A := leasesRespected.and startsStoredTasks) (fun pool event pool' hCheck => by
      obtain ⟨hFresh, hNone, hStored⟩ := of_decide_eq_true hCheck
      exact ⟨⟨hFresh, noTakeoverAtWork_of_noTakeover hNone⟩, hStored⟩) hDriven
  exact ⟨pool, of_decide_eq_true hPids, work_isolated hRun⟩

end TernScheduler
