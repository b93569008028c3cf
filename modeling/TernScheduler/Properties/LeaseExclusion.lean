import TernScheduler.Controller.LeaseLedger

/-!
# A lease excludes other work

A lease expires `leaseTimeSeconds` after the time its call was given, not after the
moment its lease write is applied.  A call that waited for the lease, as every retry
does, writes an expiry that ends its lease early, and another node may take the job
over while the first still works within its time.

* `lease_excludes` is the law, over runs in which no such lease is taken over early.
* `late_lease_shared` is a run with one retry in which two calls work on one job.
-/

namespace TernScheduler

open Interleaving Database Leasing

variable {α : Type} {pool : RunnerPool α} {clock : Date} {pid pid' : Nat}
  {pk : PrimaryKeyType}

/-- The operation is made by work under a lease. -/
def atLeasedWork : Prog signature (Except JsError (Option α)) → Bool
  | .call operation _ => operation.scope.lease.isSome
  | .ret _ => false

/-- The call stands inside its callback or its repair: the operation it makes next
belongs to the work it does under its lease. -/
def inside (pool : RunnerPool α) (pid : Nat) : Bool :=
  (pool.procs[pid]?.bind (·.prog)).any atLeasedWork

/-- The call stands inside its callback or its repair for the given job. -/
def InsideFor (pool : RunnerPool α) (pid : Nat) (pk : PrimaryKeyType) : Prop :=
  inside pool pid = true ∧
    ∃ entry ∈ pool.log, entry.pid = pid ∧ entry.op.act.granted entry.reply = some pk

instance (pool : RunnerPool α) (pid : Nat) (pk : PrimaryKeyType) :
    Decidable (InsideFor pool pid pk) := by
  unfold InsideFor
  infer_instance

/-- Work under a lease is over within the lease time of its lease write. -/
def timely : RunCondition signature Database (LeaseRequest α)
    (Except JsError (Option α)) :=
  fun _ _ pool' => ∀ entry ∈ pool'.log, entry.op.act.granted entry.reply ≠ none →
    inside pool' entry.pid = true → ∀ request ∈ requestOf pool' entry.pid,
      pool'.shared.clock ≤ entry.before.clock + request.leaseTime

/-- What is assumed of every run: clocks agree, lease ids are unique, and work is
over in time. -/
def wellTimed : RunCondition signature Database (LeaseRequest α)
    (Except JsError (Option α)) :=
  fun pool event pool' => clocksAgree pool event pool' ∧
    freshLeaseIds pool event pool' ∧ timely pool event pool'

/-- A call inside its work has a running term. -/
theorem running_of_inside {ledger : Ledger PrimaryKeyType LeaseIdType Date}
    {A : RunCondition signature Database (LeaseRequest α) (Except JsError (Option α))}
    (hRun : Run (leaseRunners α strictlyBefore) A (.start (.empty clock)) pool)
    (hRecords : Records pool ledger)
    (hTimely : ∀ entry ∈ pool.log, entry.op.act.granted entry.reply ≠ none →
      inside pool entry.pid = true → ∀ request ∈ requestOf pool entry.pid,
        pool.shared.clock ≤ entry.before.clock + request.leaseTime)
    (hInside : InsideFor pool pid pk) :
    ∃ request tenure leaseId, tenureOf pool pid = some (request, tenure) ∧
      tenure.leaseId = some leaseId ∧ ledger.Running leaseId pk := by
  have hIdle : (Pool.start (.empty clock) : RunnerPool α).Idle := Pool.start_idle _
  obtain ⟨hNext, given, hGiven, rfl, hGranted⟩ := hInside
  obtain ⟨request, tenure, hTenure, hJob⟩ := job_of_granted hRun hIdle given hGiven pk hGranted
  -- The operation it makes next is one its protocol allows under its lease.
  obtain ⟨program, hProgram, hAt⟩ := (Option.any_eq_true _ _).mp hNext
  obtain ⟨⟨other, live⟩, hProc, rfl⟩ := Option.bind_eq_some_iff.mp hProgram
  have hState : tenureOf pool given.pid = some (other, _) := Pool.stateOf_eq_some hProc
  obtain ⟨rfl, rfl⟩ := Prod.mk.inj (Option.some.inj (hTenure.symm.trans hState))
  have hHonors := tenancy_of_run hRun hIdle given.pid request program hProc
  cases program with
  | ret value => cases hAt
  | call operation next =>
      obtain ⟨leaseId, hScope⟩ := Option.isSome_iff_exists.mp hAt
      obtain ⟨-, hLeaseId, -, hOpen⟩ := hHonors.1.2 leaseId hScope
      have hAccount := hRecords.accounted given.pid request _ leaseId hTenure hLeaseId
      obtain ⟨entry, hEntry, hPid, hTook, -, hTerm⟩ := hAccount.granted pk hJob
      refine ⟨request, _, leaseId, hTenure, hLeaseId, _, hTerm, ?_, ?_⟩
      · rw [hAccount.stopped, hOpen]
        simp
      · rw [hRecords.clock]
        refine hTimely entry hEntry (by simp [hTook]) (hPid ▸ hNext) request ?_
        rw [hPid]
        exact requestOf_of_tenure hTenure

/-- **Mutual exclusion under the lease.**  In a well timed run in which takeovers wait
their turn, no two calls are inside their work for the same job. -/
theorem lease_excludes
    (hRun : Run (leaseRunners α strictlyBefore)
      (fun pool event pool' => wellTimed pool event pool' ∧ takeoversInTurn pool event pool')
      (.start (.empty clock)) pool)
    (hInside : InsideFor pool pid pk) (hOther : InsideFor pool pid' pk) : pid = pid' := by
  have hIdle : (Pool.start (.empty clock) : RunnerPool α).Idle := Pool.start_idle _
  have hInTurn := hRun.mono (B := leasesInTurn) fun _ _ _ h => ⟨h.1.1, h.1.2.1, h.2⟩
  obtain ⟨ledger, hReachable, hRecords⟩ := ledger_of_run hInTurn
  have hDistinct := tenures_distinct hInTurn hIdle fun _ _ _ h => h.2.1
  have hTimely : ∀ entry ∈ pool.log, entry.op.act.granted entry.reply ≠ none →
      inside pool entry.pid = true → ∀ request ∈ requestOf pool entry.pid,
        pool.shared.clock ≤ entry.before.clock + request.leaseTime := by
    cases hRun with
    | refl => exact fun entry hEntry => absurd hEntry List.not_mem_nil
    | tail _ _ hLast => exact hLast.1.2.2
  obtain ⟨request, tenure, leaseId, hTenure, hLeaseId, hRunning⟩ :=
    running_of_inside hInTurn hRecords hTimely hInside
  obtain ⟨request', tenure', leaseId', hTenure', hLeaseId', hRunning'⟩ :=
    running_of_inside hInTurn hRecords hTimely hOther
  obtain rfl := Ledger.exclusive_of_reachable hReachable hRunning hRunning'
  exact hDistinct pid pid' request request' tenure tenure' leaseId hTenure hTenure' hLeaseId
    hLeaseId'

/-! ## Runs of the sample job -/

instance (pool : RunnerPool α) (event : Event signature Database (LeaseRequest α))
    (pool' : RunnerPool α) : Decidable (wellTimed pool event pool') := by
  unfold wellTimed clocksAgree timely
  infer_instance

instance (pool : RunnerPool α) (grant : SchedulerEntry) : Decidable (MayPassOn pool grant) := by
  unfold MayPassOn LeaseRequest.Punctual
  infer_instance

instance (pool : RunnerPool α) (event : Event signature Database (LeaseRequest α))
    (pool' : RunnerPool α) : Decidable (takeoversInTurn pool event pool') := by
  unfold takeoversInTurn
  infer_instance

/-- Work that emits one event. -/
private def oneEvent : ConfinedWork Unit where
  run sched _ := do
    emit (.scheduledJobDisabled sched)
    pure (.value { value := () })
  confined _ _ := Promise.uses_bind (Promise.uses_perform (by trivial) _) fun _ => trivial

/-- Calls of a node that retries a lease after nine seconds. -/
private def runnerSample (now : Date) (call : LeaseCall Unit) : LeaseRequest Unit :=
  ⟨sampleNode sampleFinish [9], now, call⟩

private def runnerTurns (pid count : Nat) (answers : Answers) :
    List (Turn (LeaseRequest Unit) Answers) :=
  List.replicate count (.run pid answers)

/-- A node creates the sample job and works on it. -/
private def createUnderLease : List (Turn (LeaseRequest Unit) Answers) :=
  .spawn (runnerSample 0 (.createScheduledJobAlone sampleSchedule oneEvent)) ::
    .run 0 { leaseId := "create" } :: .run 0 { primaryKey := "job" } ::
      runnerTurns 0 2 { primaryKey := "task" }

/-- The creator of the job is done but has not released it when its lease expires,
and a repair takes the job over. -/
private def repairSample : List (Turn (LeaseRequest Unit) Answers) :=
  createUnderLease ++ runnerTurns 0 1 {} ++ [.drift { time := 10001 },
    .spawn (runnerSample 10001 (.repairExpiredSchedule (sampleJob false).toScheduledJobModel))] ++
    runnerTurns 1 4 { leaseId := "repair" }

/-- The repair alone is inside its work for the job it took over. -/
theorem sample_lease_excludes :
    ∃ pool : RunnerPool Unit,
      Run (leaseRunners Unit strictlyBefore)
        (fun pool event pool' => wellTimed pool event pool' ∧
          takeoversInTurn pool event pool') (.start (.empty 0)) pool ∧
        InsideFor pool 1 "job" ∧ ∀ pid, InsideFor pool pid "job" → pid = 1 := by
  have hDriven : ((driverOver strictlyBefore LeaseRequest.program).drive
      (fun pool event pool' => decide (wellTimed pool event pool' ∧
        takeoversInTurn pool event pool')) repairSample (.start (.empty 0))).any
      (fun pool => decide (InsideFor pool 1 "job")) = true := by
    decide +kernel
  obtain ⟨pool, hRun, hTest⟩ := Driver.exists_run_of_drive
    (A := fun pool event pool' => wellTimed pool event pool' ∧
      takeoversInTurn pool event pool') (fun _ _ _ => of_decide_eq_true) hDriven
  have hInside := of_decide_eq_true hTest
  exact ⟨pool, hRun, hInside, fun pid hOther => lease_excludes hRun hOther hInside⟩

/-- A call waits nine seconds for the lease of the sample job and starts to work; two
seconds later its lease has expired, a repair takes the job over and gives it back,
and another call is granted the lease. -/
private def lateSample : List (Turn (LeaseRequest Unit) Answers) :=
  createUnderLease ++
    [.spawn (runnerSample 0 (.runUpdateInLease .startTask "job" none oneEvent))] ++
    runnerTurns 1 3 { leaseId := "late" } ++ runnerTurns 0 2 {} ++
    [.drift { time := 9000 }] ++ runnerTurns 1 3 {} ++ [.drift { time := 10001 },
    .spawn (runnerSample 10001
      (.repairExpiredSchedule (sampleJob false).toScheduledJobModel))] ++
    runnerTurns 2 5 { leaseId := "repair" } ++
    [.spawn (runnerSample 10001 (.runUpdateInLease .startTask "job" none oneEvent))] ++
    runnerTurns 3 3 { leaseId := "next" }

/-- **A late lease is shared.**  The lease of a call that waited for it is taken over
while the call works within its time. -/
theorem late_lease_shared :
    ¬ ∀ (pool : RunnerPool Unit) (pid pid' : Nat) (pk : PrimaryKeyType),
      Run (leaseRunners Unit strictlyBefore) wellTimed (.start (.empty 0)) pool →
        InsideFor pool pid pk → InsideFor pool pid' pk → pid = pid' := by
  intro hLaw
  have hDriven : ((driverOver strictlyBefore LeaseRequest.program).drive
      (fun pool event pool' => decide (wellTimed pool event pool')) lateSample
        (.start (.empty 0))).any
      (fun pool => decide (InsideFor pool 1 "job" ∧ InsideFor pool 3 "job")) = true := by
    decide +kernel
  obtain ⟨pool, hRun, hTest⟩ := Driver.exists_run_of_drive (A := wellTimed)
    (fun _ _ _ => of_decide_eq_true) hDriven
  obtain ⟨hLate, hNext⟩ := of_decide_eq_true hTest
  have hSame : 1 = 3 := hLaw pool 1 3 "job" hRun hLate hNext
  omega

end TernScheduler
