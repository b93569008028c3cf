import TernScheduler.Datastore.LeaseMethods

/-!
# What a repair remembers

A repair reads the row of a job, and writes the operation that was interrupted in a
second call whose condition tests the expiry alone.

* `Remembers` is what the lease columns of a row tell of the leases granted so far.
* `repair_remembers` says that a repaired row tells the operation that was
  interrupted, when no repair acts on a stale copy of the row.
* `stale_repair_forgets` is a run in which one does.
-/

namespace TernScheduler

open Interleaving Database

/-! ## The leases granted so far -/

/-- The operation a lease of the job is granted for, when a call grants one that is
not a repair. -/
def Act.operationGranted (pk : PrimaryKeyType) :
    (act : Act) → act.Reply → Option ScheduleUpdateStateType
  | .createSchedule row, .ok _ =>
      if row.pk = pk then row.updateState.filter (· ≠ .repair) else none
  | .updateSchedule jobPk newValues _, .ok (_ + 1) =>
      if jobPk = pk then newValues.updateState.join.filter (· ≠ .repair) else none
  | _, _ => none

/-- The operation of the last lease granted on a job, repairs left out. -/
def lastOperation (pk : PrimaryKeyType) (log : List SchedulerEntry) :
    Option ScheduleUpdateStateType :=
  log.findSome? fun entry => entry.op.act.operationGranted pk entry.reply

/-- The call found a job. -/
def Act.foundJob : (act : Act) → act.Reply → Bool
  | .findSchedules .., .ok (_ :: _) => true
  | _, _ => false

/-- The operations performed by the time a call last found its job. -/
def untilRead (pid : Nat) (log : List SchedulerEntry) : List SchedulerEntry :=
  log.dropWhile fun entry => ¬ (entry.pid = pid ∧ entry.op.act.foundJob entry.reply)

/-- The operation a call asks for the lease of a job for, unless it is a repair. -/
def MethodCall.operation (call : MethodCall) : Option ScheduleUpdateStateType :=
  match call.method with
  | .addScheduledJobModel .. => some .addTask
  | .leaseScheduledJob _ updateOperation _ => some updateOperation |>.filter (· ≠ .repair)
  | _ => none

section Log

variable {pk : PrimaryKeyType} {pid : Nat} {entry : SchedulerEntry}
  {log : List SchedulerEntry}

theorem lastOperation_cons_none
    (hNone : entry.op.act.operationGranted pk entry.reply = none) :
    lastOperation pk (entry :: log) = lastOperation pk log := by
  simp [lastOperation, hNone]

theorem lastOperation_cons_some {operation : ScheduleUpdateStateType}
    (hSome : entry.op.act.operationGranted pk entry.reply = some operation) :
    lastOperation pk (entry :: log) = some operation := by
  simp [lastOperation, hSome]

theorem untilRead_cons_of_not
    (hNot : ¬ (entry.pid = pid ∧ entry.op.act.foundJob entry.reply = true)) :
    untilRead pid (entry :: log) = untilRead pid log := by
  simp [untilRead, List.dropWhile_cons, hNot]

end Log

/-- A call that leaves the schedule table as it is grants no lease. -/
theorem Act.operationGranted_eq_none {act : Act} {reply : act.Reply} (pk : PrimaryKeyType)
    (hNone : ¬ act.WroteSchedule reply) : act.operationGranted pk reply = none := by
  cases act with
  | createSchedule row =>
      cases reply with
      | ok done => exact absurd trivial hNone
      | error e => rfl
  | updateSchedule jobPk newValues conditional =>
      rcases reply with e | _ | count
      · rfl
      · rfl
      · exact absurd trivial hNone
  | _ => rfl

variable {reading : BeforeDateReading} {call : MethodCall} {state : MethodState}

/-- The lease a method grants when it writes. -/
theorem MethodMay.operationGranted {act : Act} {reply : act.Reply}
    (hMay : MethodMay call state act) (hWrote : act.WroteSchedule reply)
    (pk : PrimaryKeyType) :
    act.operationGranted pk reply = if call.jobPk = pk then call.operation else none := by
  cases act with
  | createSchedule row =>
      obtain ⟨-, scheduledJob, schedPk, createdTaskPk, hMethod, rfl⟩ := hMay
      cases reply with
      | error e => exact hWrote.elim
      | ok done =>
          simp [Act.operationGranted, MethodCall.jobPk, MethodCall.operation, hMethod, leasedRow,
            newScheduledJobModel, Option.filter_some]
  | updateSchedule jobPk newValues conditional =>
      obtain ⟨-, rfl, hUpdate⟩ := hMay
      rcases reply with e | _ | count
      · exact hWrote.elim
      · exact hWrote.elim
      · show (if call.jobPk = pk then _ else none) = _
        congr 1
        -- each method writes one patch, with the operation it is called for
        unfold MayUpdate at hUpdate
        split at hUpdate
        · exact hUpdate.elim
        · rename_i hMethod
          simp [hUpdate.1, leasePatch, MethodCall.operation, hMethod]
        · rename_i hMethod
          simp [hUpdate.1, releasePatch, MethodCall.operation, hMethod]
        · rename_i hMethod
          obtain ⟨src, -, rfl, -⟩ := hUpdate
          simp [repairPatch, MethodCall.operation, hMethod]
        · rename_i hMethod
          simp [hUpdate.1, needsRepairPatch, MethodCall.operation, hMethod]
  | _ => exact hWrote.elim

/-! ## What a row tells -/

/-- What the columns of a row tell of the last lease that was granted on it: the
operation in `updateState`, and once a repair overwrote that, in `repairState`. -/
structure Remembers (last : Option ScheduleUpdateStateType) (row : ScheduledJobDataModel) :
    Prop where
  free : row.updateState = none → row.repairState = none
  leased : ∀ operation, row.updateState = some operation → operation ≠ .repair →
    row.repairState = none ∧ last = some operation
  repaired : row.updateState = some .repair →
    ∃ operation, operation ≠ .repair ∧ last = some operation ∧
      row.repairState = some operation.text

/-- The state a repair writes is the operation the row it read tells. -/
theorem Remembers.previousState {last : Option ScheduleUpdateStateType}
    {row : ScheduledJobDataModel} (hRow : Remembers last row) (hHeld : row.updateState ≠ none) :
    ∃ operation, operation ≠ .repair ∧ last = some operation ∧
      previousState row = some operation.text := by
  obtain ⟨operation, hOperation⟩ := Option.ne_none_iff_exists'.mp hHeld
  by_cases hRepair : operation = .repair
  · subst hRepair
    obtain ⟨interrupted, hNe, hLast, hRepairState⟩ := hRow.repaired hOperation
    refine ⟨interrupted, hNe, hLast, ?_⟩
    have hText : interrupted.text ≠ "" := by cases interrupted <;> decide
    simp [TernScheduler.previousState, orNull, hRepairState, hText]
  · obtain ⟨hRepairState, hLast⟩ := hRow.leased operation hOperation hRepair
    exact ⟨operation, hRepair, hLast, by
      simp [TernScheduler.previousState, orNull, hRepairState, hOperation]⟩

/-- What a call must know before it writes a row.  A lease is not asked for a repair,
and a repair found the job leased, for the operation it is still leased for. -/
def Informed (pool : MethodPool) (pid : Nat) (call : MethodCall) (state : MethodState) :
    Prop :=
  match call.method with
  | .leaseScheduledJob _ updateOperation _ => updateOperation ≠ .repair
  | .repairExpiredLeaseForScheduledJob jobPk =>
      (∃ src ∈ state.read, src.updateState ≠ none) ∧
        lastOperation jobPk (untilRead pid pool.log) = lastOperation jobPk pool.log
  | _ => True

/-- Every call that writes is informed. -/
def writersInformed : RunCondition signature Database MethodCall MethodResult :=
  fun pool event _ => ∀ entry ∈ event.entry, entry.op.act.WroteSchedule entry.reply →
    ∀ caller ∈ methodOf pool entry.pid, Informed pool entry.pid caller.1 caller.2

instance (pool : MethodPool) (pid : Nat) (call : MethodCall) (state : MethodState) :
    Decidable (Informed pool pid call state) := by
  unfold Informed
  split <;> infer_instance

instance : (act : Act) → (reply : act.Reply) → Decidable (act.WroteSchedule reply)
  | .createSchedule _, .ok _ | .updateSchedule .., .ok (_ + 1) => isTrue trivial
  | .createSchedule _, .error _ | .updateSchedule .., .error _ => isFalse id
  | .updateSchedule .., .ok 0 => isFalse id
  | .findSchedules .., _ | .createTask _, _ | .findTasks .., _ => isFalse id
  | .updateTask .., _ | .startJob .., _ | .currentTimeUTC, _ => isFalse id
  | .createPrimaryKey, _ | .createLeaseId, _ => isFalse id
  | .retryDelay _, _ | .emit _, _ => isFalse id

instance (pool : MethodPool) (event : Event signature Database MethodCall)
    (pool' : MethodPool) : Decidable (writersInformed pool event pool') := by
  unfold writersInformed
  infer_instance

/-- A write of an informed call leaves a row that tells the last lease. -/
theorem RowWrite.remembers {pool : MethodPool} {pid : Nat}
    {stored : Option ScheduledJobDataModel} {row : ScheduledJobDataModel}
    {entry : SchedulerEntry} (hWrite : RowWrite reading call state stored row)
    (hGranted : entry.op.act.operationGranted call.jobPk entry.reply = call.operation)
    (hInformed : Informed pool pid call state)
    (hRead : ∀ src, state.read = some src →
      Remembers (lastOperation call.jobPk (untilRead pid pool.log)) src)
    (hOld : ∀ old, stored = some old →
      Remembers (lastOperation call.jobPk pool.log) old) :
    Remembers (lastOperation call.jobPk (entry :: pool.log)) row := by
  cases hWrite with
  | added scheduledJob schedPk createdTaskPk hMethod =>
      have hLast : lastOperation call.jobPk (entry :: pool.log) = some .addTask :=
        lastOperation_cons_some (hGranted.trans (by simp [MethodCall.operation, hMethod]))
      constructor <;> simp [leasedRow, newScheduledJobModel, hLast]
  | leased jobPk updateOperation updateTaskPk old hMethod hFree =>
      have hNe : updateOperation ≠ .repair := by simpa [Informed, hMethod] using hInformed
      have hRepairState := (hOld old rfl).free hFree
      have hLast : lastOperation call.jobPk (entry :: pool.log) = some updateOperation := by
        refine lastOperation_cons_some (hGranted.trans ?_)
        simp [MethodCall.operation, hMethod, Option.filter_some, hNe]
      constructor <;> simp [leasePatch, ScheduledJobPatch.apply, hRepairState, hNe, hLast]
  | released jobPk pasture pastureReason old hMethod hHeld hOwner =>
      constructor <;> simp [releasePatch, ScheduledJobPatch.apply]
  | repaired jobPk src old expires hMethod hSource hHeld hExpires hExpired =>
      have hPk : call.jobPk = jobPk := by simp [MethodCall.jobPk, hMethod]
      have hKnows : (∃ src ∈ state.read, src.updateState ≠ none) ∧
          lastOperation jobPk (untilRead pid pool.log) = lastOperation jobPk pool.log := by
        simpa only [Informed, hMethod] using hInformed
      rw [lastOperation_cons_none (hGranted.trans (by simp [MethodCall.operation, hMethod]))]
      -- The row that was read still tells the lease that is interrupted now.
      obtain ⟨⟨found, hFound, hLeased⟩, hSame⟩ := hKnows
      obtain rfl := Option.some.inj (hSource.symm.trans hFound)
      obtain ⟨operation, hNe, hLast, hPrevious⟩ := (hRead src hSource).previousState hLeased
      rw [hPk, hSame] at hLast
      constructor
      · simp [repairPatch, ScheduledJobPatch.apply]
      · simp [repairPatch, ScheduledJobPatch.apply]
      · exact fun _ => ⟨operation, hNe, hPk ▸ hLast, hPrevious⟩
  | marked jobPk pasture pastureReason old hMethod hHeld hOwner =>
      rw [lastOperation_cons_none (hGranted.trans (by simp [MethodCall.operation, hMethod]))]
      have hBefore := hOld old rfl
      constructor
      · exact hBefore.free
      · exact hBefore.leased
      · exact hBefore.repaired

/-! ## Runs -/

/-- Every row tells the last lease that was granted on it, and so did every row that
a call still has a copy of. -/
structure MemoryKept (pool : MethodPool) : Prop where
  rows : ∀ pk row, pool.shared.job pk = some row →
    Remembers (lastOperation pk pool.log) row
  copies : ∀ pid call state src, methodOf pool pid = some (call, state) →
    state.read = some src →
      Remembers (lastOperation call.jobPk (untilRead pid pool.log)) src

variable {A : RunCondition signature Database MethodCall MethodResult}
  {first pool pool' : MethodPool} {event : Event signature Database MethodCall}
  {clock : Date} {pid : Nat}

/-- The copy a call has after an operation: the row it found, or the copy it had. -/
theorem MethodState.read_next {act : Act} {reply : act.Reply} {db after : Database}
    (hMay : MethodMay call state act) (hExec : Exec reading db act reply after) :
    (act.foundJob reply = true ∧
        ∃ row, db.job call.jobPk = some row ∧ (state.next act reply).read = some row) ∨
      (act.foundJob reply = false ∧ (state.next act reply).read = state.read) := by
  cases act with
  | findSchedules startIndex maximumRecordCount conditional =>
      obtain ⟨rfl, rfl, rfl, -⟩ := hMay
      rcases reply with e | _ | ⟨row, rest⟩
      · exact Or.inr ⟨rfl, rfl⟩
      · exact Or.inr ⟨rfl, rfl⟩
      · have hRows := hExec.findSchedules_pk
        cases hJob : db.job call.jobPk with
        | none =>
            rw [hJob] at hRows
            cases hRows
        | some stored =>
            rw [hJob] at hRows
            cases hRows
            exact Or.inl ⟨rfl, row, rfl, rfl⟩
  | createSchedule row => cases reply <;> exact Or.inr ⟨rfl, rfl⟩
  | updateSchedule pk newValues conditional =>
      rcases reply with e | _ | count <;> exact Or.inr ⟨rfl, rfl⟩
  | _ => exact Or.inr ⟨rfl, rfl⟩

/-- A step of informed calls keeps the memory. -/
theorem MemoryKept.next
    (hMoves : pool.Moves (leaseMethods reading) methodProtocol (fun _ => {}) event pool')
    (hInformed : writersInformed pool event pool') (hKept : MemoryKept pool) :
    MemoryKept pool' := by
  cases hMoves with
  | quiet _ _ hShared hLog _ hNew =>
      constructor
      · intro pk row hRow
        rw [hLog]
        exact hKept.rows pk row ((Database.tables_of_quiet hShared).1 pk ▸ hRow)
      · intro pid call state src hMethod hRead
        rw [hLog]
        rcases hNew pid call state hMethod with hOld | ⟨-, rfl⟩
        · exact hKept.copies pid call state src hOld hRead
        · cases hRead
  | performed actor call state op reply _ hActor hMay hExec hLog hStates =>
      have hCopy := hKept.copies actor call state
      have hRows : ∀ pk row, pool'.shared.job pk = some row →
          Remembers (lastOperation pk pool'.log) row := by
        intro pk row hRow
        rw [hLog]
        cases MethodMay.effect hMay hExec with
        | kept hNone _ hJobs =>
            rw [lastOperation_cons_none (Act.operationGranted_eq_none pk hNone)]
            exact hKept.rows pk row (hJobs pk ▸ hRow)
        | wrote new hWrote _ _ hWrite hJobs =>
            rw [hJobs] at hRow
            split at hRow
            · rename_i hPk
              subst hPk
              cases hRow
              exact hWrite.remembers ((hMay.operationGranted hWrote _).trans (if_pos rfl))
                (hInformed _ rfl hWrote _ hActor) (fun src hRead => hCopy src hActor hRead)
                (hKept.rows call.jobPk)
            · rename_i hPk
              rw [lastOperation_cons_none ((hMay.operationGranted hWrote pk).trans
                (if_neg (Ne.symm hPk)))]
              exact hKept.rows pk row hRow
      refine ⟨hRows, fun pid other after src hMethod hRead => ?_⟩
      rw [hLog]
      rw [methodOf, hStates] at hMethod
      split at hMethod
      · rename_i hPid
        subst hPid
        cases hMethod
        -- the call has read its row by this step, or its copy is an older one
        rcases MethodState.read_next hMay hExec with
          ⟨hFound, row, hJob, hNow⟩ | ⟨hNone, hSame⟩
        · rw [untilRead, List.dropWhile_cons_of_neg (by simp [hFound]),
            lastOperation_cons_none]
          · obtain rfl := Option.some.inj (hNow.symm.trans hRead)
            exact hKept.rows call.jobPk _ hJob
          · refine Act.operationGranted_eq_none _ fun hWrote => ?_
            obtain ⟨scope, act⟩ := op
            cases act <;> first | exact hWrote | cases hFound
        · rw [untilRead_cons_of_not (by simp [hNone])]
          exact hCopy src hActor (hSame.symm.trans hRead)
      · rename_i hPid
        rw [untilRead_cons_of_not fun hBoth => hPid hBoth.1.symm]
        exact hKept.copies pid other after src hMethod hRead

/-- **Repair remembers what was interrupted.**  While every call that writes is
informed, a row in repair tells the operation of the last lease that was granted
before the repairs began. -/
theorem repair_remembers
    (hRun : Run (leaseMethods reading) writersInformed (.start (.empty clock)) pool)
    (pk : PrimaryKeyType) (row : ScheduledJobDataModel)
    (hRow : pool.shared.job pk = some row) (hRepair : row.updateState = some .repair) :
    ∃ operation, operation ≠ .repair ∧ lastOperation pk pool.log = some operation ∧
      row.repairState = some operation.text := by
  have hIdle : (Pool.start (.empty clock) : MethodPool).Idle := Pool.start_idle _
  have hKept : MemoryKept pool := by
    refine hRun.invariant (I := MemoryKept)
      ⟨fun _ _ hNone => (by cases hNone), fun _ _ _ _ hNone => (by cases hNone)⟩
      fun pool event pool' hBefore hKept hStep hInformed => ?_
    exact hKept.next (moves_of_method hBefore hIdle hStep) hInformed
  exact (hKept.rows pk row hRow).repaired hRepair

/-! ## Concrete runs -/

private def memoryCall (leaseId : LeaseIdType) (now : Date) (method : LeaseMethod) :
    Turn MethodCall Answers :=
  .spawn ⟨.utc, leaseId, now, 10, method⟩

/-- A job is added, its lease expires, and a repair reads the row. -/
private def expiredAndRead : List (Turn MethodCall Answers) :=
  [memoryCall "create" 0 (.addScheduledJobModel sampleSchedule "job" "task"), .run 0 {},
    .drift { time := 10001 },
    memoryCall "repair" 10001 (.repairExpiredLeaseForScheduledJob "job"), .run 1 {}]

/-- The repair of a job whose creation was interrupted remembers that. -/
theorem sample_repair_remembers :
    ∃ pool : MethodPool,
      Run (leaseMethods strictlyBefore) writersInformed (.start (.empty 0)) pool ∧
        ∃ row, pool.shared.job "job" = some row ∧ row.updateState = some .repair ∧
          ∃ operation, operation ≠ .repair ∧
            lastOperation "job" pool.log = some operation ∧
              row.repairState = some operation.text := by
  have hDriven : ((driverOver strictlyBefore MethodCall.program).drive
      (fun pool event pool' => decide (writersInformed pool event pool'))
        (expiredAndRead ++ [.run 1 {}]) (.start (.empty 0))).any
      (fun pool => decide (∃ row ∈ pool.shared.job "job",
        row.updateState = some .repair)) = true := by
    decide +kernel
  obtain ⟨pool, hRun, hTest⟩ := Driver.exists_run_of_drive (A := writersInformed)
    (fun _ _ _ => of_decide_eq_true) hDriven
  obtain ⟨row, hRow, hRepair⟩ := of_decide_eq_true hTest
  exact ⟨pool, hRun, row, hRow, hRepair, repair_remembers hRun "job" row hRow hRepair⟩

/-- The lease is asked for a repair. -/
def MethodCall.leasesForRepair (call : MethodCall) : Bool :=
  match call.method with
  | .leaseScheduledJob _ updateOperation _ => updateOperation = .repair
  | _ => false

/-- Each call is given a time its node had read by then, and no lease is asked for a
repair. -/
def timelyCalls : RunCondition signature Database MethodCall MethodResult :=
  fun pool event _ => ∀ call ∈ event.request,
    call.now ≤ pool.shared.clock ∧ call.leasesForRepair = false

instance (pool : MethodPool) (event : Event signature Database MethodCall)
    (pool' : MethodPool) : Decidable (timelyCalls pool event pool') := by
  unfold timelyCalls
  infer_instance

/-- After the repair has read the row, the creator releases the job, and a call that
had waited for the lease is granted it until a time that has passed. -/
private def releasedAndLeased : List (Turn MethodCall Answers) :=
  expiredAndRead ++
    [memoryCall "create" 10001 (.releaseScheduledJobLease "job" false none), .run 2 {},
    memoryCall "late" 0 (.leaseScheduledJob "job" .startTask (some "task")), .run 3 {}, .run 1 {}]

/-- **A stale repair forgets.**  The repair takes the lease of a task start over, and
records that the creation of the job was interrupted. -/
theorem stale_repair_forgets :
    ¬ ∀ (pool : MethodPool) (pk : PrimaryKeyType) (row : ScheduledJobDataModel),
      Run (leaseMethods strictlyBefore) timelyCalls (.start (.empty 0)) pool →
        pool.shared.job pk = some row → row.updateState = some .repair →
          ∃ operation, operation ≠ .repair ∧
            lastOperation pk pool.log = some operation ∧
              row.repairState = some operation.text := by
  intro hLaw
  have hDriven : ((driverOver strictlyBefore MethodCall.program).drive
      (fun pool event pool' => decide (timelyCalls pool event pool')) releasedAndLeased
        (.start (.empty 0))).any
      (fun pool => decide (lastOperation "job" pool.log = some .startTask ∧
        ∃ row ∈ pool.shared.job "job", row.updateState = some .repair ∧
          row.repairState = some ScheduleUpdateStateType.addTask.text)) = true := by
    decide +kernel
  obtain ⟨pool, hRun, hTest⟩ := Driver.exists_run_of_drive (A := timelyCalls)
    (fun _ _ _ => of_decide_eq_true) hDriven
  obtain ⟨hLast, row, hRow, hRepair, hRepairState⟩ := of_decide_eq_true hTest
  obtain ⟨operation, -, hOperation, hText⟩ := hLaw pool "job" row hRun hRow hRepair
  cases hLast.symm.trans hOperation
  rw [hRepairState] at hText
  exact absurd hText (by decide)

end TernScheduler
