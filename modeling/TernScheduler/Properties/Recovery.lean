import TernScheduler.Datastore.Alone
import TernScheduler.Library.Recovery
import TernScheduler.Properties.LeaseOwnership
import TernScheduler.Properties.LosingCalls
import TernScheduler.Properties.RepairCloses
import TernScheduler.Wire.Runs
import Mathlib.Data.Finset.Card

/-!
# Recovery

Nodes can stop between any two operations, and leave jobs leased.  Whatever has happened, the
poll for expired leases and the repairs it starts can free every job again.

* `ensures_repairExpiredSchedule`: what a repair does that nobody interferes with.
* `coherent_of_run`: a leased job has an expiry, so that the poll finds it once time has passed.
* `exists_round`: one round of the poll and a repair frees a job, and touches no other.
* `wired_recovers`: round by round every job is freed.
-/

namespace TernScheduler

open Interleaving Database KeyedTable

/-! ## A repair alone -/

section Alone

variable {reading : BeforeDateReading} {db : Database}

/-- What a repair decides, from what the store tells it. -/
theorem ensures_performRepair {schedule : ScheduledJobDataModel}
    {resolved : Database → ExitBehavior → Prop} {rejected : Database → JsError → Prop}
    (hDone : ∀ exitBehavior : ExitBehavior,
      (exitBehavior.pastureReason = none → RecordedAddTask schedule.repairState schedule ∧
        ∃ task, db.task task.pk = some task ∧ task.schedule = schedule.pk ∧
          task.state = .pending) →
      resolved db exitBehavior)
    (hFailed : ∀ error, rejected db error) :
    Ensures reading resolved rejected db (performRepair schedule) := by
  unfold performRepair
  split
  · rename_i hAddTask
    unfold repairAddTask
    split
    · exact hDone _ fun hNone => by cases hNone
    · rename_i hPasture
      split
      · rename_i taskPk hTaskPk
        refine Promise.sat_bind.mpr (ensures_findTasks ?_)
        split
        · rename_i hFound
          -- the first task is stored, so the job goes on without a pasture
          refine hDone _ fun _ => ⟨⟨hAddTask, by simpa using hPasture, ?_⟩, ?_⟩
          · rw [hTaskPk]
            simp
          · obtain ⟨task, hTask⟩ := List.exists_mem_of_length_pos hFound
            obtain ⟨hMem, hHolds⟩ := Table.mem_of_mem_select hTask
            rw [holds_taskOf] at hHolds
            exact ⟨task, task_of_mem hMem, hHolds.1, by simpa using hHolds.2⟩
        · exact hFailed _
      · exact Promise.sat_bind.mpr (ensures_findTasks (hFailed _))
  · split
    · exact hFailed _
    · split
      · exact hFailed _
      · split
        · exact hFailed _
        · exact Promise.sat_bind.mpr (ensures_emit (hDone _ fun hNone => by cases hNone))

/-- What becomes of the row of a job that is freed. -/
structure Freed (db : Database) (old row : ScheduledJobDataModel) : Prop where
  definition : row.toNewScheduledJob = old.toNewScheduledJob
  done : RepairDone db old row
  pasture : old.pasture = true → row.pasture = true

/-- The repair of a job frees it, and writes nothing else. -/
structure Recovered (db after : Database) (old row : ScheduledJobDataModel) : Prop where
  wrote : WroteRow db after row
  pk : row.pk = old.pk
  freed : Freed db old row

/-- A row that was taken over and given back. -/
theorem recovered_of_released {middle after : Database} {old taken : ScheduledJobDataModel}
    {leaseId : LeaseIdType} {expires : Date} {pasture : Bool} {pastureReason : Option String}
    (hTaken : taken = (repairPatch leaseId expires (previousState old)).apply old)
    (hTook : WroteRow db middle taken)
    (hReleased : WroteRow middle after ((releasePatch pasture pastureReason).apply taken))
    (hPasture : pasture = false → RecordedAddTask taken.repairState taken ∧
      ∃ task, middle.task task.pk = some task ∧ task.schedule = taken.pk ∧
        task.state = .pending) :
    Recovered db after old ((releasePatch pasture pastureReason).apply taken) := by
  subst hTaken
  refine ⟨hTook.trans hReleased rfl, rfl, rfl, ⟨rfl, rfl, rfl, rfl, ?_⟩, fun hOld => ?_⟩
  · cases pasture with
    | true => exact Or.inl rfl
    | false =>
        obtain ⟨hRecorded, task, hTask, hSchedule, hState⟩ := hPasture rfl
        refine Or.inr ⟨⟨hRecorded.operation, hRecorded.unpastured, hRecorded.recorded⟩, task, ?_,
          hSchedule, hState⟩
        rw [← hTask]
        exact congrArg (Table.get? · task.pk) hTook.tasks.symm
  · cases pasture with
    | true => rfl
    | false =>
        have hNot : old.pasture = false := (hPasture rfl).1.unpastured
        rw [hNot] at hOld
        cases hOld

/-- **A repair alone** of an expired lease frees the job, and writes nothing else. -/
theorem ensures_repairExpiredSchedule {node : Node} {srcSchedule : ScheduledJobModel}
    {now expires : Date} {old : ScheduledJobDataModel} (hRow : db.job srcSchedule.pk = some old)
    (hLeased : old.updateState ≠ none) (hExpires : old.leaseExpires = some expires)
    (hExpired : reading now expires = true) :
    Ensures reading (fun after _ => ∃ row, Recovered db after old row)
      (fun after _ => ∃ row, Recovered db after old row) db
      (repairExpiredSchedule node srcSchedule now) := by
  have hPk := (job_eq_some_iff.mp hRow).2
  refine Promise.sat_bind.mpr (ensures_leaseOwnerStrategy fun leaseId => ?_)
  refine Promise.sat_bind.mpr (ensures_repairExpiredLeaseForScheduledJob hRow hLeased hExpires
    hExpired fun middle taken hTaken hTook => ?_)
  have hTakenRow : middle.job srcSchedule.pk = some taken := by
    rw [hTook.jobs, if_pos (by rw [hTaken, ScheduledJobPatch.apply_pk, hPk])]
  have hHeld : taken.updateState ≠ none := by
    rw [hTaken]
    exact Option.some_ne_none _
  have hOwner : taken.leaseOwner = some leaseId := by rw [hTaken]; rfl
  -- the repair ends by giving the lease back, whatever it has found
  have hReleases : ∀ {pasture : Bool} {pastureReason : Option String}
      {resolved : Database → Unit → Prop} {rejected : Database → JsError → Prop},
      (pasture = false → RecordedAddTask taken.repairState taken ∧
        ∃ task, middle.task task.pk = some task ∧ task.schedule = taken.pk ∧
          task.state = .pending) →
      (∀ after, (∃ row, Recovered db after old row) → resolved after ()) →
        Ensures reading resolved rejected middle
          (releaseScheduledJobLease leaseId srcSchedule.pk pasture pastureReason) :=
    fun hPasture hDone => ensures_releaseScheduledJobLease hTakenRow hHeld hOwner
      fun after hReleased => hDone after ⟨_, recovered_of_released hTaken hTook hReleased hPasture⟩
  refine Promise.sat_handle.mpr ?_
  refine Promise.sat_bind.mpr (ensures_inScope (ensures_performRepair ?_ ?_))
  · intro exitBehavior hExit
    refine hReleases (fun hPasture => hExit ?_) fun after hRecovered => hRecovered
    exact Option.isSome_eq_false_iff.mp hPasture |> Option.isNone_iff_eq_none.mp
  · intro error
    refine Promise.sat_bind.mpr (hReleases (fun hPasture => by cases hPasture) ?_)
    exact fun after hRecovered => ensures_emit hRecovered

end Alone

/-! ## The rows of reachable states -/

section Coherent

variable {reading : BeforeDateReading} {A : RunCondition signature Database Request Settled}
  {first pool : SchedulerPool}

/-- A call that writes a row leaves it coherent. -/
theorem LeaseChange.coherentRow {request : Request} {session : Session} {db after : Database}
    {act : Act} {reply : act.Reply}
    (hChange : LeaseChange reading request session db after act reply)
    (hAll : ∀ pk row, db.job pk = some row → row.Coherent) :
    ∀ pk row, after.job pk = some row → row.Coherent := by
  intro pk row hRow
  cases hChange with
  | kept _ hJobs => exact hAll pk row ((hJobs pk).symm.trans hRow)
  | created new hMay _ hJobs =>
      obtain ⟨_, leaseId, expires, -, -, -, -, hOwner, hExpires, hState, -⟩ := hMay
      rw [hJobs] at hRow
      split at hRow
      · cases hRow
        constructor <;> simp [hOwner, hExpires, hState]
      · exact hAll pk row hRow
  | acquired job operation taskPk leaseId expires count old hOld hFree _ _ _ _ hJobs =>
      rw [hJobs] at hRow
      split at hRow
      · cases hRow
        constructor <;> simp [leasePatch, ScheduledJobPatch.apply]
      · exact hAll pk row hRow
  | takenOver job leaseId expires expired repairState schedule count old _ hOld hHeld _ _ _ _
      hJobs =>
      rw [hJobs] at hRow
      split at hRow
      · cases hRow
        constructor <;> simp [repairPatch, ScheduledJobPatch.apply]
      · exact hAll pk row hRow
  | closed job newValues pasture pastureReason leaseId count old hOld hHeld _ _ _ _ hValues _
      hJobs =>
      rw [hJobs] at hRow
      split at hRow
      · cases hRow
        have hCoherent := hAll job old hOld
        -- the lease was given back, or kept for a repair
        rcases hValues with rfl | ⟨now, rfl⟩
        · constructor <;> simp [releasePatch, ScheduledJobPatch.apply]
        · exact ⟨hCoherent.owner, by simp [needsRepairPatch, ScheduledJobPatch.apply, hHeld],
            hCoherent.task, hCoherent.repair⟩
      · exact hAll pk row hRow

/-- **Run lemma.**  In every reachable state the columns of a lease are all null or all set. -/
theorem coherent_of_run (hRun : Run (scheduler reading) A first pool) (hIdle : first.Idle)
    (hFirst : ∀ pk row, first.shared.job pk = some row → row.Coherent) :
    ∀ pk row, pool.shared.job pk = some row → row.Coherent := by
  refine invariant_of_moves
    (I := fun pool => ∀ pk row, pool.shared.job pk = some row → row.Coherent) hRun hIdle hFirst ?_
  intro pool event pool' _ hAll hMoves _
  cases hMoves with
  | quiet _ _ hJobs => exact fun pk row hRow => hAll pk row ((hJobs pk).symm.trans hRow)
  | performed _ _ _ _ _ _ _ _ hMay hExec => exact (hMay.leaseChange hExec).coherentRow hAll

end Coherent

/-! ## One round -/

/-- The jobs that are leased. -/
def leasedJobs (db : Database) : Finset PrimaryKeyType :=
  ((db.scheduledJobTable.rows.filter fun row => row.updateState.isSome).map (·.pk)).toFinset

theorem mem_leasedJobs {db : Database} {pk : PrimaryKeyType} :
    pk ∈ leasedJobs db ↔ ∃ row, db.job pk = some row ∧ row.updateState ≠ none := by
  simp only [leasedJobs, List.mem_toFinset, List.mem_map, List.mem_filter,
    Option.isSome_iff_ne_none]
  constructor
  · rintro ⟨row, ⟨hRow, hLeased⟩, rfl⟩
    exact ⟨row, job_of_mem hRow, hLeased⟩
  · rintro ⟨row, hRow, hLeased⟩
    obtain ⟨hMem, rfl⟩ := job_eq_some_iff.mp hRow
    exact ⟨row, ⟨hMem, hLeased⟩, rfl⟩

/-- Freeing a job leaves fewer jobs leased. -/
theorem card_leasedJobs_lt {db after : Database} {old row : ScheduledJobDataModel}
    (hWrote : WroteRow db after row) (hOld : db.job row.pk = some old)
    (hLeased : old.updateState ≠ none) (hFreed : row.updateState = none) :
    (leasedJobs after).card < (leasedJobs db).card := by
  refine Finset.card_lt_card (Finset.ssubset_iff_of_subset ?_ |>.mpr ⟨row.pk, ?_, ?_⟩)
  · intro pk hPk
    obtain ⟨found, hFound, hHeld⟩ := mem_leasedJobs.mp hPk
    rw [hWrote.jobs] at hFound
    split at hFound
    · obtain rfl := Option.some.inj hFound
      exact absurd hFreed hHeld
    · exact mem_leasedJobs.mpr ⟨found, hFound, hHeld⟩
  · exact mem_leasedJobs.mpr ⟨old, hOld, hLeased⟩
  · intro hPk
    obtain ⟨found, hFound, hHeld⟩ := mem_leasedJobs.mp hPk
    rw [hWrote.jobs, if_pos rfl] at hFound
    obtain rfl := Option.some.inj hFound
    exact hHeld hFreed

/-- Nothing is started but repairs, by the node. -/
def onlyRepairs (node : Node) : RunCondition signature Database Request Settled :=
  fun _ event _ => ∀ request ∈ event.request,
    request.node = node ∧ ∃ schedule, request.call = .repairExpiredSchedule schedule

/-- A store call that is served is one the system can perform. -/
theorem exec_of_served {reading : BeforeDateReading} {db after : Database} {op : Operation}
    {reply : op.act.Reply} (hServed : served reading db op reply after) :
    Exec reading db op.act reply after := by
  obtain ⟨scope, act⟩ := op
  have hServes : Serves reading db act reply after := hServed
  unfold Serves at hServes
  cases hServe : db.serve reading act with
  | some answer =>
      rw [hServe] at hServes
      exact .served (hServes ▸ hServe)
  | none =>
      rw [hServe] at hServes
      obtain rfl : after = db := hServes
      refine .answered reply fun hStore => ?_
      cases act with
      | createSchedule row => simp only [serve] at hServe; split at hServe <;> cases hServe
      | createTask row => simp only [serve] at hServe; split at hServe <;> cases hServe
      | _ => first | exact hStore | cases hServe

/-- The rows while jobs are being freed: the tasks are as they were, and each job is as it was,
or has been freed. -/
structure Recovering (first db : Database) : Prop where
  tasks : db.taskTable = first.taskTable
  absent : ∀ pk, first.job pk = none → db.job pk = none
  jobs : ∀ pk old, first.job pk = some old → db.job pk = some old ∨
    old.updateState ≠ none ∧ ∃ row, db.job pk = some row ∧ Freed first old row
  expires : ∀ pk row, db.job pk = some row →
    (row.updateState = none ↔ row.leaseExpires = none)

/-- One more job is freed. -/
theorem Recovering.freed {first db after : Database} {old row : ScheduledJobDataModel}
    (hKnown : Recovering first db) (hOld : db.job row.pk = some old)
    (hLeased : old.updateState ≠ none) (hRecovered : Recovered db after old row) :
    Recovering first after := by
  obtain ⟨hWrote, hPk, hDefinition, hDone, hPasture⟩ := hRecovered
  refine ⟨hWrote.tasks.trans hKnown.tasks, fun pk hAbsent => ?_, fun pk found hFound => ?_,
    fun pk found hFound => ?_⟩
  · rw [hWrote.jobs, if_neg, hKnown.absent pk hAbsent]
    rintro rfl
    rw [hKnown.absent _ hAbsent] at hOld
    cases hOld
  · by_cases hSame : pk = row.pk
    · subst hSame
      rw [hWrote.jobs, if_pos rfl]
      -- The job was leased until now, so it is as it was in the first state.
      rcases hKnown.jobs _ found hFound with hKept | ⟨-, freed, hNow, hFreed⟩
      · obtain rfl : found = old := Option.some.inj (hKept.symm.trans hOld)
        refine Or.inr ⟨hLeased, row, rfl, hDefinition, ⟨hDone.updateState, hDone.leaseOwner,
          hDone.leaseExpires, hDone.repairState, ?_⟩, hPasture⟩
        rcases hDone.pastured with hTrue | ⟨hRecorded, task, hTask, hOf⟩
        · exact Or.inl hTrue
        · refine Or.inr ⟨hRecorded, task, ?_, hOf⟩
          rw [← hTask]
          exact congrArg (Table.get? · task.pk) hKnown.tasks.symm
      · obtain rfl : freed = old := Option.some.inj (hNow.symm.trans hOld)
        exact absurd hFreed.done.updateState hLeased
    · rw [hWrote.jobs, if_neg hSame]
      exact hKnown.jobs pk found hFound
  · rw [hWrote.jobs] at hFound
    split at hFound
    · obtain rfl := Option.some.inj hFound
      simp [hDone.updateState, hDone.leaseExpires]
    · exact hKnown.expires pk found hFound

/-- The clock goes on: it will read a date past any given one, at a later time of the host. -/
def CurrentTimeUTCStrategy.GoesOn (clock : CurrentTimeUTCStrategy) : Prop :=
  ∀ time, ∃ host now, time ≤ host ∧ time ≤ now ∧ clock host now

theorem goesOn_standardTime : CurrentTimeUTCStrategy.GoesOn standardTime := fun time =>
  ⟨time, time, Int.le_refl _, Int.le_refl _, rfl⟩

/-- Once a lease has expired the poll finds one that has. -/
theorem exists_polled {db : Database} {row : ScheduledJobDataModel}
    (hMem : row ∈ db.scheduledJobTable) {expires now : Date}
    (hExpires : row.leaseExpires = some expires) (hPast : expires < now) :
    ∃ found ∈ pollLeaseExpiredScheduledJobs .sql db.scheduledJobTable.rows now pollJobsLimit,
      found ∈ db.scheduledJobTable ∧
        ∃ past, found.leaseExpires = some past ∧ strictlyBefore now past = true := by
  have hHolds : ∀ found : ScheduledJobDataModel,
      (Conditional.beforeDate .leaseExpires now).holds strictlyBefore found.column = true ↔
        ∃ past, found.leaseExpires = some past ∧ strictlyBefore now past = true := by
    intro found
    cases hFound : found.leaseExpires <;>
      simp [Conditional.holds, ScheduledJobDataModel.column, hFound]
  have hRow : row ∈ db.scheduledJobTable.rows.filter fun row =>
      (Conditional.beforeDate .leaseExpires now).holds strictlyBefore row.column :=
    List.mem_filter.mpr ⟨hMem, (hHolds row).mpr ⟨expires, hExpires, decide_eq_true hPast⟩⟩
  -- the poll answers with a row of its own choice; some row is expired, so it finds one
  unfold pollLeaseExpiredScheduledJobs
  cases hFound : db.scheduledJobTable.rows.filter fun row =>
      (Conditional.beforeDate .leaseExpires now).holds strictlyBefore row.column with
  | nil =>
      rw [hFound] at hRow
      cases hRow
  | cons found rest =>
      have hIn : found ∈ db.scheduledJobTable.rows.filter _ := hFound ▸ List.mem_cons_self
      obtain ⟨hTable, hExpired⟩ := List.mem_filter.mp hIn
      refine ⟨found, ?_, hTable, (hHolds found).mp hExpired⟩
      show found ∈ (db.scheduledJobTable.rows.filter fun row =>
        (Conditional.beforeDate .leaseExpires now).holds strictlyBefore row.column).take
          pollJobsLimit
      rw [hFound]
      exact List.mem_cons_self

/-- **One round**: time passes, the poll finds an expired lease, and its repair runs alone. -/
theorem exists_round {first : Database} {wired : Wired} (node : Node)
    (hGoesOn : node.currentTimeUTC.GoesOn) (hKnown : Recovering first wired.pool.shared)
    (hLeased : (leasedJobs wired.pool.shared).card ≠ 0) :
    ∃ last, WiredRun .sql (onlyRepairs node) wired last ∧ Recovering first last.pool.shared ∧
      (leasedJobs last.pool.shared).card < (leasedJobs wired.pool.shared).card := by
  obtain ⟨pk, hPk⟩ := Finset.card_ne_zero.mp hLeased
  obtain ⟨row, hRow, hHeld⟩ := mem_leasedJobs.mp hPk
  obtain ⟨expires, hExpires⟩ : ∃ expires, row.leaseExpires = some expires :=
    Option.ne_none_iff_exists'.mp fun hNone => hHeld ((hKnown.expires pk row hRow).mpr hNone)
  -- Time passes until the clock of the node has read a date past the expiry.
  obtain ⟨host, now, hHost, hNow, hReads⟩ := hGoesOn (max wired.pool.shared.clock (expires + 1))
  have hClock : wired.pool.shared.clock ≤ host := (le_max_left _ _).trans hHost
  have hAfter : expires < now :=
    Int.lt_of_lt_of_le (Int.lt_succ expires) ((le_max_right _ _).trans hNow)
  obtain ⟨found, hPolled, hTable, past, hPast, hExpired⟩ :=
    exists_polled (job_eq_some_iff.mp hRow).1 hExpires hAfter
  have hFound := job_of_mem hTable
  have hFoundHeld : found.updateState ≠ none := fun hNone => by
    rw [(hKnown.expires found.pk found hFound).mp hNone] at hPast
    cases hPast
  let later : Database := { wired.pool.shared with clock := host }
  let drifted : SchedulerPool := { wired.pool with shared := later }
  let message : WireMessage := ⟨node, .scheduledJobLeaseExpired found.toScheduledJobModel⟩
  let request : Request := ⟨node, now, .repairExpiredSchedule found.toScheduledJobModel⟩
  let spawned : SchedulerPool :=
    { drifted with procs := drifted.procs ++ [⟨request, some request.program⟩] }
  let handled : Wired :=
    ⟨spawned, (wired.inFlight ++ [message]).eraseIdx wired.inFlight.length⟩
  have hDrift : MailStep (scheduler strictlyBefore) (wiring .sql) (onlyRepairs node) wired
      { wired with pool := drifted } :=
    .move wired .drifted drifted rfl (.drift wired.pool later ⟨host, hClock, rfl⟩)
      fun request hNone => by cases hNone
  have hPost : MailStep (scheduler strictlyBefore) (wiring .sql) (onlyRepairs node)
      { wired with pool := drifted } ⟨drifted, wired.inFlight ++ [message]⟩ :=
    .post _ message (Or.inl ⟨.scheduledJobsForExpiredLeases, host, Int.le_refl _, now, _, _,
      hReads, ⟨.rfl, fun _ => rfl⟩, ⟨.rfl, fun _ => rfl⟩, List.mem_map_of_mem hPolled⟩)
  have hHandle : MailStep (scheduler strictlyBefore) (wiring .sql) (onlyRepairs node)
      ⟨drifted, wired.inFlight ++ [message]⟩ handled :=
    .handle _ wired.inFlight.length message request spawned List.getElem?_concat_length
      ⟨_, now, rfl, hReads, rfl⟩ (.spawn drifted request) fun other hOther => by
        cases hOther
        exact ⟨rfl, _, rfl⟩
  have hRepair : request.program.Ensures (served strictlyBefore)
      (fun after _ => ∃ row, Recovered later after found row) later :=
    ensures_request (ensures_repairExpiredSchedule hFound hFoundHeld hPast hExpired)
  have hSound : ∀ state op reply after, served strictlyBefore state op reply after →
      (scheduler strictlyBefore).exec state op reply after := fun _ _ _ _ => exec_of_served
  have hQuiet : ∀ pool entry pool', onlyRepairs node pool (.ran entry) pool' :=
    fun _ _ _ other hNone => by cases hNone
  have hProc : handled.pool.procs[drifted.procs.length]? = some ⟨request, some request.program⟩ :=
    List.getElem?_concat_length
  obtain ⟨last, value, hRun, freed, hRecovered⟩ := exists_mailRun_of_ensures
    (M := wiring .sql) hSound (served_total strictlyBefore) hQuiet hProc hRepair
  have hLater : Recovering first later :=
    ⟨hKnown.tasks, hKnown.absent, hKnown.jobs, hKnown.expires⟩
  have hOld : later.job freed.pk = some found := hRecovered.pk ▸ hFound
  have hFewer : (leasedJobs last.pool.shared).card < (leasedJobs later).card :=
    card_leasedJobs_lt hRecovered.wrote hOld hFoundHeld hRecovered.freed.done.updateState
  exact ⟨last, .head hDrift (.head hPost (.head hHandle hRun)),
    hLater.freed hOld hFoundHeld hRecovered, hFewer⟩

/-- **Every job can be freed.**  Over SQL, from every state of every run, the poll for expired
leases and the repairs of one node, whose clock goes on, can lead to a state where no job is
leased.  No task is changed and no job added.  A job that was not leased is as it was, and one
that was has been given back by a repair. -/
theorem wired_recovers {A : RunCondition signature Database Request Settled} {clock : Date}
    {wired : Wired} (hRun : WiredRun .sql A (Wired.start clock) wired) (node : Node)
    (hGoesOn : node.currentTimeUTC.GoesOn) :
    ∃ last, WiredRun .sql (onlyRepairs node) wired last ∧
      (∀ row ∈ last.pool.shared.scheduledJobTable, row.updateState = none) ∧
        last.pool.shared.taskTable = wired.pool.shared.taskTable ∧
          (∀ pk, wired.pool.shared.job pk = none → last.pool.shared.job pk = none) ∧
            ∀ pk old, wired.pool.shared.job pk = some old →
              old.updateState = none ∧ last.pool.shared.job pk = some old ∨
                old.updateState ≠ none ∧ ∃ row, last.pool.shared.job pk = some row ∧
                  Freed wired.pool.shared old row := by
  have hCoherent := coherent_of_run hRun.projects (emptyPool_idle clock) fun pk row hRow => by
    cases hRow
  obtain ⟨last, hLast, hKnown, hNone⟩ := exists_measure_zero
    (fun wired : Wired => (leasedJobs wired.pool.shared).card)
    (I := fun last => Recovering wired.pool.shared last.pool.shared)
    (fun _ hKnown hLeased => exists_round node hGoesOn hKnown hLeased)
    ⟨rfl, fun _ => id, fun _ _ => Or.inl, fun pk row hRow => (hCoherent pk row hRow).expires⟩
  have hFree : ∀ row ∈ last.pool.shared.scheduledJobTable, row.updateState = none := by
    intro row hRow
    by_contra hHeld
    have hMem := mem_leasedJobs.mpr ⟨row, job_of_mem hRow, hHeld⟩
    rw [Finset.card_eq_zero.mp hNone] at hMem
    cases hMem
  refine ⟨last, hLast, hFree, hKnown.tasks, hKnown.absent, fun pk old hOld => ?_⟩
  rcases hKnown.jobs pk old hOld with hKept | hFreed
  · exact Or.inl ⟨hFree old (job_eq_some_iff.mp hKept).1, hKept⟩
  · exact Or.inr hFreed

/-- A client asks for a job, and the node stops before it has added the first task. -/
def stoppedCreation : List (MailTurn Request Answers WireChoice) :=
  .ask (.create sampleSchedule) ::
    .move (.run 0 { leaseId := "create" }) :: .move (.run 0 { primaryKey := "job" }) ::
      wiredTurns 0 2 { primaryKey := "first" } ++ [.move (.stop 0)]

/-- The job is left leased, and is freed. -/
theorem stopped_recovers :
    ∃ wired : Wired, (∃ row ∈ wired.pool.shared.job "job", row.updateState ≠ none) ∧
      ∃ last, WiredRun .sql (onlyRepairs (sampleNode sampleStart [])) wired last ∧
        ∃ row ∈ last.pool.shared.job "job", row.updateState = none := by
  have hDriven : ((wireDriver .sql (sampleNode sampleStart [])).driveMail (fun _ _ _ => true)
      stoppedCreation (Wired.start 0)).any (fun wired =>
        decide (∃ row ∈ wired.pool.shared.job "job", row.updateState ≠ none)) = true := by
    decide +kernel
  obtain ⟨wired, hRun, hLeft⟩ := exists_wiredRun rfl (A := anySchedule)
    (fun _ _ _ _ _ => trivial) hDriven
  obtain ⟨old, hOld, hHeld⟩ := of_decide_eq_true hLeft
  obtain ⟨last, hLast, hFree, -, -, hJobs⟩ :=
    wired_recovers hRun (sampleNode sampleStart []) goesOn_standardTime
  refine ⟨wired, ⟨old, hOld, hHeld⟩, last, hLast, ?_⟩
  rcases hJobs "job" old hOld with ⟨hNone, -⟩ | ⟨-, row, hRow, hFreed⟩
  · exact absurd hNone hHeld
  · exact ⟨row, hRow, hFreed.done.updateState⟩

end TernScheduler
