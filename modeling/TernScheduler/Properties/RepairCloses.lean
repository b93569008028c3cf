import TernScheduler.Controller.RepairRuns

/-!
# A repair closes its lease

Repairs of any jobs run at the same time.  The writes of leases are served, and no lease of
a repair expires before its repair has ended.

* `RepairsClosed` is what the repairs leave: one winner for each job, whose lease is closed,
  and nothing done by the others.
* `LeaseUntaken` and `LeaseTaken` are the two states of a job, and `RepairsInv` the invariant of a
  run.
* `repair_closes` is the result, for runs in which a repair can read the row it was granted.
* `unread_repair_stays_open` is a run in which it cannot: the read is outside of the handler
  that releases the lease.
-/

namespace TernScheduler

open Interleaving Database

/-! ## What is assumed, and what is promised -/

/-- The job and the time an operation tests the expiry of a lease for. -/
def Act.expiryTest : Act → Option (PrimaryKeyType × Date)
  | .updateSchedule pk _ (.and [.notNull .updateState, .beforeDate .leaseExpires now]) =>
      some (pk, now)
  | _ => none

/-- The operation updates a job. -/
def Act.updatesJob : Act → Bool
  | .updateSchedule .. => true
  | _ => false

/-- The operation reads a job. -/
def Act.readsJob : Act → Bool
  | .findSchedules .. => true
  | _ => false

/-- What is left of a call is its result. -/
def settledCall : Option (Prog signature (Except JsError Unit)) → Bool
  | some (.ret _) => true
  | _ => false

/-- The call has settled. -/
def RepairEnded (pool : RepairPool) (pid : Nat) : Prop :=
  ∃ proc ∈ pool.procs[pid]?, settledCall proc.prog = true

/-- The job is leased by a repair that has not ended. -/
def LeasedByRepair (pool : RepairPool) (row : ScheduledJobDataModel) : Prop :=
  row.updateState ≠ none ∧ ∃ entry ∈ pool.log,
    entry.op.act.granted entry.reply = some row.pk ∧
      entry.op.act.ownerWritten = row.leaseOwner ∧ ¬ RepairEnded pool entry.pid

/-- The writes of leases are served, and no lease of a repair expires before its repair has
ended. -/
def leaseWritesServed (reading : BeforeDateReading) :
    RunCondition signature Database RepairCall (Except JsError Unit) :=
  fun pool event _ => ∀ entry ∈ event.entry,
    (entry.op.act.updatesJob = true → Answered reading pool.shared entry.op.act entry.reply) ∧
      ∀ test ∈ entry.op.act.expiryTest, ∀ row ∈ pool.shared.job test.1,
        LeasedByRepair pool row → ∀ expires ∈ row.leaseExpires, reading test.2 expires = false

/-- A repair that was granted its lease can read the row. -/
def grantedRowsRead (reading : BeforeDateReading) :
    RunCondition signature Database RepairCall (Except JsError Unit) :=
  fun pool event _ => ∀ entry ∈ event.entry, entry.op.act.readsJob = true →
    (∃ earlier ∈ pool.log, earlier.pid = entry.pid ∧
      (earlier.op.act.granted earlier.reply).isSome = true) →
    Answered reading pool.shared entry.op.act entry.reply

instance (pool : RepairPool) (pid : Nat) : Decidable (RepairEnded pool pid) :=
  inferInstanceAs (Decidable (∃ proc ∈ pool.procs[pid]?, settledCall proc.prog = true))

instance (pool : RepairPool) (row : ScheduledJobDataModel) :
    Decidable (LeasedByRepair pool row) :=
  inferInstanceAs (Decidable (row.updateState ≠ none ∧ ∃ entry ∈ pool.log,
    entry.op.act.granted entry.reply = some row.pk ∧
      entry.op.act.ownerWritten = row.leaseOwner ∧ ¬ RepairEnded pool entry.pid))

instance (reading : BeforeDateReading) (pool : RepairPool)
    (event : Event signature Database RepairCall) (pool' : RepairPool) :
    Decidable (leaseWritesServed reading pool event pool') := by
  unfold leaseWritesServed
  infer_instance

instance (reading : BeforeDateReading) (pool : RepairPool)
    (event : Event signature Database RepairCall) (pool' : RepairPool) :
    Decidable (grantedRowsRead reading pool event pool') := by
  unfold grantedRowsRead
  infer_instance

/-- What becomes of the row of a job that was repaired. -/
structure RepairDone (db : Database) (old row : ScheduledJobDataModel) : Prop where
  updateState : row.updateState = none
  leaseOwner : row.leaseOwner = none
  leaseExpires : row.leaseExpires = none
  repairState : row.repairState = none
  pastured : row.pasture = true ∨ RecordedAddTask (previousState old) old ∧
    ∃ task, db.task task.pk = some task ∧ task.schedule = old.pk ∧ task.state = .pending

/-- **Repairs always close their leases**: a call that is not granted the lease changes
nothing, one call is granted it, and when this one has ended the row is as it should be. -/
structure RepairsClosed (first pool : RepairPool) : Prop where
  losers : ∀ pid, (∀ entry ∈ pool.log, entry.pid = pid →
      entry.op.act.granted entry.reply = none) →
    ∀ entry ∈ pool.log, entry.pid = pid →
      ¬ entry.op.act.WroteSchedule entry.reply ∧ ¬ entry.op.act.WroteTask entry.reply
  oneWinner : ∀ pk, (pool.log.filter fun entry =>
    entry.op.act.granted entry.reply = some pk).length ≤ 1
  closes : ∀ entry ∈ pool.log, ∀ pk, entry.op.act.granted entry.reply = some pk →
    RepairEnded pool entry.pid → ∃ old row, first.shared.job pk = some old ∧
      pool.shared.job pk = some row ∧ RepairDone first.shared old row
  neverCleared : ∀ pk old row, first.shared.job pk = some old → pool.shared.job pk = some row →
    old.pasture = true → row.pasture = true
  tasks : ∀ pk, pool.shared.task pk = first.shared.task pk

/-! ## What an operation of a repair does -/

variable {reading : BeforeDateReading} {call : RepairCall} {phase : RepairPhase}
  {db after : Database}

/-- What an operation of a repair does: nothing to the tables, or it takes the lease, or it
gives it back. -/
inductive RepairEffect (reading : BeforeDateReading) (call : RepairCall)
    (phase : RepairPhase) (db after : Database) : (act : Act) → act.Reply → Prop
  | kept {act : Act} {reply : act.Reply} (hNone : ¬ act.WroteSchedule reply)
      (hJobs : ∀ pk, after.job pk = db.job pk) : RepairEffect reading call phase db after act reply
  | took (leaseId : LeaseIdType) (src row : ScheduledJobDataModel) (expires : Date) (count : Nat)
      (hPhase : phase = .found leaseId src) (hRow : db.job call.jobPk = some row)
      (hHeld : row.updateState ≠ none) (hExpires : row.leaseExpires = some expires)
      (hExpired : reading call.now expires = true)
      (hJobs : ∀ pk, after.job pk = if pk = call.jobPk then
        some ((repairPatch leaseId call.expires (previousState src)).apply row) else db.job pk) :
      RepairEffect reading call phase db after
        (.updateSchedule call.jobPk (repairPatch leaseId call.expires (previousState src))
          (leaseExpiredBefore call.now)) (Except.ok (count + 1))
  | gaveBack (leaseId : LeaseIdType) (sched row : ScheduledJobDataModel)
      (tasks : Option (List TaskModel)) (refused pasture : Bool) (pastureReason : Option String)
      (count : Nat) (hPhase : phase = .holding leaseId sched tasks refused)
      (hRow : db.job call.jobPk = some row) (hPasture : MayUnpasture sched tasks pasture)
      (hJobs : ∀ pk, after.job pk = if pk = call.jobPk then
        some ((releasePatch pasture pastureReason).apply row) else db.job pk) :
      RepairEffect reading call phase db after
        (.updateSchedule call.jobPk (releasePatch pasture pastureReason) (leasedBy leaseId))
        (Except.ok (count + 1))

/-- **Inversion of an operation of a repair.** -/
theorem MayRepair.effect {act : Act} {reply : act.Reply} (hMay : MayRepair call phase act)
    (hExec : Exec reading db act reply after) :
    RepairEffect reading call phase db after act reply := by
  cases hExec.scheduleEffect with
  | kept hNone hJobs => exact .kept hNone hJobs
  | created row hAbsent hJobs => cases phase <;> simp [MayRepair] at hMay
  | updated pk newValues conditional count row hRow hHolds hJobs =>
      cases phase with
      | found leaseId src =>
          obtain ⟨rfl, rfl, rfl⟩ := Act.updateSchedule.inj hMay
          obtain ⟨hHeld, expires, hExpires, hExpired⟩ :=
            (holds_leaseExpiredBefore call.now).mp hHolds
          exact .took leaseId src row expires count rfl hRow hHeld hExpires hExpired hJobs
      | holding leaseId sched tasks refused =>
          rcases hMay with ⟨states, hNone, -⟩ | ⟨event, hNone⟩ | hNone | ⟨pasture, pastureReason,
            hAct, hPasture⟩
          · cases hNone
          · cases hNone
          · cases hNone
          · obtain ⟨rfl, rfl, rfl⟩ := Act.updateSchedule.inj hAct
            exact .gaveBack leaseId sched row tasks refused pasture pastureReason count rfl hRow
              hPasture hJobs
      | _ => simp [MayRepair] at hMay

theorem MayRepair.not_wroteTask {act : Act} {reply : act.Reply}
    (hMay : MayRepair call phase act) : ¬ act.WroteTask reply := by
  cases act with
  | createTask row => cases phase <;> simp [MayRepair] at hMay
  | updateTask pk newValues conditional => cases phase <;> simp [MayRepair] at hMay
  | _ => exact id

/-- An operation that writes no job grants no lease. -/
theorem Act.granted_of_not_wrote {act : Act} {reply : act.Reply}
    (hNone : ¬ act.WroteSchedule reply) : act.granted reply = none := by
  cases act with
  | createSchedule row =>
      cases reply with
      | ok done => exact absurd trivial hNone
      | error reason => rfl
  | updateSchedule pk newValues conditional =>
      rcases reply with reason | _ | count
      · rfl
      · rfl
      · exact absurd trivial hNone
  | _ => rfl

/-- Only a write that is made moves a call to or from the phases after a win. -/
theorem RepairPhase.won_next {act : Act} {reply : act.Reply}
    (hNone : ¬ act.WroteSchedule reply) : (phase.next act reply).Won ↔ phase.Won := by
  cases act with
  | findSchedules start limit conditional =>
      rcases reply with reason | _ | ⟨row, rest⟩ <;> cases phase <;> exact Iff.rfl
  | findTasks start limit conditional => cases reply <;> cases phase <;> exact Iff.rfl
  | updateSchedule pk newValues conditional =>
      rcases reply with reason | _ | count
      · cases phase <;> exact Iff.rfl
      · cases phase <;> exact Iff.rfl
      · exact absurd trivial hNone
  | _ => cases phase <;> exact Iff.rfl

/-- A call reads the row that is there. -/
theorem found_of_next {act : Act} {reply : act.Reply} {leaseId : LeaseIdType}
    {src : ScheduledJobDataModel} (hMay : MayRepair call phase act)
    (hExec : Exec reading db act reply after) (hNext : phase.next act reply = .found leaseId src) :
    phase = .found leaseId src ∨ db.job call.jobPk = some src := by
  cases act with
  | findSchedules start limit conditional =>
      cases phase with
      | drew drawn =>
          obtain ⟨rfl, rfl, rfl⟩ := Act.findSchedules.inj hMay
          rcases reply with reason | _ | ⟨row, rest⟩
          · cases hNext
          · cases hNext
          · cases hNext
            -- the copy of a call is the row that was stored when it was read
            have hRows := hExec.findSchedules_pk
            cases hJob : db.job call.jobPk with
            | none => rw [hJob] at hRows; cases hRows
            | some stored => rw [hJob] at hRows; cases hRows; exact Or.inr rfl
      | won drawn => rcases reply with reason | _ | ⟨row, rest⟩ <;> cases hNext
      | _ => exact Or.inl hNext
  | updateSchedule pk newValues conditional =>
      cases phase with
      | found drawn row => rcases reply with reason | _ | count <;> cases hNext
      | holding drawn sched tasks refused =>
          rcases reply with reason | _ | count <;> cases hNext
      | _ => exact Or.inl hNext
  | findTasks start limit conditional =>
      cases phase with
      | holding drawn sched tasks refused => cases reply <;> cases hNext
      | _ => cases reply <;> exact Or.inl hNext
  | createLeaseId =>
      cases phase with
      | idle => cases hNext
      | _ => exact Or.inl hNext
  | _ => cases phase <;> exact Or.inl hNext

/-! ## The two states of a job -/

/-- A call, and how far it has come. -/
def phaseOf (pool : RepairPool) (pid : Nat) : Option (RepairCall × RepairPhase) :=
  pool.stateOf repairProtocol (fun _ => .idle) pid

theorem phaseOf_unique {pool : RepairPool} {pid : Nat} {call other : RepairCall}
    {phase next : RepairPhase} (hPhase : phaseOf pool pid = some (call, phase))
    (hNext : phaseOf pool pid = some (other, next)) : call = other ∧ phase = next :=
  Prod.mk.inj (Option.some.inj (hPhase.symm.trans hNext))

/-- A row that a repair has taken over. -/
def repairedRow (leaseId : LeaseIdType) (expires : Date) (old : ScheduledJobDataModel) :
    ScheduledJobDataModel :=
  (repairPatch leaseId expires (previousState old)).apply old

/-- What the phase of the call that was granted the lease says of the row. -/
def PhaseRow (first : Database) (old : ScheduledJobDataModel)
    (row : Option ScheduledJobDataModel) : RepairPhase → Prop
  | .won leaseId => ∃ expires, row = some (repairedRow leaseId expires old)
  | .holding leaseId sched tasks refused => refused = false ∧
      (∃ expires, sched = repairedRow leaseId expires old) ∧ row = some sched ∧
      (orNull old.updateTaskPk ≠ none → ∀ found, tasks = some found → ∀ task ∈ found,
        first.task task.pk = some task ∧ task.schedule = old.pk ∧ task.state = .pending)
  | .closed => ∃ new, row = some new ∧ RepairDone first old new ∧
      (old.pasture = true → new.pasture = true)
  | _ => False

/-- A call that has settled is in a phase in which calls settle. -/
def SettledPhases (pool : RepairPool) : Prop :=
  ∀ pid call phase, phaseOf pool pid = some (call, phase) → RepairEnded pool pid → phase.Settled

/-- No call was granted the lease of the job. -/
structure LeaseUntaken (first pool : RepairPool) (pk : PrimaryKeyType) : Prop where
  row : pool.shared.job pk = first.shared.job pk
  ungranted : ∀ entry ∈ pool.log, entry.op.act.granted entry.reply ≠ some pk
  copies : ∀ pid call leaseId src, phaseOf pool pid = some (call, .found leaseId src) →
    call.jobPk = pk → first.shared.job pk = some src

theorem LeaseUntaken.no_grant {first pool : RepairPool} {pk : PrimaryKeyType}
    (h : LeaseUntaken first pool pk) :
    (pool.log.filter fun entry => entry.op.act.granted entry.reply = some pk) = [] := by
  simpa [List.filter_eq_nil_iff] using h.ungranted

/-- One call was granted the lease of the job. -/
structure LeaseTaken (first pool : RepairPool) (pk : PrimaryKeyType) (pid : Nat) (call : RepairCall)
    (phase : RepairPhase) (grant : SchedulerEntry) (old : ScheduledJobDataModel) : Prop where
  phase_eq : phaseOf pool pid = some (call, phase)
  jobPk : call.jobPk = pk
  grant_pid : grant.pid = pid
  granted : grant.op.act.granted grant.reply = some pk
  only : (pool.log.filter fun entry => entry.op.act.granted entry.reply = some pk) = [grant]
  old_eq : first.shared.job pk = some old
  row : PhaseRow first.shared old (pool.shared.job pk) phase
  owner : ∀ row, pool.shared.job pk = some row → row.updateState ≠ none →
    grant.op.act.ownerWritten = row.leaseOwner

/-- **The invariant of a run of repairs.** -/
structure RepairsInv (first pool : RepairPool) : Prop where
  tasks : ∀ pk, pool.shared.task pk = first.shared.task pk
  writers : ∀ entry ∈ pool.log, entry.op.act.WroteSchedule entry.reply →
    ∃ call phase, phaseOf pool entry.pid = some (call, phase) ∧ phase.Won
  noTasks : ∀ entry ∈ pool.log, ¬ entry.op.act.WroteTask entry.reply
  grants : ∀ pid call phase, phaseOf pool pid = some (call, phase) → phase.Won →
    ∃ entry ∈ pool.log, entry.pid = pid ∧ entry.op.act.granted entry.reply = some call.jobPk
  jobs : ∀ pk, LeaseUntaken first pool pk ∨
    ∃ pid call phase grant old, LeaseTaken first pool pk pid call phase grant old

/-! ## What a step keeps -/

/-- The call that was granted the lease does something else than a write. -/
theorem PhaseRow.kept {first : Database} {old : ScheduledJobDataModel} {act : Act}
    {reply : act.Reply} (hMay : MayRepair call phase act) (hExec : Exec reading db act reply after)
    (hNone : ¬ act.WroteSchedule reply)
    (hUpdates : act.updatesJob = true → Answered reading db act reply)
    (hReads : act.readsJob = true → phase.Won → Answered reading db act reply)
    (hTasks : ∀ pk, db.task pk = first.task pk)
    (hRow : PhaseRow first old (db.job call.jobPk) phase) :
    PhaseRow first old (after.job call.jobPk) (phase.next act reply) := by
  rw [hExec.job_kept hNone]
  cases phase with
  | won leaseId =>
      obtain ⟨expires, hJob⟩ := hRow
      obtain rfl : act = readJob call.jobPk := hMay
      -- the row that was won is read, and is the one that is stored
      obtain ⟨row, rest, rfl⟩ := (hReads rfl trivial).findSchedules_ne (by simp [hJob])
      have hRows := hExec.findSchedules_pk
      rw [hJob] at hRows
      cases hRows
      exact ⟨rfl, ⟨expires, rfl⟩, hJob, fun _ found hFound => by cases hFound⟩
  | holding leaseId sched tasks refused =>
      obtain ⟨rfl, ⟨expires, rfl⟩, hJob, hFoundTasks⟩ := hRow
      rcases hMay with ⟨states, rfl, hStates⟩ | ⟨event, rfl⟩ | rfl |
        ⟨pasture, pastureReason, rfl, -⟩
      · cases reply with
        | error reason => exact ⟨rfl, ⟨expires, rfl⟩, hJob, hFoundTasks⟩
        | ok rows =>
            refine ⟨rfl, ⟨expires, rfl⟩, hJob, fun hRecorded found hFound task hMem => ?_⟩
            obtain rfl := Option.some.inj hFound
            obtain ⟨hTask, hHolds⟩ := hExec.mem_of_findTasks task hMem
            rw [hStates hRecorded, holds_taskOf] at hHolds
            exact ⟨(hTasks _).symm.trans hTask, hHolds.1, List.mem_singleton.mp hHolds.2⟩
      · exact ⟨rfl, ⟨expires, rfl⟩, hJob, hFoundTasks⟩
      · cases reply <;> exact ⟨rfl, ⟨expires, rfl⟩, hJob, hFoundTasks⟩
      · -- The owner of the lease is not refused.
        obtain ⟨count, rfl, -⟩ := hExec.updateSchedule_served (hUpdates rfl) hJob
          ((holds_leasedBy leaseId).mpr ⟨Option.some_ne_none _, rfl⟩)
        exact absurd trivial hNone
  | closed =>
      obtain ⟨event, rfl⟩ := hMay
      exact hRow
  | _ => exact hRow.elim

/-- The call that was granted the lease gives it back. -/
theorem PhaseRow.gaveBack {first : Database} {old sched row : ScheduledJobDataModel}
    {leaseId : LeaseIdType} {tasks : Option (List TaskModel)} {refused pasture : Bool}
    (pastureReason : Option String) (hPasture : MayUnpasture sched tasks pasture)
    (hRow : PhaseRow first old (some row) (.holding leaseId sched tasks refused)) :
    RepairDone first old ((releasePatch pasture pastureReason).apply row) ∧
      (old.pasture = true → pasture = true) := by
  obtain ⟨-, ⟨expires, rfl⟩, hJob, hFoundTasks⟩ := hRow
  obtain rfl := Option.some.inj hJob
  cases pasture with
  | true => exact ⟨⟨rfl, rfl, rfl, rfl, Or.inl rfl⟩, fun _ => rfl⟩
  | false =>
      obtain ⟨⟨hOperation, hUnpastured, hRecorded⟩, task, rest, rfl⟩ := hPasture rfl
      refine ⟨⟨rfl, rfl, rfl, rfl, Or.inr ⟨⟨hOperation, hUnpastured, hRecorded⟩, task, ?_⟩⟩, ?_⟩
      · exact hFoundTasks hRecorded _ rfl task (List.mem_cons_self ..)
      · intro hSet
        exact hUnpastured.symm.trans hSet

/-- A call that was granted the lease gave it back before it settled. -/
theorem PhaseRow.of_settled {first : Database} {old : ScheduledJobDataModel}
    {row : Option ScheduledJobDataModel} (hRow : PhaseRow first old row phase)
    (hSettled : phase.Settled) : ∃ new, row = some new ∧ RepairDone first old new ∧
      (old.pasture = true → new.pasture = true) := by
  cases phase with
  | closed => exact hRow
  | holding leaseId sched tasks refused =>
      obtain ⟨hServed, -⟩ := hRow
      rw [hServed] at hSettled
      cases hSettled
  | won leaseId => exact hSettled.elim
  | _ => exact hRow.elim

/-- An operation of a call: the phases and the log before and after it. -/
structure RepairStep (reading : BeforeDateReading) (pool pool' : RepairPool) (actor : Nat)
    (call : RepairCall) (phase : RepairPhase) (op : Operation) (reply : op.act.Reply) :
    Prop where
  actor_eq : phaseOf pool actor = some (call, phase)
  may : MayRepair call phase op.act
  exec : Exec reading pool.shared op.act reply pool'.shared
  log : pool'.log = ⟨actor, op, reply, pool.shared⟩ :: pool.log
  phases : ∀ other, phaseOf pool' other =
    if other = actor then some (call, phase.next op.act reply) else phaseOf pool other

section Steps

variable {first pool pool' : RepairPool} {actor : Nat} {op : Operation} {reply : op.act.Reply}
  {pk : PrimaryKeyType} {event : Event signature Database RepairCall}

theorem RepairStep.actor_next (hStep : RepairStep reading pool pool' actor call phase op reply) :
    phaseOf pool' actor = some (call, phase.next op.act reply) := by
  rw [hStep.phases, if_pos rfl]

theorem RepairStep.other (hStep : RepairStep reading pool pool' actor call phase op reply)
    {pid : Nat} (hPid : pid ≠ actor) : phaseOf pool' pid = phaseOf pool pid := by
  rw [hStep.phases, if_neg hPid]

/-- What no call did to a job, an operation that grants no lease of it does not do. -/
theorem LeaseUntaken.kept (hStep : RepairStep reading pool pool' actor call phase op reply)
    (hGranted : op.act.granted reply ≠ some pk)
    (hJob : pool'.shared.job pk = pool.shared.job pk) (h : LeaseUntaken first pool pk) :
    LeaseUntaken first pool' pk := by
  refine ⟨hJob.trans h.row, ?_, ?_⟩
  · intro entry hEntry
    rw [hStep.log] at hEntry
    rcases List.mem_cons.mp hEntry with rfl | hOld
    · exact hGranted
    · exact h.ungranted entry hOld
  · intro pid other leaseId src hFound hPk
    rw [hStep.phases] at hFound
    split at hFound
    · obtain ⟨rfl, hNext⟩ := Prod.mk.inj (Option.some.inj hFound)
      rcases found_of_next hStep.may hStep.exec hNext with rfl | hRow
      · exact h.copies actor call leaseId src hStep.actor_eq hPk
      · rw [hPk] at hRow
        exact h.row.symm.trans hRow
    · exact h.copies pid other leaseId src hFound hPk

/-- A lease that was granted is not granted again by an operation on another job, or by one
that gives it back. -/
theorem LeaseTaken.kept {pid : Nat} {winner : RepairCall} {won next : RepairPhase}
    {grant : SchedulerEntry} {old : ScheduledJobDataModel}
    (hStep : RepairStep reading pool pool' actor call phase op reply)
    (hGranted : op.act.granted reply ≠ some pk)
    (hPhase : phaseOf pool' pid = some (winner, next))
    (hRow : PhaseRow first.shared old (pool'.shared.job pk) next)
    (hOwner : ∀ row, pool'.shared.job pk = some row → row.updateState ≠ none →
      grant.op.act.ownerWritten = row.leaseOwner)
    (h : LeaseTaken first pool pk pid winner won grant old) :
    LeaseTaken first pool' pk pid winner next grant old :=
  { h with
    phase_eq := hPhase
    only := by
      rw [hStep.log, List.filter_cons_of_neg (by simpa using hGranted)]
      exact h.only
    row := hRow
    owner := hOwner }

/-- The lease was granted by one operation. -/
theorem LeaseTaken.eq_grant {pid : Nat} {winner : RepairCall} {won : RepairPhase}
    {grant entry : SchedulerEntry} {old : ScheduledJobDataModel}
    (h : LeaseTaken first pool pk pid winner won grant old) (hEntry : entry ∈ pool.log)
    (hGranted : entry.op.act.granted entry.reply = some pk) : entry = grant := by
  have hMem : entry ∈ pool.log.filter fun entry => entry.op.act.granted entry.reply = some pk :=
    List.mem_filter.mpr ⟨hEntry, decide_eq_true hGranted⟩
  rw [h.only] at hMem
  exact List.mem_singleton.mp hMem

/-- An operation of a call on another job keeps what is said of a job. -/
theorem LeaseTaken.elsewhere {pid : Nat} {winner : RepairCall} {won : RepairPhase}
    {grant : SchedulerEntry} {old : ScheduledJobDataModel}
    (hStep : RepairStep reading pool pool' actor call phase op reply) (hPk : pk ≠ call.jobPk)
    (hGranted : op.act.granted reply ≠ some pk)
    (hJob : pool'.shared.job pk = pool.shared.job pk)
    (h : LeaseTaken first pool pk pid winner won grant old) :
    LeaseTaken first pool' pk pid winner won grant old := by
  have hPid : pid ≠ actor := by
    rintro rfl
    obtain ⟨rfl, -⟩ := phaseOf_unique h.phase_eq hStep.actor_eq
    exact hPk h.jobPk.symm
  exact h.kept hStep hGranted ((hStep.other hPid).trans h.phase_eq) (hJob ▸ h.row)
    (hJob ▸ h.owner)

/-- A call that was granted the lease is the one that was. -/
theorem LeaseTaken.eq_pid {pid : Nat} {winner : RepairCall} {won : RepairPhase}
    {grant : SchedulerEntry} {old : ScheduledJobDataModel} (hInv : RepairsInv first pool)
    (hActor : phaseOf pool actor = some (call, phase)) (hWon : phase.Won)
    (hPk : call.jobPk = pk) (h : LeaseTaken first pool pk pid winner won grant old) :
    actor = pid := by
  obtain ⟨entry, hEntry, hPid, hGranted⟩ := hInv.grants actor call phase hActor hWon
  obtain rfl := h.eq_grant hEntry (hPk ▸ hGranted)
  exact hPid.symm.trans h.grant_pid

/-- A lease is taken once only: the one that is there is that of a repair that has not
ended, or it was given back. -/
theorem LeaseTaken.not_took {pid : Nat} {winner : RepairCall} {won : RepairPhase}
    {grant : SchedulerEntry} {old row : ScheduledJobDataModel} {now expires : Date}
    (h : LeaseTaken first pool pk pid winner won grant old) (hEnded : SettledPhases pool)
    (hRow : pool.shared.job pk = some row) (hHeld : row.updateState ≠ none)
    (hExpires : row.leaseExpires = some expires)
    (hOutlasts : LeasedByRepair pool row → ∀ expires ∈ row.leaseExpires,
      reading now expires = false) : reading now expires = false := by
  refine hOutlasts ⟨hHeld, grant, ?_, ?_, h.owner row hRow hHeld, fun hOver => ?_⟩ expires hExpires
  · have hMem : grant ∈ pool.log.filter fun entry =>
        entry.op.act.granted entry.reply = some pk := by
      rw [h.only]
      exact List.mem_singleton_self grant
    exact (List.mem_filter.mp hMem).1
  · rw [pk_of_job hRow]
    exact h.granted
  · -- A winner that has ended left no update state, and the row has one.
    rw [h.grant_pid] at hOver
    obtain ⟨new, hNew, hDone, -⟩ := h.row.of_settled (hEnded pid winner won h.phase_eq hOver)
    obtain rfl := Option.some.inj (hRow.symm.trans hNew)
    exact hHeld hDone.updateState

/-- What an operation does to a job whose lease was not granted. -/
theorem LeaseUntaken.step (hStep : RepairStep reading pool pool' actor call phase op reply)
    (hInv : RepairsInv first pool) (h : LeaseUntaken first pool pk) :
    LeaseUntaken first pool' pk ∨
      ∃ pid call phase grant old, LeaseTaken first pool' pk pid call phase grant old := by
  obtain ⟨scope, act⟩ := op
  cases hStep.may.effect hStep.exec with
  | kept hNone hJobs =>
      refine Or.inl (h.kept hStep ?_ (hJobs pk))
      rw [Act.granted_of_not_wrote hNone]
      exact fun hSome => by cases hSome
  | took leaseId src row expires count hPhase hRow hHeld hExpires hExpired hJobs =>
      by_cases hPk : pk = call.jobPk
      · -- The copy the call has is still the row.
        subst hPhase
        have hSrc := h.copies actor call leaseId src hStep.actor_eq hPk.symm
        have hSame : row = src := by
          rw [← hPk, h.row, hSrc] at hRow
          exact (Option.some.inj hRow).symm
        subst hSame
        have hAfter : pool'.shared.job pk = some (repairedRow leaseId call.expires row) := by
          rw [hJobs, if_pos hPk]
          rfl
        refine Or.inr ⟨actor, call, _, ⟨actor, ⟨scope, .updateSchedule call.jobPk
            (repairPatch leaseId call.expires (previousState row)) (leaseExpiredBefore call.now)⟩,
            Except.ok (count + 1), pool.shared⟩, row, hStep.actor_next, hPk.symm, rfl, ?_, ?_, hSrc,
          ⟨call.expires, hAfter⟩, ?_⟩
        · exact congrArg some hPk.symm
        · rw [hStep.log, List.filter_cons_of_pos, h.no_grant]
          exact decide_eq_true (congrArg some hPk.symm)
        · intro last hLast _
          obtain rfl := Option.some.inj (hAfter.symm.trans hLast)
          rfl
      · refine Or.inl (h.kept hStep (fun hSame => hPk (Option.some.inj hSame).symm) ?_)
        rw [hJobs, if_neg hPk]
  | gaveBack leaseId sched row tasks refused pasture pastureReason count hPhase hRow hPasture
      hJobs =>
      subst hPhase
      by_cases hPk : pk = call.jobPk
      · -- Only a call that was granted the lease gives it back.
        obtain ⟨entry, hEntry, -, hGranted⟩ := hInv.grants actor call _ hStep.actor_eq trivial
        exact absurd (hPk ▸ hGranted) (h.ungranted entry hEntry)
      · refine Or.inl (h.kept hStep (fun hSome => by cases hSome) ?_)
        rw [hJobs, if_neg hPk]

/-- What an operation does to a job whose lease was granted. -/
theorem LeaseTaken.step {pid : Nat} {winner : RepairCall} {won : RepairPhase}
    {grant : SchedulerEntry} {old : ScheduledJobDataModel}
    (hStep : RepairStep reading pool pool' actor call phase op reply)
    (hInv : RepairsInv first pool) (hEnded : SettledPhases pool)
    (hUpdates : op.act.updatesJob = true → Answered reading pool.shared op.act reply)
    (hReads : op.act.readsJob = true → phase.Won → Answered reading pool.shared op.act reply)
    (hOutlasts : ∀ test ∈ op.act.expiryTest, ∀ row ∈ pool.shared.job test.1,
      LeasedByRepair pool row → ∀ expires ∈ row.leaseExpires, reading test.2 expires = false)
    (h : LeaseTaken first pool pk pid winner won grant old) :
    ∃ next, LeaseTaken first pool' pk pid winner next grant old := by
  obtain ⟨scope, act⟩ := op
  cases hStep.may.effect hStep.exec with
  | kept hNone hJobs =>
      have hGranted : act.granted reply ≠ some pk := by
        rw [Act.granted_of_not_wrote hNone]
        exact fun hSome => by cases hSome
      have hOwner : ∀ row, pool'.shared.job pk = some row → row.updateState ≠ none →
          grant.op.act.ownerWritten = row.leaseOwner :=
        fun row hRow => h.owner row ((hJobs pk).symm.trans hRow)
      by_cases hPid : pid = actor
      · -- The winner itself goes on: its phase and what is said of the row move together.
        subst hPid
        obtain ⟨rfl, rfl⟩ := phaseOf_unique h.phase_eq hStep.actor_eq
        have hBefore : PhaseRow first.shared old (pool.shared.job winner.jobPk) won := by
          rw [h.jobPk]
          exact h.row
        refine ⟨_, h.kept hStep hGranted hStep.actor_next ?_ hOwner⟩
        rw [← h.jobPk]
        exact hBefore.kept hStep.may hStep.exec hNone hUpdates hReads hInv.tasks
      · refine ⟨won, h.kept hStep hGranted ((hStep.other hPid).trans h.phase_eq) ?_ hOwner⟩
        rw [hJobs]
        exact h.row
  | took leaseId src row expires count hPhase hRow hHeld hExpires hExpired hJobs =>
      -- The lease of this job has not expired, so it is one of another job that is taken.
      have hPk : pk ≠ call.jobPk := by
        rintro rfl
        have hAlive := h.not_took hEnded hRow hHeld hExpires (hOutlasts _ rfl row hRow)
        rw [hExpired] at hAlive
        cases hAlive
      exact ⟨won, h.elsewhere hStep hPk (fun hGranted => hPk (Option.some.inj hGranted).symm)
        (by rw [hJobs, if_neg hPk])⟩
  | gaveBack leaseId sched row tasks refused pasture pastureReason count hPhase hRow hPasture
      hJobs =>
      subst hPhase
      by_cases hPk : pk = call.jobPk
      · obtain rfl : actor = pid := h.eq_pid hInv hStep.actor_eq trivial hPk.symm
        obtain ⟨rfl, rfl⟩ := phaseOf_unique h.phase_eq hStep.actor_eq
        have hBefore : PhaseRow first.shared old (some row)
            (.holding leaseId sched tasks refused) := by
          rw [← hRow, ← hPk]
          exact h.row
        obtain ⟨hDone, hKept⟩ := hBefore.gaveBack pastureReason hPasture
        have hAfter : pool'.shared.job pk =
            some ((releasePatch pasture pastureReason).apply row) := by rw [hJobs, if_pos hPk]
        refine ⟨_, h.kept hStep (fun hSome => by cases hSome) hStep.actor_next
          ⟨_, hAfter, hDone, hKept⟩ ?_⟩
        intro last hLast hUpdating
        obtain rfl := Option.some.inj (hAfter.symm.trans hLast)
        exact absurd rfl hUpdating
      · exact ⟨won, h.elsewhere hStep hPk (fun hSome => by cases hSome)
          (by rw [hJobs, if_neg hPk])⟩

theorem RepairStep.task_kept (hStep : RepairStep reading pool pool' actor call phase op reply)
    (pk : PrimaryKeyType) : pool'.shared.task pk = pool.shared.task pk :=
  hStep.exec.task_kept hStep.may.not_wroteTask pk

/-- Whoever writes a job was granted its lease, then or before. -/
theorem RepairStep.won_of_wrote
    (hStep : RepairStep reading pool pool' actor call phase op reply)
    (hWrote : op.act.WroteSchedule reply) : (phase.next op.act reply).Won := by
  obtain ⟨scope, act⟩ := op
  cases hStep.may.effect hStep.exec with
  | kept hNone hJobs => exact absurd hWrote hNone
  | took leaseId src row expires count hPhase =>
      subst hPhase
      trivial
  | gaveBack leaseId sched row tasks refused pasture pastureReason count hPhase =>
      subst hPhase
      trivial

theorem RepairStep.won_next (hStep : RepairStep reading pool pool' actor call phase op reply)
    (hWon : phase.Won) : (phase.next op.act reply).Won := by
  by_cases hWrote : op.act.WroteSchedule reply
  · exact hStep.won_of_wrote hWrote
  · exact (RepairPhase.won_next hWrote).mpr hWon

/-- A call is granted the lease of the job it is about. -/
theorem RepairStep.granted_of_won
    (hStep : RepairStep reading pool pool' actor call phase op reply)
    (hWon : (phase.next op.act reply).Won) :
    phase.Won ∨ op.act.granted reply = some call.jobPk := by
  obtain ⟨scope, act⟩ := op
  cases hStep.may.effect hStep.exec with
  | kept hNone hJobs => exact Or.inl ((RepairPhase.won_next hNone).mp hWon)
  | took leaseId src row expires count hPhase => exact Or.inr rfl
  | gaveBack leaseId sched row tasks refused pasture pastureReason count hPhase =>
      subst hPhase
      exact Or.inl trivial

/-- **A step of the system keeps the invariant.** -/
theorem RepairsInv.step
    (hMoves : pool.Moves (repairs reading) repairProtocol (fun _ => .idle) event pool')
    (hEnded : SettledPhases pool) (hServed : leaseWritesServed reading pool event pool')
    (hRead : grantedRowsRead reading pool event pool') (hInv : RepairsInv first pool) :
    RepairsInv first pool' := by
  cases hMoves with
  | quiet _ _ hShared hLog hOld hNew =>
      obtain ⟨hJobs, hTasks⟩ := Database.tables_of_quiet hShared
      -- A call that starts is in no phase that matters here.
      have hBefore : ∀ {pid : Nat} {call : RepairCall} {phase : RepairPhase},
          phaseOf pool' pid = some (call, phase) → phase ≠ .idle →
            phaseOf pool pid = some (call, phase) := by
        intro pid call phase hPhase hStarted
        rcases hNew pid call phase hPhase with hSame | ⟨-, rfl⟩
        · exact hSame
        · exact absurd rfl hStarted
      refine ⟨fun pk => (hTasks pk).trans (hInv.tasks pk), ?_, hLog ▸ hInv.noTasks, ?_,
        fun pk => ?_⟩
      · intro entry hEntry hWrote
        obtain ⟨call, phase, hPhase, hWon⟩ := hInv.writers entry (hLog ▸ hEntry) hWrote
        exact ⟨call, phase, hOld _ _ hPhase, hWon⟩
      · intro pid call phase hPhase hWon
        rw [hLog]
        exact hInv.grants pid call phase (hBefore hPhase fun hIdle => by
          rw [hIdle] at hWon; exact hWon) hWon
      · rcases hInv.jobs pk with h | ⟨pid, call, phase, grant, old, h⟩
        · exact Or.inl ⟨(hJobs pk).trans h.row, hLog ▸ h.ungranted,
            fun pid call leaseId src hFound => h.copies pid call leaseId src
              (hBefore hFound fun hIdle => by cases hIdle)⟩
        · exact Or.inr ⟨pid, call, phase, grant, old,
            { h with
              phase_eq := hOld _ _ h.phase_eq
              only := hLog ▸ h.only
              row := (hJobs pk).symm ▸ h.row
              owner := fun row hRow => h.owner row ((hJobs pk).symm.trans hRow) }⟩
  | performed actor call phase op reply _ hActor hMay hExec hLog hStates =>
      have hStep : RepairStep reading pool pool' actor call phase op reply :=
        ⟨hActor, hMay, hExec, hLog, hStates⟩
      -- A call past its win has its grant in the log, which is when its read is served.
      have hReads : op.act.readsJob = true → phase.Won →
          Answered reading pool.shared op.act reply := by
        intro hReads hWon
        obtain ⟨earlier, hEarlier, hPid, hGranted⟩ := hInv.grants actor call phase hActor hWon
        exact hRead _ rfl hReads ⟨earlier, hEarlier, hPid, Option.isSome_of_eq_some hGranted⟩
      refine ⟨fun pk => (hStep.task_kept pk).trans (hInv.tasks pk), ?_, ?_, ?_, fun pk => ?_⟩
      · intro entry hEntry hWrote
        rw [hLog] at hEntry
        rcases List.mem_cons.mp hEntry with rfl | hOld
        · exact ⟨call, _, hStep.actor_next, hStep.won_of_wrote hWrote⟩
        · obtain ⟨writer, before, hPhase, hWon⟩ := hInv.writers entry hOld hWrote
          by_cases hPid : entry.pid = actor
          · rw [hPid] at hPhase ⊢
            obtain ⟨rfl, rfl⟩ := phaseOf_unique hPhase hActor
            exact ⟨writer, _, hStep.actor_next, hStep.won_next hWon⟩
          · exact ⟨writer, before, (hStep.other hPid).trans hPhase, hWon⟩
      · intro entry hEntry
        rw [hLog] at hEntry
        rcases List.mem_cons.mp hEntry with rfl | hOld
        · exact hStep.may.not_wroteTask
        · exact hInv.noTasks entry hOld
      · intro pid holder after hPhase hWon
        rw [hLog]
        rw [hStep.phases] at hPhase
        split at hPhase
        · rename_i hPid
          obtain ⟨rfl, rfl⟩ := Prod.mk.inj (Option.some.inj hPhase)
          rcases hStep.granted_of_won hWon with hBefore | hGranted
          · obtain ⟨entry, hEntry, hOwn, hGranted⟩ := hInv.grants actor call phase hActor hBefore
            exact ⟨entry, List.mem_cons_of_mem _ hEntry, hOwn.trans hPid.symm, hGranted⟩
          · exact ⟨_, List.mem_cons_self .., hPid.symm, hGranted⟩
        · obtain ⟨entry, hEntry, hOwn, hGranted⟩ := hInv.grants pid holder after hPhase hWon
          exact ⟨entry, List.mem_cons_of_mem _ hEntry, hOwn, hGranted⟩
      · rcases hInv.jobs pk with h | ⟨pid, winner, won, grant, old, h⟩
        · exact h.step hStep hInv
        · obtain ⟨next, hNext⟩ := h.step hStep hInv hEnded (hServed _ rfl).1 hReads
            (hServed _ rfl).2
          exact Or.inr ⟨pid, winner, next, grant, old, hNext⟩

end Steps

/-! ## Whole runs -/

section Runs

variable {A : RunCondition signature Database RepairCall (Except JsError Unit)}
  {first pool : RepairPool}

/-- What is left of a repair follows its protocol. -/
theorem honors_of_repairs (hRun : Run (repairs reading) A first pool) (hIdle : first.Idle) :
    pool.Honors repairProtocol (fun _ => .idle) fun _ after _ => after.Settled := by
  refine hRun.honors (fun call => ?_) hIdle
  refine Prog.Sat.mono call.honors_protocol fun after result hAfter => ?_
  cases result with
  | ok value => exact hAfter
  | error e => exact hAfter

/-- A repair settles in a phase in which repairs settle. -/
theorem settledPhases_of_run (hRun : Run (repairs reading) A first pool) (hIdle : first.Idle) :
    SettledPhases pool := by
  rintro pid call phase hPhase ⟨⟨request, prog⟩, hProc, hSettled⟩
  have hState : phaseOf pool pid = _ := Pool.stateOf_eq_some hProc
  obtain ⟨rfl, rfl⟩ := phaseOf_unique hPhase hState
  rcases prog with _ | (settled | _)
  · cases hSettled
  · exact honors_of_repairs hRun hIdle pid _ _ hProc
  · cases hSettled

/-- The invariant holds of every state of a run. -/
theorem repairsInv_of_run
    (hRun : Run (repairs reading) (fun pool event pool' =>
      leaseWritesServed reading pool event pool' ∧ grantedRowsRead reading pool event pool')
      first pool) (hIdle : first.Idle) : RepairsInv first pool := by
  refine hRun.invariant ?_ ?_
  · have hNoPhase : ∀ pid, phaseOf first pid = none := Pool.stateOf_idle hIdle
    refine ⟨fun pk => rfl, ?_, ?_, ?_, fun pk => Or.inl ⟨rfl, ?_, ?_⟩⟩
    · intro entry hEntry
      rw [hIdle.2] at hEntry
      cases hEntry
    · intro entry hEntry
      rw [hIdle.2] at hEntry
      cases hEntry
    · intro pid call phase hPhase
      rw [hNoPhase] at hPhase
      cases hPhase
    · intro entry hEntry
      rw [hIdle.2] at hEntry
      cases hEntry
    · intro pid call leaseId src hPhase
      rw [hNoPhase] at hPhase
      cases hPhase
  · rintro pool event pool' hBefore hInv hStep ⟨hServed, hRead⟩
    exact hInv.step (hStep.moves (hBefore.logOwned hIdle) (honors_of_repairs hBefore hIdle))
      (settledPhases_of_run hBefore hIdle) hServed hRead

/-- What the winner's phase says of the row, the pasture flag follows. -/
theorem PhaseRow.pasture_kept {first : Database} {old new : ScheduledJobDataModel}
    {phase : RepairPhase} (hRow : PhaseRow first old (some new) phase)
    (hPasture : old.pasture = true) : new.pasture = true := by
  cases phase with
  | won leaseId =>
      obtain ⟨expires, hNew⟩ := hRow
      obtain rfl := Option.some.inj hNew
      exact hPasture
  | holding leaseId sched tasks refused =>
      obtain ⟨-, ⟨expires, rfl⟩, hNew, -⟩ := hRow
      obtain rfl := Option.some.inj hNew
      exact hPasture
  | closed =>
      obtain ⟨last, hNew, -, hKept⟩ := hRow
      obtain rfl := Option.some.inj hNew
      exact hKept hPasture
  | _ => exact hRow.elim

/-- **Repairs close their leases**, however many run, on whatever rows, in every
interleaving, when each can read the row it was granted. -/
theorem repair_closes {first pool : RepairPool}
    (hRun : Run (repairs reading) (fun pool event pool' =>
      leaseWritesServed reading pool event pool' ∧ grantedRowsRead reading pool event pool')
      first pool) (hIdle : first.Idle) : RepairsClosed first pool := by
  have hInv := repairsInv_of_run hRun hIdle
  have hEnded := settledPhases_of_run hRun hIdle
  refine ⟨?_, ?_, ?_, ?_, hInv.tasks⟩
  · intro pid hLost entry hEntry hPid
    refine ⟨fun hWrote => ?_, hInv.noTasks entry hEntry⟩
    obtain ⟨call, phase, hPhase, hWon⟩ := hInv.writers entry hEntry hWrote
    obtain ⟨grant, hGrant, hOwn, hGranted⟩ := hInv.grants _ call phase hPhase hWon
    -- a call that writes was granted the lease, and a losing one was not
    rw [hLost grant hGrant (hOwn.trans hPid)] at hGranted
    cases hGranted
  · intro pk
    rcases hInv.jobs pk with h | ⟨pid, call, phase, grant, old, h⟩
    · rw [h.no_grant]
      exact Nat.zero_le 1
    · rw [h.only]
      exact Nat.le_refl 1
  · intro entry hEntry pk hGranted hOver
    rcases hInv.jobs pk with h | ⟨pid, call, phase, grant, old, h⟩
    · exact absurd hGranted (h.ungranted entry hEntry)
    · obtain rfl := h.eq_grant hEntry hGranted
      rw [h.grant_pid] at hOver
      obtain ⟨new, hNew, hDone, -⟩ := h.row.of_settled (hEnded pid call phase h.phase_eq hOver)
      exact ⟨old, new, h.old_eq, hNew, hDone⟩
  · intro pk old row hOld hRow hPasture
    rcases hInv.jobs pk with h | ⟨pid, call, phase, grant, stored, h⟩
    · rw [h.row, hOld] at hRow
      exact Option.some.inj hRow ▸ hPasture
    · obtain rfl := Option.some.inj (hOld.symm.trans h.old_eq)
      exact (hRow ▸ h.row).pasture_kept hPasture

/-! ## Concrete runs -/

/-- The sample job, left while its first task was added, after its lease has expired. -/
def interruptedPool : RepairPool where
  shared :=
    { scheduledJobTable := ⟨[{ sampleJob false with
        updateState := some .addTask
        updateTaskPk := some "task"
        leaseOwner := some "create"
        leaseExpires := some 5 }], List.nodup_singleton _⟩
      taskTable := ⟨[sampleTask], List.nodup_singleton _⟩
      clock := 10 }
  procs := []
  log := []

/-- A repair of the sample job. -/
def sampleRepair : RepairCall :=
  ⟨sampleNode sampleStart [], (sampleJob false).toScheduledJobModel, 10⟩

/-- Two nodes read the row, and both try to take the lease over. -/
theorem repair_closes_race : ∃ pool,
    (∃ grant ∈ pool.log, grant.op.act.granted grant.reply = some "job" ∧
      RepairEnded pool grant.pid) ∧ RepairsClosed interruptedPool pool := by
  have hDriven : ((driverOver strictlyBefore RepairCall.program).drive
      (fun pool event pool' => decide (leaseWritesServed strictlyBefore pool event pool' ∧
        grantedRowsRead strictlyBefore pool event pool'))
      [.spawn sampleRepair, .spawn sampleRepair, .run 0 { leaseId := "first" },
        .run 1 { leaseId := "second" }, .run 0 {}, .run 1 {}, .run 0 {}, .run 1 {}, .run 1 {},
        .run 0 {}, .run 0 {}, .run 0 {}] interruptedPool).any
      (fun pool => decide (∃ grant ∈ pool.log,
        grant.op.act.granted grant.reply = some "job" ∧ RepairEnded pool grant.pid)) = true := by
    decide +kernel
  obtain ⟨pool, hRun, hTest⟩ := Driver.exists_run_of_drive (fun _ _ _ => of_decide_eq_true) hDriven
  exact ⟨pool, of_decide_eq_true hTest, repair_closes hRun ⟨rfl, rfl⟩⟩

/-- The lease is granted, and the read of the row is rejected: nothing gives it back. -/
theorem unread_repair_stays_open :
    ¬ ∀ pool, Run (repairs strictlyBefore) (fun pool event pool' =>
        leaseWritesServed strictlyBefore pool event pool' ∧ freshLeaseIds pool event pool')
      interruptedPool pool → RepairsClosed interruptedPool pool := by
  intro hAll
  have hDriven : ((driverOver strictlyBefore RepairCall.program).drive
      (fun pool event pool' => decide (leaseWritesServed strictlyBefore pool event pool' ∧
        freshLeaseIds pool event pool'))
      [.spawn sampleRepair, .run 0 { leaseId := "repair" }, .run 0 {}, .run 0 {},
        .run 0 { rejects := some (.foreign true "unreachable") }] interruptedPool).any
      (fun pool => decide ((∃ grant ∈ pool.log,
          grant.op.act.granted grant.reply = some "job" ∧ RepairEnded pool grant.pid) ∧
        ∃ row ∈ pool.shared.job "job", row.updateState ≠ none)) = true := by
    decide +kernel
  obtain ⟨pool, hRun, hTest⟩ := Driver.exists_run_of_drive (fun _ _ _ => of_decide_eq_true) hDriven
  obtain ⟨⟨grant, hGrant, hGranted, hOver⟩, row, hRow, hHeld⟩ := of_decide_eq_true hTest
  obtain ⟨old, last, -, hLast, hDone⟩ := (hAll pool hRun).closes grant hGrant "job" hGranted hOver
  obtain rfl := Option.some.inj (hLast.symm.trans hRow)
  exact hHeld hDone.updateState

end Runs

end TernScheduler
