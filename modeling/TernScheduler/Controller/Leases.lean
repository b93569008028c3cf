import TernScheduler.Controller.Runs

/-!
# Who holds a lease

What a step does to the lease of a job, and the invariants of the lease columns
over runs in which lease ids are unique.

* `LeaseChange` is the inversion of a step on the schedule table: nothing, a row
  created leased, a lease taken, a lease taken over, or a lease given up.
* `Holding` says that the owner of a row is the one call that drew its id and was
  granted that job, and that the row such a call has read is still the row.
-/

namespace TernScheduler

open Interleaving Database

/-! ## What a call does to a lease -/

/-- What an operation a contract allows does to the schedule table. -/
inductive LeaseChange (reading : BeforeDateReading) (request : Request)
    (session : Session) (db after : Database) : (act : Act) → act.Reply → Prop
  | kept {act : Act} {reply : act.Reply} (hNone : ¬ act.WroteSchedule reply)
      (hJobs : ∀ pk, after.job pk = db.job pk) :
      LeaseChange reading request session db after act reply
  | created (row : ScheduledJobDataModel) (hMay : MayCreate request session row)
      (hAbsent : db.job row.pk = none)
      (hJobs : ∀ pk, after.job pk = if pk = row.pk then some row else db.job pk) :
      LeaseChange reading request session db after (.createSchedule row) (Except.ok ())
  | acquired (pk : PrimaryKeyType) (operation : ScheduleUpdateStateType)
      (taskPk : Option PrimaryKeyType) (leaseId : LeaseIdType) (expires : Date)
      (count : Nat) (row : ScheduledJobDataModel) (hRow : db.job pk = some row)
      (hFree : row.updateState = none) (hJob : session.job = none)
      (hOpen : session.closed = false) (hLeaseId : session.leaseId = some leaseId)
      (hLeases : Leases request session pk)
      (hJobs : ∀ other, after.job other = if other = pk then
        some ((leasePatch operation taskPk leaseId expires).apply row)
        else db.job other) :
      LeaseChange reading request session db after
        (.updateSchedule pk (leasePatch operation taskPk leaseId expires) notUpdating)
        (Except.ok (count + 1))
  | takenOver (pk : PrimaryKeyType) (leaseId : LeaseIdType) (expires old : Date)
      (repairState : Option String) (schedule : ScheduledJobModel) (count : Nat)
      (row : ScheduledJobDataModel)
      (hCall : request.call = .repairExpiredSchedule schedule)
      (hRow : db.job pk = some row) (hHeld : row.updateState ≠ none)
      (hExpired : row.leaseExpires = some old ∧ reading request.now old = true)
      (hJob : session.job = none) (hOpen : session.closed = false)
      (hLeaseId : session.leaseId = some leaseId)
      (hJobs : ∀ other, after.job other = if other = pk then
        some ((repairPatch leaseId expires repairState).apply row) else db.job other) :
      LeaseChange reading request session db after
        (.updateSchedule pk (repairPatch leaseId expires repairState)
          (leaseExpiredBefore request.now)) (Except.ok (count + 1))
  | closed (pk : PrimaryKeyType) (newValues : ScheduledJobPatch) (pasture : Bool)
      (pastureReason : Option String) (leaseId : LeaseIdType) (count : Nat)
      (row : ScheduledJobDataModel) (hRow : db.job pk = some row)
      (hHeld : row.updateState ≠ none) (hOwner : row.leaseOwner = some leaseId)
      (hLeaseId : session.leaseId = some leaseId) (hOpen : session.closed = false)
      (hTarget : ∀ job, session.job = some job →
        pk = job ∨ ∃ sched, session.sched = some sched ∧ pk = sched.pk)
      (hValues : newValues = releasePatch pasture pastureReason ∨
        ∃ now, newValues = needsRepairPatch now pasture pastureReason)
      (hPasture : MayLeavePasture request session pasture)
      (hJobs : ∀ other, after.job other =
        if other = pk then some (newValues.apply row) else db.job other) :
      LeaseChange reading request session db after
        (.updateSchedule pk newValues (leasedBy leaseId)) (Except.ok (count + 1))

/-- **Inversion of an operation on the schedule table.** -/
theorem May.leaseChange {reading : BeforeDateReading} {request : Request}
    {session : Session} {scope : Scope} {act : Act} {reply : act.Reply}
    {db after : Database} (hMay : May request session ⟨scope, act⟩)
    (hExec : Exec reading db act reply after) :
    LeaseChange reading request session db after act reply := by
  cases hExec.scheduleEffect with
  | kept hNone hJobs => exact .kept hNone hJobs
  | created row hAbsent hJobs => exact .created row hMay.2 hAbsent hJobs
  | updated pk newValues conditional count row hRow hHolds hJobs =>
      -- a schedule is written to take its lease, to take it over, or to close it
      rcases hMay.2 with hAcquire | hTakeOver | hClose
      · obtain ⟨operation, taskPk, leaseId, expires, hJob, hOpen, hLeaseId, hLeases, rfl,
          rfl⟩ := hAcquire
        rw [holds_notUpdating] at hHolds
        exact .acquired pk operation taskPk leaseId expires count row hRow hHolds hJob
          hOpen hLeaseId hLeases hJobs
      · obtain ⟨schedule, leaseId, expires, repairState, hCall, -, hJob, hOpen, hLeaseId,
          rfl, rfl⟩ := hTakeOver
        rw [holds_leaseExpiredBefore] at hHolds
        obtain ⟨hHeld, old, hOld, hReading⟩ := hHolds
        exact .takenOver pk leaseId expires old repairState schedule count row hCall hRow
          hHeld ⟨hOld, hReading⟩ hJob hOpen hLeaseId hJobs
      · obtain ⟨leaseId, pasture, pastureReason, hLeaseId, hOpen, hTarget, hValues, rfl,
          hPasture⟩ := hClose
        rw [holds_leasedBy] at hHolds
        exact .closed pk newValues pasture pastureReason leaseId count row hRow hHolds.1
          hHolds.2 hLeaseId hOpen hTarget hValues hPasture hJobs

/-! ## What a call keeps -/

section Next

variable {request : Request} {session : Session} {scope : Scope} {act : Act}
  {reply : act.Reply} {leaseId : LeaseIdType} {pk : PrimaryKeyType}

/-- A lease id is drawn by one operation and kept. -/
theorem Session.leaseId_next (session : Session) (act : Act) (reply : act.Reply) :
    (session.next act reply).leaseId = session.leaseId ∨
      ∃ drawn, act.drawn reply = some drawn ∧
        (session.next act reply).leaseId = some drawn := by
  have hChange := session.change act reply
  generalize session.next act reply = after at hChange
  cases hChange with
  | drew leaseId => exact Or.inr ⟨leaseId, rfl, rfl⟩
  | _ => exact Or.inl rfl

/-- A call draws one lease id only. -/
theorem May.keeps_leaseId (hMay : May request session ⟨scope, act⟩)
    (hLeaseId : session.leaseId = some leaseId) :
    (session.next act reply).leaseId = some leaseId := by
  rcases session.leaseId_next act reply with
    hSame | ⟨drawn, hDrawn, -⟩
  · rw [hSame, hLeaseId]
  · cases act <;> first | cases hDrawn; done | skip
    have hNone := hMay.2.1
    rw [hLeaseId] at hNone
    cases hNone

/-- An update that writes a lease owner takes a lease: the call had none. -/
theorem May.job_of_grant {newValues : ScheduledJobPatch}
    {conditional : Conditional ScheduledJobColumn}
    (hMay : May request session ⟨scope, .updateSchedule pk newValues conditional⟩)
    (hOwner : newValues.leaseOwner = some (some leaseId)) :
    session.job = none ∧ session.leaseId = some leaseId := by
  rcases hMay.2 with hAcquire | hTakeOver | hClose
  · obtain ⟨operation, taskPk, own, expires, hJob, -, hOwn, -, rfl, -⟩ := hAcquire
    cases hOwner
    exact ⟨hJob, hOwn⟩
  · obtain ⟨schedule, own, expires, repairState, -, -, hJob, -, hOwn, rfl, -⟩ := hTakeOver
    cases hOwner
    exact ⟨hJob, hOwn⟩
  · obtain ⟨own, pasture, pastureReason, -, -, -, rfl | ⟨now, rfl⟩, -, -⟩ := hClose
    · cases hOwner
    · cases hOwner

/-- A call does something about tasks only once it was granted a job. -/
theorem May.job_of_fact {fact : Fact} (hMay : May request session ⟨scope, act⟩)
    (hFact : act.fact reply = some fact)
    (hLookup : ∀ start limit conditional, act = .findTasks start limit conditional →
      session.job ≠ none) : session.job ≠ none := by
  have hCallback : (∃ leaseId, scope = .callback leaseId) → session.job ≠ none := by
    rintro ⟨leaseId, rfl⟩
    exact (hMay.1 leaseId rfl).2.1
  cases act with
  | createTask row => exact hCallback hMay.2.1
  | updateTask pk newValues conditional => exact hCallback hMay.2.1
  | startJob taskId jobName context => exact hCallback hMay.2.1
  | findTasks start limit conditional => exact hLookup start limit conditional rfl
  | _ => cases hFact

/-- A call takes the lease of one job only. -/
theorem May.keeps_job (hMay : May request session ⟨scope, act⟩)
    (hJob : session.job = some pk) : (session.next act reply).job = some pk := by
  have hChange := session.change act reply
  generalize session.next act reply = after at hChange
  cases hChange with
  | created row =>
      obtain ⟨_, _, _, -, hNone, -⟩ := hMay.2
      rw [hJob] at hNone
      cases hNone
  | granted other newValues conditional count leaseId hOwner =>
      have hNone := (hMay.job_of_grant hOwner).1
      rw [hJob] at hNone
      cases hNone
  | _ => exact hJob

/-- Being granted a job says nothing about tasks. -/
theorem Session.facts_of_gain (hJob : session.job = none)
    (hGain : (session.next act reply).job ≠ none) :
    (session.next act reply).facts = session.facts := by
  have hChange := session.change act reply
  generalize session.next act reply = after at hChange hGain
  cases hChange with
  | recorded fact hFact hLookup => exact absurd hJob hGain
  | _ => rfl

/-- A call that has given its lease up does not get it back. -/
theorem Session.closed_next (hClosed : session.closed = true) :
    (session.next act reply).closed = true := by
  have hChange := session.change act reply
  generalize session.next act reply = after at hChange
  cases hChange with
  | closed => rfl
  | _ => exact hClosed

end Next

/-- What holds of a session by itself: without a job it has read no row and done
nothing about tasks, with a job it has a lease id, and the row it has read is of
that job. -/
structure Session.Sound (session : Session) : Prop where
  unread : session.job = none → session.sched = none
  inactive : session.job = none → session.facts = []
  leased : session.job ≠ none → session.leaseId ≠ none
  pk_eq : ∀ job sched, session.job = some job → session.sched = some sched →
    sched.pk = job

theorem Session.Sound.next {reading : BeforeDateReading} {db after : Database}
    {request : Request} {session : Session} {scope : Scope} {act : Act}
    {reply : act.Reply} (hSound : session.Sound) (hMay : May request session ⟨scope, act⟩)
    (hExec : Exec reading db act reply after) : (session.next act reply).Sound := by
  have hChange := session.change act reply
  generalize session.next act reply = next at hChange
  cases hChange with
  | same => exact hSound
  | recorded fact hFact hJob =>
      exact ⟨hSound.unread, fun hNone => absurd hNone (hMay.job_of_fact hFact hJob),
        hSound.leased, hSound.pk_eq⟩
  | found => exact ⟨hSound.unread, hSound.inactive, hSound.leased, hSound.pk_eq⟩
  | lost => exact ⟨hSound.unread, hSound.inactive, hSound.leased, hSound.pk_eq⟩
  | closed => exact ⟨hSound.unread, hSound.inactive, hSound.leased, hSound.pk_eq⟩
  | drew leaseId =>
      exact ⟨hSound.unread, hSound.inactive, fun _ => by simp, hSound.pk_eq⟩
  -- the row that is read is the one of the job that the call asked for
  | read start limit conditional row rest hJob =>
      refine ⟨fun hNone => absurd hNone hJob, fun hNone => absurd hNone hJob,
        hSound.leased, fun job sched hHeld hRead => ?_⟩
      obtain rfl : row = sched := Option.some.inj hRead
      obtain ⟨pk, rfl, rfl, rfl, hTarget⟩ := hMay.2
      have hPk : row.pk = pk := by
        have hRows := hExec.findSchedules_pk
        cases hRow : db.job pk with
        | none =>
            rw [hRow] at hRows
            cases hRows
        | some stored =>
            rw [hRow] at hRows
            cases hRows
            exact pk_of_job hRow
      rcases hTarget job hHeld with rfl | ⟨old, hOld, rfl⟩
      · exact hPk
      · exact hPk.trans (hSound.pk_eq job old hHeld hOld)
  | created row =>
      refine ⟨fun hNone => (by cases hNone), fun hNone => (by cases hNone), fun _ => ?_,
        fun job sched hJob hSched => ?_⟩
      · obtain ⟨schedule, leaseId, expires, -, -, hLeaseId, -⟩ := hMay.2
        simp [hLeaseId]
      · cases hJob
        cases hSched
        rfl
  | granted pk newValues conditional count leaseId hOwner =>
      obtain ⟨hJob, hLeaseId⟩ := hMay.job_of_grant hOwner
      refine ⟨fun hNone => (by cases hNone), fun hNone => (by cases hNone),
        fun _ => by simp [hLeaseId], fun job sched _ hSched => ?_⟩
      rw [show session.sched = none from hSound.unread hJob] at hSched
      cases hSched

/-! ## Unique lease ids -/

variable {reading : BeforeDateReading}
  {A : RunCondition signature Database Request Settled}
  {first pool pool' : SchedulerPool} {event : Event signature Database Request}
  {clock : Date}

/-- A lease id belongs to one call. -/
def LeaseIdsDistinct (pool : SchedulerPool) : Prop :=
  TokensDistinct Session.leaseId (sessionOf pool)

theorem leaseIdsDistinct (hRun : Run (scheduler reading) A first pool)
    (hIdle : first.Idle)
    (hFresh : ∀ pool event pool', A pool event pool' → freshLeaseIds pool event pool') :
    LeaseIdsDistinct pool := by
  refine hRun.invariant ?_ ?_
  · intro pid pid' request request' session session' leaseId hSession
    rw [sessionOf_idle hIdle] at hSession
    cases hSession
  · intro pool event pool' hBefore hDistinct hStep hA
    exact (hStep.moves (hBefore.logOwned hIdle) (honors_of_run hBefore hIdle)).tokensDistinct
      (fun request => Session.leaseId_start request.call)
      (fun _ session op reply => session.leaseId_next op.act reply)
      (hFresh _ _ _ hA) hDistinct

theorem session_sound (hRun : Run (scheduler reading) A first pool)
    (hIdle : first.Idle) {pid : Nat} {request : Request} {session : Session}
    (hSession : sessionOf pool pid = some (request, session)) : session.Sound := by
  refine session_invariant (I := fun _ session => session.Sound) hRun hIdle ?_ ?_ pid
    request session hSession
  · exact fun request => ⟨fun _ => Session.sched_start _, fun _ => Session.facts_start _,
      fun hJob => absurd (Session.job_start _) hJob,
      fun job sched hJob => by rw [Session.job_start] at hJob; cases hJob⟩
  · exact fun _ _ _ _ _ _ _ hSound hMay hExec => hSound.next hMay hExec

/-- A call keeps its lease id, its job and its facts. -/
theorem Moves.session_persists (hMoves : Moves reading pool event pool') {pid : Nat}
    {request : Request} {session : Session}
    (hSession : sessionOf pool pid = some (request, session)) :
    ∃ session', sessionOf pool' pid = some (request, session') ∧
      (∀ leaseId, session.leaseId = some leaseId → session'.leaseId = some leaseId) ∧
      ∀ pk, session.job = some pk → session'.job = some pk := by
  cases hMoves with
  | quiet _ _ _ _ _ hOld _ =>
      exact ⟨session, hOld pid _ hSession, fun _ h => h, fun _ h => h⟩
  | performed actor actorRequest before scope act reply _ hActor hMay _ _ hSessions =>
      by_cases hPid : pid = actor
      · subst hPid
        rw [hActor] at hSession
        cases hSession
        exact ⟨_, by rw [hSessions, if_pos rfl], fun _ h => hMay.keeps_leaseId h,
          fun _ h => hMay.keeps_job h⟩
      · exact ⟨session, by rw [hSessions, if_neg hPid, hSession], fun _ h => h,
          fun _ h => h⟩

/-! ## Rows and their holders -/

/-- The lease columns of every row, and the calls they point to. -/
structure Holding (pool : SchedulerPool) : Prop where
  coherent : ∀ pk row, pool.shared.job pk = some row →
    (row.updateState = none ↔ row.leaseOwner = none)
  owned : ∀ pk row leaseId, pool.shared.job pk = some row →
    row.leaseOwner = some leaseId →
    ∃ pid request session, sessionOf pool pid = some (request, session) ∧
      session.leaseId = some leaseId ∧ session.job = some pk
  current : ∀ pid request session pk leaseId row sched,
    sessionOf pool pid = some (request, session) → session.job = some pk →
    session.leaseId = some leaseId → session.closed = false →
    session.sched = some sched → pool.shared.job pk = some row →
    row.leaseOwner = some leaseId → row = sched

/-- A change of one row keeps the lease columns of every row coherent. -/
theorem LeaseChange.coherent {request : Request} {session : Session} {act : Act}
    {reply : act.Reply} {db after : Database}
    (hChange : LeaseChange reading request session db after act reply)
    (hCoherent : ∀ pk row, db.job pk = some row →
      (row.updateState = none ↔ row.leaseOwner = none)) :
    ∀ pk row, after.job pk = some row →
      (row.updateState = none ↔ row.leaseOwner = none) := by
  intro pk row hRow
  cases hChange with
  | kept hNone hJobs => exact hCoherent pk row (hJobs pk ▸ hRow)
  | created new hMay hAbsent hJobs =>
      rw [hJobs] at hRow
      split at hRow
      · obtain ⟨schedule, leaseId, expires, -, -, -, -, hOwner, -, hState, -⟩ := hMay
        cases hRow
        simp [hOwner, hState]
      · exact hCoherent pk row hRow
  | acquired other operation taskPk leaseId expires count old hOld _ _ _ _ _ hJobs =>
      rw [hJobs] at hRow
      split at hRow
      · cases hRow
        simp [ScheduledJobPatch.apply, leasePatch]
      · exact hCoherent pk row hRow
  | takenOver other leaseId expires _ repairState _ count old _ hOld _ _ _ _ _ hJobs =>
      rw [hJobs] at hRow
      split at hRow
      · cases hRow
        simp [ScheduledJobPatch.apply, repairPatch]
      · exact hCoherent pk row hRow
  | closed other newValues pasture reason leaseId count old hOld hHeld hOwner _ _ _
      hValues _ hJobs =>
      rw [hJobs] at hRow
      split at hRow
      · cases hRow
        rcases hValues with rfl | ⟨now, rfl⟩
        · simp [ScheduledJobPatch.apply, releasePatch]
        · simpa [ScheduledJobPatch.apply, needsRepairPatch] using
            hCoherent other old hOld
      · exact hCoherent pk row hRow

/-- No change removes a row. -/
theorem LeaseChange.stored {request : Request} {session : Session} {act : Act}
    {reply : act.Reply} {db after : Database} {pk : PrimaryKeyType}
    (hChange : LeaseChange reading request session db after act reply)
    (hStored : db.job pk ≠ none) : after.job pk ≠ none := by
  cases hChange with
  | kept hNone hJobs => rwa [hJobs]
  | created new hMay hAbsent hJobs =>
      rw [hJobs]
      split
      · simp
      · exact hStored
  | acquired other _ _ _ _ _ _ _ _ _ _ _ _ hJobs =>
      rw [hJobs]
      split
      · simp
      · exact hStored
  | takenOver other _ _ _ _ _ _ _ _ _ _ _ _ _ _ hJobs =>
      rw [hJobs]
      split
      · simp
      · exact hStored
  | closed other _ _ _ _ _ _ _ _ _ _ _ _ _ _ hJobs =>
      rw [hJobs]
      split
      · simp
      · exact hStored

/-- No change of a row touches the definition the job was created with. -/
theorem LeaseChange.definition_kept {request : Request} {session : Session} {act : Act}
    {reply : act.Reply} {db after : Database} {pk : PrimaryKeyType}
    {row : ScheduledJobDataModel}
    (hChange : LeaseChange reading request session db after act reply)
    (hRow : db.job pk = some row) :
    ∃ row', after.job pk = some row' ∧ row'.toNewScheduledJob = row.toNewScheduledJob := by
  cases hChange with
  | kept hNone hJobs => exact ⟨row, (hJobs pk).trans hRow, rfl⟩
  | created new hMay hAbsent hJobs =>
      have hNe : pk ≠ new.pk := by
        rintro rfl
        rw [hAbsent] at hRow
        cases hRow
      exact ⟨row, by rw [hJobs, if_neg hNe, hRow], rfl⟩
  | acquired other operation taskPk own expires _ old hOld _ _ _ _ _ hJobs =>
      by_cases hPk : pk = other
      · cases (hPk ▸ hOld).symm.trans hRow
        exact ⟨(leasePatch operation taskPk own expires).apply row,
          by rw [hJobs, if_pos hPk], rfl⟩
      · exact ⟨row, by rw [hJobs, if_neg hPk, hRow], rfl⟩
  | takenOver other own expires _ repairState _ _ old _ hOld _ _ _ _ _ hJobs =>
      by_cases hPk : pk = other
      · cases (hPk ▸ hOld).symm.trans hRow
        exact ⟨(repairPatch own expires repairState).apply row,
          by rw [hJobs, if_pos hPk], rfl⟩
      · exact ⟨row, by rw [hJobs, if_neg hPk, hRow], rfl⟩
  | closed other newValues _ _ _ _ old hOld _ _ _ _ _ _ _ hJobs =>
      by_cases hPk : pk = other
      · cases (hPk ▸ hOld).symm.trans hRow
        exact ⟨newValues.apply row, by rw [hJobs, if_pos hPk], rfl⟩
      · exact ⟨row, by rw [hJobs, if_neg hPk, hRow], rfl⟩

/-- A job keeps the definition it was created with. -/
theorem Moves.definition_kept (hMoves : Moves reading pool event pool')
    {pk : PrimaryKeyType} {row : ScheduledJobDataModel}
    (hRow : pool.shared.job pk = some row) :
    ∃ row', pool'.shared.job pk = some row' ∧
      row'.toNewScheduledJob = row.toNewScheduledJob := by
  cases hMoves with
  | quiet _ _ hJobs _ _ _ _ => exact ⟨row, (hJobs pk).trans hRow, rfl⟩
  | performed pid request session scope act reply _ _ hMay hExec _ _ =>
      exact (hMay.leaseChange hExec).definition_kept hRow

/-- A call that is granted a job by an operation owns its row after it. -/
theorem LeaseChange.owner_of_gain {request : Request} {session : Session} {act : Act}
    {reply : act.Reply} {db after : Database} {pk : PrimaryKeyType}
    (hChange : LeaseChange reading request session db after act reply)
    (hJob : session.job ≠ some pk) (hGain : (session.next act reply).job = some pk) :
    ∃ row, after.job pk = some row ∧
      row.leaseOwner = (session.next act reply).leaseId := by
  have hNext := session.change act reply
  generalize session.next act reply = next at hNext hGain ⊢
  cases hNext with
  | created row =>
      cases hGain
      cases hChange with
      | kept hNone hJobs => exact absurd trivial hNone
      | created _ hMay hAbsent hJobs =>
          obtain ⟨schedule, leaseId, expires, -, -, hLeaseId, -, hOwner, -⟩ := hMay
          exact ⟨row, by rw [hJobs, if_pos rfl], hOwner.trans hLeaseId.symm⟩
  | granted other newValues conditional count leaseId hOwner =>
      cases hGain
      cases hChange with
      | kept hNone hJobs => exact absurd trivial hNone
      | acquired _ _ _ own _ _ row _ _ _ _ hLeaseId _ hJobs =>
          exact ⟨_, by rw [hJobs, if_pos rfl], hLeaseId.symm⟩
      | takenOver _ own _ _ _ _ _ row _ _ _ _ _ _ hLeaseId hJobs =>
          exact ⟨_, by rw [hJobs, if_pos rfl], hLeaseId.symm⟩
      | closed _ _ _ _ _ _ _ _ _ _ _ _ _ hValues _ _ =>
          rcases hValues with rfl | ⟨now, rfl⟩ <;> cases hOwner
  | _ => exact absurd hGain hJob

/-- The owner of a row after an operation: the call that performed it, with the
job it holds after the operation, or whoever owned the row before. -/
theorem LeaseChange.owner {request : Request} {session : Session} {act : Act}
    {reply : act.Reply} {db after : Database} {pk : PrimaryKeyType}
    {row : ScheduledJobDataModel} {leaseId : LeaseIdType}
    (hChange : LeaseChange reading request session db after act reply)
    (hRow : after.job pk = some row) (hOwner : row.leaseOwner = some leaseId) :
    (∃ old, db.job pk = some old ∧ old.leaseOwner = some leaseId) ∨
      (session.leaseId = some leaseId ∧ (session.next act reply).leaseId = some leaseId ∧
        (session.next act reply).job = some pk) := by
  cases hChange with
  | kept hNone hJobs => exact Or.inl ⟨row, hJobs pk ▸ hRow, hOwner⟩
  | created new hMay hAbsent hJobs =>
      rw [hJobs] at hRow
      split at hRow
      · rename_i hPk
        cases hRow
        obtain ⟨schedule, own, expires, -, -, hLeaseId, -, hOwn, -⟩ := hMay
        rw [hOwn] at hOwner
        cases hOwner
        exact Or.inr ⟨hLeaseId, hLeaseId, hPk ▸ rfl⟩
      · exact Or.inl ⟨row, hRow, hOwner⟩
  | acquired other _ _ own _ _ old hOld _ _ _ hLeaseId _ hJobs =>
      rw [hJobs] at hRow
      split at hRow
      · rename_i hPk
        cases hRow
        cases hOwner
        exact Or.inr ⟨hLeaseId, hLeaseId, hPk ▸ rfl⟩
      · exact Or.inl ⟨row, hRow, hOwner⟩
  | takenOver other own _ _ _ _ _ old _ hOld _ _ _ _ hLeaseId hJobs =>
      rw [hJobs] at hRow
      split at hRow
      · rename_i hPk
        cases hRow
        cases hOwner
        exact Or.inr ⟨hLeaseId, hLeaseId, hPk ▸ rfl⟩
      · exact Or.inl ⟨row, hRow, hOwner⟩
  | closed other _ _ _ own _ old hOld _ hOwn _ _ _ hValues _ hJobs =>
      rw [hJobs] at hRow
      split at hRow
      · rename_i hPk
        cases hRow
        rcases hValues with rfl | ⟨now, rfl⟩
        · cases hOwner
        · exact Or.inl ⟨old, hPk ▸ hOld, hOwner⟩
      · exact Or.inl ⟨row, hRow, hOwner⟩

/-- A row somebody else owns, or that the call has not closed, is written by
nobody but its owner: after an operation of another call the row is as it was. -/
theorem LeaseChange.row_of_other {request : Request} {session : Session} {act : Act}
    {reply : act.Reply} {db after : Database} {pk : PrimaryKeyType}
    {row : ScheduledJobDataModel} {leaseId : LeaseIdType}
    (hChange : LeaseChange reading request session db after act reply)
    (hStored : db.job pk ≠ none) (hOther : session.leaseId ≠ some leaseId)
    (hRow : after.job pk = some row) (hOwner : row.leaseOwner = some leaseId) :
    db.job pk = some row := by
  cases hChange with
  | kept hNone hJobs => exact hJobs pk ▸ hRow
  | created new hMay hAbsent hJobs =>
      rw [hJobs] at hRow
      split at hRow
      · rename_i hPk
        exact absurd (hPk ▸ hAbsent) hStored
      · exact hRow
  | acquired other _ _ own _ _ old hOld _ _ _ hLeaseId _ hJobs =>
      rw [hJobs] at hRow
      split at hRow
      · cases hRow
        cases hOwner
        exact absurd hLeaseId hOther
      · exact hRow
  | takenOver other own _ _ _ _ _ old _ hOld _ _ _ _ hLeaseId hJobs =>
      rw [hJobs] at hRow
      split at hRow
      · cases hRow
        cases hOwner
        exact absurd hLeaseId hOther
      · exact hRow
  | closed other _ _ _ own _ old hOld _ hOwn hLeaseId _ _ hValues _ hJobs =>
      rw [hJobs] at hRow
      split at hRow
      · cases hRow
        rcases hValues with rfl | ⟨now, rfl⟩
        · cases hOwner
        · have hSame : old.leaseOwner = some leaseId := hOwner
          rw [hOwn] at hSame
          cases hSame
          exact absurd hLeaseId hOther
      · exact hRow

/-- The operation takes the lease of a row from the given owner. -/
def takesFrom (db : Database) (leaseId : LeaseIdType) : (act : Act) → act.Reply → Prop
  | .updateSchedule pk newValues _, .ok (_ + 1) =>
      newValues.leaseOwner.join ≠ none ∧
        ∃ row, db.job pk = some row ∧ row.leaseOwner = some leaseId
  | _, _ => False

/-- A row keeps its owner through an operation that does not take the lease from
it, and that is not its owner giving the lease up. -/
theorem LeaseChange.owner_kept {request : Request} {session : Session} {act : Act}
    {reply : act.Reply} {db after : Database} {pk : PrimaryKeyType}
    {row : ScheduledJobDataModel} {leaseId : LeaseIdType}
    (hChange : LeaseChange reading request session db after act reply)
    (hCoherent : row.updateState = none ↔ row.leaseOwner = none)
    (hRow : db.job pk = some row) (hOwner : row.leaseOwner = some leaseId)
    (hNotTaken : ¬ takesFrom db leaseId act reply)
    (hNotClosed : session.leaseId = some leaseId →
      (session.next act reply).closed = false) :
    ∃ row', after.job pk = some row' ∧ row'.leaseOwner = some leaseId := by
  cases hChange with
  | kept hNone hJobs => exact ⟨row, (hJobs pk).trans hRow, hOwner⟩
  | created new hMay hAbsent hJobs =>
      have hNe : pk ≠ new.pk := by
        rintro rfl
        rw [hAbsent] at hRow
        cases hRow
      exact ⟨row, by rw [hJobs, if_neg hNe, hRow], hOwner⟩
  -- a lease is acquired on a free row only
  | acquired other _ _ _ _ _ old hOld hFree _ _ _ _ hJobs =>
      by_cases hPk : pk = other
      · subst hPk
        cases hOld.symm.trans hRow
        rw [hCoherent.mp hFree] at hOwner
        cases hOwner
      · exact ⟨row, by rw [hJobs, if_neg hPk, hRow], hOwner⟩
  | takenOver other own _ _ _ _ _ old _ hOld _ _ _ _ _ hJobs =>
      by_cases hPk : pk = other
      · subst hPk
        exact absurd ⟨by simp [repairPatch], row, hRow, hOwner⟩ hNotTaken
      · exact ⟨row, by rw [hJobs, if_neg hPk, hRow], hOwner⟩
  | closed other _ _ _ own _ old hOld _ hOwn hLeaseId _ _ hValues _ hJobs =>
      by_cases hPk : pk = other
      · subst hPk
        cases hOld.symm.trans hRow
        have hSame : own = leaseId := Option.some.inj (hOwn.symm.trans hOwner)
        have hOpen := hNotClosed (hSame ▸ hLeaseId)
        rcases hValues with rfl | ⟨now, rfl⟩ <;> cases hOpen
      · exact ⟨row, by rw [hJobs, if_neg hPk, hRow], hOwner⟩

/-- The row a call has read is the row it owns, after an operation of its own. -/
theorem LeaseChange.row_of_own {request : Request} {session : Session} {scope : Scope}
    {act : Act} {reply : act.Reply} {db after : Database} {pk : PrimaryKeyType}
    {row sched : ScheduledJobDataModel} {leaseId : LeaseIdType}
    (hChange : LeaseChange reading request session db after act reply)
    (hMay : May request session ⟨scope, act⟩) (hSound : session.Sound)
    (hSoundNext : (session.next act reply).Sound)
    (hExec : Exec reading db act reply after)
    (hCurrent : ∀ old, session.job = some pk → session.leaseId = some leaseId →
      session.closed = false → session.sched = some sched → db.job pk = some old →
      old.leaseOwner = some leaseId → old = sched)
    (hJob : (session.next act reply).job = some pk)
    (hLeaseId : (session.next act reply).leaseId = some leaseId)
    (hOpen : (session.next act reply).closed = false)
    (hSched : (session.next act reply).sched = some sched)
    (hRow : after.job pk = some row) (hOwner : row.leaseOwner = some leaseId) :
    row = sched := by
  have hPk := hSoundNext.pk_eq pk sched hJob hSched
  cases hChange with
  | created new hMay hAbsent hJobs =>
      cases hJob
      cases hSched
      rw [hJobs, if_pos rfl] at hRow
      exact (Option.some.inj hRow).symm
  | acquired other _ _ _ _ _ _ _ _ hNone _ _ _ _ =>
      have hUnread : session.sched = some sched := hSched
      rw [hSound.unread hNone] at hUnread
      cases hUnread
  | takenOver other _ _ _ _ _ _ _ _ _ _ _ hNone _ _ _ =>
      have hUnread : session.sched = some sched := hSched
      rw [hSound.unread hNone] at hUnread
      cases hUnread
  | closed _ _ _ _ _ _ _ _ _ _ _ _ _ hValues _ _ =>
      rcases hValues with rfl | ⟨now, rfl⟩ <;> cases hOpen
  | kept hNone hJobs =>
      rw [hJobs] at hRow
      have hNext := session.change act reply
      generalize session.next act reply = next at hNext hJob hLeaseId hOpen hSched
      cases hNext with
      | created new => exact absurd trivial hNone
      | granted other newValues conditional count own hOwn => exact absurd trivial hNone
      | closed => exact absurd trivial hNone
      | drew own =>
          rw [show session.job = none from hMay.2.2] at hJob
          cases hJob
      -- the row that was just read is the stored one
      | read start limit conditional new rest hHeld =>
          obtain ⟨target, rfl, rfl, rfl, hTarget⟩ := hMay.2
          obtain rfl : new = sched := Option.some.inj hSched
          have hRows := hExec.findSchedules_pk
          cases hStored : db.job target with
          | none =>
              rw [hStored] at hRows
              cases hRows
          | some stored =>
              rw [hStored] at hRows
              cases hRows
              obtain rfl : target = pk := (pk_of_job hStored).symm.trans hPk
              exact Option.some.inj (hRow.symm.trans hStored)
      | _ => exact hCurrent row hJob hLeaseId hOpen hSched hRow hOwner

/-- The job a call holds is stored. -/
theorem job_stored (hRun : Run (scheduler reading) A first pool) (hIdle : first.Idle) :
    ∀ pid request session pk, sessionOf pool pid = some (request, session) →
      session.job = some pk → pool.shared.job pk ≠ none := by
  refine invariant_of_moves (I := fun pool => ∀ pid request session pk,
    sessionOf pool pid = some (request, session) → session.job = some pk →
      pool.shared.job pk ≠ none) hRun hIdle ?_ ?_
  · intro pid request session pk hSession
    rw [sessionOf_idle hIdle] at hSession
    cases hSession
  · intro pool event pool' _ hStored hMoves _ pid request session pk hSession hJob
    cases hMoves with
    | quiet _ _ hJobs _ _ _ hNew =>
        rw [hJobs]
        rcases hNew pid request session hSession with hBefore | ⟨-, rfl⟩
        · exact hStored pid request session pk hBefore hJob
        · rw [Session.job_start] at hJob
          cases hJob
    | performed actor actorRequest before scope act reply _ hActor hMay hExec _ hSessions =>
        have hChange := hMay.leaseChange hExec
        rw [hSessions] at hSession
        split at hSession
        · cases hSession
          -- the job was known before, or this step has leased its row
          by_cases hHad : before.job = some pk
          · exact hChange.stored (hStored actor _ before pk hActor hHad)
          · obtain ⟨row, hRow, -⟩ := hChange.owner_of_gain hHad hJob
            simp [hRow]
        · exact hChange.stored (hStored pid request session pk hSession hJob)

theorem holding (hRun : Run (scheduler reading) A (emptyPool clock) pool)
    (hFresh : ∀ pool event pool', A pool event pool' → freshLeaseIds pool event pool') :
    Holding pool := by
  have hIdle := emptyPool_idle clock
  refine invariant_of_moves hRun hIdle ?_ ?_
  · refine ⟨fun pk row hRow => ?_, fun pk row leaseId hRow => ?_,
      fun pid request session pk leaseId row sched hSession => ?_⟩
    · cases hRow
    · cases hRow
    · rw [sessionOf_idle hIdle] at hSession
      cases hSession
  · intro pool event pool' hBefore hHolding hMoves hA
    have hDistinct := leaseIdsDistinct hBefore hIdle hFresh
    have hPersists := fun pid request session
        (hSession : sessionOf pool pid = some (request, session)) =>
      hMoves.session_persists hSession
    cases hMoves with
    | quiet _ _ hJobs _ _ hOld hNew =>
        refine ⟨fun pk row hRow => hHolding.coherent pk row (hJobs pk ▸ hRow),
          fun pk row leaseId hRow hOwner => ?_,
          fun pid request session pk leaseId row sched hSession hJob hLeaseId hOpen hSched
            hRow hOwner => ?_⟩
        · obtain ⟨pid, request, session, hSession, hHeld⟩ :=
            hHolding.owned pk row leaseId (hJobs pk ▸ hRow) hOwner
          exact ⟨pid, request, session, hOld pid _ hSession, hHeld⟩
        · rcases hNew pid request session hSession with hBefore | ⟨-, rfl⟩
          · exact hHolding.current pid request session pk leaseId row sched hBefore hJob
              hLeaseId hOpen hSched (hJobs pk ▸ hRow) hOwner
          · rw [Session.job_start] at hJob
            cases hJob
    | performed actor actorRequest before scope act reply _ hActor hMay hExec _ hSessions =>
        have hChange := hMay.leaseChange hExec
        have hSound := session_sound hBefore hIdle hActor
        refine ⟨hChange.coherent hHolding.coherent,
          fun pk row leaseId hRow hOwner => ?_,
          fun pid request session pk leaseId row sched hSession hJob hLeaseId hOpen hSched
            hRow hOwner => ?_⟩
        · rcases hChange.owner hRow hOwner with ⟨old, hOldRow, hOldOwner⟩ | ⟨-, hOwn, hHeld⟩
          · obtain ⟨pid, request, session, hSession, hLeaseId, hJob⟩ :=
              hHolding.owned pk old leaseId hOldRow hOldOwner
            obtain ⟨session', hSession', hKeptId, hKeptJob⟩ :=
              hPersists pid request session hSession
            exact ⟨pid, request, session', hSession', hKeptId leaseId hLeaseId,
              hKeptJob pk hJob⟩
          · exact ⟨actor, actorRequest, _, by rw [hSessions, if_pos rfl], hOwn, hHeld⟩
        · rw [hSessions] at hSession
          split at hSession
          · cases hSession
            exact hChange.row_of_own hMay hSound (hSound.next hMay hExec) hExec
              (fun old hOldJob hOldId hOldOpen hOldSched hOldRow hOldOwner =>
                hHolding.current actor _ before pk leaseId old sched hActor hOldJob hOldId
                  hOldOpen hOldSched hOldRow hOldOwner)
              hJob hLeaseId hOpen hSched hRow hOwner
          · rename_i hPid
            have hOther : before.leaseId ≠ some leaseId := fun hSame =>
              hPid (hDistinct pid actor request _ session before leaseId hSession hActor
                hLeaseId hSame)
            exact hHolding.current pid request session pk leaseId row sched hSession hJob
              hLeaseId hOpen hSched (hChange.row_of_other
                (job_stored hBefore hIdle pid request session pk hSession hJob) hOther hRow
                hOwner)
              hOwner

/-- The call that drew the id a row is owned by holds that job. -/
theorem job_of_owner (hRun : Run (scheduler reading) A (emptyPool clock) pool)
    (hFresh : ∀ pool event pool', A pool event pool' → freshLeaseIds pool event pool')
    {pid : Nat} {request : Request} {session : Session} {pk : PrimaryKeyType}
    {row : ScheduledJobDataModel} {leaseId : LeaseIdType}
    (hSession : sessionOf pool pid = some (request, session))
    (hLeaseId : session.leaseId = some leaseId) (hRow : pool.shared.job pk = some row)
    (hOwner : row.leaseOwner = some leaseId) : session.job = some pk := by
  obtain ⟨owner, ownerRequest, ownerSession, hOwnerSession, hOwnerId, hJob⟩ :=
    (holding hRun hFresh).owned pk row leaseId hRow hOwner
  obtain rfl : owner = pid := leaseIdsDistinct hRun (emptyPool_idle clock) hFresh owner pid
    _ _ _ _ leaseId hOwnerSession hSession hOwnerId hLeaseId
  rw [hSession] at hOwnerSession
  cases hOwnerSession
  exact hJob

/-- A call whose id a row is owned by before and after a step held that job before
the step. -/
theorem session_of_owner_kept (hRun : Run (scheduler reading) A (emptyPool clock) pool)
    (hAfter : Run (scheduler reading) A (emptyPool clock) pool')
    (hMoves : Moves reading pool event pool')
    (hFresh : ∀ pool event pool', A pool event pool' → freshLeaseIds pool event pool')
    {pid : Nat} {request : Request} {session : Session} {pk : PrimaryKeyType}
    {row : ScheduledJobDataModel} {leaseId : LeaseIdType}
    (hSession : sessionOf pool' pid = some (request, session))
    (hLeaseId : session.leaseId = some leaseId) (hRow : pool.shared.job pk = some row)
    (hOwner : row.leaseOwner = some leaseId) :
    ∃ before, sessionOf pool pid = some (request, before) ∧
      before.leaseId = some leaseId ∧ before.job = some pk := by
  obtain ⟨owner, ownerRequest, before, hBefore, hBeforeId, hJob⟩ :=
    (holding hRun hFresh).owned pk row leaseId hRow hOwner
  obtain ⟨after, hAfterSession, hKeptId, -⟩ := hMoves.session_persists hBefore
  obtain rfl : owner = pid := leaseIdsDistinct hAfter (emptyPool_idle clock) hFresh owner pid
    _ _ _ _ leaseId hAfterSession hSession (hKeptId leaseId hBeforeId) hLeaseId
  rw [hSession] at hAfterSession
  cases hAfterSession
  exact ⟨before, hBefore, hBeforeId, hJob⟩

end TernScheduler
