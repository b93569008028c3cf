import TernScheduler.Datastore.LeaseMethods

/-!
# Lease ownership in the data store

The five methods that write lease columns keep them coherent, and a lease is ended
by its owner or by a repair that found it expired.  An owner that was taken over is
shut out: whatever it still asks for is refused.

* `claims_distinct` says that at most one call is granted a lease id.
* `lease_ownership` is the law, over every interleaving of the methods.
-/

namespace TernScheduler

open Interleaving Database

/-! ## What is claimed of a row -/

/-- The columns of a lease are all null or all set, and a job that is not leased
remembers nothing of a lease. -/
structure ScheduledJobDataModel.Coherent (row : ScheduledJobDataModel) : Prop where
  owner : row.updateState = none ↔ row.leaseOwner = none
  expires : row.updateState = none ↔ row.leaseExpires = none
  task : row.updateState = none → row.updateTaskPk = none
  repair : row.updateState = none → row.repairState = none

/-- The lease and pasture columns. -/
def ScheduledJobDataModel.leaseFields (row : ScheduledJobDataModel) :
    (Option ScheduleUpdateStateType × Option PrimaryKeyType × Option LeaseIdType) ×
      Option Date × Option String × Bool × Option String :=
  ((row.updateState, row.updateTaskPk, row.leaseOwner), row.leaseExpires, row.repairState,
    row.pasture, row.pastureReason)

/-- The call releases a lease or marks it as needing repair, and carries the given
id. -/
def MethodCall.GivesUp (call : MethodCall) (leaseId : LeaseIdType) : Prop :=
  call.takes = false ∧ call.leaseId = leaseId

/-- The call is a repair whose time is past the expiry of the row. -/
def MethodCall.TakesOver (call : MethodCall) (row : ScheduledJobDataModel) : Prop :=
  ∃ jobPk expires, call.method = .repairExpiredLeaseForScheduledJob jobPk ∧
    row.leaseExpires = some expires ∧ expires < call.now

/-! ## What is assumed of a run -/

/-- The call has operations left to make. -/
def live (pool : MethodPool) (pid : Nat) : Bool :=
  (pool.procs[pid]?.bind (·.prog)).any fun
    | .call _ _ => true
    | .ret _ => false

/-- The call may still be granted its lease, or was. -/
def Claims (pool : MethodPool) (pid : Nat) (state : MethodState) : Prop :=
  live pool pid = true ∨ state.written = true

/-- A call asks for a lease under an id that no other call may be granted: those that
asked for it were refused and are done. -/
def distinctLeaseIds : RunCondition signature Database MethodCall MethodResult :=
  fun pool event _ => ∀ call ∈ event.request, call.takes = true →
    ∀ pid ∈ List.range pool.procs.length, ∀ other ∈ methodOf pool pid,
      other.1.takes = true → other.1.leaseId = call.leaseId →
        live pool pid = false ∧ other.2.written = false

instance (pool : MethodPool) (event : Event signature Database MethodCall)
    (pool' : MethodPool) : Decidable (distinctLeaseIds pool event pool') := by
  unfold distinctLeaseIds
  infer_instance

variable {reading : BeforeDateReading}
  {A : RunCondition signature Database MethodCall MethodResult}
  {first pool pool' : MethodPool} {event : Event signature Database MethodCall}
  {clock : Date} {pid : Nat} {call : MethodCall} {state : MethodState}
  {leaseId : LeaseIdType}

/-! ## One grant for each lease id -/

theorem live_of_ran {entry : SchedulerEntry}
    (hStep : Step (leaseMethods reading) pool (.ran entry) pool') :
    live pool entry.pid = true := by
  cases hStep with
  | run pid request op next reply after hProc hExec => simp [live, hProc]

/-- A step brings no call back to life. -/
theorem live_of_step (hStep : Step (leaseMethods reading) pool event pool')
    (hOld : pid < pool.procs.length) (hLive : live pool' pid = true) :
    live pool pid = true := by
  cases hStep with
  | spawn request => simpa [live, List.getElem?_append_left hOld] using hLive
  | run actor request op next reply after hProc hExec =>
      by_cases hPid : actor = pid
      · subst hPid
        simp [live, hProc]
      · simpa [live, List.getElem?_set_ne hPid] using hLive
  | stop actor proc hProc =>
      by_cases hPid : actor = pid
      · subst hPid
        simp [live, List.getElem?_set_self hOld] at hLive
      · simpa [live, List.getElem?_set_ne hPid] using hLive
  | drift after hDrift => exact hLive

theorem lt_of_method (hMethod : methodOf pool pid = some (call, state)) :
    pid < pool.procs.length := by
  obtain ⟨proc, hProc, -⟩ := Option.map_eq_some_iff.mp hMethod
  exact (List.getElem?_eq_some_iff.mp hProc).1

/-- Two calls with claims to one lease id are one call. -/
def ClaimsDistinct (pool : MethodPool) : Prop :=
  ∀ pid pid' call call' state state', methodOf pool pid = some (call, state) →
    methodOf pool pid' = some (call', state') → call.takes = true → call'.takes = true →
    call.leaseId = call'.leaseId → Claims pool pid state → Claims pool pid' state' →
    pid = pid'

/-- A claim after a step was a claim before it, unless the call was just started. -/
theorem claims_of_step (hStep : Step (leaseMethods reading) pool event pool')
    (hMoves : pool.Moves (leaseMethods reading) methodProtocol (fun _ => {}) event pool')
    (hAfter : methodOf pool' pid = some (call, state)) (hClaims : Claims pool' pid state) :
    (event = .spawned call ∧ pool.procs.length ≤ pid) ∨
      ∃ before, methodOf pool pid = some (call, before) ∧ Claims pool pid before := by
  have hOldClaim : ∀ {before : MethodState}, methodOf pool pid = some (call, before) →
      (state.written = true → Claims pool pid before) → Claims pool pid before := by
    intro before hBefore hWritten
    rcases hClaims with hLive | hDone
    · exact Or.inl (live_of_step hStep (lt_of_method hBefore) hLive)
    · exact hWritten hDone
  cases hMoves with
  | quiet _ _ _ _ hOldStates hNew =>
      rcases hNew pid call state hAfter with hBefore | ⟨rfl, rfl⟩
      · exact Or.inr ⟨state, hBefore, hOldClaim hBefore Or.inr⟩
      · refine (Nat.lt_or_ge pid pool.procs.length).elim (fun hOld => ?_)
          fun hNewPid => Or.inl ⟨rfl, hNewPid⟩
        -- A call that was there before is not the one that was started.
        obtain ⟨⟨other, before⟩, hBefore⟩ : ∃ before, methodOf pool pid = some before := by
          simp [methodOf, Pool.stateOf, List.getElem?_eq_getElem hOld]
        have hKept := (hOldStates pid _ hBefore).symm.trans hAfter
        cases hKept
        exact Or.inr ⟨_, hBefore, hOldClaim hBefore Or.inr⟩
  | performed actor request before op reply _ hActor hMay hExec _ hStates =>
      have hNow := hAfter
      rw [methodOf, hStates] at hNow
      split at hNow
      · rename_i hPid
        subst hPid
        cases hNow
        exact Or.inr ⟨before, hActor, Or.inl (live_of_ran hStep)⟩
      · exact Or.inr ⟨state, hNow, hOldClaim hNow Or.inr⟩

/-- **One grant for each lease id.** -/
theorem claims_distinct (hRun : Run (leaseMethods reading) A first pool)
    (hIdle : first.Idle)
    (hIds : ∀ pool event pool', A pool event pool' → distinctLeaseIds pool event pool') :
    ClaimsDistinct pool := by
  refine hRun.invariant (I := ClaimsDistinct) ?_
    fun pool event pool' hBefore hDistinct hStep hA => ?_
  · intro pid pid' call call' state state' hMethod
    rw [methodOf, Pool.stateOf_idle hIdle] at hMethod
    cases hMethod
  · intro pid pid' call call' state state' hMethod hMethod' hTakes hTakes' hSame hClaim
      hClaim'
    have hMoves := moves_of_method hBefore hIdle hStep
    -- A call that was just started shares its id with no claim.
    have hFresh : ∀ {started other : MethodCall} {pid : Nat} {before : MethodState},
        event = .spawned started → started.takes = true → other.takes = true →
        other.leaseId = started.leaseId → methodOf pool pid = some (other, before) →
        ¬ Claims pool pid before := by
      intro started other pid before hSpawned hStarted hOther hId hOld hClaims
      obtain ⟨hDone, hNone⟩ := hIds _ _ _ hA started (by rw [hSpawned]; rfl) hStarted pid
        (List.mem_range.mpr (lt_of_method hOld)) _ hOld hOther hId
      rcases hClaims with hLive | hWritten
      · rw [hDone] at hLive
        cases hLive
      · rw [hNone] at hWritten
        cases hWritten
    have hLength : ∀ {started : MethodCall} {pid : Nat} {state : MethodState},
        event = .spawned started → methodOf pool' pid = some (started, state) →
        pool.procs.length ≤ pid → pid = pool.procs.length := by
      rintro started pid state rfl hNow hLe
      have hLt := lt_of_method hNow
      cases hStep with
      | spawn request =>
          simp only [List.length_append, List.length_singleton] at hLt
          omega
    rcases claims_of_step hStep hMoves hMethod hClaim with
      ⟨hSpawned, hLe⟩ | ⟨before, hOld, hOldClaim⟩
    · rcases claims_of_step hStep hMoves hMethod' hClaim' with
        ⟨hSpawned', hLe'⟩ | ⟨before', hOld', hOldClaim'⟩
      · rw [hLength hSpawned hMethod hLe, hLength hSpawned' hMethod' hLe']
      · exact absurd hOldClaim' (hFresh hSpawned hTakes hTakes' hSame.symm hOld')
    · rcases claims_of_step hStep hMoves hMethod' hClaim' with
        ⟨hSpawned', hLe'⟩ | ⟨before', hOld', hOldClaim'⟩
      · exact absurd hOldClaim (hFresh hSpawned' hTakes' hTakes hSame hOld)
      · exact hDistinct pid pid' call call' before before' hOld hOld' hTakes hTakes' hSame
          hOldClaim hOldClaim'

/-! ## Rows -/

/-- A method that writes a coherent row leaves it coherent. -/
theorem RowWrite.coherent {stored : Option ScheduledJobDataModel}
    {row : ScheduledJobDataModel} (hWrite : RowWrite reading call state stored row)
    (hOld : ∀ old, stored = some old → old.Coherent) : row.Coherent := by
  cases hWrite with
  | added scheduledJob schedPk createdTaskPk hMethod =>
      constructor <;> simp [leasedRow, newScheduledJobModel]
  | leased jobPk updateOperation updateTaskPk old hMethod hFree =>
      have hRepair := (hOld old rfl).repair hFree
      constructor <;> simp [leasePatch, ScheduledJobPatch.apply]
  | released jobPk pasture pastureReason old hMethod hHeld hOwner =>
      constructor <;> simp [releasePatch, ScheduledJobPatch.apply]
  | repaired jobPk src old expires hMethod hRead hHeld hExpires hExpired =>
      constructor <;> simp [repairPatch, ScheduledJobPatch.apply]
  | marked jobPk pasture pastureReason old hMethod hHeld hOwner =>
      have hCoherent := hOld old rfl
      constructor
      · exact hCoherent.owner
      · simp [needsRepairPatch, ScheduledJobPatch.apply, hHeld]
      · exact hCoherent.task
      · exact hCoherent.repair

/-- The owner a method writes is the owner there was, or the id of a call that asked
for the lease. -/
theorem RowWrite.owner {stored : Option ScheduledJobDataModel}
    {row : ScheduledJobDataModel} (hWrite : RowWrite reading call state stored row)
    (hOwner : row.leaseOwner = some leaseId) :
    (∃ old, stored = some old ∧ old.leaseOwner = some leaseId) ∨
      (call.takes = true ∧ call.leaseId = leaseId) := by
  cases hWrite with
  | added scheduledJob schedPk createdTaskPk hMethod =>
      exact Or.inr ⟨by simp [MethodCall.takes, hMethod], Option.some.inj hOwner⟩
  | leased jobPk updateOperation updateTaskPk old hMethod hFree =>
      exact Or.inr ⟨by simp [MethodCall.takes, hMethod], Option.some.inj hOwner⟩
  | released jobPk pasture pastureReason old hMethod hHeld hOld => cases hOwner
  | repaired jobPk src old expires hMethod hRead hHeld hExpires hExpired =>
      exact Or.inr ⟨by simp [MethodCall.takes, hMethod], Option.some.inj hOwner⟩
  | marked jobPk pasture pastureReason old hMethod hHeld hOld =>
      exact Or.inl ⟨old, rfl, hOwner⟩

/-- A leased row is written by a call that carries its owner's id and gives the lease
up, or by a repair that found the lease expired. -/
theorem RowWrite.of_owned {old row : ScheduledJobDataModel}
    (hWrite : RowWrite strictlyBefore call state (some old) row) (hCoherent : old.Coherent)
    (hOwner : old.leaseOwner = some leaseId) :
    call.GivesUp leaseId ∨ call.TakesOver old := by
  cases hWrite with
  | leased jobPk updateOperation updateTaskPk _ hMethod hFree =>
      rw [hCoherent.owner.mp hFree] at hOwner
      cases hOwner
  | released jobPk pasture pastureReason _ hMethod hHeld hOld =>
      exact Or.inl ⟨by simp [MethodCall.takes, hMethod],
        Option.some.inj (hOld.symm.trans hOwner)⟩
  | repaired jobPk src _ expires hMethod hRead hHeld hExpires hExpired =>
      exact Or.inr ⟨jobPk, expires, hMethod, hExpires,
        by simpa [strictlyBefore] using hExpired⟩
  | marked jobPk pasture pastureReason _ hMethod hHeld hOld =>
      exact Or.inl ⟨by simp [MethodCall.takes, hMethod],
        Option.some.inj (hOld.symm.trans hOwner)⟩

/-- A call that gives a lease up writes only a row that its id owns. -/
theorem RowWrite.owned_of_givesUp {stored : Option ScheduledJobDataModel}
    {row : ScheduledJobDataModel} (hWrite : RowWrite reading call state stored row)
    (hGivesUp : call.GivesUp leaseId) :
    ∃ old, stored = some old ∧ old.leaseOwner = some leaseId := by
  obtain ⟨hTakes, rfl⟩ := hGivesUp
  cases hWrite with
  | added scheduledJob schedPk createdTaskPk hMethod => simp [MethodCall.takes, hMethod] at hTakes
  | leased jobPk updateOperation updateTaskPk old hMethod hFree =>
      simp [MethodCall.takes, hMethod] at hTakes
  | released jobPk pasture pastureReason old hMethod hHeld hOwner => exact ⟨old, rfl, hOwner⟩
  | repaired jobPk src old expires hMethod hRead hHeld hExpires hExpired =>
      simp [MethodCall.takes, hMethod] at hTakes
  | marked jobPk pasture pastureReason old hMethod hHeld hOwner => exact ⟨old, rfl, hOwner⟩

/-- A write stays applied. -/
theorem MethodState.written_kept (state : MethodState) (act : Act) (reply : act.Reply)
    (hWritten : state.written = true) : (state.next act reply).written = true := by
  by_cases hWrote : act.WroteSchedule reply
  · cases act with
    | createSchedule row =>
        cases reply with
        | ok done => rfl
        | error e => cases hWrote
    | updateSchedule pk newValues conditional =>
        rcases reply with e | _ | count
        · cases hWrote
        · cases hWrote
        · rfl
    | _ => cases hWrote
  · rw [MethodState.written_next hWrote]
    exact hWritten

/-- Calls stay, and their writes stay applied. -/
theorem method_persists
    (hMoves : pool.Moves (leaseMethods reading) methodProtocol (fun _ => {}) event pool')
    (hMethod : methodOf pool pid = some (call, state)) :
    ∃ after, methodOf pool' pid = some (call, after) ∧
      (state.written = true → after.written = true) := by
  cases hMoves with
  | quiet _ _ _ _ hOld _ => exact ⟨state, hOld pid _ hMethod, id⟩
  | performed actor request before op reply _ hActor hMay hExec _ hStates =>
      by_cases hPid : pid = actor
      · subst hPid
        obtain ⟨rfl, rfl⟩ := Prod.mk.inj (Option.some.inj (hActor.symm.trans hMethod))
        exact ⟨before.next op.act reply, (hStates pid).trans (if_pos rfl),
          before.written_kept op.act reply⟩
      · exact ⟨state, (hStates pid).trans ((if_neg hPid).trans hMethod), id⟩

/-- A call was granted the lease id. -/
def GrantedId (pool : MethodPool) (leaseId : LeaseIdType) (pk : PrimaryKeyType) : Prop :=
  ∃ pid call state, methodOf pool pid = some (call, state) ∧ call.takes = true ∧
    call.leaseId = leaseId ∧ state.written = true ∧ call.jobPk = pk

theorem GrantedId.next {pk : PrimaryKeyType}
    (hMoves : pool.Moves (leaseMethods reading) methodProtocol (fun _ => {}) event pool')
    (hGranted : GrantedId pool leaseId pk) : GrantedId pool' leaseId pk := by
  obtain ⟨pid, call, state, hMethod, hTakes, hId, hWritten, hPk⟩ := hGranted
  obtain ⟨after, hAfter, hKept⟩ := method_persists hMoves hMethod
  exact ⟨pid, call, after, hAfter, hTakes, hId, hKept hWritten, hPk⟩

/-- Rows are coherent, and their owners were granted the job. -/
structure RowsOwned (pool : MethodPool) : Prop where
  coherent : ∀ pk row, pool.shared.job pk = some row → row.Coherent
  granted : ∀ pk row leaseId, pool.shared.job pk = some row →
    row.leaseOwner = some leaseId → GrantedId pool leaseId pk

theorem rowsOwned (hRun : Run (leaseMethods reading) A (.start (.empty clock)) pool) :
    RowsOwned pool := by
  have hIdle : (Pool.start (.empty clock) : MethodPool).Idle := Pool.start_idle _
  refine hRun.invariant (I := RowsOwned)
    ⟨fun _ _ hRow => (by cases hRow), fun _ _ _ hRow => (by cases hRow)⟩
    fun pool event pool' hBefore hOwned hStep _ => ?_
  have hMoves := moves_of_method hBefore hIdle hStep
  have hGranted : ∀ {leaseId : LeaseIdType} {pk : PrimaryKeyType},
      GrantedId pool leaseId pk → GrantedId pool' leaseId pk := GrantedId.next hMoves
  cases hMoves with
  | quiet _ _ hShared _ _ _ =>
      have hJobs := (Database.tables_of_quiet hShared).1
      exact ⟨fun pk row hRow => hOwned.coherent pk row (hJobs pk ▸ hRow),
        fun pk row leaseId hRow hOwner =>
          hGranted (hOwned.granted pk row leaseId (hJobs pk ▸ hRow) hOwner)⟩
  | performed actor call state op reply _ hActor hMay hExec _ hStates =>
      cases MethodMay.effect hMay hExec with
      | kept _ _ hJobs =>
          exact ⟨fun pk row hRow => hOwned.coherent pk row (hJobs pk ▸ hRow),
            fun pk row leaseId hRow hOwner =>
              hGranted (hOwned.granted pk row leaseId (hJobs pk ▸ hRow) hOwner)⟩
      | wrote new _ hOpen hWritten hRow hJobs =>
          constructor
          · intro pk row hStored
            rw [hJobs] at hStored
            split at hStored
            · cases hStored
              exact hRow.coherent fun old hOld => hOwned.coherent _ old hOld
            · exact hOwned.coherent pk row hStored
          · -- the owner is the one before the write, or the call that takes the lease by it
            intro pk row leaseId hStored hOwner
            rw [hJobs] at hStored
            split at hStored
            · rename_i hPk
              cases hStored
              rcases hRow.owner hOwner with ⟨old, hOld, hOldOwner⟩ | ⟨hTakes, hId⟩
              · exact hPk ▸ hGranted (hOwned.granted _ old leaseId hOld hOldOwner)
              · exact ⟨actor, call, _, (hStates actor).trans (if_pos rfl), hTakes, hId,
                  hWritten, hPk.symm⟩
            · exact hGranted (hOwned.granted pk row leaseId hStored hOwner)

/-! ## Owners that were taken over -/

/-- The lease id was granted, and owns nothing any more. -/
def Spent (pool : MethodPool) (leaseId : LeaseIdType) : Prop :=
  (∃ pk, GrantedId pool leaseId pk) ∧
    ∀ pk row, pool.shared.job pk = some row → row.leaseOwner ≠ some leaseId

/-- A spent id is never granted again. -/
theorem Spent.next (hStep : Step (leaseMethods reading) pool event pool')
    (hMoves : pool.Moves (leaseMethods reading) methodProtocol (fun _ => {}) event pool')
    (hDistinct : ClaimsDistinct pool) (hSpent : Spent pool leaseId) :
    Spent pool' leaseId := by
  obtain ⟨⟨pk, hGranted⟩, hUnowned⟩ := hSpent
  refine ⟨⟨pk, hGranted.next hMoves⟩, fun other row hRow hOwner => ?_⟩
  cases hMoves with
  | quiet _ _ hShared _ _ _ =>
      exact hUnowned other row ((Database.tables_of_quiet hShared).1 other ▸ hRow) hOwner
  | performed actor call state op reply _ hActor hMay hExec _ hStates =>
      cases MethodMay.effect hMay hExec with
      | kept _ _ hJobs => exact hUnowned other row (hJobs other ▸ hRow) hOwner
      | wrote new _ hOpen _ hWrite hJobs =>
          rw [hJobs] at hRow
          split at hRow
          · cases hRow
            rcases hWrite.owner hOwner with ⟨old, hOld, hOldOwner⟩ | ⟨hTakes, hId⟩
            · exact hUnowned _ old hOld hOldOwner
            · -- The call that was granted the id before would be this one.
              obtain ⟨pid, holder, held, hHolder, hHolderTakes, hHolderId, hWritten, -⟩ :=
                hGranted
              obtain rfl := hDistinct actor pid call holder state held hActor hHolder hTakes
                hHolderTakes (hId.trans hHolderId.symm) (Or.inl (live_of_ran hStep))
                (Or.inr hWritten)
              cases hActor.symm.trans hHolder
              rw [hOpen] at hWritten
              cases hWritten
          · exact hUnowned other row hRow hOwner

/-- The call has settled. -/
def CallSettled (pool : MethodPool) (pid : Nat) : Prop :=
  ∃ call result, pool.procs[pid]? = some ⟨call, some (.ret result)⟩

/-- A call that carries the id, and had not settled in the first state, has not written
in the other one, or will never settle. -/
def Refusing (pool last : MethodPool) (leaseId : LeaseIdType) : Prop :=
  ∀ pid call state, methodOf last pid = some (call, state) → call.GivesUp leaseId →
    ¬ CallSettled pool pid → state.written = false ∨ last.procs[pid]? = some ⟨call, none⟩

theorem refusing_refl (hHonors : pool.Honors methodProtocol (fun _ => {})
      fun call after result => MethodSettles call after result) :
    Refusing pool pool leaseId := by
  intro pid call state hMethod hGivesUp hUnsettled
  obtain ⟨⟨request, prog⟩, hProc, hState⟩ := Option.map_eq_some_iff.mp hMethod
  cases hState
  rcases prog with _ | result | ⟨op, next⟩
  · exact Or.inr hProc
  · exact absurd ⟨request, result, hProc⟩ hUnsettled
  · refine Or.inl ?_
    have hMay := (hHonors pid request _ hProc).1
    obtain ⟨scope, act⟩ := op
    -- A call with an operation left to make has not written yet.
    cases act with
    | createSchedule row => exact hMay.1
    | updateSchedule pk newValues conditional => exact hMay.1
    | findSchedules startIndex maximumRecordCount conditional => exact hMay.2.2.2 hGivesUp.1
    | _ => exact hMay.elim

/-- What a spent id still asks for changes nothing. -/
theorem kept_of_spent {act : Act} {reply : act.Reply} {db after : Database}
    (hEffect : MethodEffect reading call state db after act reply)
    (hUnowned : ∀ pk row, db.job pk = some row → row.leaseOwner ≠ some leaseId)
    (hGivesUp : call.GivesUp leaseId) :
    (state.next act reply).written = state.written ∧ ∀ pk, after.job pk = db.job pk := by
  cases hEffect with
  | kept _ hWritten hJobs => exact ⟨hWritten, hJobs⟩
  | wrote row _ _ _ hRow _ =>
      obtain ⟨old, hOld, hOwner⟩ := hRow.owned_of_givesUp hGivesUp
      exact absurd hOwner (hUnowned _ old hOld)

theorem Refusing.next {last last' : MethodPool}
    (hStep : Step (leaseMethods reading) last event last')
    (hMoves : last.Moves (leaseMethods reading) methodProtocol (fun _ => {}) event last')
    (hSpent : Spent last leaseId) (hRefusing : Refusing pool last leaseId) :
    Refusing pool last' leaseId := by
  intro pid call state hMethod hGivesUp hUnsettled
  -- a call that was stopped stays stopped
  have hStopped : ∀ {before : MethodState}, methodOf last pid = some (call, before) →
      live last pid = false → last.procs[pid]? = some ⟨call, none⟩ →
      last'.procs[pid]? = some ⟨call, none⟩ := by
    intro before hBefore hDead hNone
    cases hStep with
    | spawn request =>
        rw [← hNone]
        exact List.getElem?_append_left (lt_of_method hBefore)
    | run actor request op next reply after hProc hExec =>
        have hPid : actor ≠ pid := by
          rintro rfl
          rw [hProc] at hNone
          cases hNone
        exact (List.getElem?_set_ne hPid).trans hNone
    | stop actor proc hProc =>
        by_cases hPid : actor = pid
        · subst hPid
          rw [hProc] at hNone
          cases hNone
          exact List.getElem?_set_self (List.getElem?_eq_some_iff.mp hProc).1
        · exact (List.getElem?_set_ne hPid).trans hNone
    | drift after hDrift => exact hNone
  have hKept : ∀ {before : MethodState}, methodOf last pid = some (call, before) →
      (before.written = false → state.written = false) →
      state.written = false ∨ last'.procs[pid]? = some ⟨call, none⟩ := by
    intro before hBefore hSame
    rcases hRefusing pid call before hBefore hGivesUp hUnsettled with hOpen | hNone
    · exact Or.inl (hSame hOpen)
    · exact Or.inr (hStopped hBefore (by simp [live, hNone]) hNone)
  cases hMoves with
  | quiet _ _ _ _ _ hNew =>
      rcases hNew pid call state hMethod with hBefore | ⟨-, rfl⟩
      · exact hKept hBefore id
      · exact Or.inl rfl
  | performed actor request before op reply _ hActor hMay hExec _ hStates =>
      have hNow := hMethod
      rw [methodOf, hStates] at hNow
      split at hNow
      · rename_i hPid
        subst hPid
        cases hNow
        have hSame := (kept_of_spent (MethodMay.effect hMay hExec) hSpent.2 hGivesUp).1
        exact hKept hActor fun hOpen => hSame.trans hOpen
      · exact hKept hNow id

/-- From the given state on, every call that carries the id and gives a lease up is
rejected when it settles, and leaves every row as it is. -/
def ShutOut (pool : MethodPool) (leaseId : LeaseIdType) : Prop :=
  ∀ last, Run (leaseMethods strictlyBefore) distinctLeaseIds pool last →
    ∀ pid call, call.GivesUp leaseId → ¬ CallSettled pool pid →
      (∀ result, last.procs[pid]? = some ⟨call, some (.ret result)⟩ →
        ∃ e, result = .error e) ∧
      ∀ state op (reply : signature.Reply op) last', methodOf last pid = some (call, state) →
        Step (leaseMethods strictlyBefore) last (.ran ⟨pid, op, reply, last.shared⟩) last' →
        ∀ pk, last'.shared.job pk = last.shared.job pk

/-- An id that is spent is shut out. -/
theorem shutOut_of_spent
    (hRun : Run (leaseMethods strictlyBefore) distinctLeaseIds (.start (.empty clock)) pool)
    (hSpent : Spent pool leaseId) : ShutOut pool leaseId := by
  have hIdle : (Pool.start (.empty clock) : MethodPool).Idle := Pool.start_idle _
  intro last hLater pid call hGivesUp hUnsettled
  have hInvariant : Run (leaseMethods strictlyBefore) distinctLeaseIds (.start (.empty clock))
      last ∧ Spent last leaseId ∧ Refusing pool last leaseId := by
    refine hLater.invariant (I := fun last => Run (leaseMethods strictlyBefore)
      distinctLeaseIds (.start (.empty clock)) last ∧ Spent last leaseId ∧
        Refusing pool last leaseId)
      ⟨hRun, hSpent, refusing_refl (protocol_of_run hRun hIdle)⟩ ?_
    rintro middle event next - ⟨hReached, hStill, hRefusing⟩ hStep hA
    have hMoves := moves_of_method hReached hIdle hStep
    have hDistinct := claims_distinct hReached hIdle fun _ _ _ h => h
    exact ⟨hReached.tail hStep hA, hStill.next hStep hMoves hDistinct,
      hRefusing.next hStep hMoves hStill⟩
  obtain ⟨hReached, hStill, hRefusing⟩ := hInvariant
  constructor
  · intro result hProc
    have hSettles := protocol_of_run hReached hIdle pid call _ hProc
    cases result with
    | error e => exact ⟨e, rfl⟩
    | ok value =>
        have hWritten := hSettles value rfl hGivesUp.1
        rcases hRefusing pid call _ (Pool.stateOf_eq_some hProc) hGivesUp hUnsettled with
          hOpen | hNone
        · exact absurd (hOpen.symm.trans hWritten) (by simp)
        · rw [hProc] at hNone
          cases hNone
  · intro state op reply last' hMethod hStep
    have hMoves := moves_of_method hReached hIdle hStep
    cases hMoves with
    | quiet _ _ _ hLog _ _ =>
        -- An operation is logged.
        cases hStep with
        | run pid request op next reply after hProc hExec =>
            exact absurd hLog (List.cons_ne_self _ _)
    | performed _ request before _ _ _ hActor hMay hExec _ _ =>
        cases hActor.symm.trans hMethod
        exact (kept_of_spent (MethodMay.effect hMay hExec) hStill.2 hGivesUp).2

/-- A takeover spends the id of the owner it took the lease from. -/
theorem spent_of_takeover
    (hRun : Run (leaseMethods strictlyBefore) distinctLeaseIds (.start (.empty clock)) pool)
    (hStep : Step (leaseMethods strictlyBefore) pool event pool') {pk : PrimaryKeyType}
    {row row' : ScheduledJobDataModel} (hRow : pool.shared.job pk = some row)
    (hOwner : row.leaseOwner = some leaseId) (hRow' : pool'.shared.job pk = some row')
    (hTaken : row'.leaseOwner ≠ some leaseId) : Spent pool' leaseId := by
  have hIdle : (Pool.start (.empty clock) : MethodPool).Idle := Pool.start_idle _
  have hOwned := rowsOwned hRun
  have hMoves := moves_of_method hRun hIdle hStep
  have hGranted := hOwned.granted pk row leaseId hRow hOwner
  refine ⟨⟨pk, hGranted.next hMoves⟩, fun other stored hStored hStoredOwner => ?_⟩
  obtain ⟨pid, call, state, hMethod, hTakes, hId, hWritten, hPk⟩ := hGranted
  have hDistinct := claims_distinct hRun hIdle fun _ _ _ h => h
  -- The owner held no other row.
  have hOnly : ∀ old, pool.shared.job other = some old → old.leaseOwner = some leaseId →
      other = pk := by
    intro old hOld hOldOwner
    obtain ⟨pid', call', state', hMethod', hTakes', hId', hWritten', hPk'⟩ :=
      hOwned.granted other old leaseId hOld hOldOwner
    obtain rfl := hDistinct pid pid' call call' state state' hMethod hMethod' hTakes hTakes'
      (hId.trans hId'.symm) (Or.inr hWritten) (Or.inr hWritten')
    cases hMethod.symm.trans hMethod'
    exact hPk'.symm.trans hPk
  cases hMoves with
  | quiet _ _ hShared _ _ _ =>
      have hJobs := (Database.tables_of_quiet hShared).1
      obtain rfl := hOnly stored (hJobs other ▸ hStored) hStoredOwner
      rw [hRow'] at hStored
      cases hStored
      exact hTaken hStoredOwner
  | performed actor request before op reply _ hActor hMay hExec _ hStates =>
      cases MethodMay.effect hMay hExec with
      | kept _ _ hJobs =>
          obtain rfl := hOnly stored (hJobs other ▸ hStored) hStoredOwner
          rw [hRow'] at hStored
          cases hStored
          exact hTaken hStoredOwner
      | wrote new _ hOpen _ hWrite hJobs =>
          rw [hJobs] at hStored
          split at hStored
          · rename_i hOther
            cases hStored
            rcases hWrite.owner hStoredOwner with ⟨old, hOld, hOldOwner⟩ | ⟨hActorTakes, hActorId⟩
            · obtain rfl := hOnly old (hOther ▸ hOld) hOldOwner
              rw [hJobs, if_pos hOther] at hRow'
              cases hRow'
              exact hTaken hStoredOwner
            · obtain rfl := hDistinct actor pid request call before state hActor hMethod
                hActorTakes hTakes (hActorId.trans hId.symm) (Or.inl (live_of_ran hStep))
                (Or.inr hWritten)
              cases hActor.symm.trans hMethod
              rw [hOpen] at hWritten
              cases hWritten
          · obtain rfl := hOnly stored hStored hStoredOwner
            rename_i hOther
            rw [hJobs, if_neg hOther] at hRow'
            cases hStored.symm.trans hRow'
            exact hTaken hStoredOwner

/-- What may become of a row that is owned by the given id: it keeps its lease and
pasture columns, or a call that carries the id gave the lease up, or a repair found
it expired; and when another id owns it the old one is shut out. -/
def OwnedRowMoves (pool : MethodPool) (event : Event signature Database MethodCall)
    (pool' : MethodPool) (pk : PrimaryKeyType) (row : ScheduledJobDataModel)
    (leaseId : LeaseIdType) : Prop :=
  ∃ row', pool'.shared.job pk = some row' ∧
    (row'.leaseFields = row.leaseFields ∨ ∃ entry call state, event = .ran entry ∧
      methodOf pool entry.pid = some (call, state) ∧ call.jobPk = pk ∧
        (call.GivesUp leaseId ∨ call.TakesOver row)) ∧
    (row'.leaseOwner ≠ none → row'.leaseOwner ≠ some leaseId → ShutOut pool' leaseId)

/-- **Lease ownership.**  In every reachable state the rows are coherent, and an owned
row moves only as its owner's calls and repairs of its expired lease move it. -/
theorem lease_ownership
    (hRun : Run (leaseMethods strictlyBefore) distinctLeaseIds (.start (.empty clock))
      pool) :
    (∀ pk row, pool.shared.job pk = some row → row.Coherent) ∧
      ∀ event pool', Step (leaseMethods strictlyBefore) pool event pool' →
        distinctLeaseIds pool event pool' → ∀ pk row leaseId,
          pool.shared.job pk = some row → row.leaseOwner = some leaseId →
            OwnedRowMoves pool event pool' pk row leaseId := by
  have hIdle : (Pool.start (.empty clock) : MethodPool).Idle := Pool.start_idle _
  have hOwned := rowsOwned hRun
  refine ⟨hOwned.coherent, fun event pool' hStep hA pk row leaseId hRow hOwner => ?_⟩
  -- an owner that was replaced is shut out for good
  have hShut : ∀ {row' : ScheduledJobDataModel}, pool'.shared.job pk = some row' →
      row'.leaseOwner ≠ some leaseId → ShutOut pool' leaseId := fun hRow' hTaken =>
    shutOut_of_spent (hRun.tail hStep hA) (spent_of_takeover hRun hStep hRow hOwner hRow' hTaken)
  have hSame : pool'.shared.job pk = some row →
      OwnedRowMoves pool event pool' pk row leaseId := fun hRow' =>
    ⟨row, hRow', Or.inl rfl, fun _ hTaken => absurd hOwner hTaken⟩
  cases moves_of_method hRun hIdle hStep with
  | quiet _ _ hShared _ _ _ => exact hSame (((Database.tables_of_quiet hShared).1 pk).trans hRow)
  | performed actor call state op reply _ hActor hMay hExec _ hStates =>
      cases MethodMay.effect hMay hExec with
      | kept _ _ hJobs => exact hSame ((hJobs pk).trans hRow)
      | wrote new _ hOpen _ hWrite hJobs =>
          by_cases hPk : pk = call.jobPk
          · subst hPk
            have hRow' : pool'.shared.job call.jobPk = some new := by rw [hJobs, if_pos rfl]
            rw [hRow] at hWrite
            exact ⟨new, hRow', Or.inr ⟨_, call, state, rfl, hActor, rfl,
              hWrite.of_owned (hOwned.coherent _ row hRow) hOwner⟩,
              fun _ hTaken => hShut hRow' hTaken⟩
          · exact hSame (by rw [hJobs, if_neg hPk, hRow])

private def ownerSample (leaseId : LeaseIdType) (now : Date) (method : LeaseMethod) :
    Turn MethodCall Answers :=
  .spawn ⟨.utc, leaseId, now, 10, method⟩

/-- A job is added, its lease expires, and a repair takes it over; then the owner asks
to release the job. -/
private def overrunOwner : List (Turn MethodCall Answers) :=
  [ownerSample "owner" 0 (.addScheduledJobModel sampleSchedule "job" "task"), .run 0 {},
    ownerSample "repair" 10001 (.repairExpiredLeaseForScheduledJob "job"), .run 1 {}, .run 1 {},
    ownerSample "owner" 10001 (.releaseScheduledJobLease "job" false none)]

/-- The release of an owner that was taken over leaves the row to the repair. -/
theorem sample_lease_ownership :
    ∃ pool : MethodPool,
      Run (leaseMethods strictlyBefore) distinctLeaseIds (.start (.empty 0)) pool ∧
        ∃ row, pool.shared.job "job" = some row ∧ row.Coherent ∧
          ∀ op (reply : signature.Reply op) pool',
            Step (leaseMethods strictlyBefore) pool (.ran ⟨2, op, reply, pool.shared⟩) pool' →
              OwnedRowMoves pool (.ran ⟨2, op, reply, pool.shared⟩) pool' "job" row
                "repair" := by
  have hDriven : ((driverOver strictlyBefore MethodCall.program).drive
      (fun pool event pool' => decide (distinctLeaseIds pool event pool')) overrunOwner
        (.start (.empty 0))).any
      (fun pool => decide (∃ row ∈ pool.shared.job "job",
        row.leaseOwner = some "repair")) = true := by
    decide +kernel
  obtain ⟨pool, hRun, hTest⟩ := Driver.exists_run_of_drive (A := distinctLeaseIds)
    (fun _ _ _ => of_decide_eq_true) hDriven
  obtain ⟨row, hRow, hOwner⟩ := of_decide_eq_true hTest
  obtain ⟨hCoherent, hMoves⟩ := lease_ownership hRun
  refine ⟨pool, hRun, row, hRow, hCoherent "job" row hRow, fun op reply pool' hStep => ?_⟩
  exact hMoves _ pool' hStep (fun _ hNone => by cases hNone) "job" row "repair" hRow hOwner

end TernScheduler
