import TernScheduler.Controller.Leases

/-!
# When the pasture flag of a job is permanent

Giving a lease up writes the pasture flag from the outcome of the work, and only
`disableSchedule` and the repair write what keeps a disabled job disabled.  So
the flag survives exactly as long as no `startTask` call, and no `taskFinished`
call that is not itself told to disable the job, is granted the lease of a
disabled job.

* `PastureHeld` is the invariant: whoever holds the lease of a disabled job will
  write the flag back.
* `pasture_permanent` is the resulting law, over runs whose steps `respectPasture`.
* `pasture_cleared_by_startTask` is a run in which the flag is lost.
-/

namespace TernScheduler

open Interleaving Database

/-- The holder of the lease of this disabled job writes the flag back when it
gives the lease up. -/
def WritesPastureBack (request : Request) (session : Session)
    (row : ScheduledJobDataModel) : Prop :=
  match request.call with
  | .createScheduledJob _ | .startTask _ => False
  | .taskFinished .. =>
      (∀ fact ∈ session.facts, ¬ Refused fact) ∧
        ∀ task, session.task = some task → request.asks task row = some .disable
  | .disableSchedule .. | .repairExpiredSchedule _ => True

/-- Whoever holds the lease of a disabled job writes the flag back. -/
def PastureHeld (pool : SchedulerPool) : Prop :=
  ∀ pid request session pk leaseId row,
    sessionOf pool pid = some (request, session) → session.job = some pk →
    session.leaseId = some leaseId → session.closed = false →
    pool.shared.job pk = some row → row.leaseOwner = some leaseId →
    row.pasture = true → WritesPastureBack request session row

/-- A call that keeps a disabled job disabled when it gives its lease up: never
a `startTask` call, and a `taskFinished` call only when its strategies, shown the
row it leased, ask to disable the job. -/
def KeepsDisabled (request : Request) (session : Session)
    (row : ScheduledJobDataModel) : Prop :=
  match request.call with
  | .startTask _ => False
  | .taskFinished .. =>
      ∀ task ∈ session.task, request.asks task row = some .disable
  | _ => True

instance (request : Request) (session : Session) (row : ScheduledJobDataModel) :
    Decidable (KeepsDisabled request session row) := by
  unfold KeepsDisabled
  split <;> infer_instance

/-- The update wrote a row. -/
def applied : Except JsError Nat → Bool
  | .ok (_ + 1) => true
  | _ => false

/-- A step that leaves disabled jobs to the calls that keep them disabled: only
such a call is granted the lease of a disabled job, and while a `taskFinished`
call holds that lease its update of the task is applied. -/
def RespectsPasture (db : Database) (request : Request) (session : Session) :
    (act : Act) → act.Reply → Prop
  | .updateSchedule pk newValues _, reply =>
      applied reply = true → newValues.leaseOwner.join ≠ none →
        ∀ row ∈ db.job pk, row.pasture = true →
          KeepsDisabled request session (newValues.apply row)
  | .updateTask .., reply =>
      (∃ execJobId result, request.call = .taskFinished execJobId result) →
        ∀ pk ∈ session.job, ∀ row ∈ db.job pk, row.leaseOwner = session.leaseId →
          row.pasture = true → applied reply = true
  | _, _ => True

instance (call : Call) :
    Decidable (∃ execJobId result, call = .taskFinished execJobId result) :=
  match call with
  | .taskFinished execJobId result => isTrue ⟨execJobId, result, rfl⟩
  | .createScheduledJob _ => isFalse fun ⟨_, _, h⟩ => by cases h
  | .startTask _ => isFalse fun ⟨_, _, h⟩ => by cases h
  | .disableSchedule .. => isFalse fun ⟨_, _, h⟩ => by cases h
  | .repairExpiredSchedule _ => isFalse fun ⟨_, _, h⟩ => by cases h

instance (db : Database) (request : Request) (session : Session) :
    (act : Act) → (reply : act.Reply) →
      Decidable (RespectsPasture db request session act reply)
  | .updateSchedule pk newValues _, reply => inferInstanceAs (Decidable
      (applied reply = true → newValues.leaseOwner.join ≠ none →
        ∀ row ∈ db.job pk, row.pasture = true →
          KeepsDisabled request session (newValues.apply row)))
  | .updateTask .., reply => inferInstanceAs (Decidable
      ((∃ execJobId result, request.call = .taskFinished execJobId result) →
        ∀ pk ∈ session.job, ∀ row ∈ db.job pk, row.leaseOwner = session.leaseId →
          row.pasture = true → applied reply = true))
  | .createSchedule _, _ | .findSchedules .., _ | .createTask _, _ => isTrue trivial
  | .findTasks .., _ | .startJob .., _ | .currentTimeUTC, _ => isTrue trivial
  | .createPrimaryKey, _ | .createLeaseId, _ => isTrue trivial
  | .retryDelay _, _ | .emit _, _ => isTrue trivial

/-- The run condition under which the flag is permanent: lease ids are unique,
and every step respects the flag. -/
def respectPasture : RunCondition signature Database Request Settled :=
  fun pool event pool' => freshLeaseIds pool event pool' ∧
    ∀ entry ∈ event.entry, ∀ state ∈ sessionOf pool entry.pid,
      RespectsPasture pool.shared state.1 state.2 entry.op.act entry.reply

instance (pool : SchedulerPool) (event : Event signature Database Request)
    (pool' : SchedulerPool) : Decidable (respectPasture pool event pool') := by
  unfold respectPasture
  infer_instance

variable {reading : BeforeDateReading} {clock : Date}
  {pool pool' : SchedulerPool}

/-- A call that keeps a disabled job disabled writes the flag back once it has leased the
job. -/
theorem KeepsDisabled.writesPastureBack {request : Request} {session : Session}
    {row : ScheduledJobDataModel} {pk : PrimaryKeyType} (hKeeps : KeepsDisabled request session row)
    (hLeases : Leases request session pk) (hNoFacts : session.facts = []) :
    WritesPastureBack request session row := by
  unfold KeepsDisabled at hKeeps
  unfold Leases at hLeases
  unfold WritesPastureBack
  split
  · rename_i hCall
    rw [hCall] at hLeases
    exact hLeases
  · rename_i hCall
    rw [hCall] at hKeeps
    exact hKeeps
  · rename_i hCall
    rw [hCall] at hKeeps
    refine ⟨fun fact hFact => ?_, hKeeps⟩
    rw [hNoFacts] at hFact
    cases hFact
  · trivial
  · trivial

/-- While a `taskFinished` call holds the lease of a disabled job, no update of a task is
refused. -/
theorem not_refused_of_respects {request : Request} {session : Session} {act : Act}
    {reply : act.Reply} {db : Database} {pk : PrimaryKeyType} {row : ScheduledJobDataModel}
    {fact : Fact} (hRespects : RespectsPasture db request session act reply)
    (hFact : act.fact reply = some fact)
    (hCall : ∃ execJobId result, request.call = .taskFinished execJobId result)
    (hJob : session.job = some pk) (hRow : db.job pk = some row)
    (hOwner : row.leaseOwner = session.leaseId) (hPasture : row.pasture = true) :
    ¬ Refused fact := by
  rintro ⟨taskPk, newValues, conditional, given, rfl, hRefused⟩
  -- Only an update of a task leaves a fact of this kind.
  cases act <;> simp only [Act.fact, Option.some.injEq, reduceCtorEq] at hFact
  cases hFact
  have hApplied := hRespects hCall pk hJob row hRow hOwner hPasture
  rcases given with e | _ | count
  · cases hApplied
  · cases hApplied
  · exact hRefused count rfl

/-- A fact that is no refusal changes nothing about what is written back. -/
theorem WritesPastureBack.recorded {request : Request} {session next : Session}
    {row : ScheduledJobDataModel} {fact : Fact} (hBack : WritesPastureBack request session row)
    (hTask : next.task = session.task) (hFacts : next.facts = fact :: session.facts)
    (hServed : (∃ execJobId result, request.call = .taskFinished execJobId result) →
      ¬ Refused fact) : WritesPastureBack request next row := by
  unfold WritesPastureBack at hBack ⊢
  split at hBack
  · exact hBack.elim
  · exact hBack.elim
  · rename_i execJobId result hCall
    rw [hFacts, hTask]
    refine ⟨fun other hOther => ?_, hBack.2⟩
    rcases List.mem_cons.mp hOther with rfl | hEarlier
    · exact hServed ⟨execJobId, result, hCall⟩
    · exact hBack.1 other hEarlier
  · trivial
  · trivial

/-- **Step lemma for the holder itself.** -/
theorem WritesPastureBack.next {request : Request} {session : Session} {scope : Scope}
    {act : Act} {reply : act.Reply} {db after : Database} {pk : PrimaryKeyType}
    {leaseId : LeaseIdType} {row : ScheduledJobDataModel}
    (hMay : May request session ⟨scope, act⟩) (hExec : Exec reading db act reply after)
    (hSound : session.Sound) (hRespects : RespectsPasture db request session act reply)
    (hHeld : ∀ old, session.job = some pk → session.leaseId = some leaseId →
      session.closed = false → db.job pk = some old → old.leaseOwner = some leaseId →
      old.pasture = true → WritesPastureBack request session old)
    (hJob : (session.next act reply).job = some pk)
    (hLeaseId : (session.next act reply).leaseId = some leaseId)
    (hOpen : (session.next act reply).closed = false)
    (hRow : after.job pk = some row) (hOwner : row.leaseOwner = some leaseId)
    (hPasture : row.pasture = true) :
    WritesPastureBack request (session.next act reply) row := by
  cases hMay.leaseChange hExec with
  | created new hCreate hAbsent hJobs =>
      cases hJob
      rw [hJobs, if_pos rfl] at hRow
      cases hRow
      -- a new job is not pastured
      obtain ⟨_, _, _, -, -, -, -, -, -, -, -, hEnabled⟩ := hCreate
      rw [hEnabled] at hPasture
      cases hPasture
  | closed _ _ _ _ _ _ _ _ _ _ _ _ _ hValues _ _ =>
      rcases hValues with rfl | ⟨now, rfl⟩ <;> cases hOpen
  | takenOver _ _ _ _ _ schedule _ _ hCall _ _ _ _ _ _ _ =>
      unfold WritesPastureBack
      rw [hCall]
      trivial
  | acquired other operation taskPk own expires count old hOld hFree hNone hOwnOpen hOwn
      hLeases hJobs =>
      obtain rfl : other = pk := Option.some.inj hJob
      rw [hJobs, if_pos rfl] at hRow
      cases hRow
      -- the condition of the run is about this grant
      have hAllowed := hRespects rfl (by simp [leasePatch]) old hOld hPasture
      exact hAllowed.writesPastureBack hLeases (hSound.inactive hNone)
  | kept hNone hJobs =>
      rw [hJobs] at hRow
      have hNext := session.change act reply
      generalize session.next act reply = next at hNext hJob hLeaseId hOpen
      cases hNext with
      | created new => exact absurd trivial hNone
      | granted => exact absurd trivial hNone
      | closed => exact absurd trivial hNone
      | drew own =>
          rw [show session.job = none from hMay.2.2] at hJob
          cases hJob
      | found _ _ _ task hUnleased =>
          rw [show session.job = none from hUnleased] at hJob
          cases hJob
      | recorded fact hFact _ =>
          have hBack := hHeld row hJob hLeaseId hOpen hRow hOwner hPasture
          exact hBack.recorded rfl rfl fun hCall => not_refused_of_respects hRespects hFact hCall
            hJob hRow (hOwner.trans hLeaseId.symm) hPasture
      | _ => exact hHeld row hJob hLeaseId hOpen hRow hOwner hPasture

/-- The invariant over runs. -/
theorem pastureHeld (hRun : Run (scheduler reading) respectPasture (emptyPool clock) pool) :
    PastureHeld pool := by
  have hIdle := emptyPool_idle clock
  have hFresh : ∀ pool event pool', respectPasture pool event pool' →
      freshLeaseIds pool event pool' := fun _ _ _ h => h.1
  refine invariant_of_moves hRun hIdle ?_ ?_
  · intro pid request session pk leaseId row hSession
    rw [sessionOf_idle hIdle] at hSession
    cases hSession
  · intro pool event pool' hBefore hHeld hMoves hCondition pid request session pk leaseId
      row hSession hJob hLeaseId hOpen hRow hOwner hPasture
    cases hMoves with
    | quiet _ _ hJobs _ _ _ hNew =>
        rcases hNew pid request session hSession with hOld | ⟨-, rfl⟩
        · exact hHeld pid request session pk leaseId row hOld hJob hLeaseId hOpen
            (hJobs pk ▸ hRow) hOwner hPasture
        · rw [Session.job_start] at hJob
          cases hJob
    | performed actor actorRequest before scope act reply _ hActor hMay hExec _ hSessions =>
        rw [hSessions] at hSession
        split at hSession
        · cases hSession
          exact WritesPastureBack.next hMay hExec (session_sound hBefore hIdle hActor)
            (hCondition.2 _ rfl _ hActor)
            (fun old => hHeld actor _ before pk leaseId old hActor) hJob hLeaseId hOpen hRow
            hOwner hPasture
        · rename_i hPid
          -- the call that acts has another lease id, so the row with this owner stays
          have hOther : before.leaseId ≠ some leaseId := fun hSame =>
            hPid (leaseIdsDistinct hBefore hIdle hFresh pid actor request _ session before
              leaseId hSession hActor hLeaseId hSame)
          have hRowBefore := (hMay.leaseChange hExec).row_of_other
            (job_stored hBefore hIdle pid request session pk hSession hJob) hOther
            hRow hOwner
          exact hHeld pid request session pk leaseId row hSession hJob hLeaseId hOpen
            hRowBefore hOwner hPasture

/-- A call that gives up the lease of a disabled job writes the flag back. -/
theorem WritesPastureBack.pasture_eq {request : Request} {session : Session}
    {row : ScheduledJobDataModel} {pasture : Bool}
    (hBack : WritesPastureBack request session row)
    (hCurrent : ∀ sched, session.sched = some sched → row = sched)
    (hPasture : row.pasture = true) (hMay : MayLeavePasture request session pasture) :
    pasture = true := by
  unfold WritesPastureBack at hBack
  unfold MayLeavePasture at hMay
  cases pasture with
  | true => rfl
  | false =>
      split at hBack
      · exact hBack.elim
      · exact hBack.elim
      · rename_i hCall
        rw [hCall] at hMay
        obtain ⟨task, sched, hTask, hSched, hDisable⟩ := hMay rfl
        obtain ⟨fact, hFact, hRefused⟩ :=
          hDisable (hCurrent sched hSched ▸ hBack.2 task hTask)
        exact absurd hRefused (hBack.1 fact hFact)
      · rename_i hCall
        rw [hCall] at hMay
        exact hMay
      · rename_i hCall
        rw [hCall] at hMay
        obtain ⟨sched, hSched, hEnabled⟩ := hMay rfl
        rw [← hCurrent sched hSched, hPasture] at hEnabled
        cases hEnabled

/-- **Step lemma.**  A step that respects the flag does not clear it. -/
theorem pasture_kept_of_step
    (hRun : Run (scheduler reading) respectPasture (emptyPool clock) pool)
    {event : Event signature Database Request}
    (hMoves : Moves reading pool event pool') {pk : PrimaryKeyType}
    {row : ScheduledJobDataModel} (hRow : pool.shared.job pk = some row)
    (hPasture : row.pasture = true) :
    ∃ row', pool'.shared.job pk = some row' ∧ row'.pasture = true := by
  have hFresh : ∀ pool event pool', respectPasture pool event pool' →
      freshLeaseIds pool event pool' := fun _ _ _ h => h.1
  cases hMoves with
  | quiet _ _ hJobs _ _ _ _ => exact ⟨row, (hJobs pk).trans hRow, hPasture⟩
  | performed actor request session scope act reply _ hActor hMay hExec _ _ =>
      cases hMay.leaseChange hExec with
      | kept hNone hJobs => exact ⟨row, (hJobs pk).trans hRow, hPasture⟩
      | created new hCreate hAbsent hJobs =>
          have hNe : pk ≠ new.pk := by
            rintro rfl
            rw [hAbsent] at hRow
            cases hRow
          exact ⟨row, by rw [hJobs, if_neg hNe, hRow], hPasture⟩
      | acquired other operation taskPk own expires count old hOld _ _ _ _ _ hJobs =>
          by_cases hPk : pk = other
          · subst hPk
            cases hOld.symm.trans hRow
            exact ⟨(leasePatch operation taskPk own expires).apply row,
              by rw [hJobs, if_pos rfl], hPasture⟩
          · exact ⟨row, by rw [hJobs, if_neg hPk, hRow], hPasture⟩
      | takenOver other own expires _ repairState _ count old _ hOld _ _ _ _ _ hJobs =>
          by_cases hPk : pk = other
          · subst hPk
            cases hOld.symm.trans hRow
            exact ⟨(repairPatch own expires repairState).apply row,
              by rw [hJobs, if_pos rfl], hPasture⟩
          · exact ⟨row, by rw [hJobs, if_neg hPk, hRow], hPasture⟩
      | closed other newValues pasture reason leaseId count old hOld _ hOwner hLeaseId hOpen
          _ hValues hLeaves hJobs =>
          by_cases hPk : pk = other
          · subst hPk
            cases hOld.symm.trans hRow
            -- The owner of the row is the call that gives the lease up.
            have hJob := job_of_owner hRun hFresh hActor hLeaseId hRow hOwner
            have hFlag : pasture = true :=
              (pastureHeld hRun actor request session pk leaseId row hActor hJob hLeaseId
                hOpen hRow hOwner hPasture).pasture_eq
                (fun sched hSched => (holding hRun hFresh).current actor request session pk
                  leaseId row sched hActor hJob hLeaseId hOpen hSched hRow hOwner)
                hPasture hLeaves
            refine ⟨_, by rw [hJobs, if_pos rfl], ?_⟩
            rcases hValues with rfl | ⟨now, rfl⟩
            · exact hFlag
            · exact hFlag
          · exact ⟨row, by rw [hJobs, if_neg hPk, hRow], hPasture⟩

/-- **The pasture flag is permanent in every run that respects it.**  From any
state reached in such a run in which a job is disabled, it is disabled in every
later state. -/
theorem pasture_permanent {middle last : SchedulerPool} {pk : PrimaryKeyType}
    {row : ScheduledJobDataModel}
    (hReached : Run (scheduler reading) respectPasture (emptyPool clock) middle)
    (hLater : Run (scheduler reading) respectPasture middle last)
    (hRow : middle.shared.job pk = some row) (hPasture : row.pasture = true) :
    ∃ row', last.shared.job pk = some row' ∧ row'.pasture = true := by
  refine hLater.invariant
    (I := fun pool => ∃ row', pool.shared.job pk = some row' ∧ row'.pasture = true)
    ⟨row, hRow, hPasture⟩ ?_
  rintro pool event pool' hBefore ⟨current, hCurrent, hFlag⟩ hStep _
  have hRun := hReached.trans hBefore
  exact pasture_kept_of_step hRun (moves_of_step hRun (emptyPool_idle clock) hStep)
    hCurrent hFlag

/-- A node disables the sample job. -/
private def disableSample (pid : Nat) : List (Turn Request Answers) :=
  .spawn ⟨sampleNode sampleFinish [], 1,
      .disableSchedule (sampleJob false).toScheduledJobModel none⟩ ::
    turns pid 5 { leaseId := "disable" }

/-- A node launches the sample task, and the job keeps running. -/
private def startSample (pid : Nat) : List (Turn Request Answers) :=
  .spawn ⟨sampleNode sampleFinish [], 2, .startTask sampleTask⟩ ::
    turns pid 10 { leaseId := "start", job := .ok (.running "run") }

/-- A strategy that disables the job when a task of it finishes. -/
private def sampleDisable : TaskCreationStrategy :=
  .finish (fun now _ => .ok (some now)) fun _ _ => .ok .disable

/-- A node is told that the sample task has finished. -/
private def finishSample (pid : Nat) : List (Turn Request Answers) :=
  .spawn ⟨sampleNode sampleDisable [], 3, .taskFinished "run" (.completed "run" none)⟩ ::
    turns pid 8 { leaseId := "finish" }

private def disabled (pool : SchedulerPool) : Bool :=
  (pool.shared.job "job").any (·.pasture)

/-- The flag of the sample job is kept when the task that was running while the
job was disabled finishes. -/
theorem sample_pasture_kept :
    ∃ (last : SchedulerPool) (row : ScheduledJobDataModel),
      last.procs.length = 4 ∧ last.shared.job "job" = some row ∧ row.pasture = true := by
  have hDriven : ((driver strictlyBefore).drive
      (fun pool event pool' => respectPasture pool event pool')
      (createSample sampleFinish ++ startSample 1 ++ disableSample 2)
      (emptyPool 0)).any (fun middle => disabled middle &&
        ((driver strictlyBefore).drive
          (fun pool event pool' => respectPasture pool event pool') (finishSample 3)
          middle).any fun last => last.procs.length = 4) = true := by
    decide +kernel
  obtain ⟨middle, hReached, hMiddle⟩ := Driver.exists_run_of_drive (A := respectPasture)
    (fun _ _ _ => of_decide_eq_true) hDriven
  rw [Bool.and_eq_true] at hMiddle
  obtain ⟨last, hLater, hLength⟩ := Driver.exists_run_of_drive (A := respectPasture)
    (fun _ _ _ => of_decide_eq_true) hMiddle.2
  obtain ⟨row, hRow, hPasture⟩ := (Option.any_eq_true _ _).mp hMiddle.1
  obtain ⟨row', hRow', hKept⟩ := pasture_permanent hReached hLater hRow hPasture
  exact ⟨last, row', of_decide_eq_true hLength, hRow', hKept⟩

/-- **The flag is lost when a task of a disabled job is started.**  The lease of
a disabled job is granted, and `startTask` releases it with its own flag. -/
theorem pasture_cleared_by_startTask :
    ¬ ∀ (middle last : SchedulerPool) (pk : PrimaryKeyType) (row : ScheduledJobDataModel),
      Run (scheduler strictlyBefore) freshLeaseIds (emptyPool 0) middle →
      Run (scheduler strictlyBefore) freshLeaseIds middle last →
      middle.shared.job pk = some row → row.pasture = true →
      ∃ row', last.shared.job pk = some row' ∧ row'.pasture = true := by
  intro hPermanent
  have hDriven : ((driver strictlyBefore).drive
      (fun pool event pool' => freshLeaseIds pool event pool')
      (createSample sampleFinish ++ disableSample 1)
      (emptyPool 0)).any (fun middle => disabled middle &&
        ((driver strictlyBefore).drive
          (fun pool event pool' => freshLeaseIds pool event pool') (startSample 2)
          middle).any fun last => !disabled last) = true := by
    decide +kernel
  obtain ⟨middle, hReached, hMiddle⟩ := Driver.exists_run_of_drive (A := freshLeaseIds)
    (fun _ _ _ => of_decide_eq_true) hDriven
  rw [Bool.and_eq_true] at hMiddle
  obtain ⟨last, hLater, hLost⟩ := Driver.exists_run_of_drive (A := freshLeaseIds)
    (fun _ _ _ => of_decide_eq_true) hMiddle.2
  obtain ⟨row, hRow, hPasture⟩ := (Option.any_eq_true _ _).mp hMiddle.1
  obtain ⟨row', hRow', hKept⟩ := hPermanent middle last "job" row hReached hLater hRow hPasture
  simp [disabled, hRow', hKept] at hLost

end TernScheduler
