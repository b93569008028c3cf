import TernScheduler.Controller.WorkConformance

/-!
# Leases follow the contract

A lease is asked for, waited for, and given up or marked for repair, whatever is done under
it.

* `honors_runUpdateInLease` is about work of any kind that keeps to its part.
* `honors_createScheduledJobAlone` is about the lease of a job that is being created.
-/

namespace TernScheduler

open Interleaving

section Lease

variable {request : Request} {session : Session} {leaseId : LeaseIdType}
  {pk : PrimaryKeyType} {α : Type}

theorem may_outside {act : Act} (hAct : MayAct request .outside session act) :
    (contract request).may session (outside act) :=
  ⟨fun _ hScope => (by cases hScope), hAct⟩

/-- The session has learned nothing about tasks and holds what it held. -/
def Ended (session after : Session) : Prop :=
  after.task = session.task ∧ after.leaseId = session.leaseId ∧
    after.job = session.job ∧ after.facts = session.facts ∧
    (after.lost = false → session.lost = false)

theorem Ended.refl : Ended session session := ⟨rfl, rfl, rfl, rfl, id⟩

theorem Ended.settles {after : Session} (h : Ended session after)
    (hSettles : Settles request session) : Settles request after := by
  obtain ⟨hTask, -, hJob, hFacts, hLost⟩ := h
  intro execJobId result hCall hFinished hHeld hKept
  obtain ⟨task, newValues, reply, hOwn, hWrote, hState⟩ :=
    hSettles execJobId result hCall hFinished (hJob ▸ hHeld) (hLost hKept)
  exact ⟨task, newValues, reply, hTask.trans hOwn, hFacts ▸ hWrote, hState⟩

theorem ended_afterRead (reply : Except JsError (List ScheduledJobDataModel)) :
    Ended session (session.afterRead reply) := by
  unfold Session.afterRead
  split
  · exact ⟨rfl, rfl, rfl, rfl, id⟩
  · exact ⟨rfl, rfl, rfl, rfl, fun h => by cases h⟩
  · exact .refl

theorem closed_afterRead (reply : Except JsError (List ScheduledJobDataModel)) :
    (session.afterRead reply).closed = session.closed := by
  unfold Session.afterRead
  split <;> rfl

/-- `rejectUnlessUpdated` reads the job it could not update. -/
theorem honors_rejectUnlessUpdated {leaseError : ScheduledJobDataModel → JsError}
    {count : Nat} {resolved : Session → Unit → Prop}
    {rejected : Session → JsError → Prop}
    (hJob : ∀ job, session.job = some job →
      pk = job ∨ ∃ sched, session.sched = some sched ∧ pk = sched.pk)
    (hDone : 0 < count → resolved session ())
    (hFail : count = 0 → ∀ reply e, rejected (session.afterRead reply) e) :
    (rejectUnlessUpdated pk leaseError count).Honors (contract request) resolved
      rejected session := by
  unfold rejectUnlessUpdated
  split
  · rename_i hCount
    exact hDone hCount
  · have hNone : count = 0 := by omega
    refine Promise.sat_bind.mpr ((honors_findSchedules _ _ _).mpr
      ⟨may_outside ⟨pk, rfl, rfl, rfl, hJob⟩, fun rows => ?_, fun e => ?_⟩)
    · cases rows with
      | nil => exact hFail hNone _ _
      | cons row rest => exact hFail hNone _ _
    · exact hFail hNone _ _

/-- The two updates that give a lease up: the session is closed when a row was
written, and otherwise as it was. -/
private theorem honors_close {newValues : ScheduledJobPatch}
    {leaseError : ScheduledJobDataModel → JsError}
    (hOwner : newValues.leaseOwner = some none ∨ newValues.leaseOwner = none)
    (hMay : MayClose request session pk newValues (leasedBy leaseId)) :
    (updateSchedule pk newValues (leasedBy leaseId) >>=
      rejectUnlessUpdated pk leaseError).Honors (contract request)
      (fun after _ => Ended session after)
      (fun after _ => Ended session after ∧ after.closed = false) session := by
  have hMay' := hMay
  obtain ⟨_, _, _, -, hOpen, hJob, -, -, -⟩ := hMay'
  refine Promise.sat_bind.mpr ((honors_updateSchedule _ _ _).mpr
    ⟨may_outside (Or.inr (Or.inr hMay)), fun count => ?_, fun e => ⟨.refl, hOpen⟩⟩)
  -- no row was written: the row is read once more, for the error only
  cases count with
  | zero =>
      refine honors_rejectUnlessUpdated hJob (fun h => absurd h (by omega))
        fun _ reply e => ?_
      exact ⟨ended_afterRead reply, (closed_afterRead reply).trans hOpen⟩
  | succ count =>
      have hClosed : session.afterUpdate pk newValues (.ok (count + 1)) =
          { session with closed := true } := by
        rcases hOwner with hOwner | hOwner <;> simp [Session.afterUpdate, hOwner]
      show (rejectUnlessUpdated pk leaseError (count + 1)).Honors (contract request)
        (fun after _ => Ended session after)
        (fun after _ => Ended session after ∧ after.closed = false)
        (session.afterUpdate pk newValues (.ok (count + 1)))
      rw [hClosed]
      exact honors_rejectUnlessUpdated hJob
        (fun _ => ⟨rfl, rfl, rfl, rfl, id⟩) fun h => absurd h (by omega)

/-- `releaseScheduledJobLease`. -/
theorem honors_releaseScheduledJobLease {pasture : Bool}
    {pastureReason : Option String}
    (hMay : MayClose request session pk (releasePatch pasture pastureReason)
      (leasedBy leaseId)) :
    (releaseScheduledJobLease leaseId pk pasture pastureReason).Honors
      (contract request) (fun after _ => Ended session after)
      (fun after _ => Ended session after ∧ after.closed = false) session :=
  honors_close (Or.inl rfl) hMay

/-- `markLeasedScheduledJobNeedsRepair`. -/
theorem honors_markLeasedScheduledJobNeedsRepair {now : Date} {pasture : Bool}
    {pastureReason : Option String}
    (hMay : MayClose request session pk (needsRepairPatch now pasture pastureReason)
      (leasedBy leaseId)) :
    (markLeasedScheduledJobNeedsRepair pk leaseId now pasture pastureReason).Honors
      (contract request) (fun after _ => Ended session after)
      (fun after _ => Ended session after ∧ after.closed = false) session :=
  honors_close (Or.inr rfl) hMay

/-- What the work under a lease must leave for the lease to be closed. -/
def ReadyToClose (request : Request) (leaseId : LeaseIdType)
    (sched : ScheduledJobDataModel) (job : PrimaryKeyType) (after : Session)
    (pasture : Bool) : Prop :=
  after.leaseId = some leaseId ∧ after.closed = false ∧ after.job = some job ∧
    after.sched = some sched ∧ MayLeavePasture request after pasture ∧
    Settles request after

theorem honors_emit_outside (event : SchedulerEvent)
    {resolved : Session → Unit → Prop} {rejected : Session → JsError → Prop}
    (hDone : resolved session ()) :
    (emit event).Honors (contract request) resolved rejected session :=
  (honors_emit event).mpr ⟨may_outside trivial, fun _ => hDone⟩

/-- `endLease`: one update that gives the lease up. -/
theorem honors_endLease {sched : ScheduledJobDataModel} {now : Date}
    {job : PrimaryKeyType} {result : LeaseExitState α}
    (hReady : ReadyToClose request leaseId sched job session result.pasture) :
    (endLease sched leaseId now result).Honors (contract request)
      (fun after _ => Ended session after)
      (fun after _ => Ended session after ∧ after.closed = false) session := by
  obtain ⟨hLeaseId, hOpen, hJob, hSched, hPasture, -⟩ := hReady
  have hTarget : ∀ other, session.job = some other →
      sched.pk = other ∨ ∃ row, session.sched = some row ∧ sched.pk = row.pk :=
    fun _ _ => Or.inr ⟨sched, hSched, rfl⟩
  -- the event of a pasture comes first and writes nothing
  have hPastured : ∀ {resolved : Session → Unit → Prop}
      {rejected : Session → JsError → Prop}, resolved session () →
      (emitIfPastured sched result.pasture).Honors (contract request) resolved rejected
        session := by
    intro resolved rejected hDone
    unfold emitIfPastured
    split
    · exact honors_emit_outside _ hDone
    · exact hDone
  unfold endLease
  split
  · split
    · rename_i error _ hInstance
      rw [JsError.not_instanceOf_invalidScheduleDefinition] at hInstance
      cases hInstance
    · exact Promise.sat_bind.mpr (hPastured (honors_markLeasedScheduledJobNeedsRepair
        ⟨leaseId, _, _, hLeaseId, hOpen, hTarget, Or.inr ⟨now, rfl⟩, rfl, hPasture⟩))
  · exact Promise.sat_bind.mpr (hPastured (honors_releaseScheduledJobLease
      ⟨leaseId, _, _, hLeaseId, hOpen, hTarget, Or.inl rfl, rfl, hPasture⟩))

/-- `closeLease` ends the lease and settles. -/
theorem honors_closeLease {sched : ScheduledJobDataModel} {now : Date}
    {job : PrimaryKeyType} {result : LeaseExitState α}
    (hReady : ReadyToClose request leaseId sched job session result.pasture) :
    (closeLease sched leaseId now result).Honors (contract request)
      (fun after _ => Settles request after) (fun after _ => Settles request after)
      session := by
  obtain ⟨-, -, -, -, -, hSettles⟩ := id hReady
  refine Promise.sat_bind.mpr (Promise.sat_handle.mpr
    ((honors_endLease hReady).mono ?_ ?_))
  · intro after _ hAfter
    have hAfter' := hAfter.settles hSettles
    split <;> exact hAfter'
  · intro after e hAfter
    have hAfter' := hAfter.1.settles hSettles
    split
    · exact Promise.sat_bind.mpr (honors_emit_outside _ hAfter')
    · exact hAfter'

/-- `leaseScheduledJob` takes the lease or leaves the session as it was. -/
theorem honors_leaseScheduledJob {zone : TimeZone} {operation : ScheduleUpdateStateType}
    {taskPk : Option PrimaryKeyType} {now : Date} {leaseTimeSeconds : Int}
    (hLeaseId : session.leaseId = some leaseId) (hJob : session.job = none)
    (hOpen : session.closed = false) (hLeases : Leases request session pk) :
    (leaseScheduledJob zone pk operation taskPk leaseId now leaseTimeSeconds).Honors
      (contract request) (fun after _ => after = { session with job := some pk })
      (fun after _ => after = session) session := by
  refine Promise.sat_bind.mpr ((honors_updateSchedule _ _ _).mpr
    ⟨may_outside (Or.inl ⟨operation, taskPk, leaseId, _, hJob, hOpen, hLeaseId, hLeases,
      rfl, rfl⟩), fun count => ?_, fun e => rfl⟩)
  cases count with
  | zero =>
      refine honors_rejectUnlessUpdated (fun job hHeld => ?_)
        (fun h => absurd h (by omega)) fun _ reply e => ?_
      · exact absurd (hJob.symm.trans hHeld) (by simp)
      · exact Session.afterRead_of_unleased hJob reply
  | succ count =>
      exact honors_rejectUnlessUpdated (fun job hHeld => Or.inl (Option.some.inj hHeld))
        (fun _ => rfl) fun h => absurd h (by omega)

/-- The retries of `runUpdateInLease` keep what waiting and every attempt keep, and
end as one attempt ends. -/
theorem honors_retries {M : Type} {P : Protocol signature M} {state : M}
    {attempt : Js Unit} {I : M → Prop} {resolved : M → Unit → Prop}
    {rejected : M → JsError → Prop}
    (hWait : ∀ state, I state → ∀ delay, P.may state (outside (.retryDelay delay)) ∧
      ∀ reply, I (P.next state (outside (.retryDelay delay)) reply))
    (hAttempt : ∀ state, I state →
      attempt.Honors P resolved (fun after e => I after ∧ rejected after e) state)
    (delays : List Int) (hState : I state) :
    (delays.foldl (retryLease attempt) attempt).Honors P resolved
      (fun after e => I after ∧ rejected after e) state := by
  suffices hLoop : ∀ previous : Js Unit,
      previous.Honors P resolved (fun after e => I after ∧ rejected after e) state →
      (delays.foldl (retryLease attempt) previous).Honors P resolved
        (fun after e => I after ∧ rejected after e) state from
    hLoop attempt (hAttempt state hState)
  induction delays with
  | nil => exact fun previous hPrevious => hPrevious
  | cons delay delays ih =>
      intro previous hPrevious
      refine ih _ (Promise.sat_handle.mpr (Promise.sat_handle.mpr
        (hPrevious.mono (fun _ _ hAfter => hAfter) fun after e hAfter => ?_)))
      exact Promise.sat_bind.mpr ((honors_registerRetryCallback delay).mpr
        ⟨(hWait after hAfter.1 delay).1, fun reply =>
          hAttempt _ ((hWait after hAfter.1 delay).2 reply)⟩)

/-- The retries of `runUpdateInLease` end as one attempt ends, for every protocol
that lets a call wait. -/
theorem honors_retryLease {M : Type} {P : Protocol signature M} {state : M}
    {attempt : Js Unit} {resolved : M → Unit → Prop}
    (hWait : ∀ delay, P.may state (outside (.retryDelay delay)) ∧
      ∀ reply, P.next state (outside (.retryDelay delay)) reply = state)
    (hAttempt : attempt.Honors P resolved (fun after _ => after = state) state)
    (delays : List Int) :
    (delays.foldl (retryLease attempt) attempt).Honors P resolved
      (fun after _ => after = state) state := by
  have hSame : ∀ other, other = state → attempt.Honors P resolved
      (fun after _ => after = state ∧ True) other := by
    rintro _ rfl
    exact hAttempt.mono (fun _ _ hAfter => hAfter) fun _ _ hAfter => ⟨hAfter, trivial⟩
  refine Promise.Sat.mono (honors_retries (I := (· = state)) ?_ hSame delays rfl)
    (fun _ _ hAfter => hAfter) fun _ _ hAfter => hAfter.1
  rintro _ rfl delay
  exact hWait delay

/-- What the work of a call does with the lease it is given. -/
def WorksUnderLease (request : Request) (session : Session) (leaseId : LeaseIdType)
    (sched : ScheduledJobDataModel) (work : Js (LeaseExitState α)) : Prop :=
  ∀ job, session.job = some job →
    work.Honors (atWork request leaseId)
      (fun after exit => ReadyToClose request leaseId sched job after exit.pasture)
      (fun after _ => ReadyToClose request leaseId sched job after false) session

/-- The work, and then the end of the lease. -/
private theorem honors_workAndClose {sched : ScheduledJobDataModel} {now : Date}
    {job : PrimaryKeyType} {work : Js (LeaseExitState α)}
    (hJob : session.job = some job)
    (hWork : WorksUnderLease request session leaseId sched work) :
    (inScope (.callback leaseId) (settleLease work) >>= fun result =>
      closeLease sched leaseId now result).Honors (contract request)
      (fun after _ => Settles request after) (fun after _ => Settles request after)
      session := by
  refine Promise.sat_bind.mpr ((honors_inScope _ _).mpr
    (Promise.sat_handle.mpr ((hWork job hJob).mono ?_ ?_)))
  · exact fun after exit hReady => honors_closeLease hReady
  · intro after e hReady
    have hReady' : ReadyToClose request leaseId sched job after
        (LeaseExitState.error e false none : LeaseExitState α).pasture := hReady
    exact honors_closeLease hReady'

/-- `runUpdateInLease` follows the contract when its work does. -/
theorem honors_runUpdateInLease {operation : ScheduleUpdateStateType}
    {taskPk : Option PrimaryKeyType} {now : Date}
    {withLease : ScheduledJobDataModel → LeaseIdType → Js (LeaseExitState α)}
    (hFresh : session.leaseId = none) (hJob : session.job = none)
    (hOpen : session.closed = false)
    (hLeases : ∀ leaseId, Leases request { session with leaseId := some leaseId } pk)
    (hWork : ∀ leaseId sched, WorksUnderLease request
      { session with leaseId := some leaseId, job := some pk, sched := some sched }
      leaseId sched (withLease sched leaseId)) :
    (runUpdateInLease request.node operation pk taskPk now withLease).Honors
      (contract request) (fun after _ => Settles request after)
      (fun after _ => Settles request after) session := by
  have hUnleased : ∀ {after : Session}, after.job = none → Settles request after :=
    fun hNone _ _ _ _ hHeld => absurd hNone hHeld
  refine Promise.sat_bind.mpr (honors_leaseOwnerStrategy.mpr
    ⟨may_outside ⟨hFresh, hJob⟩, fun leaseId => ?_⟩)
  have hAttempt : (leaseAttempt request.node operation pk taskPk now leaseId).Honors
      (contract request)
      (fun after _ =>
        after = { session with leaseId := some leaseId, job := some pk })
      (fun after _ => after = { session with leaseId := some leaseId })
      { session with leaseId := some leaseId } :=
    honors_leaseScheduledJob rfl hJob hOpen (hLeases leaseId)
  refine Promise.sat_bind.mpr ((honors_retryLease
    (fun _ => ⟨may_outside trivial, fun _ => rfl⟩) hAttempt _).mono ?_ ?_)
  · rintro after _ rfl
    -- a row that cannot be read back leaves the lease behind, and the call owes nothing
    have hLost : Settles request
        { session with leaseId := some leaseId, job := some pk, lost := true } :=
      fun _ _ _ _ _ hKept => by cases hKept
    refine Promise.sat_bind.mpr (Promise.sat_bind.mpr
      ((honors_findSchedules _ _ _).mpr ⟨may_outside
        ⟨pk, rfl, rfl, rfl, fun _ hHeld => Or.inl (Option.some.inj hHeld)⟩,
        fun rows => ?_, fun e => hLost⟩))
    cases rows with
    | nil => exact hLost
    | cons sched rest => exact honors_workAndClose rfl (hWork leaseId sched)
  · rintro after e rfl
    exact hUnleased hJob

/-- `createScheduledJobAlone` follows the contract when its work does. -/
theorem honors_createScheduledJobAlone {schedule scheduledJob : NewScheduledJob}
    {now : Date}
    {withLease : ScheduledJobDataModel → PrimaryKeyType → Js (LeaseExitState α)}
    (hCall : request.call = .createScheduledJob schedule)
    (hWork : ∀ leaseId sched taskPk, WorksUnderLease request
      { leaseId := some leaseId, job := some sched.pk, sched := some sched }
      leaseId sched (withLease sched taskPk)) :
    (createScheduledJobAlone request.node scheduledJob now withLease).Honors
      (contract request) (fun after _ => Settles request after)
      (fun after _ => Settles request after) {} := by
  have hSettles : ∀ after : Session, Settles request after := by
    intro after execJobId result hOther
    rw [hCall] at hOther
    cases hOther
  refine Promise.sat_bind.mpr (honors_leaseOwnerStrategy.mpr
    ⟨may_outside ⟨rfl, rfl⟩, fun leaseId => ?_⟩)
  refine Promise.sat_bind.mpr (honors_createPrimaryKeyStrat.mpr
    ⟨may_outside trivial, fun schedPk => ?_⟩)
  refine Promise.sat_bind.mpr (honors_createPrimaryKeyStrat.mpr
    ⟨may_outside trivial, fun createdTaskPk => ?_⟩)
  refine Promise.sat_bind.mpr (Promise.sat_handle.mpr (Promise.sat_bind.mpr
    ((honors_createSchedule _).mpr ⟨may_outside ?_, fun _ => ?_, fun e => ?_⟩)))
  · exact ⟨schedule, leaseId, _, hCall, rfl, rfl, rfl, rfl, rfl, rfl, rfl, rfl⟩
  · refine (honors_inScope _ _).mpr (Promise.sat_handle.mpr
      ((hWork leaseId _ createdTaskPk _ rfl).mono ?_ ?_))
    · exact fun after exit hReady => honors_closeLease hReady
    · intro after e hReady
      have hReady' : ReadyToClose request leaseId _ _ after
          (LeaseExitState.error e false none : LeaseExitState α).pasture := hReady
      exact honors_closeLease hReady'
  · -- The row was not created, so there is no lease to give up; the source
    -- tries all the same.
    refine Promise.sat_bind.mpr (Promise.sat_handle.mpr
      ((honors_markLeasedScheduledJobNeedsRepair ?_).mono ?_ ?_))
    · refine ⟨leaseId, false, none, rfl, rfl, ?_, Or.inr ⟨now, rfl⟩, rfl, ?_⟩
      · intro job hHeld
        cases hHeld
      · unfold MayLeavePasture
        rw [hCall]
        trivial
    · exact fun after _ _ => hSettles after
    · exact fun after e2 _ => Promise.sat_bind.mpr
        (honors_emit_outside _ (hSettles after))

end Lease

end TernScheduler
