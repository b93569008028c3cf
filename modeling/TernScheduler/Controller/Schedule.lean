import TernScheduler.Datastore.DataStore

/-!
# Leases on scheduled jobs

`controller/schedule.ts`: creating a scheduled job in the leased state, and
running an update under a lease on an existing job.
-/

namespace TernScheduler

open Interleaving

structure LeaseExitStateValue (α : Type) where
  value : α
  pasture : Bool := false
  pastureReason : Option String := none

/-- `LeaseExitState`: what the work done under a lease ends with. -/
inductive LeaseExitState (α : Type)
  | value (exit : LeaseExitStateValue α)
  | error (reason : JsError) (pasture : Bool) (pastureReason : Option String)

namespace LeaseExitState

variable {α : Type}

/-- `isLeaseExitStateError`, which tests the truth value of the `error` field:
an exit state that carries a falsy error is not recognised as an error. -/
def asError : LeaseExitState α → Option JsError
  | .value _ => none
  | .error reason _ _ => if reason.truthy then some reason else none

/-- `result.pasture || false`. -/
def pasture : LeaseExitState α → Bool
  | .value exit => exit.pasture
  | .error _ flag _ => flag

/-- `result.pasture ? (result.pastureReason || null) : null`. -/
def pastureReason (result : LeaseExitState α) : Option String :=
  if result.pasture then
    match result with
    | .value exit => orNull exit.pastureReason
    | .error _ _ given => orNull given
  else none

/-- `result.value`, which is `undefined` on an error state. -/
def result : LeaseExitState α → Option α
  | .value exit => some exit.value
  | .error .. => none

end LeaseExitState

/-- Run the work given the lease; a throw and a rejection become an error
state. -/
def settleLease {α : Type} (withLease : Js (LeaseExitState α)) :
    Js (LeaseExitState α) :=
  withLease.handle fun e => pure (.error e false none)

/-- `if (result.pasture) messaging.emit('scheduledJobDisabled', sched)`. -/
def emitIfPastured (sched : ScheduledJobDataModel) (pasture : Bool) : Js Unit :=
  if pasture then emit (.scheduledJobDisabled sched) else pure ()

/-- The update that ends a lease: release it, or mark the job as needing
repair. -/
def endLease {α : Type} (sched : ScheduledJobDataModel) (leaseOwner : LeaseIdType)
    (now : Date) (result : LeaseExitState α) : Js Unit :=
  match result.asError with
  | some error =>
      if error.instanceOf .invalidScheduleDefinition then do
        emit (.invalidScheduleDefinition sched)
        emit (.scheduledJobDisabled sched)
        releaseScheduledJobLease leaseOwner sched.pk true (some (error.message .utc))
      else do
        emitIfPastured sched result.pasture
        markLeasedScheduledJobNeedsRepair sched.pk leaseOwner now result.pasture
          result.pastureReason
  | none => do
      emitIfPastured sched result.pasture
      releaseScheduledJobLease leaseOwner sched.pk result.pasture result.pastureReason

/-- The end of both lease runners: end the lease and settle with the outcome of
the work. -/
def closeLease {α : Type} (sched : ScheduledJobDataModel) (leaseOwner : LeaseIdType)
    (now : Date) (result : LeaseExitState α) : Js (Option α) := do
  (endLease sched leaseOwner now result).handle fun e =>
    match result.asError with
    | some error => do
        -- The release failed after the work did; the first error is the one
        -- the caller sees.
        emit (.generalError e)
        Promise.reject error
    | none => Promise.reject e
  match result.asError with
  | some error => Promise.reject error
  | none => pure result.result

/-! ### The operations of the end of a lease -/

section Uses

variable {P : Operation → Prop} {leaseOwner : LeaseIdType} {pk : PrimaryKeyType}

/-- The operations that end a lease of the job are in `P`. -/
structure EndsWithin (P : Operation → Prop) (leaseOwner : LeaseIdType)
    (pk : PrimaryKeyType) : Prop where
  find : P ⟨.outside, .findSchedules 0 1 (sjPkEquals pk)⟩
  emit : ∀ event, P ⟨.outside, .emit event⟩
  release : ∀ pasture pastureReason, P ⟨.outside,
    .updateSchedule pk (releasePatch pasture pastureReason) (leasedBy leaseOwner)⟩
  needsRepair : ∀ now pasture pastureReason, P ⟨.outside,
    .updateSchedule pk (needsRepairPatch now pasture pastureReason) (leasedBy leaseOwner)⟩

theorem uses_rejectUnlessUpdated (hFind : P ⟨.outside, .findSchedules 0 1 (sjPkEquals pk)⟩)
    (leaseError : ScheduledJobDataModel → JsError) (count : Nat) :
    (rejectUnlessUpdated pk leaseError count).Uses P := by
  unfold rejectUnlessUpdated
  split
  · exact Promise.uses_resolve ()
  · refine Promise.uses_bind (Promise.uses_perform hFind _) fun rows => ?_
    cases rows with
    | nil => exact Promise.uses_reject _
    | cons row rest => exact Promise.uses_reject _

theorem EndsWithin.uses_release (h : EndsWithin P leaseOwner pk) (pasture : Bool)
    (pastureReason : Option String) :
    (releaseScheduledJobLease leaseOwner pk pasture pastureReason).Uses P :=
  Promise.uses_bind (Promise.uses_perform (h.release pasture pastureReason) _)
    fun count => uses_rejectUnlessUpdated h.find _ count

theorem EndsWithin.uses_needsRepair (h : EndsWithin P leaseOwner pk) (now : Date)
    (pasture : Bool) (pastureReason : Option String) :
    (markLeasedScheduledJobNeedsRepair pk leaseOwner now pasture pastureReason).Uses P :=
  Promise.uses_bind (Promise.uses_perform (h.needsRepair now pasture pastureReason) _)
    fun count => uses_rejectUnlessUpdated h.find _ count

/-- The end of a lease tells of the job alone, and makes one of the two updates. -/
theorem uses_endLease_of {α : Type} {sched : ScheduledJobDataModel} {result : LeaseExitState α}
    {now : Date} (hInvalid : P ⟨.outside, .emit (.invalidScheduleDefinition sched)⟩)
    (hDisabled : P ⟨.outside, .emit (.scheduledJobDisabled sched)⟩)
    (hRelease : ∀ pasture pastureReason,
      (releaseScheduledJobLease leaseOwner sched.pk pasture pastureReason).Uses P)
    (hRepair : ∀ pasture pastureReason,
      (markLeasedScheduledJobNeedsRepair sched.pk leaseOwner now pasture pastureReason).Uses P) :
    (endLease sched leaseOwner now result).Uses P := by
  have hPastured : (emitIfPastured sched result.pasture).Uses P := by
    unfold emitIfPastured
    split
    · exact Promise.uses_perform hDisabled _
    · exact Promise.uses_resolve ()
  unfold endLease
  split
  · split
    · exact Promise.uses_bind (Promise.uses_perform hInvalid _) fun _ =>
        Promise.uses_bind (Promise.uses_perform hDisabled _) fun _ => hRelease _ _
    · exact Promise.uses_bind hPastured fun _ => hRepair _ _
  · exact Promise.uses_bind hPastured fun _ => hRelease _ _

theorem EndsWithin.uses_endLease {α : Type} {sched : ScheduledJobDataModel}
    (h : EndsWithin P leaseOwner sched.pk) (now : Date) (result : LeaseExitState α) :
    (endLease sched leaseOwner now result).Uses P :=
  uses_endLease_of (h.emit _) (h.emit _) h.uses_release (h.uses_needsRepair now)

theorem EndsWithin.uses_closeLease {α : Type} {sched : ScheduledJobDataModel}
    (h : EndsWithin P leaseOwner sched.pk) (now : Date) (result : LeaseExitState α) :
    (closeLease sched leaseOwner now result).Uses P := by
  refine Promise.uses_bind (Promise.uses_handle (h.uses_endLease now result) fun e => ?_)
    fun _ => ?_
  · split
    · exact Promise.uses_bind (Promise.uses_perform (h.emit _) _) fun _ =>
        Promise.uses_reject _
    · exact Promise.uses_reject _
  · split
    · exact Promise.uses_reject _
    · exact Promise.uses_resolve _

end Uses

/-- The model `createScheduledJobAlone` stores. -/
def newScheduledJobModel (scheduledJob : NewScheduledJob) (now : Date)
    (schedPk createdTaskPk : PrimaryKeyType) : ScheduledJobModel where
  toNewScheduledJob :=
    { scheduledJob with
      previousSchedule := orNull scheduledJob.previousSchedule
      previousReason := orNull scheduledJob.previousReason }
  pk := schedPk
  updateState := some .addTask
  updateTaskPk := some createdTaskPk
  pasture := false
  pastureReason := none
  createdOn := now
  repairState := none

/-- `createScheduledJobAlone`.  The work is given the model that was stored and
the key reserved for the first task. -/
def createScheduledJobAlone {α : Type} (node : Node) (scheduledJob : NewScheduledJob)
    (now : Date)
    (withLease : ScheduledJobDataModel → PrimaryKeyType → Js (LeaseExitState α)) :
    Js (Option α) := do
  let leaseOwner ← leaseOwnerStrategy
  let schedPk ← createPrimaryKeyStrat
  let createdTaskPk ← createPrimaryKeyStrat
  let model := newScheduledJobModel scheduledJob now schedPk createdTaskPk
  let sched := leasedRow node.zone model leaseOwner now
    node.leaseBehavior.leaseTimeSeconds
  let result ←
    (addScheduledJobModel node.zone model leaseOwner now
        node.leaseBehavior.leaseTimeSeconds >>= fun _ =>
      inScope (.callback leaseOwner) (settleLease (withLease sched createdTaskPk))).handle
    fun e => do
      (markLeasedScheduledJobNeedsRepair schedPk leaseOwner now false none).handle
        fun e2 => do
          emit (.generalError e2)
          Promise.reject e
      Promise.reject e
  closeLease sched leaseOwner now result

/-- One attempt to lease the job; each attempt uses the same `now`. -/
def leaseAttempt (node : Node) (updateOperation : ScheduleUpdateStateType)
    (jobPk : PrimaryKeyType) (updateTaskPk : Option PrimaryKeyType) (now : Date)
    (leaseOwner : LeaseIdType) : Js Unit :=
  leaseScheduledJob node.zone jobPk updateOperation updateTaskPk leaseOwner now
    node.leaseBehavior.leaseTimeSeconds

/-- One round of the retry loop: when the attempts so far fail, wait, then try
again. -/
def retryLease (attempt : Js Unit) (previous : Js Unit) (retrySeconds : Int) :
    Js Unit :=
  (previous.handle fun reason => do
    registerRetryCallback retrySeconds
    Promise.reject reason).handle fun _ => attempt

def runUpdateInLease {α : Type} (node : Node)
    (updateOperation : ScheduleUpdateStateType) (jobPk : PrimaryKeyType)
    (updateTaskPk : Option PrimaryKeyType) (now : Date)
    (withLease : ScheduledJobDataModel → LeaseIdType → Js (LeaseExitState α)) :
    Js (Option α) := do
  let leaseOwner ← leaseOwnerStrategy
  let attempt := leaseAttempt node updateOperation jobPk updateTaskPk now leaseOwner
  node.leaseBehavior.retrySecondsDelay.foldl (retryLease attempt) attempt
  let sched ← getScheduledJob jobPk
  match sched with
  | none => Promise.reject (.scheduledJobNotFound jobPk)
  | some sched => do
      let result ← inScope (.callback leaseOwner)
        (settleLease (withLease sched leaseOwner))
      closeLease sched leaseOwner now result

end TernScheduler
