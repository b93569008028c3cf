import TernScheduler.Datastore.Contract
import TernScheduler.System

/-!
# Creating a scheduled job

`createScheduledJob` makes three writes without a transaction: it stores the job with a
lease on it, adds the first task, and releases the lease.  Every error path leads to
the mark for repair, which leaves the lease where it is.

* `Creation` is what a creation has stored, and `MayCreation` what it may write next:
  the lease is released only after the task was added.
* `Request.honors_creation` shows that `createScheduledJob` keeps to it.
-/

namespace TernScheduler

open Interleaving

/-- What a creation has stored: the job, the task, and whether the task was rejected
with a value that is no error object. -/
structure Creation where
  job : Option PrimaryKeyType := none
  task : Option TaskModel := none
  misled : Bool := false

/-- The creation after one more operation. -/
def Creation.next (creation : Creation) : (act : Act) → act.Reply → Creation
  | .createSchedule row, .ok _ => { creation with job := some row.pk }
  | .createTask row, .ok _ => { creation with task := some row }
  | .createTask _, .error e => { creation with misled := creation.misled || !e.truthy }
  | _, _ => creation

/-- Nobody holds the lease of the job. -/
def Unleased (row : ScheduledJobDataModel) : Prop :=
  row.updateState = none ∨ row.leaseOwner = none

/-- The write keeps the lease of a job. -/
def ScheduledJobPatch.KeepsLease (newValues : ScheduledJobPatch) : Prop :=
  newValues.updateState = none ∧ newValues.leaseOwner = none

/-- What a creation may write.  A job is stored leased, a task is added for the stored
job, and a write to the job expects the lease and keeps it, unless the task was added or
the job is disabled. -/
def MayCreation (creation : Creation) : Act → Prop
  | .createSchedule row => creation.job = none ∧ creation.task = none ∧ ¬ Unleased row
  | .createTask row =>
      creation.job = some row.schedule ∧ creation.task = none ∧ row.state = .pending
  | .updateSchedule pk newValues conditional =>
      (∃ leaseId, conditional = leasedBy leaseId) ∧
        (newValues.KeepsLease ∨ newValues.pasture = some true ∨
          creation.job = some pk ∧ (creation.task ≠ none ∨ creation.misled = true))
  | .updateTask .. => False
  | _ => True

/-- The request creates a scheduled job, and the creation strategy of that job throws
error objects only. -/
def Request.ThrowsErrors (request : Request) : Prop :=
  ∃ schedule, request.call = .createScheduledJob schedule ∧
    ∀ strat sched e,
      request.node.taskCreationReg.get schedule.taskCreationStrategy = .ok strat →
      strat.createFromNewSchedule request.now sched = .error e → e.truthy = true

/-- The protocol of a creation.  It says nothing of other requests. -/
def creationProtocol (request : Request) : Protocol signature Creation where
  next creation operation reply := creation.next operation.act reply
  may creation operation := request.ThrowsErrors → MayCreation creation operation.act

section Walk

variable {request : Request} {creation : Creation} {α : Type}

/-- Any outcome will do. -/
private abbrev AnyEnd : Creation → α → Prop := fun _ _ => True

/-- A method that writes the row of the job under its lease. -/
theorem creation_leaseMethod {pk : PrimaryKeyType} {newValues : ScheduledJobPatch}
    {leaseId : LeaseIdType} {leaseError : ScheduledJobDataModel → JsError}
    (hMay : newValues.KeepsLease ∨ newValues.pasture = some true ∨
      creation.job = some pk ∧ (creation.task ≠ none ∨ creation.misled = true)) :
    (updateSchedule pk newValues (leasedBy leaseId) >>=
      rejectUnlessUpdated pk leaseError).Honors (creationProtocol request) AnyEnd AnyEnd
      creation := by
  refine Promise.sat_bind.mpr ((honors_updateSchedule _ _ _).mpr
    ⟨fun _ => ⟨⟨leaseId, rfl⟩, hMay⟩, fun count => ?_, fun _ => trivial⟩)
  unfold rejectUnlessUpdated
  split
  · trivial
  · refine Promise.sat_bind.mpr ((honors_findSchedules _ _ _).mpr
      ⟨fun _ => trivial, fun rows => ?_, fun _ => trivial⟩)
    cases rows <;> trivial

theorem creation_emit (event : SchedulerEvent) {resolved : Creation → Unit → Prop}
    {rejected : Creation → JsError → Prop} (hDone : resolved creation ()) :
    (emit event).Honors (creationProtocol request) resolved rejected creation :=
  (honors_emit event).mpr ⟨fun _ => trivial, fun _ => hDone⟩

/-- The lease is released only when the task was added. -/
theorem creation_closeLease {sched : ScheduledJobDataModel} {leaseId : LeaseIdType}
    {now : Date} {result : LeaseExitState α}
    (hResult : result.asError = none →
      creation.job = some sched.pk ∧ (creation.task ≠ none ∨ creation.misled = true)) :
    (closeLease sched leaseId now result).Honors (creationProtocol request) AnyEnd AnyEnd
      creation := by
  -- the event is no step of the creation
  have hPastured : ∀ {resolved : Creation → Unit → Prop}
      {rejected : Creation → JsError → Prop}, resolved creation () →
      (emitIfPastured sched result.pasture).Honors (creationProtocol request) resolved
        rejected creation := by
    intro resolved rejected hDone
    unfold emitIfPastured
    split
    · exact creation_emit _ hDone
    · exact hDone
  have hEnd : (endLease sched leaseId now result).Honors (creationProtocol request) AnyEnd
      AnyEnd creation := by
    unfold endLease
    split
    · split
      · rename_i error _ hInstance
        rw [JsError.not_instanceOf_invalidScheduleDefinition] at hInstance
        cases hInstance
      · exact Promise.sat_bind.mpr (hPastured (creation_leaseMethod (Or.inl ⟨rfl, rfl⟩)))
    · -- released without an error: then there is a task, or the rejection was falsy
      rename_i hNone
      exact Promise.sat_bind.mpr
        (hPastured (creation_leaseMethod (Or.inr (Or.inr (hResult hNone)))))
  refine Promise.sat_bind.mpr (Promise.sat_handle.mpr (hEnd.mono ?_ ?_))
  · intro after _ _
    cases result.asError <;> trivial
  · intro after e _
    cases result.asError with
    | none => trivial
    | some error => exact Promise.sat_bind.mpr (creation_emit _ trivial)

theorem asError_ne_none {e : JsError} (hTruthy : e.truthy = true) :
    (LeaseExitState.error e false none : LeaseExitState α).asError ≠ none := by
  simp [LeaseExitState.asError, hTruthy]

/-- `createScheduledJob` keeps to its protocol. -/
theorem creation_createScheduledJob {schedule : NewScheduledJob}
    (hThrows : ∀ strat sched e,
      request.node.taskCreationReg.get schedule.taskCreationStrategy = .ok strat →
      strat.createFromNewSchedule request.now sched = .error e → e.truthy = true) :
    (createScheduledJob request.node schedule request.now).Honors (creationProtocol request)
      AnyEnd AnyEnd {} := by
  -- what the strategy throws is recognised as an error, and marks the row
  have hFails : ∀ {e : JsError} {creation : Creation} {leaseId : LeaseIdType}
      {sched : ScheduledJobDataModel}, e.truthy = true →
      (closeLease sched leaseId request.now
        (.error e false none : LeaseExitState PrimaryKeyType)).Honors
          (creationProtocol request) AnyEnd AnyEnd creation :=
    fun hTruthy => creation_closeLease fun hNone => absurd hNone (asError_ne_none hTruthy)
  refine Promise.sat_bind.mpr (honors_leaseOwnerStrategy.mpr
    ⟨fun _ => trivial, fun leaseId => ?_⟩)
  refine Promise.sat_bind.mpr (honors_createPrimaryKeyStrat.mpr
    ⟨fun _ => trivial, fun schedPk => ?_⟩)
  refine Promise.sat_bind.mpr (honors_createPrimaryKeyStrat.mpr
    ⟨fun _ => trivial, fun createdTaskPk => ?_⟩)
  refine Promise.sat_bind.mpr (Promise.sat_handle.mpr (Promise.sat_bind.mpr
    ((honors_createSchedule _).mpr
      ⟨fun _ => ⟨rfl, rfl, fun hFree => by rcases hFree with h | h <;> cases h⟩,
        fun _ => ?_, fun e => ?_⟩)))
  · refine (honors_inScope _ _).mpr (Promise.sat_handle.mpr ?_)
    refine Promise.sat_bind.mpr ((Promise.sat_ofExcept _).mpr ?_)
    cases hGet : request.node.taskCreationReg.get schedule.taskCreationStrategy with
    | error e => exact hFails (StrategyRegistry.truthy_of_get hGet)
    | ok strat =>
        refine Promise.sat_bind.mpr ((Promise.sat_ofExcept _).mpr ?_)
        cases hDate : strat.createFromNewSchedule request.now _ with
        | error e => exact hFails (hThrows strat _ e hGet hDate)
        | ok taskRunDate =>
            refine Promise.sat_bind.mpr ((honors_addTask _).mpr
              ⟨fun _ => ⟨rfl, rfl, rfl⟩, fun done => ?_, fun e => ?_⟩)
            · refine Promise.sat_bind.mpr ((honors_emit _).mpr ⟨fun _ => trivial, fun _ => ?_⟩)
              exact creation_closeLease fun _ => ⟨rfl, Or.inl (Option.some_ne_none _)⟩
            · -- A rejection that is no error object is not recognised as one.
              refine creation_closeLease fun hNone => ⟨rfl, Or.inr ?_⟩
              cases hTruthy : e.truthy with
              | true => exact absurd hNone (asError_ne_none hTruthy)
              | false => simp [relabelled, creationProtocol, Creation.next, hTruthy]
  · refine Promise.sat_bind.mpr (Promise.sat_handle.mpr
      ((creation_leaseMethod (Or.inl ⟨rfl, rfl⟩)).mono (fun _ _ _ => trivial) fun _ _ _ => ?_))
    exact Promise.sat_bind.mpr (creation_emit _ trivial)

end Walk

/-- **Every call keeps to the protocol of creations**, whatever the replies it gets. -/
theorem Request.honors_creation (request : Request) :
    request.program.Honors (creationProtocol request) (fun _ _ => True) (fun _ _ => True)
      {} := by
  by_cases hThrows : request.ThrowsErrors
  · obtain ⟨schedule, hCall, hErrors⟩ := hThrows
    unfold Request.program
    rw [hCall]
    exact creation_createScheduledJob hErrors
  · refine Prog.Sat.mono (Prog.honors_of_may (fun _ _ h => absurd h hThrows) _ _) ?_
    intro after result _
    cases result <;> trivial

end TernScheduler
