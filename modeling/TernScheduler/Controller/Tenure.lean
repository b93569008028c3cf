import TernScheduler.Controller.Conformance
import TernScheduler.Datastore.Effects
import TernScheduler.Library.Sessions
import TernScheduler.System

/-!
# Lease runners with arbitrary work

The three calls that work under a lease, taken by themselves: whoever calls
`createScheduledJobAlone` and `runUpdateInLease` brings the work, which may do
anything but write the schedule table or draw a lease id.

* `leaseRunners` is the system of any number of such calls over one database.
* `Tenure` is what a call has done to leases, and `tenancy` the protocol its
  operations follow.
* `LeaseRequest.honors_tenancy` shows that every call follows it, whatever the
  work does.
-/

namespace TernScheduler

open Interleaving

/-! ## The calls -/

/-- An operation that neither writes the schedule table nor draws a lease id. -/
def Act.Confined : Act → Prop
  | .createSchedule _ | .updateSchedule .. | .createLeaseId => False
  | _ => True

/-- Every operation of the promise is confined. -/
def Confined {α : Type} (promise : Js α) : Prop :=
  promise.Uses fun operation : Operation => operation.act.Confined

/-- Work to run under a lease.  It is given the row of the job, and the lease id
or the key reserved for the first task. -/
structure ConfinedWork (α : Type) where
  run : ScheduledJobDataModel → String → Js (LeaseExitState α)
  confined : ∀ sched given, Confined (run sched given)

/-- A call that works under a lease. -/
inductive LeaseCall (α : Type)
  | createScheduledJobAlone (scheduledJob : NewScheduledJob) (withLease : ConfinedWork α)
  | runUpdateInLease (updateOperation : ScheduleUpdateStateType)
      (jobPk : PrimaryKeyType) (updateTaskPk : Option PrimaryKeyType)
      (withLease : ConfinedWork α)
  | repairExpiredSchedule (srcSchedule : ScheduledJobModel)

/-- A call, the node that runs it, and the time it was given. -/
structure LeaseRequest (α : Type) where
  node : Node
  now : Date
  call : LeaseCall α

variable {α : Type}

/-- The program of a call.  A repair resolves with nothing. -/
def LeaseRequest.program (request : LeaseRequest α) : Js (Option α) :=
  match request.call with
  | .createScheduledJobAlone scheduledJob withLease =>
      createScheduledJobAlone request.node scheduledJob request.now withLease.run
  | .runUpdateInLease updateOperation jobPk updateTaskPk withLease =>
      runUpdateInLease request.node updateOperation jobPk updateTaskPk request.now
        withLease.run
  | .repairExpiredSchedule srcSchedule => do
      repairExpiredSchedule request.node srcSchedule request.now
      pure none

/-- The length of the node's leases. -/
def LeaseRequest.leaseTime (request : LeaseRequest α) : Int :=
  request.node.leaseBehavior.leaseTimeSeconds * 1000

/-- The expiry a call writes with its lease. -/
def LeaseRequest.expires (request : LeaseRequest α) : Date :=
  updateDate request.node.zone request.now request.node.leaseBehavior.leaseTimeSeconds

/-- Any number of lease runners over one database. -/
def leaseRunners (α : Type) (reading : BeforeDateReading) :
    System signature Database (LeaseRequest α) (Except JsError (Option α)) :=
  overDatabase reading LeaseRequest.program

/-! ## What a call has done to leases -/

/-- The lease id a call drew, the job it was granted, and whether it has given the
lease up. -/
structure Tenure where
  leaseId : Option LeaseIdType := none
  job : Option PrimaryKeyType := none
  stopped : Bool := false

namespace Tenure

/-- The tenure after one more operation. -/
def next (tenure : Tenure) (act : Act) (reply : act.Reply) : Tenure where
  leaseId := (act.drawn reply).or tenure.leaseId
  job := (act.granted reply).or tenure.job
  stopped := tenure.stopped || act.gaveUp reply

theorem next_of_confined (tenure : Tenure) {act : Act} (hConfined : act.Confined)
    (reply : act.Reply) : tenure.next act reply = tenure := by
  cases act with
  | createSchedule row => cases hConfined
  | updateSchedule pk newValues conditional => cases hConfined
  | createLeaseId => cases hConfined
  | _ => simp [next, Act.drawn, Act.granted, Act.gaveUp]

/-- A lease id is drawn by one operation and kept. -/
theorem leaseId_next (tenure : Tenure) (act : Act) (reply : act.Reply) :
    (tenure.next act reply).leaseId = tenure.leaseId ∨
      ∃ drawn, act.drawn reply = some drawn ∧
        (tenure.next act reply).leaseId = some drawn := by
  cases hDrawn : act.drawn reply with
  | none => exact Or.inl (by simp [next, hDrawn])
  | some drawn => exact Or.inr ⟨drawn, rfl, by simp [next, hDrawn]⟩

end Tenure

/-! ## The protocol -/

/-- The lease a call is working under when it makes an operation. -/
def Scope.lease : Scope → Option LeaseIdType
  | .outside => none
  | .callback leaseId | .repair leaseId => some leaseId

/-- An update that takes a lease: of a job that is free, or whose lease has
expired. -/
def TakesLease (request : LeaseRequest α) (leaseId : LeaseIdType)
    (newValues : ScheduledJobPatch) (conditional : Conditional ScheduledJobColumn) :
    Prop :=
  newValues.leaseOwner = some (some leaseId) ∧
    newValues.leaseExpires = some (some request.expires) ∧
    (∃ state, newValues.updateState = some (some state)) ∧
    (conditional = notUpdating ∨
      ((∃ srcSchedule, request.call = .repairExpiredSchedule srcSchedule) ∧
        conditional = leaseExpiredBefore request.now))

/-- An update that gives a lease up, or marks the job as needing repair. -/
def GivesLeaseUp (leaseId : LeaseIdType) (newValues : ScheduledJobPatch)
    (conditional : Conditional ScheduledJobColumn) : Prop :=
  conditional = leasedBy leaseId ∧
    ((newValues.leaseOwner = some none ∧ newValues.updateState = some none) ∨
      (newValues.leaseOwner = none ∧ newValues.updateState = none))

/-- What a call may do to leases. -/
def MayAffectLease (request : LeaseRequest α) (tenure : Tenure) : Act → Prop
  | .createSchedule row =>
      tenure.job = none ∧ row.updateState ≠ none ∧
        row.leaseExpires = some request.expires ∧ tenure.leaseId ≠ none ∧
        row.leaseOwner = tenure.leaseId
  | .updateSchedule _ newValues conditional =>
      ∃ leaseId, tenure.leaseId = some leaseId ∧
        ((tenure.job = none ∧ TakesLease request leaseId newValues conditional) ∨
          GivesLeaseUp leaseId newValues conditional)
  | .createLeaseId => tenure = {}
  | _ => True

/-- What a call may do: work under a lease only while it holds it, and without
touching leases then. -/
def MayWork (request : LeaseRequest α) (tenure : Tenure) (operation : Operation) : Prop :=
  MayAffectLease request tenure operation.act ∧
    ∀ leaseId ∈ operation.scope.lease,
      operation.act.Confined ∧ tenure.leaseId = some leaseId ∧ tenure.job ≠ none ∧
        tenure.stopped = false

/-- The protocol of a lease runner. -/
def tenancy (request : LeaseRequest α) : Protocol signature Tenure where
  next tenure operation reply := tenure.next operation.act reply
  may tenure operation := MayWork request tenure operation

/-! ## Conformance -/

section Conformance

variable {request : LeaseRequest α} {tenure : Tenure} {leaseId : LeaseIdType}
  {pk : PrimaryKeyType} {now : Date}

theorem mayAffectLease_of_confined {act : Act} (hConfined : act.Confined) :
    MayAffectLease request tenure act := by
  cases act with
  | createSchedule row => cases hConfined
  | updateSchedule pk newValues conditional => cases hConfined
  | createLeaseId => cases hConfined
  | _ => trivial

/-- An operation outside the work may do whatever the protocol lets leases be
done. -/
theorem mayWork_outside {act : Act} (hMay : MayAffectLease request tenure act) :
    (tenancy request).may tenure (outside act) := by
  refine ⟨hMay, fun leaseId hScope => ?_⟩
  cases hScope

theorem tenancy_confined {act : Act} (hConfined : act.Confined) :
    (tenancy request).may tenure (outside act) ∧
      ∀ reply, (tenancy request).next tenure (outside act) reply = tenure :=
  ⟨mayWork_outside (mayAffectLease_of_confined hConfined), tenure.next_of_confined hConfined⟩

/-- Confined work under the lease a call holds leaves its tenure as it is. -/
theorem tenancy_work {β : Type} {work : Js β} {scope : Scope}
    (hScope : scope.lease = some leaseId) (hWork : Confined work)
    (hLeaseId : tenure.leaseId = some leaseId) (hJob : tenure.job ≠ none)
    (hOpen : tenure.stopped = false) :
    (inScope scope work).Honors (tenancy request) (fun after _ => after = tenure)
      (fun after _ => after = tenure) tenure := by
  refine (honors_inScope scope work).mpr
    (Promise.honors_of_uses (I := fun after => after = tenure) hWork rfl ?_)
  rintro state ⟨other, act⟩ rfl hConfined
  refine ⟨⟨mayAffectLease_of_confined hConfined, fun held hHeld => ?_⟩,
    Tenure.next_of_confined _ hConfined⟩
  obtain rfl : leaseId = held := Option.some.inj (hScope.symm.trans hHeld)
  exact ⟨hConfined, hLeaseId, hJob, hOpen⟩

/-! ### Giving the lease up -/

/-- An operation of the end of a lease. -/
def EndsLease (leaseId : LeaseIdType) (operation : Operation) : Prop :=
  operation.scope = .outside ∧
    (operation.act.Confined ∨ ∃ pk newValues conditional,
      operation.act = .updateSchedule pk newValues conditional ∧
        GivesLeaseUp leaseId newValues conditional)

/-- Ending a lease is allowed to the call that drew its id. -/
theorem tenancy_ends {β : Type} {promise : Js β} (hEnds : promise.Uses (EndsLease leaseId))
    (hLeaseId : tenure.leaseId = some leaseId) :
    promise.Honors (tenancy request) (fun after _ => after.leaseId = some leaseId)
      (fun after _ => after.leaseId = some leaseId) tenure := by
  refine Promise.honors_of_uses (I := fun after : Tenure => after.leaseId = some leaseId)
    hEnds hLeaseId ?_
  rintro state ⟨scope, act⟩ hHeld ⟨rfl, hConfined | ⟨pk, newValues, conditional, rfl, hGives⟩⟩
  · refine ⟨(tenancy_confined hConfined).1, fun reply => ?_⟩
    rw [(tenancy_confined hConfined).2]
    exact hHeld
  · exact ⟨mayWork_outside ⟨leaseId, hHeld, Or.inr hGives⟩, fun _ => hHeld⟩

theorem endsWithin_endsLease (leaseId : LeaseIdType) (pk : PrimaryKeyType) :
    EndsWithin (EndsLease leaseId) leaseId pk where
  find := ⟨rfl, Or.inl trivial⟩
  emit _ := ⟨rfl, Or.inl trivial⟩
  release _ _ := ⟨rfl, Or.inr ⟨_, _, _, rfl, rfl, Or.inl ⟨rfl, rfl⟩⟩⟩
  needsRepair _ _ _ := ⟨rfl, Or.inr ⟨_, _, _, rfl, rfl, Or.inr ⟨rfl, rfl⟩⟩⟩

theorem confined_settleLease {work : Js (LeaseExitState α)} (hWork : Confined work) :
    Confined (settleLease work) :=
  Promise.uses_handle hWork fun _ => Promise.uses_resolve _

/-- The work of a lease runner, and then the end of its lease. -/
private theorem tenancy_workAndClose {sched : ScheduledJobDataModel}
    {work : Js (LeaseExitState α)} (hWork : Confined work)
    (hLeaseId : tenure.leaseId = some leaseId) (hJob : tenure.job ≠ none)
    (hOpen : tenure.stopped = false) :
    (inScope (.callback leaseId) (settleLease work) >>= fun result =>
      closeLease sched leaseId now result).Honors (tenancy request)
      (fun _ _ => True) (fun _ _ => True) tenure := by
  refine Promise.sat_bind.mpr ((tenancy_work rfl (confined_settleLease hWork) hLeaseId hJob
    hOpen).mono ?_ ?_)
  · rintro after result rfl
    exact (tenancy_ends ((endsWithin_endsLease _ _).uses_closeLease _ _) hLeaseId).mono
      (fun _ _ _ => trivial)
      fun _ _ _ => trivial
  · exact fun _ _ _ => trivial

/-! ### Taking a lease -/

/-- `leaseScheduledJob` grants the job, or leaves the tenure as it was. -/
private theorem tenancy_leaseScheduledJob {operation : ScheduleUpdateStateType}
    {taskPk : Option PrimaryKeyType} :
    (leaseAttempt request.node operation pk taskPk request.now leaseId).Honors
      (tenancy request)
      (fun after _ => after = { leaseId := some leaseId, job := some pk })
      (fun after _ => after = { leaseId := some leaseId })
      { leaseId := some leaseId } := by
  have hTakes : TakesLease request leaseId
      (leasePatch operation taskPk leaseId request.expires) notUpdating :=
    ⟨rfl, rfl, ⟨operation, rfl⟩, Or.inl rfl⟩
  refine Promise.sat_bind.mpr ((honors_updateSchedule _ _ _).mpr
    ⟨mayWork_outside ⟨leaseId, rfl, Or.inl ⟨rfl, hTakes⟩⟩, fun count => ?_, fun e => rfl⟩)
  have hRead : ∀ {held : Tenure} (reply : Except JsError (List ScheduledJobDataModel)),
      (tenancy request).next held (outside (.findSchedules 0 1 (sjPkEquals pk))) reply =
        held := by
    intro held reply
    exact held.next_of_confined (show Act.Confined (.findSchedules ..) from trivial) reply
  -- The rest only reads the job, whatever was granted.
  have hRest : ∀ held : Tenure, held.leaseId = some leaseId →
      (rejectUnlessUpdated pk (fun job => JsError.leaseNotObtained leaseId job job.leaseOwner
        job.leaseExpires) count).Honors (tenancy request)
      (fun after _ => 0 < count ∧ after = held)
      (fun after _ => count = 0 ∧ after = held) held := by
    intro held hHeld
    unfold rejectUnlessUpdated
    split
    · rename_i hCount
      exact ⟨hCount, rfl⟩
    · have hNone : count = 0 := by omega
      refine Promise.sat_bind.mpr ((honors_findSchedules _ _ _).mpr
        ⟨mayWork_outside trivial, fun rows => ?_, fun e => ⟨hNone, hRead _⟩⟩)
      cases rows with
      | nil => exact ⟨hNone, hRead _⟩
      | cons row rest => exact ⟨hNone, hRead _⟩
  cases count with
  | zero =>
      refine (hRest { leaseId := some leaseId } rfl).mono ?_ ?_
      · exact fun after _ hAfter => absurd hAfter.1 (by omega)
      · exact fun after _ hAfter => hAfter.2
  | succ count =>
      refine (hRest { leaseId := some leaseId, job := some pk } rfl).mono ?_ ?_
      · exact fun after _ hAfter => hAfter.2
      · exact fun after _ hAfter => absurd hAfter.1 (by omega)

theorem tenancy_runUpdateInLease {operation : ScheduleUpdateStateType}
    {taskPk : Option PrimaryKeyType} {withLease : ConfinedWork α} :
    (runUpdateInLease request.node operation pk taskPk request.now withLease.run).Honors
      (tenancy request) (fun _ _ => True) (fun _ _ => True) {} := by
  refine Promise.sat_bind.mpr (honors_leaseOwnerStrategy.mpr
    ⟨mayWork_outside rfl, fun leaseId => ?_⟩)
  refine Promise.sat_bind.mpr ((honors_retryLease (fun _ => tenancy_confined trivial)
    tenancy_leaseScheduledJob _).mono ?_ fun _ _ _ => trivial)
  rintro after _ rfl
  refine Promise.sat_bind.mpr (Promise.sat_bind.mpr ((honors_findSchedules _ _ _).mpr
    ⟨mayWork_outside trivial, fun rows => ?_, fun _ => trivial⟩))
  cases rows with
  | nil => trivial
  | cons sched rest =>
      exact tenancy_workAndClose (withLease.confined sched leaseId) rfl
        (Option.some_ne_none pk) rfl

theorem tenancy_createScheduledJobAlone {scheduledJob : NewScheduledJob}
    {withLease : ConfinedWork α} :
    (createScheduledJobAlone request.node scheduledJob request.now withLease.run).Honors
      (tenancy request) (fun _ _ => True) (fun _ _ => True) {} := by
  refine Promise.sat_bind.mpr (honors_leaseOwnerStrategy.mpr
    ⟨mayWork_outside rfl, fun leaseId => ?_⟩)
  refine Promise.sat_bind.mpr (honors_createPrimaryKeyStrat.mpr
    ⟨mayWork_outside trivial, fun schedPk => ?_⟩)
  refine Promise.sat_bind.mpr (honors_createPrimaryKeyStrat.mpr
    ⟨mayWork_outside trivial, fun createdTaskPk => ?_⟩)
  -- When the row was not created there is no lease to give up; the source tries all
  -- the same.
  have hHandled : ∀ {tenure : Tenure} (e : JsError), tenure.leaseId = some leaseId →
      ((markLeasedScheduledJobNeedsRepair schedPk leaseId request.now false none).handle
          (fun e2 => emit (.generalError e2) >>= fun _ => Promise.reject e) >>=
        fun _ => (Promise.reject e : Js (LeaseExitState α))).Honors (tenancy request)
        (fun _ _ => False) (fun _ _ => True) tenure :=
    fun e hLeaseId => Promise.sat_bind.mpr (Promise.sat_handle.mpr
      ((tenancy_ends ((endsWithin_endsLease _ _).uses_needsRepair _ _ _) hLeaseId).mono
        (fun _ _ _ => trivial) fun _ _ _ => Promise.sat_bind.mpr ((honors_emit _).mpr
          ⟨mayWork_outside trivial, fun _ => trivial⟩)))
  refine Promise.sat_bind.mpr (Promise.sat_handle.mpr (Promise.sat_bind.mpr
    ((honors_createSchedule _).mpr ⟨mayWork_outside ?_, fun _ => ?_, fun e => ?_⟩)))
  · exact ⟨rfl, Option.some_ne_none _, rfl, Option.some_ne_none leaseId, rfl⟩
  · refine (tenancy_work rfl (confined_settleLease (withLease.confined _ _)) ?_ ?_ ?_).mono
      ?_ ?_
    · rfl
    · exact Option.some_ne_none schedPk
    · rfl
    · rintro after result rfl
      exact (tenancy_ends ((endsWithin_endsLease _ _).uses_closeLease _ _) rfl).mono
        (fun _ _ _ => trivial)
        fun _ _ _ => trivial
    · rintro after e rfl
      exact (hHandled e rfl).mono (fun _ _ hFalse => hFalse.elim) fun _ _ _ => trivial
  · exact (hHandled e rfl).mono (fun _ _ hFalse => hFalse.elim) fun _ _ _ => trivial

/-- A repair reads tasks and emits events. -/
theorem confined_performRepair (schedule : ScheduledJobDataModel) :
    Confined (performRepair schedule) := by
  have hTasks : ∀ states : List TaskStateType, Confined
      (getTasksForScheduledJob schedule.toScheduledJobModel states taskFetchLimit) :=
    fun states => Promise.uses_perform (by trivial) _
  unfold performRepair
  split
  · unfold repairAddTask
    split
    · exact Promise.uses_resolve _
    · split
      · refine Promise.uses_bind (hTasks _) fun tasks => ?_
        split
        · exact Promise.uses_resolve _
        · exact Promise.uses_reject _
      · exact Promise.uses_bind (hTasks _) fun _ => Promise.uses_reject _
  · repeat' first
      | exact Promise.uses_reject _
      | split
    exact Promise.uses_bind (Promise.uses_perform (by trivial) _) fun _ =>
      Promise.uses_resolve _

theorem tenancy_repairExpiredSchedule {srcSchedule : ScheduledJobModel}
    (hCall : request.call = .repairExpiredSchedule srcSchedule) :
    (repairExpiredSchedule request.node srcSchedule request.now).Honors (tenancy request)
      (fun _ _ => True) (fun _ _ => True) {} := by
  -- whatever state it repairs, the patch takes an expired lease
  have hTakes : ∀ leaseId repairState, TakesLease request leaseId
      (repairPatch leaseId request.expires repairState) (leaseExpiredBefore request.now) :=
    fun leaseId repairState =>
      ⟨rfl, rfl, ⟨.repair, rfl⟩, Or.inr ⟨⟨srcSchedule, hCall⟩, rfl⟩⟩
  refine Promise.sat_bind.mpr (honors_leaseOwnerStrategy.mpr
    ⟨mayWork_outside rfl, fun leaseId => ?_⟩)
  refine Promise.sat_bind.mpr (Promise.sat_bind.mpr (Promise.sat_bind.mpr
    ((honors_findSchedules _ _ _).mpr
      ⟨mayWork_outside trivial, fun rows => ?_, fun _ => trivial⟩)))
  cases rows with
  | nil => trivial
  | cons src rest =>
      refine Promise.sat_bind.mpr ((honors_updateSchedule _ _ _).mpr
        ⟨mayWork_outside ⟨leaseId, rfl, Or.inl ⟨rfl, hTakes leaseId _⟩⟩,
          fun count => ?_, fun _ => trivial⟩)
      refine Promise.sat_bind.mpr ((honors_findSchedules _ _ _).mpr
        ⟨mayWork_outside trivial, fun jobs => ?_, fun _ => trivial⟩)
      cases jobs with
      | nil => trivial
      | cons job rest =>
          cases count with
          | zero => trivial
          | succ count =>
              have hRelease : ∀ {tenure : Tenure} {pasture : Bool} {reason : Option String},
                  tenure.leaseId = some leaseId →
                  (releaseScheduledJobLease leaseId srcSchedule.pk pasture reason).Honors
                    (tenancy request) (fun after _ => after.leaseId = some leaseId)
                    (fun after _ => after.leaseId = some leaseId) tenure :=
                fun hLeaseId =>
                  tenancy_ends ((endsWithin_endsLease _ _).uses_release _ _) hLeaseId
              have hHandled : ∀ {tenure : Tenure} (e : JsError),
                  tenure.leaseId = some leaseId →
                  (releaseScheduledJobLease leaseId srcSchedule.pk true
                      (some (e.text request.node.zone)) >>= fun _ =>
                    emit (.generalError e)).Honors (tenancy request) (fun _ _ => True)
                    (fun _ _ => True) tenure :=
                fun e hLeaseId => Promise.sat_bind.mpr ((hRelease hLeaseId).mono
                  (fun _ _ _ => (honors_emit _).mpr
                    ⟨mayWork_outside trivial, fun _ => trivial⟩)
                  fun _ _ _ => trivial)
              refine Promise.sat_handle.mpr (Promise.sat_bind.mpr
                ((tenancy_work rfl (confined_performRepair job) rfl
                  (Option.some_ne_none srcSchedule.pk) rfl).mono ?_ ?_))
              · rintro after exitBehavior rfl
                exact (hRelease rfl).mono (fun _ _ _ => trivial)
                  fun _ e hLeaseId => hHandled e hLeaseId
              · rintro after e rfl
                exact hHandled e rfl

/-- **Every lease runner follows its protocol**, whatever its work does. -/
theorem LeaseRequest.honors_tenancy (request : LeaseRequest α) :
    request.program.Honors (tenancy request) (fun _ _ => True) (fun _ _ => True) {} := by
  obtain ⟨node, now, call⟩ := request
  cases call with
  | createScheduledJobAlone scheduledJob withLease => exact tenancy_createScheduledJobAlone
  | runUpdateInLease operation pk taskPk withLease => exact tenancy_runUpdateInLease
  | repairExpiredSchedule srcSchedule =>
      exact Promise.sat_bind.mpr ((tenancy_repairExpiredSchedule rfl).mono
        (fun _ _ _ => trivial) fun _ _ _ => trivial)

end Conformance

end TernScheduler
