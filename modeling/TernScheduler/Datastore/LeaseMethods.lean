import TernScheduler.Datastore.Contract
import TernScheduler.Datastore.Effects
import TernScheduler.Library.Sessions
import TernScheduler.System

/-!
# The lease methods of the data store, by themselves

Any number of nodes call the five methods that write the lease columns, with
whatever arguments, and the table calls of all of them interleave.

* `leaseMethods` is the system of such calls over one database.
* `MethodState` is what a call has done, and `methodProtocol` what it may still do.
* `MethodMoves` is the inversion of a step: a call writes the row it names in the
  way its method does, or the schedule table stays as it is.
-/

namespace TernScheduler

open Interleaving Database

/-! ## The calls -/

/-- A method that writes lease columns, and the arguments only it takes.  A job is
added as `createScheduledJobAlone` adds it. -/
inductive LeaseMethod
  | addScheduledJobModel (scheduledJob : NewScheduledJob)
      (schedPk createdTaskPk : PrimaryKeyType)
  | leaseScheduledJob (jobPk : PrimaryKeyType)
      (updateOperation : ScheduleUpdateStateType) (updateTaskPk : Option PrimaryKeyType)
  | releaseScheduledJobLease (jobPk : PrimaryKeyType) (pasture : Bool)
      (pastureReason : Option String)
  | repairExpiredLeaseForScheduledJob (jobPk : PrimaryKeyType)
  | markLeasedScheduledJobNeedsRepair (jobPk : PrimaryKeyType) (pasture : Bool)
      (pastureReason : Option String)

/-- A call of a method by a node, with the arguments the methods share. -/
structure MethodCall where
  zone : TimeZone
  leaseId : LeaseIdType
  now : Date
  leaseTimeSeconds : Int
  method : LeaseMethod

namespace MethodCall

/-- The job a call is about. -/
def jobPk (call : MethodCall) : PrimaryKeyType :=
  match call.method with
  | .addScheduledJobModel _ schedPk _ => schedPk
  | .leaseScheduledJob jobPk _ _ => jobPk
  | .releaseScheduledJobLease jobPk _ _ => jobPk
  | .repairExpiredLeaseForScheduledJob jobPk => jobPk
  | .markLeasedScheduledJobNeedsRepair jobPk _ _ => jobPk

/-- The call asks for a lease under its own id. -/
def takes (call : MethodCall) : Bool :=
  match call.method with
  | .addScheduledJobModel .. | .leaseScheduledJob .. => true
  | .repairExpiredLeaseForScheduledJob _ => true
  | _ => false

/-- The expiry a call writes with a lease. -/
def expires (call : MethodCall) : Date :=
  updateDate call.zone call.now call.leaseTimeSeconds

/-- The program of a call.  Only a repair resolves with a value. -/
def program (call : MethodCall) : Js (Option ScheduledJobDataModel) :=
  match call.method with
  | .addScheduledJobModel scheduledJob schedPk createdTaskPk => do
      addScheduledJobModel call.zone
        (newScheduledJobModel scheduledJob call.now schedPk createdTaskPk) call.leaseId call.now
        call.leaseTimeSeconds
      pure none
  | .leaseScheduledJob jobPk updateOperation updateTaskPk => do
      leaseScheduledJob call.zone jobPk updateOperation updateTaskPk call.leaseId call.now
        call.leaseTimeSeconds
      pure none
  | .releaseScheduledJobLease jobPk pasture pastureReason => do
      releaseScheduledJobLease call.leaseId jobPk pasture pastureReason
      pure none
  | .repairExpiredLeaseForScheduledJob jobPk =>
      repairExpiredLeaseForScheduledJob call.zone jobPk call.leaseId call.now
        call.leaseTimeSeconds
  | .markLeasedScheduledJobNeedsRepair jobPk pasture pastureReason => do
      markLeasedScheduledJobNeedsRepair jobPk call.leaseId call.now pasture pastureReason
      pure none

end MethodCall

/-- What a finished call leaves. -/
abbrev MethodResult : Type := Except JsError (Option ScheduledJobDataModel)

/-- The lease methods over one database. -/
def leaseMethods (reading : BeforeDateReading) :
    System signature Database MethodCall MethodResult :=
  overDatabase reading MethodCall.program

/-- A state of the system. -/
abbrev MethodPool := Pool signature Database MethodCall MethodResult

/-! ## The protocol of a call -/

/-- The row a call last read, and whether its write was applied. -/
structure MethodState where
  read : Option ScheduledJobDataModel := none
  written : Bool := false

/-- The state after one more operation. -/
def MethodState.next (state : MethodState) : (act : Act) → act.Reply → MethodState
  | .findSchedules .., .ok (row :: _) => { state with read := some row }
  | .createSchedule _, .ok _ => { state with written := true }
  | .updateSchedule .., .ok (_ + 1) => { state with written := true }
  | _, _ => state

/-- The update a method makes. -/
def MayUpdate (call : MethodCall) (state : MethodState) (newValues : ScheduledJobPatch)
    (conditional : Conditional ScheduledJobColumn) : Prop :=
  match call.method with
  | .addScheduledJobModel .. => False
  | .leaseScheduledJob _ updateOperation updateTaskPk =>
      newValues = leasePatch updateOperation updateTaskPk call.leaseId call.expires ∧
        conditional = notUpdating
  | .releaseScheduledJobLease _ pasture pastureReason =>
      newValues = releasePatch pasture pastureReason ∧ conditional = leasedBy call.leaseId
  | .repairExpiredLeaseForScheduledJob _ =>
      ∃ src, state.read = some src ∧
        newValues = repairPatch call.leaseId call.expires (previousState src) ∧
        conditional = leaseExpiredBefore call.now
  | .markLeasedScheduledJobNeedsRepair _ pasture pastureReason =>
      newValues = needsRepairPatch call.now pasture pastureReason ∧
        conditional = leasedBy call.leaseId

/-- What a call may do: write once, and read the job it is about; a call that only
writes has nothing left to do once its write was applied. -/
def MethodMay (call : MethodCall) (state : MethodState) : Act → Prop
  | .createSchedule row =>
      state.written = false ∧ ∃ scheduledJob schedPk createdTaskPk,
        call.method = .addScheduledJobModel scheduledJob schedPk createdTaskPk ∧
          row = leasedRow call.zone
            (newScheduledJobModel scheduledJob call.now schedPk createdTaskPk)
            call.leaseId call.now call.leaseTimeSeconds
  | .updateSchedule pk newValues conditional =>
      state.written = false ∧ pk = call.jobPk ∧ MayUpdate call state newValues conditional
  | .findSchedules startIndex maximumRecordCount conditional =>
      startIndex = 0 ∧ maximumRecordCount = 1 ∧ conditional = sjPkEquals call.jobPk ∧
        (call.takes = false → state.written = false)
  | _ => False

/-- The protocol of a call. -/
def methodProtocol (call : MethodCall) : Protocol signature MethodState where
  next state operation reply := state.next operation.act reply
  may state operation := MethodMay call state operation.act

/-- What a call has done when it settles: a call that gives a lease up resolves only
when its write was applied. -/
def MethodSettles (call : MethodCall) (state : MethodState) (result : MethodResult) :
    Prop :=
  ∀ value, result = .ok value → call.takes = false → state.written = true

section Conformance

variable {call : MethodCall} {state : MethodState}

/-- The tail of the updates: nothing is left to do when the row was written, and the
call is rejected otherwise. -/
private theorem honors_methodTail {leaseError : ScheduledJobDataModel → JsError}
    {count : Nat} (hWritten : state.written = decide (0 < count)) :
    (rejectUnlessUpdated call.jobPk leaseError count).Honors (methodProtocol call)
      (fun after _ => after.written = true) (fun _ _ => True) state := by
  unfold rejectUnlessUpdated
  split
  · rename_i hCount
    exact hWritten.trans (decide_eq_true hCount)
  · rename_i hCount
    refine Promise.sat_bind.mpr ((honors_findSchedules _ _ _).mpr
      ⟨⟨rfl, rfl, rfl, fun _ => hWritten.trans (decide_eq_false hCount)⟩,
        fun rows => ?_, fun _ => trivial⟩)
    cases rows <;> trivial

/-- A method that makes one update of the job it is about. -/
private theorem honors_methodUpdate {newValues : ScheduledJobPatch}
    {conditional : Conditional ScheduledJobColumn}
    {leaseError : ScheduledJobDataModel → JsError}
    (hMay : MayUpdate call state newValues conditional) (hOpen : state.written = false) :
    (updateSchedule call.jobPk newValues conditional >>=
      rejectUnlessUpdated call.jobPk leaseError).Honors (methodProtocol call)
      (fun after _ => after.written = true) (fun _ _ => True) state := by
  refine Promise.sat_bind.mpr ((honors_updateSchedule _ _ _).mpr
    ⟨⟨hOpen, rfl, hMay⟩, fun count => ?_, fun _ => trivial⟩)
  cases count with
  | zero => exact honors_methodTail (hOpen.trans (by simp))
  | succ count => exact honors_methodTail (by simp [methodProtocol, MethodState.next])

/-- **Every call follows its protocol.** -/
theorem MethodCall.honors_protocol (call : MethodCall) :
    call.program.Honors (methodProtocol call)
      (fun after value => MethodSettles call after (.ok value))
      (fun after e => MethodSettles call after (.error e)) {} := by
  -- a rejected method settles nothing
  have hRejected : ∀ (after : MethodState) (e : JsError),
      MethodSettles call after (.error e) := fun after e value hOk => by cases hOk
  obtain ⟨zone, leaseId, now, leaseTimeSeconds, method⟩ := call
  cases method with
  | addScheduledJobModel scheduledJob schedPk createdTaskPk =>
      refine Promise.sat_bind.mpr ((honors_createSchedule _).mpr
        ⟨⟨rfl, scheduledJob, schedPk, createdTaskPk, rfl, rfl⟩,
          fun _ => ?_, fun e => hRejected _ e⟩)
      exact fun _ _ hTakes => by cases hTakes
  | leaseScheduledJob jobPk updateOperation updateTaskPk =>
      refine Promise.sat_bind.mpr (Promise.Sat.mono (honors_methodUpdate ?_ rfl)
        (fun after _ hWritten _ _ _ => hWritten) fun after e _ => hRejected after e)
      exact ⟨rfl, rfl⟩
  | releaseScheduledJobLease jobPk pasture pastureReason =>
      refine Promise.sat_bind.mpr (Promise.Sat.mono (honors_methodUpdate ?_ rfl)
        (fun after _ hWritten _ _ _ => hWritten) fun after e _ => hRejected after e)
      exact ⟨rfl, rfl⟩
  | markLeasedScheduledJobNeedsRepair jobPk pasture pastureReason =>
      refine Promise.sat_bind.mpr (Promise.Sat.mono (honors_methodUpdate ?_ rfl)
        (fun after _ hWritten _ _ _ => hWritten) fun after e _ => hRejected after e)
      exact ⟨rfl, rfl⟩
  | repairExpiredLeaseForScheduledJob jobPk =>
      have hSettles : ∀ (after : MethodState) (result : MethodResult), MethodSettles
          ⟨zone, leaseId, now, leaseTimeSeconds, .repairExpiredLeaseForScheduledJob jobPk⟩
          after result := fun _ _ _ _ hTakes => by cases hTakes
      refine Promise.sat_bind.mpr (Promise.sat_bind.mpr ((honors_findSchedules _ _ _).mpr
        ⟨⟨rfl, rfl, rfl, fun hTakes => by cases hTakes⟩, fun rows => ?_,
          fun e => hRejected _ e⟩))
      cases rows with
      | nil => exact hSettles _ _
      | cons src rest =>
          refine Promise.sat_bind.mpr ((honors_updateSchedule _ _ _).mpr
            ⟨⟨rfl, rfl, src, rfl, rfl, rfl⟩, fun count => ?_, fun e => hRejected _ e⟩)
          refine Promise.sat_bind.mpr ((honors_findSchedules _ _ _).mpr
            ⟨⟨rfl, rfl, rfl, fun hTakes => by cases hTakes⟩, fun jobs => ?_,
              fun e => hRejected _ e⟩)
          cases jobs with
          | nil => exact hRejected _ _
          | cons job rest =>
              show Promise.Honors _ _ _ _ (if count > 0 then _ else _)
              split <;> exact hSettles _ _

end Conformance

/-! ## Steps -/

/-- How a method writes the row it is about. -/
inductive RowWrite (reading : BeforeDateReading) (call : MethodCall) (state : MethodState) :
    Option ScheduledJobDataModel → ScheduledJobDataModel → Prop
  | added (scheduledJob : NewScheduledJob) (schedPk createdTaskPk : PrimaryKeyType)
      (hMethod : call.method =
        .addScheduledJobModel scheduledJob schedPk createdTaskPk) :
      RowWrite reading call state none
        (leasedRow call.zone
          (newScheduledJobModel scheduledJob call.now schedPk createdTaskPk) call.leaseId
          call.now call.leaseTimeSeconds)
  | leased (jobPk : PrimaryKeyType) (updateOperation : ScheduleUpdateStateType)
      (updateTaskPk : Option PrimaryKeyType) (old : ScheduledJobDataModel)
      (hMethod : call.method = .leaseScheduledJob jobPk updateOperation updateTaskPk)
      (hFree : old.updateState = none) :
      RowWrite reading call state (some old)
        ((leasePatch updateOperation updateTaskPk call.leaseId call.expires).apply old)
  | released (jobPk : PrimaryKeyType) (pasture : Bool) (pastureReason : Option String)
      (old : ScheduledJobDataModel)
      (hMethod : call.method = .releaseScheduledJobLease jobPk pasture pastureReason)
      (hHeld : old.updateState ≠ none) (hOwner : old.leaseOwner = some call.leaseId) :
      RowWrite reading call state (some old)
        ((releasePatch pasture pastureReason).apply old)
  | repaired (jobPk : PrimaryKeyType) (src old : ScheduledJobDataModel) (expires : Date)
      (hMethod : call.method = .repairExpiredLeaseForScheduledJob jobPk)
      (hRead : state.read = some src) (hHeld : old.updateState ≠ none)
      (hExpires : old.leaseExpires = some expires)
      (hExpired : reading call.now expires = true) :
      RowWrite reading call state (some old)
        ((repairPatch call.leaseId call.expires (previousState src)).apply old)
  | marked (jobPk : PrimaryKeyType) (pasture : Bool) (pastureReason : Option String)
      (old : ScheduledJobDataModel)
      (hMethod : call.method =
        .markLeasedScheduledJobNeedsRepair jobPk pasture pastureReason)
      (hHeld : old.updateState ≠ none) (hOwner : old.leaseOwner = some call.leaseId) :
      RowWrite reading call state (some old)
        ((needsRepairPatch call.now pasture pastureReason).apply old)

/-- What an operation of a call does to the schedule table. -/
inductive MethodEffect (reading : BeforeDateReading) (call : MethodCall)
    (state : MethodState) (db after : Database) (act : Act) (reply : act.Reply) : Prop
  | kept (hWrote : ¬ act.WroteSchedule reply)
      (hWritten : (state.next act reply).written = state.written)
      (hJobs : ∀ pk, after.job pk = db.job pk)
  | wrote (row : ScheduledJobDataModel) (hWrote : act.WroteSchedule reply)
      (hOpen : state.written = false) (hWritten : (state.next act reply).written = true)
      (hRow : RowWrite reading call state (db.job call.jobPk) row)
      (hJobs : ∀ pk, after.job pk = if pk = call.jobPk then some row else db.job pk)

variable {reading : BeforeDateReading} {call : MethodCall} {state : MethodState}

/-- Only a write changes whether the write was applied. -/
theorem MethodState.written_next {act : Act} {reply : act.Reply}
    (hNone : ¬ act.WroteSchedule reply) : (state.next act reply).written = state.written := by
  cases act with
  | createSchedule row =>
      cases reply with
      | ok done => exact absurd trivial hNone
      | error e => rfl
  | updateSchedule pk newValues conditional =>
      rcases reply with e | _ | count
      · rfl
      · rfl
      · exact absurd trivial hNone
  | findSchedules startIndex maximumRecordCount conditional =>
      rcases reply with e | _ | ⟨row, rest⟩ <;> rfl
  | _ => rfl

/-- **Inversion of an operation of a call.** -/
theorem MethodMay.effect {act : Act} {reply : act.Reply} {db after : Database}
    (hMay : MethodMay call state act) (hExec : Exec reading db act reply after) :
    MethodEffect reading call state db after act reply := by
  cases hExec.scheduleEffect with
  | kept hNone hJobs => exact .kept hNone (MethodState.written_next hNone) hJobs
  | created row hAbsent hJobs =>
      obtain ⟨hOpen, scheduledJob, schedPk, createdTaskPk, hMethod, rfl⟩ := hMay
      have hPk : call.jobPk = schedPk := by
        unfold MethodCall.jobPk
        rw [hMethod]
      refine .wrote (leasedRow call.zone
        (newScheduledJobModel scheduledJob call.now schedPk createdTaskPk) call.leaseId call.now
        call.leaseTimeSeconds) trivial hOpen rfl ?_ fun pk => ?_
      · rw [hPk, show db.job schedPk = none from hAbsent]
        exact .added scheduledJob schedPk createdTaskPk hMethod
      · rw [hJobs, hPk]
        rfl
  | updated pk newValues conditional count old hOld hHolds hJobs =>
      obtain ⟨hOpen, rfl, hUpdate⟩ := hMay
      refine .wrote _ trivial hOpen rfl ?_ hJobs
      rw [hOld]
      -- each method writes its own patch, under its own condition
      unfold MayUpdate at hUpdate
      split at hUpdate
      · exact hUpdate.elim
      · rename_i jobPk updateOperation updateTaskPk hMethod
        obtain ⟨rfl, rfl⟩ := hUpdate
        exact .leased jobPk updateOperation updateTaskPk old hMethod
          (holds_notUpdating.mp hHolds)
      · rename_i jobPk pasture pastureReason hMethod
        obtain ⟨rfl, rfl⟩ := hUpdate
        obtain ⟨hHeld, hOwner⟩ := (holds_leasedBy call.leaseId).mp hHolds
        exact .released jobPk pasture pastureReason old hMethod hHeld hOwner
      · rename_i jobPk hMethod
        obtain ⟨src, hRead, rfl, rfl⟩ := hUpdate
        obtain ⟨hHeld, expires, hExpires, hExpired⟩ :=
          (holds_leaseExpiredBefore call.now).mp hHolds
        exact .repaired jobPk src old expires hMethod hRead hHeld hExpires hExpired
      · rename_i jobPk pasture pastureReason hMethod
        obtain ⟨rfl, rfl⟩ := hUpdate
        obtain ⟨hHeld, hOwner⟩ := (holds_leasedBy call.leaseId).mp hHolds
        exact .marked jobPk pasture pastureReason old hMethod hHeld hOwner

/-- The call and the state of a call of the pool. -/
def methodOf (pool : MethodPool) (pid : Nat) : Option (MethodCall × MethodState) :=
  pool.stateOf methodProtocol (fun _ => {}) pid

variable {A : RunCondition signature Database MethodCall MethodResult}
  {first pool pool' : MethodPool} {event : Event signature Database MethodCall}

/-- What is left of a call follows its protocol. -/
theorem protocol_of_run (hRun : Run (leaseMethods reading) A first pool)
    (hIdle : first.Idle) :
    pool.Honors methodProtocol (fun _ => {})
      fun call after result => MethodSettles call after result := by
  refine hRun.honors (fun call => ?_) hIdle
  refine Prog.Sat.mono call.honors_protocol fun after result hAfter => ?_
  cases result with
  | ok value => exact hAfter
  | error e => exact hAfter

theorem moves_of_method (hRun : Run (leaseMethods reading) A first pool)
    (hIdle : first.Idle) (hStep : Step (leaseMethods reading) pool event pool') :
    pool.Moves (leaseMethods reading) methodProtocol (fun _ => {}) event pool' :=
  hStep.moves (hRun.logOwned hIdle) (protocol_of_run hRun hIdle)

end TernScheduler
