import TernScheduler.Controller.Tenure
import TernScheduler.Datastore.Watched

/-!
# Lease runners, watched

What `createScheduledJobAlone` and `runUpdateInLease` leave of the row of their job, when
no other node takes the lease over.

* `meets_closeLease` is the spec of their common end: the row is released after a value
  and marked as needing repair after an error, and the promise settles accordingly.
* `meets_retries` is the rule of the retry loop.
* `Surroundings.respond` answers the operations of one concrete run.
-/

namespace TernScheduler

open Interleaving Database

variable {around : Surroundings} {seen : Seen} {leaseId : LeaseIdType}
  {row : ScheduledJobDataModel} {α : Type}

/-- The surroundings serve the closing writes of the lease. -/
def Surroundings.Closes (around : Surroundings) (leaseId : LeaseIdType)
    (pk : PrimaryKeyType) : Prop :=
  ∀ newValues, around.Serves none (.updateSchedule pk newValues (leasedBy leaseId))

theorem meets_emit {scope : Option Scope} {event : SchedulerEvent}
    {resolved : Seen → Unit → Prop} {rejected : Seen → JsError → Prop}
    (hDone : ∀ before, around.others seen.shared before →
      resolved (Seen.step seen scope (.emit event) () before) ()) :
    Meets around scope resolved rejected seen (emit event) :=
  meets_environment id fun before _ hOthers _ => hDone before hOthers

theorem meets_emitIfPastured {sched : ScheduledJobDataModel} {pasture : Bool}
    {rejected : Seen → JsError → Prop} (hHeld : Held leaseId row seen.shared)
    (hSpares : around.Spares leaseId row.pk) :
    Meets around none (fun after _ => Held leaseId row after.shared) rejected seen
      (emitIfPastured sched pasture) := by
  cases pasture with
  | false => exact hHeld
  | true => exact meets_emit fun before hOthers => hHeld.kept hSpares hOthers

/-- The row as the end of a lease leaves it. -/
def closedRow (now : Date) (row : ScheduledJobDataModel) (result : LeaseExitState α) :
    ScheduledJobDataModel :=
  match result.asError with
  | some _ => (needsRepairPatch now result.pasture result.pastureReason).apply row
  | none => (releasePatch result.pasture result.pastureReason).apply row

/-- Ending a lease closes the row, whatever the work ended with. -/
theorem meets_endLease {sched : ScheduledJobDataModel} {now : Date}
    {result : LeaseExitState α} {rejected : Seen → JsError → Prop}
    (hHeld : Held leaseId row seen.shared) (hPk : sched.pk = row.pk)
    (hSpares : around.Spares leaseId row.pk) (hCloses : around.Closes leaseId row.pk) :
    Meets around none
      (fun after _ => after.shared.job row.pk = some (closedRow now row result)) rejected seen
      (endLease sched leaseId now result) := by
  unfold endLease closedRow
  rw [hPk]
  cases result.asError with
  | some error =>
      simp only [JsError.not_instanceOf_invalidScheduleDefinition, Bool.false_eq_true, if_false]
      refine Promise.sat_bind.mpr ((meets_emitIfPastured hHeld hSpares).mono ?_ fun _ _ h => h)
      intro after _ hAfter
      refine meets_markLeasedScheduledJobNeedsRepair hAfter hSpares hCloses ?_
      intro before last count _ hJobs _
      exact (hJobs row.pk).trans (if_pos rfl)
  | none =>
      refine Promise.sat_bind.mpr ((meets_emitIfPastured hHeld hSpares).mono ?_ fun _ _ h => h)
      intro after _ hAfter
      refine meets_releaseScheduledJobLease hAfter hSpares hCloses ?_
      intro before last count _ hJobs _
      exact (hJobs row.pk).trans (if_pos rfl)

/-- **The end of a lease.**  The row is closed, and the promise settles as the work did. -/
theorem meets_closeLease {sched : ScheduledJobDataModel} {now : Date}
    {result : LeaseExitState α} (hHeld : Held leaseId row seen.shared)
    (hPk : sched.pk = row.pk) (hSpares : around.Spares leaseId row.pk)
    (hCloses : around.Closes leaseId row.pk) :
    Meets around none
      (fun after value => result.asError = none ∧ value = result.result ∧
        after.shared.job row.pk = some (closedRow now row result))
      (fun after reason => result.asError = some reason ∧
        after.shared.job row.pk = some (closedRow now row result))
      seen (closeLease sched leaseId now result) := by
  unfold closeLease
  have hEnd : Meets around none
      (fun after _ => after.shared.job row.pk = some (closedRow now row result))
      (fun _ _ => False) seen (endLease sched leaseId now result) :=
    meets_endLease hHeld hPk hSpares hCloses
  refine Promise.sat_bind.mpr (Promise.sat_handle.mpr (hEnd.mono ?_ fun _ _ => False.elim))
  intro after _ hClosed
  cases hError : result.asError with
  | some reason => exact ⟨rfl, hClosed⟩
  | none => exact ⟨rfl, rfl, hClosed⟩

/-- The retry loop: what a granted attempt ensures, and what a refused one keeps while the
delay is waited for. -/
theorem meets_retries {attempt : Js Unit} {resolved : Seen → Unit → Prop} {I : Seen → Prop}
    (hAttempt : ∀ seen, I seen →
      Meets around none resolved (fun after _ => I after) seen attempt)
    (hDelay : ∀ seen before delaySeconds, I seen → around.others seen.shared before →
      I (Seen.step seen none (.retryDelay delaySeconds) () before))
    (delays : List Int) {previous : Js Unit}
    (h : Meets around none resolved (fun after _ => I after) seen previous) :
    Meets around none resolved (fun after _ => I after) seen
      (delays.foldl (retryLease attempt) previous) := by
  induction delays generalizing previous with
  | nil => exact h
  | cons delaySeconds delays ih =>
      -- A refused attempt is caught, and the next one starts after the delay.
      refine ih (Promise.sat_handle.mpr (Promise.sat_handle.mpr (h.mono (fun _ _ h => h) ?_)))
      intro refused _ hRefused
      refine Promise.sat_bind.mpr (meets_environment id fun before _ hOthers _ => ?_)
      exact hAttempt _ (hDelay refused before delaySeconds hRefused hOthers)

/-! ## Obtaining the lease -/

/-- The work of a launch: an operation that no lease attempt performs. -/
def Act.IsWork : Act → Prop
  | .createTask _ | .updateTask .. | .startJob .. => True
  | _ => False

/-- Nothing was done under a lease. -/
def NothingLeased (record : List (Exchange signature)) : Prop :=
  ∀ exchange ∈ record, exchange.1.scope = .outside

theorem NothingLeased.step {act : Act} {reply : act.Reply} {after : Database}
    (h : NothingLeased seen.record) :
    NothingLeased (Seen.step seen none act reply after).record := by
  intro exchange hMem
  rcases List.mem_append.mp hMem with hOld | hNew
  · exact h exchange hOld
  · obtain rfl := List.mem_singleton.mp hNew
    rfl

/-- Nothing was written to the schedule table, and no work was done. -/
def InVain (record : List (Exchange signature)) : Prop :=
  ∀ exchange ∈ record, ¬ exchange.1.act.WroteSchedule exchange.2 ∧ ¬ exchange.1.act.IsWork

theorem InVain.step {act : Act} {reply : act.Reply} {scope : Option Scope} {after : Database}
    (h : InVain seen.record) (hWrote : ¬ act.WroteSchedule reply) (hWork : ¬ act.IsWork) :
    InVain (Seen.step seen scope act reply after).record := by
  intro exchange hMem
  rcases List.mem_append.mp hMem with hOld | hNew
  · exact h exchange hOld
  · obtain rfl := List.mem_singleton.mp hNew
    exact ⟨hWrote, hWork⟩

section Lease

variable {node : Node} {updateOperation : ScheduleUpdateStateType} {jobPk : PrimaryKeyType}
  {updateTaskPk : Option PrimaryKeyType} {now : Date}

/-- The row of a job as a lease attempt writes it. -/
def grantedRow (node : Node) (updateOperation : ScheduleUpdateStateType)
    (updateTaskPk : Option PrimaryKeyType) (now : Date) (leaseId : LeaseIdType)
    (row : ScheduledJobDataModel) : ScheduledJobDataModel :=
  (leasePatch updateOperation updateTaskPk leaseId
    (updateDate node.zone now node.leaseBehavior.leaseTimeSeconds)).apply row

/-- A lease attempt leaves the job owned, or was made in vain. -/
theorem meets_leaseAttempt (hVain : InVain seen.record) (hNothing : NothingLeased seen.record) :
    Meets around none
      (fun after _ => NothingLeased after.record ∧ ∃ row, row.pk = jobPk ∧ Held leaseId
        (grantedRow node updateOperation updateTaskPk now leaseId row) after.shared)
      (fun after _ => InVain after.record ∧ NothingLeased after.record) seen
      (leaseAttempt node updateOperation jobPk updateTaskPk now leaseId) := by
  refine Promise.sat_bind.mpr (meets_ask fun before reply after hOthers hAllowed hExec => ?_)
  cases hExec.scheduleEffect with
  | kept hNone hJobs =>
      have hStep : InVain (Seen.step seen none _ reply after).record := hVain.step hNone id
      rcases reply with reason | _ | count
      · exact ⟨hStep, hNothing.step⟩
      · -- The job is looked up to say who owns it.
        refine Promise.sat_bind.mpr (meets_ask fun _ rows last _ _ _ => ?_)
        rcases rows with reason | _ | ⟨row, rest⟩ <;>
          exact ⟨hStep.step id id, hNothing.step.step⟩
      · exact absurd trivial hNone
  | updated _ _ _ count row hRow hHolds hJobs =>
      obtain rfl := pk_of_job hRow
      exact ⟨hNothing.step, row, rfl, (hJobs row.pk).trans (if_pos rfl),
        Option.some_ne_none updateOperation, rfl⟩

/-- All attempts leave the job owned, or were made in vain. -/
theorem meets_obtainLease (hVain : InVain seen.record) (hNothing : NothingLeased seen.record) :
    Meets around none
      (fun after _ => NothingLeased after.record ∧ ∃ row, row.pk = jobPk ∧ Held leaseId
        (grantedRow node updateOperation updateTaskPk now leaseId row) after.shared)
      (fun after _ => InVain after.record ∧ NothingLeased after.record) seen
      (node.leaseBehavior.retrySecondsDelay.foldl
        (retryLease (leaseAttempt node updateOperation jobPk updateTaskPk now leaseId))
        (leaseAttempt node updateOperation jobPk updateTaskPk now leaseId)) :=
  meets_retries (I := fun seen => InVain seen.record ∧ NothingLeased seen.record)
    (fun _ hSeen => meets_leaseAttempt hSeen.1 hSeen.2)
    (fun _ _ _ hSeen _ => ⟨hSeen.1.step id id, hSeen.2.step⟩) _ (meets_leaseAttempt hVain hNothing)

end Lease

/-! ## Work that leaves leases alone -/

/-- Confined work leaves the job owned. -/
theorem held_of_confined {scope : Option Scope} {work : Js α} (hWork : Confined work)
    (hHeld : Held leaseId row seen.shared) (hSpares : around.Spares leaseId row.pk) :
    Prog.Ensures (around.calls scope) (fun after _ => Held leaseId row after.shared) seen
      work := by
  refine Prog.Uses.ensures (I := fun seen : Seen => Held leaseId row seen.shared) ?_ hWork hHeld
  rintro seen ⟨given, act⟩ reply after hConfined hSeen ⟨⟨before, hOthers, -, hExec⟩, -⟩
  refine (hSeen.kept hSpares hOthers).of_not_wrote hExec ?_
  cases act with
  | createSchedule row => cases hConfined
  | updateSchedule pk newValues conditional => cases hConfined
  | _ => exact id

/-- The exit state of work that was run: a throw and a rejection become an error state. -/
def exitOf : Except JsError (LeaseExitState α) → LeaseExitState α
  | .ok exit => exit
  | .error reason => .error reason false none

/-- The end of a lease does nothing under it. -/
theorem ensures_closing {sched : ScheduledJobDataModel} {now : Date} {result : LeaseExitState α} :
    Prog.Ensures (around.calls none)
      (fun after _ => ∃ closing, after.record = seen.record ++ closing ∧ NothingLeased closing)
      seen (closeLease sched leaseId now result) :=
  have hWithin : EndsWithin (fun op : Operation => op.scope = .outside) leaseId sched.pk :=
    ⟨rfl, fun _ => rfl, fun _ _ => rfl, fun _ _ _ => rfl⟩
  ensures_recorded (hWithin.uses_closeLease now result) seen

/-- The end of a lease whose work ended with a result: the row is closed as the work ended,
and only the end of the lease was added to the record. -/
structure ClosedAs (now : Date) (row : ScheduledJobDataModel) (worked : Seen)
    (result : Except JsError (LeaseExitState α)) (after : Seen) : Prop where
  job : after.shared.job row.pk = some (closedRow now row (exitOf result))
  record : ∃ closing, after.record = worked.record ++ closing ∧ NothingLeased closing

/-- The work of a lease runner and the end of its lease: the promise settles as the work
did. -/
theorem meets_leasedWork {work : Js (LeaseExitState α)} {now : Date}
    {Ends : Seen → Except JsError (LeaseExitState α) → Prop}
    (hWork : Prog.Ensures (around.calls (some (.callback leaseId)))
      (fun after result => Held leaseId row after.shared ∧ Ends after result) seen work)
    (hSpares : around.Spares leaseId row.pk) (hCloses : around.Closes leaseId row.pk) :
    Meets around none
      (fun after value => ∃ worked result, Ends worked result ∧
        (exitOf result).asError = none ∧ value = (exitOf result).result ∧
        ClosedAs now row worked result after)
      (fun after reason => ∃ worked result, Ends worked result ∧
        (exitOf result).asError = some reason ∧ ClosedAs now row worked result after) seen
      (inScope (.callback leaseId) (settleLease work) >>= fun result =>
        closeLease row leaseId now result) := by
  have hClose : ∀ {worked : Seen} {result : Except JsError (LeaseExitState α)},
      Held leaseId row worked.shared → Ends worked result →
      Meets around none
        (fun after value => ∃ worked result, Ends worked result ∧
          (exitOf result).asError = none ∧ value = (exitOf result).result ∧
          ClosedAs now row worked result after)
        (fun after reason => ∃ worked result, Ends worked result ∧
          (exitOf result).asError = some reason ∧ ClosedAs now row worked result after) worked
        (closeLease row leaseId now (exitOf result)) := by
    intro worked result hWorked hEnds
    refine (Promise.sat_and (meets_closeLease hWorked rfl hSpares hCloses)
      ensures_closing).mono ?_ ?_
    · rintro after value ⟨⟨hNone, hValue, hJob⟩, hRecord⟩
      exact ⟨worked, result, hEnds, hNone, hValue, hJob, hRecord⟩
    · rintro after reason ⟨⟨hError, hJob⟩, hRecord⟩
      exact ⟨worked, result, hEnds, hError, hJob, hRecord⟩
  refine Promise.sat_bind.mpr (meets_inScope (Promise.sat_handle.mpr
    (Prog.Sat.mono hWork fun worked result hAfter => ?_)))
  cases result with
  | ok exit => exact hClose hAfter.1 hAfter.2
  | error reason => exact hClose hAfter.1 hAfter.2

/-- The runner of an update: it rejects in vain, it cannot read the job it owns, or it does
its work on the row it has read. -/
theorem meets_runUpdateInLease {node : Node} {updateOperation : ScheduleUpdateStateType}
    {jobPk : PrimaryKeyType} {updateTaskPk : Option PrimaryKeyType} {now : Date}
    {withLease : ScheduledJobDataModel → LeaseIdType → Js (LeaseExitState α)}
    {resolved : Seen → Option α → Prop} {rejected : Seen → JsError → Prop}
    (hDraws : ∀ seen drawn, around.allowed seen (outside .createLeaseId) drawn →
      drawn = leaseId)
    (hSpares : around.Spares leaseId jobPk)
    (hUnread : ∀ old seen before after reason, NothingLeased seen.record →
      Held leaseId (grantedRow node updateOperation updateTaskPk now leaseId old) before →
      around.allowed ⟨before, seen.record⟩ (outside (readJob jobPk)) (Except.error reason) →
      old.pk = jobPk →
      Held leaseId (grantedRow node updateOperation updateTaskPk now leaseId old) after →
      rejected (Seen.step seen none (readJob jobPk) (Except.error reason) after) reason)
    (hWork : ∀ old seen attempts, NothingLeased attempts → old.pk = jobPk →
      Held leaseId (grantedRow node updateOperation updateTaskPk now leaseId old) seen.shared →
      seen.record = attempts ++ [⟨outside (readJob jobPk),
        Except.ok [grantedRow node updateOperation updateTaskPk now leaseId old]⟩] →
      Meets around none resolved rejected seen
        (inScope (.callback leaseId) (settleLease (withLease
          (grantedRow node updateOperation updateTaskPk now leaseId old) leaseId)) >>=
            fun result => closeLease
              (grantedRow node updateOperation updateTaskPk now leaseId old) leaseId now result))
    (hRefused : ∀ after reason, InVain after.record → rejected after reason)
    (hVain : InVain seen.record) (hNothing : NothingLeased seen.record) :
    Meets around none resolved rejected seen
      (runUpdateInLease node updateOperation jobPk updateTaskPk now withLease) := by
  refine Promise.sat_bind.mpr (meets_environment id fun before drawn _ hAllowed => ?_)
  -- The lease of the surroundings is the one that was drawn.
  obtain rfl := hDraws _ drawn hAllowed
  refine Promise.sat_bind.mpr ((meets_obtainLease (hVain.step id id) hNothing.step).mono ?_
    fun after reason hAfter => hRefused after reason hAfter.1)
  rintro granted _ ⟨hGranted, old, rfl, hHeld⟩
  refine Promise.sat_bind.mpr (meets_getOwned hHeld rfl hSpares (fun after hAfter => ?_)
    fun before after reason hBefore hAllowed hAfter =>
      hUnread old granted before after reason hGranted hBefore hAllowed rfl hAfter)
  exact hWork old _ granted.record hGranted rfl hAfter rfl

/-- What is left of `startTask` when its lease was not obtained: an event. -/
theorem meets_startTask {node : Node} {task : TaskModel} {now : Date}
    {post : Seen → Except JsError Unit → Prop}
    (h : Meets around none (fun after _ => post after (.ok ()))
      (fun after reason => post after (.error reason) ∧
        ∀ leaseOwner, Meets around none (fun after _ => post after (.ok ()))
          (fun _ _ => False) after (emit (.taskStartNoLease task leaseOwner))) seen
      (runUpdateInLease node .startTask task.schedule (some task.pk) now
        fun sched _ => startTaskInLease node task now sched)) :
    Prog.Ensures (around.calls none) post seen (startTask node task now) := by
  have hSat : Meets around none (fun after _ => post after (.ok ()))
      (fun after reason => post after (.error reason)) seen (startTask node task now) := by
    refine Promise.sat_handle.mpr (Promise.sat_bind.mpr (h.mono (fun _ _ hPost => hPost) ?_))
    rintro after reason ⟨hRejected, hEmitted⟩
    cases reason with
    | leaseNotObtained ourLeaseId job leaseOwner leaseExpires =>
        exact (hEmitted leaseOwner).mono (fun _ _ hPost => hPost) fun _ _ => False.elim
    | _ => exact hRejected
  refine Prog.Sat.mono hSat fun after result hPost => ?_
  cases result with
  | ok value => exact hPost
  | error reason => exact hPost

/-! ## Leases nobody takes over -/

/-- The store serves every call, the call draws this lease id, and nobody touches a job
while the lease owns it. -/
def undisturbedLease (reading : BeforeDateReading) (leaseId : LeaseIdType) :
    Surroundings where
  reading := reading
  allowed seen op reply := Answered reading seen.shared op.act reply ∧
    ∀ drawn ∈ op.act.drawn reply, drawn = leaseId
  others db db' := ∀ pk row, db.job pk = some row → row.leaseOwner = some leaseId →
    db'.job pk = some row

theorem undisturbedLease_spares (reading : BeforeDateReading) (leaseId : LeaseIdType)
    (pk : PrimaryKeyType) : (undisturbedLease reading leaseId).Spares leaseId pk :=
  fun _ _ hOthers row hRow hOwner => hOthers pk row hRow hOwner

theorem undisturbedLease_serves (reading : BeforeDateReading) (leaseId : LeaseIdType)
    (scope : Option Scope) (act : Act) : (undisturbedLease reading leaseId).Serves scope act :=
  fun _ _ hAllowed => hAllowed.1

theorem undisturbedLease_draws {reading : BeforeDateReading} {leaseId drawn : LeaseIdType}
    (hAllowed : (undisturbedLease reading leaseId).allowed seen (outside .createLeaseId) drawn) :
    drawn = leaseId := hAllowed.2 drawn rfl

theorem undisturbedLease_reads {reading : BeforeDateReading} {leaseId : LeaseIdType}
    {reason : JsError} {scope : Scope} {pk : PrimaryKeyType}
    (hAllowed : (undisturbedLease reading leaseId).allowed seen ⟨scope, readJob pk⟩
      (Except.error reason)) : False := by
  have hReply := hAllowed.1 _ rfl
  cases hReply

theorem undisturbedLease_idle (reading : BeforeDateReading) (leaseId : LeaseIdType)
    (db : Database) : (undisturbedLease reading leaseId).others db db :=
  fun _ _ hRow _ => hRow

instance (reading : BeforeDateReading) (leaseId : LeaseIdType) (seen : Seen) (op : Operation)
    (reply : op.act.Reply) :
    Decidable ((undisturbedLease reading leaseId).allowed seen op reply) :=
  inferInstanceAs (Decidable (Answered reading seen.shared op.act reply ∧
    ∀ drawn ∈ op.act.drawn reply, drawn = leaseId))

/-! ## Concrete runs -/

/-- The sample job and its pending task. -/
def sampleLaunch : Seen := ⟨(samplePool false sampleTask).shared, []⟩

/-- Answer an operation as told, if the surroundings allow the answer. -/
def Surroundings.respond (around : Surroundings)
    [∀ seen op reply, Decidable (around.allowed seen op reply)] (scope : Option Scope)
    (answers : Seen → Answers) (seen : Seen) (op : Operation) :
    Option (op.act.Reply × Seen) :=
  match (answers seen).resolve around.reading seen.shared ⟨scope.getD op.scope, op.act⟩ with
  | some (reply, after) =>
      if around.allowed seen ⟨scope.getD op.scope, op.act⟩ reply then
        some (reply, ⟨after, seen.record ++ [⟨⟨scope.getD op.scope, op.act⟩, reply⟩]⟩)
      else none
  | none => none

/-- What holds at the end of every run holds at the end of the run that is answered as
told, when the other nodes may be idle. -/
theorem Surroundings.ensures_respond
    [∀ seen op reply, Decidable (around.allowed seen op reply)] {scope : Option Scope}
    {program : Prog signature α} {post : Seen → α → Prop}
    (hIdle : ∀ db, around.others db db)
    (h : program.Ensures (around.calls scope) post seen) (answers : Seen → Answers) :
    ∀ last ∈ program.run (around.respond scope answers) seen, post last.1 last.2 := by
  refine Prog.Ensures.run (fun seen op reply after hReply => ?_) h
  unfold Surroundings.respond at hReply
  split at hReply
  · rename_i given last hResolve
    split at hReply
    · rename_i hAllowed
      obtain ⟨rfl, rfl⟩ := Prod.mk.inj (Option.some.inj hReply)
      exact ⟨⟨seen.shared, hIdle _, hAllowed, Answers.exec_of_resolve hResolve⟩, rfl⟩
    · cases hReply
  · cases hReply

end TernScheduler
