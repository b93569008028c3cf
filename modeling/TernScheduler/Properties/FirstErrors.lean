import TernScheduler.Controller.Traces

/-!
# The first error wins

Three things of a lease runner can fail: taking the lease, the work, and the closing write.
A failure that comes after another one is told of as a `generalError` event.

* `LeaseSteps` is how the steps of one call ended, and `LeaseSteps.failures` lists their
  failures in the order they came.
* `CreateSteps` and `UpdateSteps` read the steps off a record of the two lease runners.
* `FirstErrorWins` is what the documentation of the runners promises, and
  `first_error_wins` says that both keep it in every run.
-/

namespace TernScheduler

open Interleaving Database

/-- How the steps of a lease runner ended. -/
inductive LeaseSteps (α : Type)
  | refused (reason : JsError) (marked : Option (Except JsError Unit))
  | unread (reason : JsError)
  | worked (result : Except JsError (LeaseExitState α)) (closed : Except JsError Unit)

/-- The failure an exit state stands for. -/
def LeaseExitState.failures {α : Type} : LeaseExitState α → List JsError
  | .value _ => []
  | .error reason _ _ => [reason]

namespace LeaseSteps

variable {α : Type}

/-- The failures, in the order they came. -/
def failures : LeaseSteps α → List JsError
  | refused reason marked => reason :: marked.elim [] failureOf
  | unread reason => [reason]
  | worked result closed => (exitOf result).failures ++ failureOf closed

/-- The value of the work. -/
def value : LeaseSteps α → Option α
  | worked result _ => (exitOf result).result
  | _ => none

end LeaseSteps

section Steps

variable {α : Type} (node : Node) (now : Date)

/-- The record of a call of `createScheduledJobAlone`, and how its steps ended.  It may end
with events that tell of any failures. -/
inductive CreateSteps (scheduledJob : NewScheduledJob)
    (withLease : ScheduledJobDataModel → PrimaryKeyType → Js (LeaseExitState α)) :
    List (Exchange signature) → LeaseSteps α → Prop
  | refused {leaseOwner : LeaseIdType} {schedPk taskPk : PrimaryKeyType}
      {add closing : List (Exchange signature)} {reason : JsError} {marked : Except JsError Unit}
      (told : List JsError)
      (hAdd : (addScheduledJobModel node.zone (newScheduledJobModel scheduledJob now schedPk taskPk)
        leaseOwner now node.leaseBehavior.leaseTimeSeconds).Plays add (.error reason))
      (hMark : (markLeasedScheduledJobNeedsRepair schedPk leaseOwner now false none).Plays closing
        marked) :
      CreateSteps scheduledJob withLease
        (⟨outside .createLeaseId, leaseOwner⟩ :: ⟨outside .createPrimaryKey, schedPk⟩ ::
          ⟨outside .createPrimaryKey, taskPk⟩ :: (add ++ (closing ++ tellings told)))
        (.refused reason (some marked))
  | worked {leaseOwner : LeaseIdType} {schedPk taskPk : PrimaryKeyType}
      {sched : ScheduledJobDataModel} {add work closing : List (Exchange signature)}
      {result : Except JsError (LeaseExitState α)} {closed : Except JsError Unit}
      (told : List JsError)
      (hAdd : (addScheduledJobModel node.zone (newScheduledJobModel scheduledJob now schedPk taskPk)
        leaseOwner now node.leaseBehavior.leaseTimeSeconds).Plays add (.ok ()))
      (hSched : sched = leasedRow node.zone (newScheduledJobModel scheduledJob now schedPk taskPk)
        leaseOwner now node.leaseBehavior.leaseTimeSeconds)
      (hWork : (inScope (.callback leaseOwner) (withLease sched taskPk)).Plays work result)
      (hClosing : (endLease sched leaseOwner now (exitOf result)).Plays closing closed) :
      CreateSteps scheduledJob withLease
        (⟨outside .createLeaseId, leaseOwner⟩ :: ⟨outside .createPrimaryKey, schedPk⟩ ::
          ⟨outside .createPrimaryKey, taskPk⟩ :: (add ++ (work ++ (closing ++ tellings told))))
        (.worked result closed)

/-- The record of a call of `runUpdateInLease`, and how its steps ended. -/
inductive UpdateSteps (updateOperation : ScheduleUpdateStateType) (jobPk : PrimaryKeyType)
    (updateTaskPk : Option PrimaryKeyType)
    (withLease : ScheduledJobDataModel → LeaseIdType → Js (LeaseExitState α)) :
    List (Exchange signature) → LeaseSteps α → Prop
  | refused {leaseOwner : LeaseIdType} {tries : List LeaseTry} {log : List (Exchange signature)}
      {reason : JsError} (told : List JsError)
      (hRetried : Retried (leaseAttempt node updateOperation jobPk updateTaskPk now leaseOwner)
        node.leaseBehavior.retrySecondsDelay tries log (.error reason)) :
      UpdateSteps updateOperation jobPk updateTaskPk withLease
        (⟨outside .createLeaseId, leaseOwner⟩ :: (log ++ tellings told)) (.refused reason none)
  | unread {leaseOwner : LeaseIdType} {tries : List LeaseTry}
      {log : List (Exchange signature)} {reply : Except JsError (List ScheduledJobDataModel)}
      {reason : JsError} (told : List JsError)
      (hRetried : Retried (leaseAttempt node updateOperation jobPk updateTaskPk now leaseOwner)
        node.leaseBehavior.retrySecondsDelay tries log (.ok ()))
      (hReply : reply = .error reason ∨ reply = .ok [] ∧ reason = .scheduledJobNotFound jobPk) :
      UpdateSteps updateOperation jobPk updateTaskPk withLease
        (⟨outside .createLeaseId, leaseOwner⟩ ::
          (log ++ ⟨outside (readJob jobPk), reply⟩ :: tellings told)) (.unread reason)
  | worked {leaseOwner : LeaseIdType} {tries : List LeaseTry} {sched : ScheduledJobDataModel}
      {rest : List ScheduledJobDataModel} {log work closing : List (Exchange signature)}
      {result : Except JsError (LeaseExitState α)} {closed : Except JsError Unit}
      (told : List JsError)
      (hRetried : Retried (leaseAttempt node updateOperation jobPk updateTaskPk now leaseOwner)
        node.leaseBehavior.retrySecondsDelay tries log (.ok ()))
      (hWork : (inScope (.callback leaseOwner) (withLease sched leaseOwner)).Plays work result)
      (hClosing : (endLease sched leaseOwner now (exitOf result)).Plays closing closed) :
      UpdateSteps updateOperation jobPk updateTaskPk withLease
        (⟨outside .createLeaseId, leaseOwner⟩ ::
          (log ++ ⟨outside (readJob jobPk), Except.ok (sched :: rest)⟩ ::
            (work ++ (closing ++ tellings told)))) (.worked result closed)

end Steps

/-! ## What is told -/

/-- The failure a lease runner tells of itself, outside of its work. -/
def Operation.tellsOf : Operation → Option JsError
  | ⟨.outside, .emit (.generalError reason)⟩ => some reason
  | _ => none

/-- The lease runner tells of no failure by the operation. -/
def Operation.Quiet (op : Operation) : Prop := op.tellsOf = none

/-- The failures told of on a record. -/
def toldOf (record : List (Exchange signature)) : List JsError :=
  record.filterMap fun exchange => exchange.1.tellsOf

/-- **The first error wins**: the promise settles with the first failure, or with the value
of the work, and every other failure is told of once. -/
structure FirstErrorWins {α : Type} (steps : LeaseSteps α) (record : List (Exchange signature))
    (settled : Except JsError (Option α)) : Prop where
  resolves : ∀ value, settled = .ok value ↔ steps.failures = [] ∧ value = steps.value
  rejects : ∀ reason, settled = .error reason ↔ steps.failures.head? = some reason
  tells : toldOf record = steps.failures.tail

section Told

variable {α : Type} {first second : List (Exchange signature)} {op : Operation}
  {reply : op.act.Reply} {leaseOwner : LeaseIdType}

@[simp] theorem toldOf_append :
    toldOf (first ++ second) = toldOf first ++ toldOf second :=
  List.filterMap_append

@[simp] theorem toldOf_tellings (failures : List JsError) :
    toldOf (tellings failures) = failures := by
  induction failures with
  | nil => rfl
  | cons reason rest ih => exact congrArg (List.cons reason) ih

theorem toldOf_plays {program : Prog signature α} {value : α}
    (hUses : program.Uses Operation.Quiet) (h : program.Plays first value) :
    toldOf first = [] :=
  List.filterMap_eq_nil_iff.mpr (hUses.forall_of_plays h)

/-- What the work tells of is not told by its lease runner. -/
theorem toldOf_work (program : Js α) {result : Except JsError α}
    (h : (inScope (.callback leaseOwner) program).Plays first result) : toldOf first = [] := by
  have hUses : ∀ program : Prog signature (Except JsError α),
      (relabel (.callback leaseOwner) program).Uses Operation.Quiet := by
    intro program
    induction program with
    | ret value => trivial
    | call op next ih => exact ⟨rfl, ih⟩
  exact toldOf_plays (hUses program) h

theorem quiet_ask {β : Type} {act : Act} {answer : act.Reply → Except JsError β}
    (hQuiet : (outside act).Quiet) : (ask act answer).Uses Operation.Quiet :=
  Promise.uses_perform hQuiet answer

/-- A conditional update of a job, and the read of its row after a write that failed. -/
theorem quiet_updateUnlessRejected {pk : PrimaryKeyType} (newValues : ScheduledJobPatch)
    (conditional : Conditional ScheduledJobColumn)
    (leaseError : ScheduledJobDataModel → JsError) :
    (updateSchedule pk newValues conditional >>=
      rejectUnlessUpdated pk leaseError).Uses Operation.Quiet :=
  Promise.uses_bind (quiet_ask rfl) fun count =>
    uses_rejectUnlessUpdated (P := Operation.Quiet) rfl _ count

theorem toldOf_endLease {sched : ScheduledJobDataModel} {now : Date} {exit : LeaseExitState α}
    {closed : Except JsError Unit} (h : (endLease sched leaseOwner now exit).Plays first closed) :
    toldOf first = [] :=
  toldOf_plays (uses_endLease_of (P := Operation.Quiet) rfl rfl
    (fun _ _ => quiet_updateUnlessRejected _ _ _) fun _ _ => quiet_updateUnlessRejected _ _ _) h

/-- The attempts tell of nothing. -/
theorem toldOf_retried {node : Node} {updateOperation : ScheduleUpdateStateType}
    {jobPk : PrimaryKeyType} {updateTaskPk : Option PrimaryKeyType} {now : Date}
    {tries : List LeaseTry} {outcome : Except JsError Unit} {delays : List Int}
    (h : Retried (leaseAttempt node updateOperation jobPk updateTaskPk now leaseOwner) delays tries
      first outcome) : toldOf first = [] := by
  have hAttempt : (leaseAttempt node updateOperation jobPk updateTaskPk now leaseOwner).Uses
      Operation.Quiet := quiet_updateUnlessRejected _ _ _
  exact List.filterMap_eq_nil_iff.mpr (h.forall_log (fun _ => rfl)
    (fun _ _ hRun => hAttempt.forall_of_plays hRun) fun _ hRun => hAttempt.forall_of_plays hRun)

end Told

/-! ## How a call settles -/

section Settled

variable {α : Type} {settled : Except JsError (Option α)} {record : List (Exchange signature)}

/-- A call that settles with the first failure, and tells of the others. -/
theorem FirstErrorWins.of_settled {steps : LeaseSteps α}
    (hSettled : settled = steps.failures.head?.elim (.ok steps.value) .error)
    (hTold : toldOf record = steps.failures.tail) : FirstErrorWins steps record settled := by
  subst hSettled
  cases hFailures : steps.failures with
  | nil =>
      refine ⟨fun value => ?_, fun reason => ?_, hTold⟩
      · simp [hFailures, eq_comm]
      · simp [hFailures]
  | cons first rest =>
      refine ⟨fun value => ?_, fun reason => ?_, hTold⟩
      · simp [hFailures]
      · simp [hFailures]

/-- The end of a lease settles with the first failure of the work and the closing write, and
tells of the second one, when the failure of the work is a truthy value. -/
theorem settled_closeLease {sched : ScheduledJobDataModel} {leaseOwner : LeaseIdType} {now : Date}
    {exit : LeaseExitState α} (h : (closeLease sched leaseOwner now exit).Plays record settled) :
    ∃ closing closed told, record = closing ++ tellings told ∧
      (endLease sched leaseOwner now exit).Plays closing closed ∧
      ((∀ reason ∈ exit.failures, reason.truthy = true) →
        told = (exit.failures ++ failureOf closed).tail ∧
        settled = (exit.failures ++ failureOf closed).head?.elim (.ok exit.result) .error) := by
  obtain ⟨closing, closed, hEnding, ⟨reason, hError, hRecord, hSettled⟩ | ⟨hNone, rfl, hSettled⟩⟩ :=
    plays_closeLease h
  · refine ⟨closing, closed, failureOf closed, hRecord, hEnding, fun _ => ?_⟩
    cases exit with
    | value exit => cases hError
    | error given pasture pastureReason =>
        have hGiven : given = reason := by
          rw [LeaseExitState.asError] at hError
          split at hError
          · exact Option.some.inj hError
          · cases hError
        subst hGiven
        exact ⟨rfl, hSettled⟩
  · refine ⟨record, closed, [], (List.append_nil _).symm, hEnding, fun hTruthy => ?_⟩
    -- an error that is falsy is not recognised, and its exit counts as one without
    cases exit with
    | value exit =>
        cases closed with
        | ok value => exact ⟨rfl, hSettled⟩
        | error reason => exact ⟨rfl, hSettled⟩
    | error given pasture pastureReason =>
        have hGiven : given.truthy = true := hTruthy given (List.mem_singleton_self _)
        rw [LeaseExitState.asError, if_pos hGiven] at hNone
        cases hNone

variable {node : Node} {now : Date}

/-- One call of `createScheduledJobAlone`. -/
theorem firstErrorWins_create {scheduledJob : NewScheduledJob}
    {withLease : ScheduledJobDataModel → PrimaryKeyType → Js (LeaseExitState α)}
    (h : (createScheduledJobAlone node scheduledJob now withLease).Plays record settled) :
    ∃ steps, CreateSteps node now scheduledJob withLease record steps ∧
      ((∀ reason ∈ steps.failures, reason.truthy = true) →
        FirstErrorWins steps record settled) := by
  obtain ⟨leaseOwner, schedPk, taskPk, add, rest, outcome, rfl, hAdd, hOk, hError⟩ :=
    plays_createScheduledJobAlone h
  have hUses : (createSchedule (leasedRow node.zone
      (newScheduledJobModel scheduledJob now schedPk taskPk) leaseOwner now
      node.leaseBehavior.leaseTimeSeconds)).Uses Operation.Quiet := quiet_ask rfl
  have hQuiet : toldOf add = [] := toldOf_plays hUses hAdd
  cases outcome with
  | error reason =>
      -- The job is marked although its row was not added, and the second failure is told of.
      obtain ⟨closing, marked, rfl, hMark, rfl⟩ := hError reason rfl
      refine ⟨_, .refused (failureOf marked) hAdd hMark, fun _ => .of_settled rfl ?_⟩
      have hMarking : toldOf closing = [] :=
        toldOf_plays (quiet_updateUnlessRejected _ _ _) hMark
      change toldOf (add ++ (closing ++ tellings (failureOf marked))) = failureOf marked
      rw [toldOf_append, toldOf_append, hQuiet, hMarking, toldOf_tellings]
      rfl
  | ok added =>
      obtain ⟨sched, work, last, result, rfl, hSched, hWork, hClosing⟩ := hOk rfl
      obtain ⟨closing, closed, told, rfl, hEnding, hSettled⟩ := settled_closeLease hClosing
      refine ⟨_, .worked told hAdd hSched hWork hEnding, fun hTruthy => ?_⟩
      obtain ⟨rfl, rfl⟩ :=
        hSettled fun reason hMem => hTruthy reason (List.mem_append_left _ hMem)
      refine .of_settled rfl ?_
      -- The three ids are drawn without an event.
      change toldOf (add ++ (work ++ (closing ++ tellings _))) = _
      rw [toldOf_append, toldOf_append, toldOf_append, hQuiet, toldOf_work _ hWork,
        toldOf_endLease hEnding, toldOf_tellings]
      rfl

/-- One call of `runUpdateInLease`. -/
theorem firstErrorWins_update {updateOperation : ScheduleUpdateStateType} {jobPk : PrimaryKeyType}
    {updateTaskPk : Option PrimaryKeyType}
    {withLease : ScheduledJobDataModel → LeaseIdType → Js (LeaseExitState α)}
    (h : (runUpdateInLease node updateOperation jobPk updateTaskPk now withLease).Plays record
      settled) :
    ∃ steps, UpdateSteps node now updateOperation jobPk updateTaskPk withLease record steps ∧
      ((∀ reason ∈ steps.failures, reason.truthy = true) →
        FirstErrorWins steps record settled) := by
  obtain ⟨leaseOwner, tries, log, rest, outcome, rfl, hRetried, hOk, hError⟩ :=
    plays_runUpdateInLease h
  have hQuiet : toldOf log = [] := toldOf_retried hRetried
  cases outcome with
  | error reason =>
      obtain ⟨rfl, rfl⟩ := hError reason rfl
      refine ⟨_, .refused [] hRetried, fun _ => .of_settled rfl ?_⟩
      change toldOf (log ++ tellings []) = []
      rw [toldOf_append, hQuiet]
      rfl
  | ok granted =>
      cases hOk rfl with
      -- A job that cannot be read again, or is gone: nothing is closed, and nothing told.
      | unread reason =>
          refine ⟨_, .unread [] hRetried (Or.inl rfl), fun _ => .of_settled rfl ?_⟩
          change toldOf (log ++ [_]) = []
          rw [toldOf_append, hQuiet]
          rfl
      | missing =>
          refine ⟨_, .unread [] hRetried (Or.inr ⟨rfl, rfl⟩), fun _ => .of_settled rfl ?_⟩
          change toldOf (log ++ [_]) = []
          rw [toldOf_append, hQuiet]
          rfl
      | worked hWork hClosing =>
          obtain ⟨closing, closed, told, rfl, hEnding, hSettled⟩ := settled_closeLease hClosing
          refine ⟨_, .worked told hRetried hWork hEnding, fun hTruthy => ?_⟩
          obtain ⟨rfl, rfl⟩ :=
            hSettled fun reason hMem => hTruthy reason (List.mem_append_left _ hMem)
          refine .of_settled rfl ?_
          change toldOf (log ++ _) = _
          rw [toldOf_append, hQuiet]
          change toldOf (_ ++ (closing ++ tellings _)) = _
          rw [toldOf_append, toldOf_append, toldOf_work _ hWork, toldOf_endLease hEnding,
            toldOf_tellings]
          rfl

end Settled

/-- **Both lease runners settle with the first error**, and tell of a second one once,
whatever they meet. -/
theorem first_error_wins {α : Type} (around : Surroundings) (node : Node) (now : Date)
    (db : Database) :
    (∀ scheduledJob (withLease : ScheduledJobDataModel → PrimaryKeyType → Js (LeaseExitState α)),
      Prog.Ensures (around.calls none)
        (fun after settled => ∃ steps,
          CreateSteps node now scheduledJob withLease after.record steps ∧
          ((∀ reason ∈ steps.failures, reason.truthy = true) →
            FirstErrorWins steps after.record settled))
        ⟨db, []⟩ (createScheduledJobAlone node scheduledJob now withLease)) ∧
    ∀ updateOperation jobPk updateTaskPk
      (withLease : ScheduledJobDataModel → LeaseIdType → Js (LeaseExitState α)),
      Prog.Ensures (around.calls none)
        (fun after settled => ∃ steps,
          UpdateSteps node now updateOperation jobPk updateTaskPk withLease after.record steps ∧
          ((∀ reason ∈ steps.failures, reason.truthy = true) →
            FirstErrorWins steps after.record settled))
        ⟨db, []⟩ (runUpdateInLease node updateOperation jobPk updateTaskPk now withLease) := by
  constructor
  · intro scheduledJob withLease
    refine Prog.Sat.mono (Prog.ensures_plays _ _) fun after settled hAfter => ?_
    obtain ⟨done, hRecord, hPlays⟩ := hAfter
    obtain rfl : after.record = done := hRecord
    exact firstErrorWins_create hPlays
  · intro updateOperation jobPk updateTaskPk withLease
    refine Prog.Sat.mono (Prog.ensures_plays _ _) fun after settled hAfter => ?_
    obtain ⟨done, hRecord, hPlays⟩ := hAfter
    obtain rfl : after.record = done := hRecord
    exact firstErrorWins_update hPlays

end TernScheduler
