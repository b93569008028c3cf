import TernScheduler.Controller.Traces
import TernScheduler.Properties.LeaseOutcomes

/-!
# Retrying for a lease

`runUpdateInLease` builds a chain of `catch` handlers, two for each item of
`retrySecondsDelay`, before anything has run.

* `LeaseRetries` is what the documentation of the list promises, of the record of a run.
* `lease_retries` says that every run keeps the promise, whatever the store answers.  The
  work is run once when an attempt was granted and the job could be read.
* `granted_without_work` is a run whose lease was granted, and whose work is never run.
-/

namespace TernScheduler

open Interleaving Database

/-- The record of a call that retried for its lease: how many attempts there were, which
delays were asked for, and what followed. -/
structure LeaseRetries {α : Type} (node : Node) (updateOperation : ScheduleUpdateStateType)
    (jobPk : PrimaryKeyType) (updateTaskPk : Option PrimaryKeyType) (now : Date)
    (withLease : ScheduledJobDataModel → LeaseIdType → Js (LeaseExitState α))
    (leaseOwner : LeaseIdType) (tries : List LeaseTry) (log rest : List (Exchange signature))
    (outcome : Except JsError Unit) (settled : Except JsError (Option α)) : Prop where
  retried : Retried (leaseAttempt node updateOperation jobPk updateTaskPk now leaseOwner)
    node.leaseBehavior.retrySecondsDelay tries log outcome
  attempts : tries.length = min (1 + node.leaseBehavior.retrySecondsDelay.length)
    (tries.findIdx LeaseTry.granted + 1)
  last : tries.getLast?.map LeaseTry.outcome = some outcome
  delays : log.filterMap (fun exchange => exchange.1.act.delay) =
    node.leaseBehavior.retrySecondsDelay.take (tries.length - 1)
  nothingLeased : NothingLeased log
  granted : outcome = .ok () → AfterLease withLease leaseOwner jobPk now rest settled
  refused : ∀ reason, outcome = .error reason → rest = [] ∧ settled = .error reason ∧
    ∀ exchange ∈ log, ¬ exchange.1.act.WroteSchedule exchange.2 ∧
      ¬ exchange.1.act.WroteTask exchange.2

section Attempt

variable {node : Node} {updateOperation : ScheduleUpdateStateType} {jobPk : PrimaryKeyType}
  {updateTaskPk : Option PrimaryKeyType} {now : Date} {leaseOwner : LeaseIdType}

/-- An attempt asks for no delay, and is made outside of any lease. -/
theorem uses_leaseAttempt :
    (leaseAttempt node updateOperation jobPk updateTaskPk now leaseOwner).Uses
      fun op : Operation => op.act.delay = none ∧ op.scope = .outside :=
  Promise.uses_bind (Promise.uses_perform ⟨rfl, rfl⟩ _) fun count =>
    uses_rejectUnlessUpdated ⟨rfl, rfl⟩ _ count

/-- An attempt that fails has written nothing. -/
theorem not_wrote_of_refused {log : List (Exchange signature)} {reason : JsError}
    (h : (leaseAttempt node updateOperation jobPk updateTaskPk now leaseOwner).Plays log
      (.error reason)) :
    ∀ exchange ∈ log, ¬ exchange.1.act.WroteSchedule exchange.2 ∧
      ¬ exchange.1.act.WroteTask exchange.2 := by
  rcases Promise.plays_bind h with ⟨update, rest, count, rfl, hUpdate, hRest⟩ |
    ⟨given, hUpdate, -⟩
  · obtain ⟨reply, rfl, hReply⟩ := plays_ask hUpdate
    cases count with
    | succ count =>
        -- A row was written, and the attempt resolves.
        obtain ⟨-, hNone⟩ := hRest
        cases hNone
    | zero =>
        have hReads : ∀ exchange ∈ rest, ∃ start limit conditional,
            exchange.1.act = .findSchedules start limit conditional :=
          (uses_rejectUnlessUpdated (P := fun op : Operation => ∃ start limit conditional,
            op.act = .findSchedules start limit conditional) ⟨_, _, _, rfl⟩ _ 0).forall_of_plays
              hRest
        rintro ⟨⟨scope, act⟩, answer⟩ hMem
        rcases List.mem_append.mp hMem with hFirst | hLater
        · obtain rfl : reply = .ok 0 := hReply.symm
          cases List.mem_singleton.mp hFirst
          exact ⟨id, id⟩
        · obtain ⟨start, limit, conditional, hAct⟩ := hReads _ hLater
          obtain rfl : act = .findSchedules start limit conditional := hAct
          exact ⟨id, id⟩
  · obtain ⟨reply, rfl, hReply⟩ := plays_ask hUpdate
    obtain rfl : reply = .error given := hReply.symm
    rintro exchange hMem
    cases List.mem_singleton.mp hMem
    exact ⟨id, id⟩

end Attempt

/-- **Every call retries as its list of delays says**, whatever it meets. -/
theorem lease_retries {α : Type} (around : Surroundings) (node : Node)
    (updateOperation : ScheduleUpdateStateType) (jobPk : PrimaryKeyType)
    (updateTaskPk : Option PrimaryKeyType) (now : Date)
    (withLease : ScheduledJobDataModel → LeaseIdType → Js (LeaseExitState α)) (db : Database) :
    Prog.Ensures (around.calls none)
      (fun after settled => ∃ leaseOwner tries log rest outcome,
        after.record = ⟨outside .createLeaseId, leaseOwner⟩ :: (log ++ rest) ∧
          LeaseRetries node updateOperation jobPk updateTaskPk now withLease leaseOwner tries
            log rest outcome settled)
      ⟨db, []⟩ (runUpdateInLease node updateOperation jobPk updateTaskPk now withLease) := by
  refine Prog.Sat.mono (Prog.ensures_plays _ _) fun after settled hAfter => ?_
  obtain ⟨done, hRecord, hPlays⟩ := hAfter
  obtain ⟨leaseOwner, tries, log, rest, outcome, rfl, hRetried, hGranted, hRefused⟩ :=
    plays_runUpdateInLease hPlays
  refine ⟨leaseOwner, tries, log, rest, outcome, hRecord, hRetried, hRetried.length_eq,
    hRetried.getLast, hRetried.delays_eq (uses_leaseAttempt.mono fun _ h => h.1), ?_, hGranted, ?_⟩
  · exact hRetried.forall_log (fun _ => rfl)
      (fun _ _ hRun exchange hMem => (uses_leaseAttempt.forall_of_plays hRun exchange hMem).2)
      (fun _ hRun exchange hMem => (uses_leaseAttempt.forall_of_plays hRun exchange hMem).2)
  · rintro reason rfl
    obtain ⟨hRest, hSettled⟩ := hRefused reason rfl
    exact ⟨hRest, hSettled, hRetried.forall_log (fun _ => ⟨id, id⟩)
      (fun _ _ hRun => not_wrote_of_refused hRun) (fun _ hRun => not_wrote_of_refused hRun)⟩

/-! ## A lease without work -/

/-- The work was called once, under the lease. -/
def CalledOnce {α : Type} (withLease : ScheduledJobDataModel → LeaseIdType → Js (LeaseExitState α))
    (leaseOwner : LeaseIdType) (record : List (Exchange signature)) : Prop :=
  ∃ sched before work after result, record = before ++ work ++ after ∧
    NothingLeased before ∧ NothingLeased after ∧
    (inScope (.callback leaseOwner) (withLease sched leaseOwner)).Plays work result

/-- Work that reports the job it was given. -/
def reportingWork (sched : ScheduledJobDataModel) (_leaseOwner : LeaseIdType) :
    Js (LeaseExitState Unit) := do
  emit (.invalidScheduleDefinition sched)
  return .value { value := () }

/-- An update of the sample job whose work reports it. -/
def reportingUpdate : Js (Option Unit) :=
  runUpdateInLease (sampleNode sampleStart []) .startTask "job" none 0 reportingWork

/-- The run whose read of the job is rejected. -/
def unreadUpdate : Option (Seen × Except JsError (Option Unit)) :=
  reportingUpdate.run ((servedClosing strictlyBefore "").respond none rejectedRead) sampleLaunch

/-- A lease may be granted and the work never called, when the job cannot be read. -/
theorem granted_without_work :
    ¬ Prog.Ensures ((servedClosing strictlyBefore "").calls none)
      (fun after _ => LeaseGranted "job" after.record → CalledOnce reportingWork "" after.record)
      sampleLaunch reportingUpdate := by
  intro hCalled
  have hRun : (unreadUpdate.any fun last => LeaseGranted "job" last.1.record ∧
      ∀ exchange ∈ last.1.record, exchange.1.scope = .outside) = true := by decide +kernel
  obtain ⟨last, hLast, hCheck⟩ := (Option.any_eq_true _ _).mp hRun
  obtain ⟨hGranted, hOutside⟩ := of_decide_eq_true hCheck
  have hIdle : ∀ db, (servedClosing strictlyBefore "").others db db := fun _ _ _ h _ => h
  obtain ⟨sched, before, work, closing, result, hRecord, -, -, hWork⟩ :=
    Surroundings.ensures_respond hIdle hCalled rejectedRead last hLast hGranted
  -- The work has one operation at least, and it is made under the lease.
  obtain ⟨reply, rest, rfl, -⟩ := hWork
  have hMem : (⟨⟨.callback "", .emit (.invalidScheduleDefinition sched)⟩, reply⟩ :
      Exchange signature) ∈
      last.1.record := by
    rw [hRecord]
    exact List.mem_append_left _ (List.mem_append_right _ (List.mem_cons_self ..))
  cases hOutside _ hMem

end TernScheduler
