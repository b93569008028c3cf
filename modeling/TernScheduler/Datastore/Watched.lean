import TernScheduler.Datastore.DataStore
import TernScheduler.Datastore.Effects
import TernScheduler.Library.Watched

/-!
# Calls of one node, watched

One call of a node, with what it has done so far on record, while other nodes act
between its operations.

* `Surroundings` are what the call can meet: how the store reads dates, which replies are
  possible, and what the other nodes may do.
* `Meets` is the triple of a promise run in such surroundings; the rules of the store
  calls follow from what they do to the tables.
* `Spares` says that the other nodes leave a job alone as long as a lease owns it.
-/

namespace TernScheduler

open Interleaving Database

/-- The database, and what the call has done so far. -/
abbrev Seen := Watched signature Database

/-- What a call meets. -/
structure Surroundings where
  reading : BeforeDateReading
  allowed : Seen → (op : Operation) → op.act.Reply → Prop
  others : Database → Database → Prop

/-- The other nodes act, and then the operation is performed. -/
def Surroundings.setting (around : Surroundings) : Setting signature Database :=
  fun seen op reply after => ∃ before, around.others seen.shared before ∧
    around.allowed ⟨before, seen.record⟩ op reply ∧
    Exec around.reading before op.act reply after

/-- The operations of a program, all made in `scope` if one is given. -/
def Surroundings.calls (around : Surroundings) (scope : Option Scope) :
    Execution signature Seen :=
  fun seen op reply after => around.setting.exec seen ⟨scope.getD op.scope, op.act⟩ reply after

/-- Every run of the promise in these surroundings ends as required. -/
abbrev Meets {α : Type} (around : Surroundings) (scope : Option Scope)
    (resolved : Seen → α → Prop) (rejected : Seen → JsError → Prop) (seen : Seen)
    (promise : Js α) : Prop :=
  promise.Sat (around.calls scope).transformer resolved rejected seen

/-- After one more operation. -/
def Seen.step (seen : Seen) (scope : Option Scope) (act : Act) (reply : act.Reply)
    (after : Database) : Seen :=
  ⟨after, seen.record ++ [⟨⟨scope.getD .outside, act⟩, reply⟩]⟩

@[simp] theorem Seen.step_shared (seen : Seen) (scope : Option Scope) (act : Act)
    (reply : act.Reply) (after : Database) :
    (Seen.step seen scope act reply after).shared = after :=
  rfl

@[simp] theorem Seen.step_record (seen : Seen) (scope : Option Scope) (act : Act)
    (reply : act.Reply) (after : Database) : (Seen.step seen scope act reply after).record =
      seen.record ++ [⟨⟨scope.getD .outside, act⟩, reply⟩] :=
  rfl

variable {around : Surroundings} {scope : Option Scope} {seen : Seen} {α : Type}

section Rules

variable {resolved : Seen → α → Prop} {rejected : Seen → JsError → Prop}

/-- A promise that makes its calls in a scope. -/
theorem meets_inScope {inner : Scope} {promise : Js α}
    (h : Meets around (some inner) resolved rejected seen promise) :
    Meets around none resolved rejected seen (inScope inner promise) := by
  have hRelabel : ∀ {β : Type} (post : Seen → β → Prop) (program : Prog signature β)
      (seen : Seen), program.Ensures (around.calls (some inner)) post seen →
        (relabel inner program).Ensures (around.calls none) post seen := by
    intro β post program
    induction program with
    | ret value => exact fun seen hPost => hPost
    | call operation next ih =>
        obtain ⟨old, act⟩ := operation
        exact fun seen hCall reply after hExec => ih reply after (hCall reply after hExec)
  exact hRelabel _ promise seen h

/-- A call ends as its reply says, whatever it meets. -/
theorem meets_ask {act : Act} {answer : act.Reply → Except JsError α}
    (h : ∀ before reply after, around.others seen.shared before →
      around.allowed ⟨before, seen.record⟩ ⟨scope.getD .outside, act⟩ reply →
      Exec around.reading before act reply after →
      Meets around scope resolved rejected (Seen.step seen scope act reply after)
        (Promise.ofExcept (answer reply))) :
    Meets around scope resolved rejected seen (ask act answer) := by
  rintro reply ⟨after, record⟩ ⟨⟨before, hOthers, hAllowed, hExec⟩, hRecord⟩
  obtain rfl : record = (Seen.step seen scope act reply after).record := hRecord
  exact h before reply after hOthers hAllowed hExec

/-- A call that is neither made nor answered by the store leaves it as it was. -/
theorem meets_environment {act : Act} {answer : act.Reply → Except JsError α}
    (hOther : ¬ act.IsStoreCall)
    (h : ∀ before reply, around.others seen.shared before →
      around.allowed ⟨before, seen.record⟩ ⟨scope.getD .outside, act⟩ reply →
      Meets around scope resolved rejected (Seen.step seen scope act reply before)
        (Promise.ofExcept (answer reply))) :
    Meets around scope resolved rejected seen (ask act answer) := by
  refine meets_ask fun before reply after hOthers hAllowed hExec => ?_
  obtain rfl : after = before := hExec.same_of_other hOther
  exact h after reply hOthers hAllowed

end Rules

/-! ## What is on record -/

/-- What is recorded of a promise made in a scope is one run of it, with the operations
labelled. -/
theorem ensures_labelled {β : Type} (inner : Scope) (program : Prog signature β) (seen : Seen) :
    program.Ensures (around.calls (some inner))
      (fun after value => ∃ done, after.record = seen.record ++ done ∧
        (relabel inner program).Plays done value) seen := by
  induction program generalizing seen with
  | ret value => exact ⟨[], (List.append_nil _).symm, rfl, rfl⟩
  | call operation next ih =>
      obtain ⟨old, act⟩ := operation
      intro reply after hExec
      refine Prog.Sat.mono (ih reply after) fun last value hPlays => ?_
      obtain ⟨done, hRecord, hDone⟩ := hPlays
      refine ⟨⟨⟨inner, act⟩, reply⟩ :: done, ?_, reply, done, rfl, hDone⟩
      rw [hRecord, hExec.2, List.append_assoc]
      rfl

/-- Only operations of the kind a program uses are added to the record. -/
theorem ensures_recorded {P : Operation → Prop} {program : Prog signature α}
    (hUses : program.Uses P) (seen : Seen) :
    program.Ensures (around.calls none)
      (fun after _ => ∃ done, after.record = seen.record ++ done ∧
        ∀ exchange ∈ done, P exchange.1) seen := by
  refine Prog.Sat.mono (Prog.ensures_plays program seen) fun after value hPlays => ?_
  obtain ⟨done, hRecord, hDone⟩ := hPlays
  exact ⟨done, hRecord, hUses.forall_of_plays hDone⟩

/-! ## Jobs that are owned -/

/-- The reply is the one the store gives. -/
def Surroundings.Serves (around : Surroundings) (scope : Option Scope) (act : Act) : Prop :=
  ∀ seen reply, around.allowed seen ⟨scope.getD .outside, act⟩ reply →
    Answered around.reading seen.shared act reply

/-- The other nodes leave the job alone as long as the lease owns it. -/
def Surroundings.Spares (around : Surroundings) (leaseId : LeaseIdType)
    (pk : PrimaryKeyType) : Prop :=
  ∀ db db', around.others db db' → ∀ row, db.job pk = some row →
    row.leaseOwner = some leaseId → db'.job pk = some row

/-- The lease owns the job, whose row is `row`. -/
structure Held (leaseId : LeaseIdType) (row : ScheduledJobDataModel) (db : Database) :
    Prop where
  job : db.job row.pk = some row
  updating : row.updateState ≠ none
  owner : row.leaseOwner = some leaseId

variable {leaseId : LeaseIdType} {row : ScheduledJobDataModel}

theorem Held.kept (hHeld : Held leaseId row seen.shared) (hSpares : around.Spares leaseId row.pk)
    {before : Database} (hOthers : around.others seen.shared before) :
    Held leaseId row before :=
  { hHeld with job := hSpares _ _ hOthers _ hHeld.job hHeld.owner }

theorem Held.of_not_wrote {reading : BeforeDateReading} {before after : Database} {act : Act}
    {reply : act.Reply} (hHeld : Held leaseId row before)
    (hExec : Exec reading before act reply after) (hNone : ¬ act.WroteSchedule reply) :
    Held leaseId row after :=
  { hHeld with job := (hExec.job_kept hNone _).trans hHeld.job }

/-- The read of a job. -/
abbrev readJob (pk : PrimaryKeyType) : Act := .findSchedules 0 1 (sjPkEquals pk)

/-- The owner of a lease reads its own row, if the read is answered at all. -/
theorem meets_getOwned {pk : PrimaryKeyType}
    {resolved : Seen → Option ScheduledJobDataModel → Prop} {rejected : Seen → JsError → Prop}
    (hHeld : Held leaseId row seen.shared) (hPk : row.pk = pk)
    (hSpares : around.Spares leaseId pk)
    (hFound : ∀ after, Held leaseId row after →
      resolved (Seen.step seen scope (readJob pk) (Except.ok [row]) after) (some row))
    (hUnread : ∀ before after reason, Held leaseId row before →
      around.allowed ⟨before, seen.record⟩ ⟨scope.getD .outside, readJob pk⟩
        (Except.error reason) → Held leaseId row after →
      rejected (Seen.step seen scope (readJob pk) (Except.error reason) after) reason) :
    Meets around scope resolved rejected seen (getScheduledJob pk) := by
  subst hPk
  refine Promise.sat_bind.mpr (meets_ask fun before reply after hOthers hAllowed hExec => ?_)
  have hBefore := hHeld.kept hSpares hOthers
  have hAfter := hBefore.of_not_wrote hExec id
  cases reply with
  | error reason => exact hUnread before after reason hBefore hAllowed hAfter
  | ok rows =>
      have hRows := hExec.findSchedules_pk
      rw [hBefore.job] at hRows
      obtain rfl : rows = [row] := hRows
      exact hFound after hAfter

/-- An update by the owner of the lease writes the row. -/
theorem meets_updateOwned {newValues : ScheduledJobPatch} {resolved : Seen → Nat → Prop}
    {rejected : Seen → JsError → Prop} (hHeld : Held leaseId row seen.shared)
    (hSpares : around.Spares leaseId row.pk)
    (hServes : around.Serves scope (.updateSchedule row.pk newValues (leasedBy leaseId)))
    (hDone : ∀ before after count, around.others seen.shared before →
      (∀ pk, after.job pk = if pk = row.pk then some (newValues.apply row) else before.job pk) →
      (∀ pk, after.task pk = before.task pk) →
      resolved (Seen.step seen scope (.updateSchedule row.pk newValues (leasedBy leaseId))
        (Except.ok (count + 1)) after) (count + 1)) :
    Meets around scope resolved rejected seen
      (updateSchedule row.pk newValues (leasedBy leaseId)) := by
  refine meets_ask fun before reply after hOthers hAllowed hExec => ?_
  have hBefore := hHeld.kept hSpares hOthers
  -- The owner passes its own test, so a served write is made.
  obtain ⟨count, rfl, hJobs⟩ := hExec.updateSchedule_served (hServes _ _ hAllowed) hBefore.job
    ((holds_leasedBy leaseId).mpr ⟨hHeld.updating, hHeld.owner⟩)
  exact hDone before after count hOthers hJobs fun pk => hExec.task_kept id pk

/-- The owner of a lease can give it back. -/
theorem meets_releaseScheduledJobLease {pasture : Bool} {pastureReason : Option String}
    {resolved : Seen → Unit → Prop} {rejected : Seen → JsError → Prop}
    (hHeld : Held leaseId row seen.shared) (hSpares : around.Spares leaseId row.pk)
    (hServes : ∀ newValues,
      around.Serves scope (.updateSchedule row.pk newValues (leasedBy leaseId)))
    (hDone : ∀ before after count, around.others seen.shared before →
      (∀ pk, after.job pk =
        if pk = row.pk then some ((releasePatch pasture pastureReason).apply row)
        else before.job pk) →
      (∀ pk, after.task pk = before.task pk) →
      resolved (Seen.step seen scope (.updateSchedule row.pk
        (releasePatch pasture pastureReason) (leasedBy leaseId))
          (Except.ok (count + 1)) after) ()) :
    Meets around scope resolved rejected seen
      (releaseScheduledJobLease leaseId row.pk pasture pastureReason) := by
  refine Promise.sat_bind.mpr (meets_updateOwned hHeld hSpares (hServes _) ?_)
  intro before after count hOthers hJobs hTasks
  rw [rejectUnlessUpdated, if_pos (Nat.succ_pos count)]
  exact hDone before after count hOthers hJobs hTasks

/-- The owner of a lease can mark the job as needing repair. -/
theorem meets_markLeasedScheduledJobNeedsRepair {now : Date} {pasture : Bool}
    {pastureReason : Option String} {resolved : Seen → Unit → Prop}
    {rejected : Seen → JsError → Prop} (hHeld : Held leaseId row seen.shared)
    (hSpares : around.Spares leaseId row.pk)
    (hServes : ∀ newValues,
      around.Serves scope (.updateSchedule row.pk newValues (leasedBy leaseId)))
    (hDone : ∀ before after count, around.others seen.shared before →
      (∀ pk, after.job pk =
        if pk = row.pk then some ((needsRepairPatch now pasture pastureReason).apply row)
        else before.job pk) →
      (∀ pk, after.task pk = before.task pk) →
      resolved (Seen.step seen scope (.updateSchedule row.pk
        (needsRepairPatch now pasture pastureReason) (leasedBy leaseId))
          (Except.ok (count + 1)) after) ()) :
    Meets around scope resolved rejected seen
      (markLeasedScheduledJobNeedsRepair row.pk leaseId now pasture pastureReason) := by
  refine Promise.sat_bind.mpr (meets_updateOwned hHeld hSpares (hServes _) ?_)
  intro before after count hOthers hJobs hTasks
  rw [rejectUnlessUpdated, if_pos (Nat.succ_pos count)]
  exact hDone before after count hOthers hJobs hTasks

end TernScheduler
