import TernScheduler.Datastore.DataStore
import TernScheduler.Library.Protocol

/-!
# Protocol triples of the calls and the data store

The triples a walk over a controller uses, for any protocol over the calls that
leave a node: one for each call, and one for each method of the data store.
-/

namespace TernScheduler

open Interleaving

/-- A protocol as seen by a program whose calls are all labelled `scope`. -/
def relabelled {M : Type} (P : Protocol signature M) (scope : Scope) :
    Protocol signature M where
  next state operation reply := P.next state ⟨scope, operation.act⟩ reply
  may state operation := P.may state ⟨scope, operation.act⟩

variable {M α : Type} {P : Protocol signature M} {state : M}

/-- Relabelling a program is relabelling its protocol. -/
theorem honors_relabel (scope : Scope) (post : M → α → Prop)
    (program : Prog signature α) :
    (relabel scope program).Honors P post state ↔
      program.Honors (relabelled P scope) post state := by
  induction program generalizing state with
  | ret value => exact Iff.rfl
  | call operation next ih =>
      exact and_congr Iff.rfl (forall_congr' fun reply => ih reply)

variable {resolved : M → α → Prop} {rejected : M → JsError → Prop}

theorem honors_inScope (scope : Scope) (promise : Js α) :
    (inScope scope promise).Honors P resolved rejected state ↔
      promise.Honors (relabelled P scope) resolved rejected state :=
  honors_relabel scope _ promise

/-! ## Calls -/

/-- A call that settles with a result, whatever the reply. -/
private theorem honors_ask (act : Act) (answer : act.Reply → Except JsError α) :
    (ask act answer).Honors P resolved rejected state ↔
      P.may state (outside act) ∧
        ∀ reply : act.Reply,
          (∀ value, answer reply = .ok value →
            resolved (P.next state (outside act) reply) value) ∧
          ∀ e, answer reply = .error e →
            rejected (P.next state (outside act) reply) e := by
  refine (Promise.honors_perform (outside act) answer).trans ?_
  refine and_congr_right fun _ => forall_congr' fun reply => ?_
  cases answer reply <;> simp

/-- A call whose replies are results. -/
private theorem honors_ask_result (act : Act)
    (answer : act.Reply → Except JsError α) (reply : Except JsError α → act.Reply)
    (hAnswer : ∀ result, answer (reply result) = result)
    (hReply : ∀ given, reply (answer given) = given) :
    (ask act answer).Honors P resolved rejected state ↔
      P.may state (outside act) ∧
        (∀ value, resolved (P.next state (outside act) (reply (.ok value))) value) ∧
        ∀ e, rejected (P.next state (outside act) (reply (.error e))) e := by
  refine (honors_ask act answer).trans (and_congr_right fun _ => ?_)
  constructor
  · intro h
    exact ⟨fun value => (h _).1 value (hAnswer _), fun e => (h _).2 e (hAnswer _)⟩
  · rintro ⟨hResolved, hRejected⟩ given
    have hGiven := hReply given
    refine ⟨fun value hValue => ?_, fun e hError => ?_⟩
    · rw [hValue] at hGiven
      exact hGiven ▸ hResolved value
    · rw [hError] at hGiven
      exact hGiven ▸ hRejected e

private theorem honors_ask_ok (act : Act) (answer : act.Reply → α) :
    (ask act fun reply => .ok (answer reply)).Honors P resolved rejected state ↔
      P.may state (outside act) ∧
        ∀ reply, resolved (P.next state (outside act) reply) (answer reply) := by
  refine (honors_ask act _).trans (and_congr_right fun _ => ?_)
  simp

section

variable {rejected : M → JsError → Prop}

theorem honors_createSchedule (row : ScheduledJobDataModel)
    {resolved : M → Unit → Prop} :
    (createSchedule row).Honors P resolved rejected state ↔
      P.may state (outside (.createSchedule row)) ∧
        (∀ done, resolved
          (P.next state (outside (.createSchedule row)) (Except.ok done)) done) ∧
        ∀ e, rejected
          (P.next state (outside (.createSchedule row)) (Except.error e)) e :=
  honors_ask_result (.createSchedule row) id id (fun _ => rfl) fun _ => rfl

theorem honors_findSchedules (start count : Nat)
    (conditional : Conditional ScheduledJobColumn)
    {resolved : M → List ScheduledJobDataModel → Prop} :
    (findSchedules start count conditional).Honors P resolved rejected state ↔
      P.may state (outside (.findSchedules start count conditional)) ∧
        (∀ rows, resolved (P.next state
          (outside (.findSchedules start count conditional)) (Except.ok rows)) rows) ∧
        ∀ e, rejected (P.next state
          (outside (.findSchedules start count conditional)) (Except.error e)) e :=
  honors_ask_result (.findSchedules start count conditional) id id (fun _ => rfl)
    fun _ => rfl

theorem honors_updateSchedule (pk : PrimaryKeyType) (patch : ScheduledJobPatch)
    (conditional : Conditional ScheduledJobColumn) {resolved : M → Nat → Prop} :
    (updateSchedule pk patch conditional).Honors P resolved rejected state ↔
      P.may state (outside (.updateSchedule pk patch conditional)) ∧
        (∀ count, resolved (P.next state
          (outside (.updateSchedule pk patch conditional)) (Except.ok count)) count) ∧
        ∀ e, rejected (P.next state
          (outside (.updateSchedule pk patch conditional)) (Except.error e)) e :=
  honors_ask_result (.updateSchedule pk patch conditional) id id (fun _ => rfl)
    fun _ => rfl

theorem honors_addTask (row : TaskModel) {resolved : M → Unit → Prop} :
    (addTask row).Honors P resolved rejected state ↔
      P.may state (outside (.createTask row)) ∧
        (∀ done, resolved
          (P.next state (outside (.createTask row)) (Except.ok done)) done) ∧
        ∀ e, rejected
          (P.next state (outside (.createTask row)) (Except.error e)) e :=
  honors_ask_result (.createTask row) id id (fun _ => rfl) fun _ => rfl

theorem honors_findTasks (start count : Nat) (conditional : Conditional TaskColumn)
    {resolved : M → List TaskModel → Prop} :
    (findTasks start count conditional).Honors P resolved rejected state ↔
      P.may state (outside (.findTasks start count conditional)) ∧
        (∀ rows, resolved (P.next state
          (outside (.findTasks start count conditional)) (Except.ok rows)) rows) ∧
        ∀ e, rejected (P.next state
          (outside (.findTasks start count conditional)) (Except.error e)) e :=
  honors_ask_result (.findTasks start count conditional) id id (fun _ => rfl)
    fun _ => rfl

theorem honors_updateTask (pk : PrimaryKeyType) (patch : TaskPatch)
    (conditional : Conditional TaskColumn) {resolved : M → Nat → Prop} :
    (updateTask pk patch conditional).Honors P resolved rejected state ↔
      P.may state (outside (.updateTask pk patch conditional)) ∧
        (∀ count, resolved (P.next state
          (outside (.updateTask pk patch conditional)) (Except.ok count)) count) ∧
        ∀ e, rejected (P.next state
          (outside (.updateTask pk patch conditional)) (Except.error e)) e :=
  honors_ask_result (.updateTask pk patch conditional) id id (fun _ => rfl)
    fun _ => rfl

theorem honors_startJob (taskId jobName context : String)
    {resolved : M → JobExecutionState → Prop} :
    (startJob taskId jobName context).Honors P resolved rejected state ↔
      P.may state (outside (.startJob taskId jobName context)) ∧
        (∀ answer, resolved (P.next state
          (outside (.startJob taskId jobName context)) (Except.ok answer)) answer) ∧
        ∀ e, rejected (P.next state
          (outside (.startJob taskId jobName context)) (Except.error e)) e :=
  honors_ask_result (.startJob taskId jobName context) id id (fun _ => rfl)
    fun _ => rfl

theorem honors_currentTimeUTC {resolved : M → Date → Prop} :
    currentTimeUTC.Honors P resolved rejected state ↔
      P.may state (outside .currentTimeUTC) ∧
        ∀ date, resolved (P.next state (outside .currentTimeUTC) date) date :=
  honors_ask_ok .currentTimeUTC id

theorem honors_createPrimaryKeyStrat {resolved : M → PrimaryKeyType → Prop} :
    createPrimaryKeyStrat.Honors P resolved rejected state ↔
      P.may state (outside .createPrimaryKey) ∧
        ∀ pk, resolved (P.next state (outside .createPrimaryKey) pk) pk :=
  honors_ask_ok .createPrimaryKey id

theorem honors_leaseOwnerStrategy {resolved : M → LeaseIdType → Prop} :
    leaseOwnerStrategy.Honors P resolved rejected state ↔
      P.may state (outside .createLeaseId) ∧
        ∀ leaseId, resolved (P.next state (outside .createLeaseId) leaseId) leaseId :=
  honors_ask_ok .createLeaseId id

theorem honors_registerRetryCallback (delaySeconds : Int)
    {resolved : M → Unit → Prop} :
    (registerRetryCallback delaySeconds).Honors P resolved rejected state ↔
      P.may state (outside (.retryDelay delaySeconds)) ∧
        ∀ done, resolved
          (P.next state (outside (.retryDelay delaySeconds)) done) done :=
  honors_ask_ok (.retryDelay delaySeconds) id

theorem honors_emit (event : SchedulerEvent) {resolved : M → Unit → Prop} :
    (emit event).Honors P resolved rejected state ↔
      P.may state (outside (.emit event)) ∧
        ∀ done, resolved (P.next state (outside (.emit event)) done) done :=
  honors_ask_ok (.emit event) id

end

end TernScheduler
