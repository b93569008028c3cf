import TernScheduler.Controller.Conformance

/-!
# Recurring jobs

A recurring job lives on a chain of tasks: when a task starts or finishes, the
call that moved it on has to leave the next one behind.  Whether a call has done
so can be read off its session alone.

* `ChainKind.live` says which tasks keep a chain going.
* `Carried` reads a session: the last thing it did about live tasks of its job was
  to see one or to leave one, not to use one up.
* `handover` is the protocol that gives a lease up only then.
-/

namespace TernScheduler

open Interleaving

/-! ## Recurring jobs -/

/-- When the creation strategy of a recurring job is asked for the next task. -/
inductive ChainKind
  | start
  | finish
  deriving DecidableEq, Repr

namespace ChainKind

/-- A creation strategy of the kind. -/
def strategy (kind : ChainKind)
    (createFromNewSchedule : Date → ScheduledJobModel → Except JsError JsDate)
    (createNext : Date → ScheduledJobModel → Except JsError TaskCreationAction) :
    TaskCreationStrategy :=
  match kind with
  | .start => .start createFromNewSchedule createNext
  | .finish => .finish createFromNewSchedule createNext

theorem createFromNewSchedule_strategy (kind : ChainKind)
    (create : Date → ScheduledJobModel → Except JsError JsDate)
    (next : Date → ScheduledJobModel → Except JsError TaskCreationAction) :
    (kind.strategy create next).createFromNewSchedule = create := by
  cases kind <;> rfl

/-- The states in which a task keeps the chain going: pending, and started if the
next task is only added when it finishes. -/
def live : ChainKind → TaskStateType → Prop
  | .start, state => state = .pending
  | .finish, state => state = .pending ∨ state = .started

@[simp] theorem live_pending (kind : ChainKind) : kind.live .pending := by
  cases kind with
  | start => exact rfl
  | finish => exact Or.inl rfl

@[simp] theorem not_live_queued (kind : ChainKind) : ¬ kind.live .queued := by
  cases kind <;> simp [live]

end ChainKind

/-- A job framework's report on a job it was asked to run. -/
def JobExecutionState.Reported : JobExecutionState → Prop
  | .running _ | .completed _ _ | .failed _ _ => True
  | _ => False

/-- The report does not end the chain: a job that waits for a finish to ask for the
next task is not told of one by the launch itself. -/
def ChainKind.Continues (kind : ChainKind) : JobExecutionState → Prop
  | .completed _ _ => kind = .start
  | _ => True

/-- The strategies a node has registered for a recurring job: the creation strategy
is of the kind, never throws and always asks for another task, and a task is always
run or skipped while another one runs. -/
structure Recurs (kind : ChainKind) (node : Node) (definition : NewScheduledJob) :
    Prop where
  creation : ∃ createFromNewSchedule createNext,
    node.taskCreationReg.get definition.taskCreationStrategy =
        .ok (kind.strategy createFromNewSchedule createNext) ∧
      (∀ now sched, ∃ runAt, createFromNewSchedule now sched = .ok runAt) ∧
      ∀ now sched, ∃ runAt, createNext now sched = .ok (.queue runAt)
  duplicate :
    node.duplicateTaskReg.get definition.duplicateStrategy =
        .ok alwaysRunDuplicateTaskStrategy ∨
      node.duplicateTaskReg.get definition.duplicateStrategy =
        .ok alwaysSkipDuplicateTaskStrategy

/-- The retry strategy of a job throws nothing falsy, if the next task depends on
its answer. -/
def RetriesThrowErrors (kind : ChainKind) (node : Node) (definition : NewScheduledJob) :
    Prop :=
  kind = .finish → ∀ retry sched task reason e,
    node.retryReg.get definition.retryStrategy = .ok retry →
      retry sched task reason = .error e → e.truthy = true

section Recurs

variable {kind : ChainKind} {node : Node} {definition : NewScheduledJob}
  {create : Date → ScheduledJobModel → Except JsError JsDate}
  {next : Date → ScheduledJobModel → Except JsError TaskCreationAction}

/-- A strategy of kind `finish` is the recurring one, if the job is recurring. -/
theorem Recurs.of_finish (h : Recurs kind node definition)
    (hGet : node.taskCreationReg.get definition.taskCreationStrategy =
      .ok (.finish create next)) :
    kind = .finish ∧ ∀ now sched, ∃ runAt, next now sched = .ok (.queue runAt) := by
  obtain ⟨_, _, hCreation, -, hNext⟩ := h.creation
  rw [hGet] at hCreation
  cases kind with
  | start => cases hCreation
  | finish =>
      cases hCreation
      exact ⟨rfl, hNext⟩

/-- A strategy of kind `start` is the recurring one, if the job is recurring. -/
theorem Recurs.of_start (h : Recurs kind node definition)
    (hGet : node.taskCreationReg.get definition.taskCreationStrategy =
      .ok (.start create next)) :
    kind = .start ∧ ∀ now sched, ∃ runAt, next now sched = .ok (.queue runAt) := by
  obtain ⟨_, _, hCreation, -, hNext⟩ := h.creation
  rw [hGet] at hCreation
  cases kind with
  | start =>
      cases hCreation
      exact ⟨rfl, hNext⟩
  | finish => cases hCreation

theorem Recurs.not_new (h : Recurs kind node definition) :
    node.taskCreationReg.get definition.taskCreationStrategy ≠ .ok (.new create) := by
  intro hGet
  obtain ⟨_, _, hCreation, -, -⟩ := h.creation
  rw [hGet] at hCreation
  cases kind <;> cases hCreation

end Recurs

/-! ## Reading a session -/

/-- The fact shows a live task of the job, or left one. -/
def Fact.Shows (kind : ChainKind) (job : PrimaryKeyType) : Fact → Prop
  | .foundTasks _ conditional (.ok (_ :: _)) =>
      ∃ state, kind.live state ∧ conditional = taskOf job [state]
  | .createdTask row (.ok _) => kind.live row.state
  | .wroteTask _ newValues _ (.ok (_ + 1)) =>
      ∃ state, kind.live state ∧ newValues.state = some state
  | _ => False

/-- The fact moved a live task on. -/
def Fact.Spends (kind : ChainKind) : Fact → Prop
  | .wroteTask _ _ conditional (.ok (_ + 1)) =>
      ∃ state, kind.live state ∧ conditional = stateEquals state
  | _ => False

/-- The session has used up no live task of the job since it last saw or left one,
or none at all; a session that creates the job starts with none. -/
def Carried (kind : ChainKind) (call : Call) (job : PrimaryKeyType) : List Fact → Prop
  | [] => call.creates = false
  | fact :: facts =>
      fact.Shows kind job ∨ (¬ fact.Spends kind ∧ Carried kind call job facts)

/-- Every store call of the fact was answered or rejected with an error, and a job
that was asked to run reported back in a way that does not end the chain. -/
def Fact.Ordinary (kind : ChainKind) : Fact → Prop
  | .foundTasks _ _ reply => ∀ e, reply = .error e → e.truthy = true
  | .wroteTask _ _ _ reply => ∀ e, reply = .error e → e.truthy = true
  | .createdTask _ reply => ∀ e, reply = .error e → e.truthy = true
  | .startedJob _ reply => ∃ state, reply = .ok state ∧ state.Reported ∧ kind.Continues state

/-- Nothing out of the ordinary has happened to the session. -/
def Ordinary (kind : ChainKind) (facts : List Fact) : Prop :=
  (∀ fact ∈ facts, fact.Ordinary kind) ∧ ¬ FailedAfterStart facts

theorem Ordinary.of_suffix {kind : ChainKind} {facts later : List Fact}
    (h : Ordinary kind later) (hSuffix : facts <:+ later) : Ordinary kind facts := by
  refine ⟨fun fact hFact => h.1 fact (hSuffix.subset hFact), fun hFailed => h.2 ?_⟩
  obtain ⟨pk, first, second, earlier, hFirst, hSecond, hEarlier⟩ := hFailed
  exact ⟨pk, first, second, earlier, hFirst, hSecond, hEarlier.trans hSuffix⟩

/-- If the job is recurring and nothing out of the ordinary has happened, the chain
is carried on. -/
def Chained (kind : ChainKind) (request : Request) (sched : ScheduledJobDataModel)
    (facts : List Fact) : Prop :=
  Recurs kind request.node sched.toNewScheduledJob →
    RetriesThrowErrors kind request.node sched.toNewScheduledJob →
    Ordinary kind facts → Carried kind request.call sched.pk facts

/-- The call may give its lease up. -/
def MayRelease (kind : ChainKind) (request : Request) (session : Session) : Prop :=
  ∃ sched, session.sched = some sched ∧ Chained kind request sched session.facts

/-- The operation gives a lease up for good. -/
def Act.Releases : Act → Prop
  | .updateSchedule _ newValues _ => newValues.updateState = some none
  | _ => False

/-- A call that is responsible for the chain gives its lease up only when the chain
is carried on. -/
def handover (kind : ChainKind) (request : Request) : Protocol signature Session where
  next session operation reply := session.next operation.act reply
  may session operation :=
    operation.act.Releases → request.call.creates ∨ request.call.advances →
      MayRelease kind request session

end TernScheduler
