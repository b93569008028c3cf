import TernScheduler.Datastore.Conditional
import TernScheduler.Library.KeyedTable
import TernScheduler.Library.Promise

/-!
# The database and the calls that leave a node

`Act` lists the calls a controller makes outside its own code: the
`DbTableController` calls on the two tables, the job framework, the clock, the
two identifier strategies, the retry timer and the event emitter.  Each store
call is atomic, which is what the data store documentation asks of a backend.

* `Database.serve` is the effect of a store call and its reply when the backend
  is available.
* `Database.Exec` adds what else a node can see: a store call rejected without
  effect, and any answer at all from the calls that are not store calls.
-/

namespace TernScheduler

open Interleaving KeyedTable

/-! ## Partial rows -/

/-- `Partial<ScheduledJobDataModel>`: a field that is `none` is absent. -/
structure ScheduledJobPatch where
  updateState : Option (Option ScheduleUpdateStateType) := none
  updateTaskPk : Option (Option PrimaryKeyType) := none
  leaseOwner : Option (Option LeaseIdType) := none
  leaseExpires : Option (Option Date) := none
  repairState : Option (Option String) := none
  pasture : Option Bool := none
  pastureReason : Option (Option String) := none
  deriving DecidableEq, Repr

/-- Write the fields that are present. -/
def ScheduledJobPatch.apply (patch : ScheduledJobPatch)
    (row : ScheduledJobDataModel) : ScheduledJobDataModel :=
  { row with
    updateState := patch.updateState.getD row.updateState
    updateTaskPk := patch.updateTaskPk.getD row.updateTaskPk
    leaseOwner := patch.leaseOwner.getD row.leaseOwner
    leaseExpires := patch.leaseExpires.getD row.leaseExpires
    repairState := patch.repairState.getD row.repairState
    pasture := patch.pasture.getD row.pasture
    pastureReason := patch.pastureReason.getD row.pastureReason }

/-- `Partial<TaskDataModel>`: a field that is `none` is absent. -/
structure TaskPatch where
  state : Option TaskStateType := none
  executionJobId : Option (Option ExecutionJobId) := none
  executionQueued : Option (Option Date) := none
  executionStarted : Option (Option Date) := none
  executionFinished : Option (Option Date) := none
  completedInfo : Option (Option String) := none
  deriving DecidableEq, Repr

/-- Write the fields that are present. -/
def TaskPatch.apply (patch : TaskPatch) (row : TaskModel) : TaskModel :=
  { row with
    state := patch.state.getD row.state
    executionJobId := patch.executionJobId.getD row.executionJobId
    executionQueued := patch.executionQueued.getD row.executionQueued
    executionStarted := patch.executionStarted.getD row.executionStarted
    executionFinished := patch.executionFinished.getD row.executionFinished
    completedInfo := patch.completedInfo.getD row.completedInfo }

@[simp] theorem ScheduledJobPatch.apply_pk (patch : ScheduledJobPatch)
    (row : ScheduledJobDataModel) : (patch.apply row).pk = row.pk := rfl

@[simp] theorem TaskPatch.apply_pk (patch : TaskPatch) (row : TaskModel) :
    (patch.apply row).pk = row.pk := rfl

/-! ## Calls that leave a node -/

/-- A call to the outside. -/
inductive Act
  | createSchedule (row : ScheduledJobDataModel)
  | findSchedules (startIndex maximumRecordCount : Nat)
      (conditional : Conditional ScheduledJobColumn)
  | updateSchedule (pk : PrimaryKeyType) (newValues : ScheduledJobPatch)
      (conditional : Conditional ScheduledJobColumn)
  | createTask (row : TaskModel)
  | findTasks (startIndex maximumRecordCount : Nat)
      (conditional : Conditional TaskColumn)
  | updateTask (pk : PrimaryKeyType) (newValues : TaskPatch)
      (conditional : Conditional TaskColumn)
  | startJob (taskId jobName context : String)
  | currentTimeUTC
  | createPrimaryKey
  | createLeaseId
  | retryDelay (delaySeconds : Int)
  | emit (event : SchedulerEvent)

/-- What each call settles with. -/
abbrev Act.Reply : Act → Type
  | createSchedule _ => Except JsError Unit
  | findSchedules .. => Except JsError (List ScheduledJobDataModel)
  | updateSchedule .. => Except JsError Nat
  | createTask _ => Except JsError Unit
  | findTasks .. => Except JsError (List TaskModel)
  | updateTask .. => Except JsError Nat
  | startJob .. => Except JsError JobExecutionState
  | currentTimeUTC => Date
  | createPrimaryKey => PrimaryKeyType
  | createLeaseId => LeaseIdType
  | retryDelay _ => Unit
  | emit _ => Unit

/-- The calls to the data store. -/
def Act.IsStoreCall : Act → Prop
  | createSchedule _ | findSchedules .. | updateSchedule .. => True
  | createTask _ | findTasks .. | updateTask .. => True
  | _ => False

instance : DecidablePred Act.IsStoreCall
  | .createSchedule _ | .findSchedules .. | .updateSchedule .. => isTrue trivial
  | .createTask _ | .findTasks .. | .updateTask .. => isTrue trivial
  | .startJob .. | .currentTimeUTC | .createPrimaryKey => isFalse id
  | .createLeaseId | .retryDelay _ | .emit _ => isFalse id

/-- A store call rejected with the given error; the other calls have no such
reply. -/
def Act.rejection (error : JsError) : (act : Act) → Option act.Reply
  | createSchedule _ => some (.error error)
  | findSchedules .. => some (.error error)
  | updateSchedule .. => some (.error error)
  | createTask _ => some (.error error)
  | findTasks .. => some (.error error)
  | updateTask .. => some (.error error)
  | startJob .. | currentTimeUTC | createPrimaryKey => none
  | createLeaseId | retryDelay _ | emit _ => none

/-- Where a controller stands when it makes a call: outside any lease work,
inside the callback run under a lease, or inside a repair under a lease.  The
scope labels the call and has no effect on it. -/
inductive Scope
  | outside
  | callback (leaseId : LeaseIdType)
  | repair (leaseId : LeaseIdType)
  deriving DecidableEq, Repr

/-- A call and where it is made from. -/
structure Operation where
  scope : Scope
  act : Act

/-- The operations of the controllers. -/
abbrev signature : Signature where
  Op := Operation
  Reply operation := operation.act.Reply

/-- `Promise<α>` in this code. -/
abbrev Js (α : Type) : Type := Interleaving.Promise signature JsError α

/-- The same program with every call labelled as made in `scope`. -/
def relabel {α : Type} (scope : Scope) : Prog signature α → Prog signature α
  | .ret value => .ret value
  | .call ⟨_, act⟩ next =>
      .call ⟨scope, act⟩ fun reply => relabel scope (next reply)

/-- A promise whose calls are made in `scope`. -/
def inScope {α : Type} (scope : Scope) (promise : Js α) : Js α :=
  relabel scope promise

/-- A call made outside any lease work, which is how the helpers below label
their calls. -/
abbrev outside (act : Act) : signature.Op := Operation.mk .outside act

/-- Make a call that settles with a result. -/
def ask (act : Act) {α : Type} (answer : act.Reply → Except JsError α) : Js α :=
  Interleaving.Promise.perform (outside act) answer

/-- `table.create` on the schedule table. -/
def createSchedule (row : ScheduledJobDataModel) : Js Unit :=
  ask (.createSchedule row) id

/-- `table.find` on the schedule table. -/
def findSchedules (startIndex maximumRecordCount : Nat)
    (conditional : Conditional ScheduledJobColumn) :
    Js (List ScheduledJobDataModel) :=
  ask (.findSchedules startIndex maximumRecordCount conditional) id

/-- `table.conditionalUpdate` on the schedule table. -/
def updateSchedule (pk : PrimaryKeyType) (newValues : ScheduledJobPatch)
    (conditional : Conditional ScheduledJobColumn) : Js Nat :=
  ask (.updateSchedule pk newValues conditional) id

/-- `table.create` on the task table. -/
def createTask (row : TaskModel) : Js Unit := ask (.createTask row) id

/-- `table.find` on the task table. -/
def findTasks (startIndex maximumRecordCount : Nat)
    (conditional : Conditional TaskColumn) : Js (List TaskModel) :=
  ask (.findTasks startIndex maximumRecordCount conditional) id

/-- `table.conditionalUpdate` on the task table. -/
def updateTask (pk : PrimaryKeyType) (newValues : TaskPatch)
    (conditional : Conditional TaskColumn) : Js Nat :=
  ask (.updateTask pk newValues conditional) id

/-- The job framework's `startJob`. -/
def startJob (taskId jobName context : String) : Js JobExecutionState :=
  ask (.startJob taskId jobName context) id

/-- `CurrentTimeUTCStrategy`. -/
def currentTimeUTC : Js Date := ask .currentTimeUTC .ok

/-- `CreatePrimaryKeyStrategy`. -/
def createPrimaryKeyStrat : Js PrimaryKeyType := ask .createPrimaryKey .ok

/-- `LeaseBehavior.leaseOwnerStrategy`. -/
def leaseOwnerStrategy : Js LeaseIdType := ask .createLeaseId .ok

/-- `LeaseBehavior.registerRetryCallback`: settles when the callback is called. -/
def registerRetryCallback (delaySeconds : Int) : Js Unit :=
  ask (.retryDelay delaySeconds) .ok

/-- `messaging.emit`. -/
def emit (event : SchedulerEvent) : Js Unit := ask (.emit event) .ok

/-! ## The database -/

/-- The schedule table. -/
abbrev ScheduledJobTable := Table fun row : ScheduledJobDataModel => row.pk

/-- The task table. -/
abbrev TaskTable := Table fun row : TaskModel => row.pk

/-- `Database` of `db-api.ts`, and the clock the nodes share. -/
structure Database where
  scheduledJobTable : ScheduledJobTable
  taskTable : TaskTable
  clock : Date

namespace Database

/-- No rows yet. -/
def empty (clock : Date) : Database := ⟨.empty, .empty, clock⟩

/-- A store call on an available backend: its reply and the database after it.
The calls that are not store calls have no answer here. -/
def serve (reading : BeforeDateReading) (db : Database) :
    (act : Act) → Option (act.Reply × Database)
  | .createSchedule row =>
      match db.scheduledJobTable.create row with
      | some table => some (.ok (), { db with scheduledJobTable := table })
      | none => some (.error (.duplicatePrimaryKey "ScheduledJob" row.pk), db)
  | .findSchedules startIndex maximumRecordCount conditional =>
      some (.ok (db.scheduledJobTable.select startIndex maximumRecordCount
        fun row => conditional.holds reading row.column), db)
  | .updateSchedule pk newValues conditional =>
      let updated := db.scheduledJobTable.modify pk
        (fun row => conditional.holds reading row.column) newValues.apply
        newValues.apply_pk
      some (.ok updated.2, { db with scheduledJobTable := updated.1 })
  | .createTask row =>
      match db.taskTable.create row with
      | some table => some (.ok (), { db with taskTable := table })
      | none => some (.error (.duplicatePrimaryKey "ScheduledJob" row.pk), db)
  | .findTasks startIndex maximumRecordCount conditional =>
      some (.ok (db.taskTable.select startIndex maximumRecordCount
        fun row => conditional.holds reading row.column), db)
  | .updateTask pk newValues conditional =>
      let updated := db.taskTable.modify pk
        (fun row => conditional.holds reading row.column) newValues.apply
        newValues.apply_pk
      some (.ok updated.2, { db with taskTable := updated.1 })
  | .startJob .. | .currentTimeUTC | .createPrimaryKey => none
  | .createLeaseId | .retryDelay _ | .emit _ => none

/-- What a node can see of one call: the backend serves it, or a store call is
rejected without effect, or it is not a store call and the answer is whatever
the environment gives. -/
inductive Exec (reading : BeforeDateReading) (db : Database) :
    (act : Act) → act.Reply → Database → Prop
  | served {act : Act} {reply : act.Reply} {after : Database}
      (hServe : db.serve reading act = some (reply, after)) :
      Exec reading db act reply after
  | rejected {act : Act} {reply : act.Reply} (error : JsError)
      (hReply : act.rejection error = some reply) :
      Exec reading db act reply db
  | answered {act : Act} (reply : act.Reply)
      (hOther : ¬ act.IsStoreCall) : Exec reading db act reply db

end Database

end TernScheduler
