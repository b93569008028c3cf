import TernScheduler.JsDate

/-!
# The stored data and the errors

The records of `model/schedule.ts` and `model/task.ts`, the job states of
`executor/types.ts`, and the errors of `errors/`.

An error is known to this code by three things only: its truth value, the class
its prototype belongs to, and the text `String` gives it.  Values thrown by code
outside the scheduler are therefore kept as a truth value and a text.
-/

namespace TernScheduler

abbrev PrimaryKeyType := String
abbrev LeaseIdType := String
abbrev ExecutionJobId := String
abbrev StrategyName := String

/-- The names every plain object inherits from `Object.prototype`.  Each reads as a
truthy value. -/
def inheritedNames : List String :=
  ["constructor", "__defineGetter__", "__defineSetter__", "hasOwnProperty",
    "__lookupGetter__", "__lookupSetter__", "isPrototypeOf", "propertyIsEnumerable",
    "toString", "valueOf", "__proto__", "toLocaleString"]

/-- JavaScript's `value || null` on a string: the empty string counts as
absent. -/
def orNull (value : Option String) : Option String :=
  value.filter fun text => text ≠ ""

/-! ## Scheduled jobs -/

inductive ScheduleUpdateStateType
  | addTask
  | startTask
  | endTask
  | pasture
  | repair
  deriving DecidableEq, Repr

/-- The stored text of an update state. -/
def ScheduleUpdateStateType.text : ScheduleUpdateStateType → String
  | addTask => "add-task"
  | startTask => "start-task"
  | endTask => "end-task"
  | pasture => "pasture"
  | repair => "repair"

/-- `NewScheduledJob` of `controller/schedule.ts`. -/
structure NewScheduledJob where
  displayName : String
  description : String
  duplicateStrategy : StrategyName
  jobName : String
  jobContext : String
  retryStrategy : StrategyName
  taskCreationStrategy : StrategyName
  scheduleDefinition : String
  previousSchedule : Option PrimaryKeyType := none
  previousReason : Option String := none
  deriving DecidableEq, Repr

structure ScheduledJobModel extends NewScheduledJob where
  pk : PrimaryKeyType
  updateState : Option ScheduleUpdateStateType
  updateTaskPk : Option PrimaryKeyType
  pasture : Bool
  pastureReason : Option String
  createdOn : Date
  repairState : Option String
  deriving DecidableEq, Repr

/-- `ScheduledJobDataModel`: the row of the schedule table. -/
structure ScheduledJobDataModel extends ScheduledJobModel where
  leaseOwner : Option LeaseIdType
  leaseExpires : Option Date
  deriving DecidableEq, Repr

/-! ## Tasks -/

inductive TaskStateType
  | pending
  | queued
  | started
  | startError
  | completeQueued
  | completeError
  | failed
  | failRestarted
  | completed
  deriving DecidableEq, Repr

/-- The stored text of a task state. -/
def TaskStateType.text : TaskStateType → String
  | pending => "pending"
  | queued => "queued"
  | started => "started"
  | startError => "start-error"
  | completeQueued => "complete-queued"
  | completeError => "complete-error"
  | failed => "failed"
  | failRestarted => "fail-restarted"
  | completed => "completed"

theorem TaskStateType.text_injective : Function.Injective TaskStateType.text := by
  intro first second h
  cases first <;> cases second <;> first | rfl | (revert h; decide)

/-- `TaskModel`, which is also the row of the task table. -/
structure TaskModel where
  pk : PrimaryKeyType
  schedule : PrimaryKeyType
  state : TaskStateType
  createdOn : Date
  executeAt : JsDate
  executionJobId : Option ExecutionJobId
  executionQueued : Option Date
  executionStarted : Option Date
  executionFinished : Option Date
  nextTimeoutCheck : Option Date
  retryIndex : Nat
  completedInfo : Option String
  deriving DecidableEq, Repr

/-! ## Job execution states -/

/-- `JobExecutionState` of `executor/types.ts`: the four states the scheduler
knows, and any other text in the `state` field. -/
inductive JobExecutionState
  | running (jobId : ExecutionJobId)
  | didNotStart (result : Option String)
  | completed (jobId : ExecutionJobId) (result : Option String)
  | failed (jobId : ExecutionJobId) (result : Option String)
  | other (state : String)
  deriving DecidableEq, Repr

/-- `JSON.stringify` of a state, with its fields in the order they are
declared. -/
def JobExecutionState.stringify : JobExecutionState → String
  | running jobId => "\x7b\"state\":\"running\",\"jobId\":\"" ++ jobId ++ "\"\x7d"
  | didNotStart result => "\x7b\"state\":\"did-not-start\"" ++ resultField result ++ "\x7d"
  | completed jobId result =>
      "\x7b\"state\":\"completed\",\"jobId\":\"" ++ jobId ++ "\"" ++ resultField result ++ "\x7d"
  | failed jobId result =>
      "\x7b\"state\":\"failed\",\"jobId\":\"" ++ jobId ++ "\"" ++ resultField result ++ "\x7d"
  | other state => "\x7b\"state\":\"" ++ state ++ "\"\x7d"
where
  resultField : Option String → String
    | none => ""
    | some result => ",\"result\":\"" ++ result ++ "\""

/-! ## Errors -/

/-- The classes of `errors/` that code tests with `instanceof`, or that an
error's prototype is set to. -/
inductive ErrorClass
  | leaseNotObtained
  | leaseNotOwned
  | scheduledJobNotFound
  | taskNotFound
  | invalidTaskState
  | invalidJobExecutionStatus
  | duplicatePrimaryKey
  | strategyNotRegistered
  | invalidScheduleDefinition
  | tern
  | foreign
  deriving DecidableEq, Repr

/-- What a promise can be rejected with.  `foreign` is a value that does not
come from the scheduler: its truth value and its `String`. -/
inductive JsError
  | leaseNotObtained (ourLeaseId : LeaseIdType) (job : ScheduledJobDataModel)
      (leaseOwner : Option LeaseIdType) (leaseExpires : Option Date)
  | leaseNotOwned (ourLeaseId : LeaseIdType) (job : ScheduledJobDataModel)
      (leaseOwner : Option LeaseIdType) (leaseExpires : Option Date)
  | scheduledJobNotFound (jobPk : PrimaryKeyType)
  | taskNotFound (taskPk : PrimaryKeyType)
  | invalidTaskState (task : TaskModel) (newState expectedState : TaskStateType)
  | invalidJobExecutionStatus (jobExecutionState : JobExecutionState)
  | duplicatePrimaryKey (modelName : String) (pk : PrimaryKeyType)
  | invalidScheduleDefinition (scheduledJobPk : PrimaryKeyType)
      (strategyDefinition problem : String)
  | tern (message : String)
  | foreign (truthy : Bool) (text : String)
  deriving DecidableEq, Repr

namespace JsError

/-- The class `Object.setPrototypeOf` leaves the error in.  The constructor of
`InvalidScheduleDefinitionError` sets the prototype of
`StrategyNotRegisteredError`, so no error is an instance of
`InvalidScheduleDefinitionError`. -/
def prototype : JsError → ErrorClass
  | leaseNotObtained .. => .leaseNotObtained
  | leaseNotOwned .. => .leaseNotOwned
  | scheduledJobNotFound .. => .scheduledJobNotFound
  | taskNotFound .. => .taskNotFound
  | invalidTaskState .. => .invalidTaskState
  | invalidJobExecutionStatus .. => .invalidJobExecutionStatus
  | duplicatePrimaryKey .. => .duplicatePrimaryKey
  | invalidScheduleDefinition .. => .strategyNotRegistered
  | tern .. => .tern
  | foreign .. => .foreign

/-- `error instanceof Class`, for the classes without subclasses. -/
def instanceOf (error : JsError) (errorClass : ErrorClass) : Bool :=
  error.prototype = errorClass

/-- `!!error`: every error object is truthy. -/
def truthy : JsError → Bool
  | foreign truthy _ => truthy
  | _ => true

/-- A nullable value inside a template string. -/
private def nullable (value : Option String) : String := value.getD "null"

/-- The `message` of an error object. -/
def message (zone : TimeZone) : JsError → String
  | leaseNotObtained ourLeaseId job leaseOwner leaseExpires =>
      "Could not obtain lease for " ++ ourLeaseId ++ " against job " ++ job.pk ++
        "; currently owned by " ++ nullable leaseOwner ++ " expires " ++
        nullable (leaseExpires.map zone.toString)
  | leaseNotOwned ourLeaseId job leaseOwner leaseExpires =>
      "Lease not currently owned for " ++ ourLeaseId ++ " against job " ++ job.pk ++
        "; currently owned by " ++ nullable leaseOwner ++ " expires " ++
        nullable (leaseExpires.map zone.toString)
  | scheduledJobNotFound jobPk => "No such scheduled job " ++ jobPk
  | taskNotFound taskPk => "No such task " ++ taskPk
  | invalidTaskState task newState expectedState =>
      "Could not update task " ++ task.pk ++ " to state " ++ newState.text ++
        ": expected existing state " ++ expectedState.text ++ ", found " ++ task.state.text
  | invalidJobExecutionStatus state =>
      "Unknown job execution state: " ++ state.stringify ++
        "; \"state\" must be one of completed,did-not-start,failed,running"
  | duplicatePrimaryKey modelName pk => modelName ++ " already has primary key " ++ pk
  | invalidScheduleDefinition scheduledJobPk strategyDefinition problem =>
      "Scheduled job " ++ scheduledJobPk ++ " has invalid strategy definition (" ++ problem ++
        "): " ++ strategyDefinition
  | tern message => message
  | foreign _ text => text

/-- The `name` of an error object, as its constructor sets it. -/
def name : JsError → String
  | leaseNotObtained .. => "LeaseNotObtainedError"
  | leaseNotOwned .. => "LeaseNotOwnedError"
  | scheduledJobNotFound .. => "ScheduledJobNotFoundError"
  | taskNotFound .. => "TaskNotFoundError"
  | invalidTaskState .. => "InvalidTaskStateError"
  | invalidJobExecutionStatus .. => "InvalidJobExecutionStatusError"
  | duplicatePrimaryKey .. => "DuplicatePrimaryKeyError"
  | invalidScheduleDefinition .. => "StrategyNotRegisteredError"
  | tern .. => "TernError"
  | foreign .. => ""

/-- `String(error)`. -/
def text (zone : TimeZone) (error : JsError) : String :=
  match error with
  | foreign _ text => text
  | _ => error.name ++ ": " ++ error.message zone

/-- No error passes the test for `InvalidScheduleDefinitionError`. -/
@[simp] theorem not_instanceOf_invalidScheduleDefinition (error : JsError) :
    error.instanceOf .invalidScheduleDefinition = false := by
  cases error <;> rfl

end JsError

/-! ## Events -/

/-- The events the controllers emit (`messaging/api.ts`). -/
inductive SchedulerEvent
  | scheduledJobDisabled (schedule : ScheduledJobDataModel)
  | taskCreated (task : TaskModel)
  | taskRunning (task : TaskModel) (execId : ExecutionJobId)
  | taskFinished (task : TaskModel)
  | taskFinishedNotUpdated (task : TaskModel) (discoveredState : TaskStateType)
      (finishedState : JobExecutionState)
  | taskFinishedNoLease (task : TaskModel) (leaseOwner : Option LeaseIdType)
      (finishedState : JobExecutionState)
  | taskStartNoLease (task : TaskModel) (leaseOwner : Option LeaseIdType)
  | generalError (error : JsError)
  | invalidScheduleDefinition (schedule : ScheduledJobDataModel)
  | internalError (message : String)
  deriving DecidableEq, Repr

end TernScheduler
