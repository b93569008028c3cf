import TernScheduler.Model

/-!
# Strategies

The interfaces of `strategies/`: how a task's time is chosen, whether a task is
skipped while another runs, and whether a failed task is retried.  A strategy
may throw, so each answers in `Except JsError`.
-/

namespace TernScheduler

/-- A `StrategyRegistry`: the strategies registered under each name. -/
def StrategyRegistry (T : Type) : Type := StrategyName → Option T

/-- `StrategyRegistry.get`: throws when nothing is registered under the name. -/
def StrategyRegistry.get {T : Type} (registry : StrategyRegistry T)
    (name : StrategyName) : Except JsError T :=
  match registry name with
  | some strategy => .ok strategy
  | none =>
      .error (.foreign true ("Error: No such registered strategy \"" ++ name ++ "\""))

/-- An unknown name is answered with an error object. -/
theorem StrategyRegistry.truthy_of_get {T : Type} {registry : StrategyRegistry T}
    {name : StrategyName} {e : JsError} (h : registry.get name = .error e) :
    e.truthy = true := by
  unfold StrategyRegistry.get at h
  split at h
  · cases h
  · cases h
    rfl

inductive TaskCreationAction
  | queue (runAt : JsDate)
  | disable
  deriving DecidableEq, Repr

/-- `TaskCreationStrategy`: the kind in its `after` field, and the functions
that kind has. -/
inductive TaskCreationStrategy
  | finish
      (createFromNewSchedule : Date → ScheduledJobModel → Except JsError JsDate)
      (createAfterTaskFinishes :
        Date → ScheduledJobModel → Except JsError TaskCreationAction)
  | start
      (createFromNewSchedule : Date → ScheduledJobModel → Except JsError JsDate)
      (createAfterTaskStarts :
        Date → ScheduledJobModel → Except JsError TaskCreationAction)
  | new
      (createFromNewSchedule : Date → ScheduledJobModel → Except JsError JsDate)

/-- The function every kind of strategy has. -/
def TaskCreationStrategy.createFromNewSchedule :
    TaskCreationStrategy → Date → ScheduledJobModel → Except JsError JsDate
  | finish create _ => create
  | start create _ => create
  | new create => create

/-- `RetryTaskStrategy`: the number of seconds to wait, or `null`. -/
abbrev RetryTaskStrategy :=
  ScheduledJobModel → TaskModel → String → Except JsError (Option JsNumber)

structure DuplicateTaskStrategy where
  duplicateFindCount : Nat
  shouldSkip :
    ScheduledJobModel → List TaskModel → TaskModel → Except JsError Bool

/-- The strategy registered as `always-skip`. -/
def alwaysSkipDuplicateTaskStrategy : DuplicateTaskStrategy where
  duplicateFindCount := 1
  shouldSkip _ activeTasks _ := .ok (0 < activeTasks.length)

/-- The strategy registered as `always-run`. -/
def alwaysRunDuplicateTaskStrategy : DuplicateTaskStrategy where
  duplicateFindCount := 1
  shouldSkip _ _ _ := .ok false

/-- `LeaseBehavior`.  `leaseOwnerStrategy` and `registerRetryCallback` are
operations of the environment. -/
structure LeaseBehavior where
  leaseTimeSeconds : Int
  retrySecondsDelay : List Int

/-- `CurrentTimeUTCStrategy`: the dates it may answer with while the clock of the host
shows a time. -/
abbrev CurrentTimeUTCStrategy := Date → Date → Prop

/-- `StandardTime` reads the clock of the host. -/
def standardTime : CurrentTimeUTCStrategy := fun host now => now = host

/-- What one instance of the scheduler is configured with: its lease behavior,
its strategy registries, the time zone of the server it runs on, and its clock. -/
structure Node where
  leaseBehavior : LeaseBehavior
  retryReg : StrategyRegistry RetryTaskStrategy
  taskCreationReg : StrategyRegistry TaskCreationStrategy
  duplicateTaskReg : StrategyRegistry DuplicateTaskStrategy
  zone : TimeZone
  currentTimeUTC : CurrentTimeUTCStrategy := standardTime

end TernScheduler
