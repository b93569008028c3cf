import TernScheduler.Strategies
import TernScheduler.TaskCreation

/-!
# The configuration of a node

`TernConfiguration` of `basics.ts` gives a node its lease behavior and its strategies: the
creation strategies `cron` and `once`, the duplicate strategies `always-skip` and
`always-run`, and no retries.

* `createStrategyRegistry` is a plain object, which finds something under the names that every
  object inherits.
* `ternConfiguration` is the node of a configuration.
* `IsCron` says that a strategy answers as `CronTaskCreationStrategy` does, whose search may
  not end.
-/

namespace TernScheduler

/-! ## Registries -/

/-- `createStrategyRegistry`.  Under an inherited name the registry finds what its object
inherits. -/
def createStrategyRegistry {T : Type} (inherited : StrategyName → T) : StrategyRegistry T :=
  fun name => if name ∈ inheritedNames then some (inherited name) else none

/-- An inherited value in place of a creation strategy: it has no `after`, and none of the
functions. -/
def inheritedTaskCreationStrategy (_name : StrategyName) : TaskCreationStrategy :=
  .new fun _ _ =>
    .error (.foreign true "TypeError: strat.createFromNewSchedule is not a function")

/-- An inherited value in place of a duplicate strategy.  Its `duplicateFindCount` is
`undefined`, and what it finds is not looked at. -/
def inheritedDuplicateTaskStrategy (_name : StrategyName) : DuplicateTaskStrategy where
  duplicateFindCount := 0
  shouldSkip _ _ _ := .error (.foreign true "TypeError: dup.shouldSkip is not a function")

/-- An inherited function in place of a retry strategy, called without a `this`.  `Object`
answers with the schedule and `toString` with a text, and neither is a number. -/
def inheritedRetryTaskStrategy (name : StrategyName) : RetryTaskStrategy := fun _ _ _ =>
  if name = "constructor" ∨ name = "toString" then .ok (some none)
  else if name = "__proto__" then
    .error (.foreign true "TypeError: retryReg.get(...) is not a function")
  else .error (.foreign true "TypeError: Cannot convert undefined or null to object")

/-- `StrategyRegistry.register`: what was registered under the name is overwritten. -/
def StrategyRegistry.register {T : Type} (registry : StrategyRegistry T) (name : StrategyName)
    (strat : T) : StrategyRegistry T :=
  fun other => if other = name then some strat else registry other

/-- `SCHEDULE_CRON_STRATEGY`. -/
def scheduleCronStrategy : StrategyName := "cron"

/-- `SCHEDULE_ONCE_STRATEGY`. -/
def scheduleOnceStrategy : StrategyName := "once"

/-- `NO_RETRY_TASK_NAME`. -/
def noRetryTaskName : StrategyName := "none"

/-- `ALWAYS_SKIP_DUPLICATE_TASK_NAME`. -/
def alwaysSkipDuplicateTaskName : StrategyName := "always-skip"

/-- `ALWAYS_RUN_DUPLICATE_TASK_NAME`. -/
def alwaysRunDuplicateTaskName : StrategyName := "always-run"

def registerCronTaskCreationStrategy (cron : TaskCreationStrategy)
    (registry : StrategyRegistry TaskCreationStrategy) : StrategyRegistry TaskCreationStrategy :=
  registry.register scheduleCronStrategy cron

def registerOnceTaskCreationStrategy (once : TaskCreationStrategy)
    (registry : StrategyRegistry TaskCreationStrategy) : StrategyRegistry TaskCreationStrategy :=
  registry.register scheduleOnceStrategy once

def registerNoRetryTaskStrategy (reg : StrategyRegistry RetryTaskStrategy) :
    StrategyRegistry RetryTaskStrategy :=
  reg.register noRetryTaskName fun _ _ _ => .ok none

def registerAlwaysSkipDuplicateTaskStrategy (reg : StrategyRegistry DuplicateTaskStrategy) :
    StrategyRegistry DuplicateTaskStrategy :=
  reg.register alwaysSkipDuplicateTaskName alwaysSkipDuplicateTaskStrategy

def registerAlwaysRunDuplicateTaskStrategy (reg : StrategyRegistry DuplicateTaskStrategy) :
    StrategyRegistry DuplicateTaskStrategy :=
  reg.register alwaysRunDuplicateTaskName alwaysRunDuplicateTaskStrategy

/-! ## Configurations -/

/-- `DEFAULT_LEASE_TIME_SECONDS`. -/
def defaultLeaseTimeSeconds : Int := 300

/-- The arguments of `TernConfiguration` that calls of the controller depend on.  Both
strategies for lease times are asked once, by the constructor. -/
structure TernConfigurationArgs where
  retryLeaseTimeStrategy : List Int
  currentTimeUTCStrategy : Option CurrentTimeUTCStrategy := none
  leaseTimeSeconds : Option Int := none
  createLeaseTimeInSecondsStrategy : Option Int := none

/-- The lease time of the configuration. -/
def TernConfigurationArgs.leaseTime (args : TernConfigurationArgs) : Int :=
  match args.createLeaseTimeInSecondsStrategy, args.leaseTimeSeconds with
  | some seconds, _ => seconds
  | none, some seconds => seconds
  | none, none => defaultLeaseTimeSeconds

/-- `TernConfiguration`, on a server in the given zone. -/
def ternConfiguration (args : TernConfigurationArgs) (zone : TimeZone)
    (cron once : TaskCreationStrategy) : Node where
  leaseBehavior :=
    { leaseTimeSeconds := args.leaseTime
      retrySecondsDelay := args.retryLeaseTimeStrategy }
  retryReg := registerNoRetryTaskStrategy (createStrategyRegistry inheritedRetryTaskStrategy)
  taskCreationReg := registerOnceTaskCreationStrategy once
    (registerCronTaskCreationStrategy cron
      (createStrategyRegistry inheritedTaskCreationStrategy))
  duplicateTaskReg := registerAlwaysSkipDuplicateTaskStrategy
    (registerAlwaysRunDuplicateTaskStrategy
      (createStrategyRegistry inheritedDuplicateTaskStrategy))
  zone := zone
  currentTimeUTC := args.currentTimeUTCStrategy.getD standardTime

section Registered

variable {args : TernConfigurationArgs} {zone : TimeZone} {cron once : TaskCreationStrategy}

/-- What a new registry finds is inherited. -/
theorem inherited_of_create {T : Type} {inherited : StrategyName → T} {name : StrategyName}
    {strategy : T} (hFound : createStrategyRegistry inherited name = some strategy) :
    name ∈ inheritedNames ∧ strategy = inherited name := by
  unfold createStrategyRegistry at hFound
  split at hFound
  · rename_i hName
    exact ⟨hName, (Option.some.inj hFound).symm⟩
  · cases hFound

/-- What a registry finds after a registration. -/
theorem get_of_register {T : Type} {registry : StrategyRegistry T} {name other : StrategyName}
    {strat strategy : T} (hGet : (registry.register name strat).get other = .ok strategy) :
    other = name ∧ strategy = strat ∨ other ≠ name ∧ registry.get other = .ok strategy := by
  by_cases hName : other = name
  · simp only [StrategyRegistry.get, StrategyRegistry.register, if_pos hName] at hGet
    exact Or.inl ⟨hName, (Except.ok.inj hGet).symm⟩
  · simp only [StrategyRegistry.get, StrategyRegistry.register, if_neg hName] at hGet
    exact Or.inr ⟨hName, hGet⟩

theorem get_of_create {T : Type} {inherited : StrategyName → T} {name : StrategyName}
    {strategy : T} (hGet : (createStrategyRegistry inherited).get name = .ok strategy) :
    name ∈ inheritedNames ∧ strategy = inherited name := by
  unfold StrategyRegistry.get at hGet
  split at hGet
  · rename_i hFound
    cases hGet
    exact inherited_of_create hFound
  · cases hGet

/-- The creation strategies of a configuration are `once`, `cron`, and what is inherited. -/
theorem ternConfiguration_creation {name : StrategyName} {strategy : TaskCreationStrategy}
    (hStrategy : (ternConfiguration args zone cron once).taskCreationReg.get name =
      .ok strategy) :
    name = scheduleOnceStrategy ∧ strategy = once ∨
      name = scheduleCronStrategy ∧ strategy = cron ∨
        name ∈ inheritedNames ∧ strategy = inheritedTaskCreationStrategy name := by
  rcases get_of_register hStrategy with hOnce | ⟨-, hRest⟩
  · exact Or.inl hOnce
  · rcases get_of_register hRest with hCron | ⟨-, hNone⟩
    · exact Or.inr (Or.inl hCron)
    · exact Or.inr (Or.inr (get_of_create hNone))

/-- The retry strategy of a configuration never retries, unless it is inherited. -/
theorem ternConfiguration_retry {name : StrategyName} {retry : RetryTaskStrategy}
    (hRetry : (ternConfiguration args zone cron once).retryReg.get name = .ok retry) :
    (retry = fun _ _ _ => .ok none) ∨
      name ∈ inheritedNames ∧ retry = inheritedRetryTaskStrategy name := by
  rcases get_of_register hRetry with ⟨-, hNone⟩ | ⟨-, hRest⟩
  · exact Or.inl hNone
  · exact Or.inr (get_of_create hRest)

end Registered

/-! ## The strategies of a configuration -/

/-- The strategy answers as `CronTaskCreationStrategy` does. -/
inductive IsCron (zone : TimeZone) (parse : String → Except String ScheduleCronModel) :
    TaskCreationStrategy → Prop
  | intro (createFromNewSchedule : Date → ScheduledJobModel → Except JsError JsDate)
      (createAfterTaskStarts : Date → ScheduledJobModel → Except JsError TaskCreationAction)
      (hFirst : ∀ now schedule runAt, createFromNewSchedule now schedule = .ok runAt →
        ∃ fuel, CronTaskCreationStrategy.createFromNewSchedule zone fuel parse (some now)
          schedule = some (.ok runAt))
      (hNext : ∀ now schedule action, createAfterTaskStarts now schedule = .ok action →
        ∃ fuel, CronTaskCreationStrategy.createAfterTaskStarts zone fuel parse (some now)
          schedule = some (.ok action)) :
      IsCron zone parse (.start createFromNewSchedule createAfterTaskStarts)

/-- `OnceTascCreationStrategy`. -/
def onceStrategy (zone : TimeZone) (parse : String → Except String ScheduleOnceModel) :
    TaskCreationStrategy :=
  .new fun now schedule =>
    OnceTascCreationStrategy.createFromNewSchedule zone parse (some now) schedule

/-- A node that was configured by `TernConfiguration`, on a server in the given zone. -/
inductive Node.Configured (zone : TimeZone) (parseCron : String → Except String ScheduleCronModel)
    (parseOnce : String → Except String ScheduleOnceModel) : Node → Prop
  | intro (args : TernConfigurationArgs) (cron : TaskCreationStrategy)
      (hCron : IsCron zone parseCron cron) :
      Configured zone parseCron parseOnce
        (ternConfiguration args zone cron (onceStrategy zone parseOnce))

end TernScheduler
