import TernScheduler.Cron.Next
import TernScheduler.Strategies

/-!
# The strategies `once` and `cron`

`strategies/task-creation/once.ts` and `strategies/task-creation/cron/strategy.ts`.  Both
read a definition from the text of the schedule; `parse` stands for `JSON.parse` and the
type check of the strategy, which answer with the definition or with the problem.
-/

namespace TernScheduler

structure ScheduleOnceModel where
  executeAt : TimeStruct
  deriving DecidableEq, Repr

def getScheduleDefinition {M : Type} (parse : String → Except String M)
    (schedule : ScheduledJobModel) : Except JsError M :=
  match parse schedule.scheduleDefinition with
  | .ok definition => .ok definition
  | .error problem =>
      .error (.invalidScheduleDefinition schedule.pk schedule.scheduleDefinition problem)

/-- `createFromNewSchedule` of `OnceTascCreationStrategy`, which does not look at
`now`. -/
def OnceTascCreationStrategy.createFromNewSchedule (zone : TimeZone)
    (parse : String → Except String ScheduleOnceModel) (_now : JsDate)
    (schedule : ScheduledJobModel) : Except JsError JsDate := do
  let once ← getScheduleDefinition parse schedule
  pure (fromTimeStruct zone once.executeAt)

namespace CronTaskCreationStrategy

/-- The action after a task started: without a next time the schedule is disabled. -/
def actionOf : Option JsDate → TaskCreationAction
  | some ret => .queue ret
  | none => .disable

/-- `createFromNewSchedule` of `CronTaskCreationStrategy`. -/
def createFromNewSchedule (zone : TimeZone) (fuel : Nat)
    (parse : String → Except String ScheduleCronModel) (now : JsDate)
    (schedule : ScheduledJobModel) : Option (Except JsError JsDate) :=
  match getScheduleDefinition parse schedule with
  | .error error => some (.error error)
  | .ok model =>
      (nextCronTime zone fuel model now).map fun ret =>
        match ret with
        | some ret => .ok ret
        | none =>
            .error (.invalidScheduleDefinition schedule.pk schedule.scheduleDefinition
              ("No first scheduled time within " ++ toString maximumYearInFuture ++ " years"))

/-- `createAfterTaskStarts` of `CronTaskCreationStrategy`. -/
def createAfterTaskStarts (zone : TimeZone) (fuel : Nat)
    (parse : String → Except String ScheduleCronModel) (now : JsDate)
    (schedule : ScheduledJobModel) : Option (Except JsError TaskCreationAction) :=
  match getScheduleDefinition parse schedule with
  | .error error => some (.error error)
  | .ok model =>
      (nextCronTime zone fuel model now).map fun ret => .ok (actionOf ret)

end CronTaskCreationStrategy

end TernScheduler
