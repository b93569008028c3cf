import TernScheduler.Controller.CourseWork

/-!
# Every call keeps to its course

Calls that tell nothing of tasks are calm, and the others are their work under a lease.

* `Request.honors_course` is the result, for each of the calls.
-/

namespace TernScheduler

open Interleaving

/-- A repair adds no task and tells nothing of tasks. -/
def Act.Calm : Act → Prop
  | .findSchedules .. | .updateSchedule .. | .findTasks .. | .createLeaseId => True
  | .emit (.generalError _) | .emit (.internalError _) => True
  | _ => False

section Calls

variable {request : Request}

/-- A call without a finish to report keeps to its course while it is calm. -/
theorem course_of_calm {promise : Js (Option PrimaryKeyType)}
    (hStarts : request.call.finishes = false)
    (hCalm : promise.Uses fun operation : Operation => operation.act.Calm) :
    promise.Honors (courseProtocol request) (fun after _ => after.Concludes request)
      (fun after _ => after.Concludes request) {} := by
  have hConcludes : ∀ {after : Course}, after.owed = none → after.Concludes request :=
    fun hOwed => (worked_of_starts hStarts hOwed : Worked request "" _ false none).concludes
  refine Promise.Sat.mono (Promise.honors_of_uses (I := fun course : Course => course.owed = none)
    hCalm rfl ?_) (fun after _ hOwed => hConcludes hOwed) fun after _ hOwed => hConcludes hOwed
  rintro course ⟨scope, act⟩ hOwed hAct
  cases act with
  | updateSchedule pk newValues conditional =>
      refine ⟨⟨hOwed, fun _ h => ?_⟩, fun reply => ?_⟩
      · rw [hStarts] at h
        cases h
      · rcases reply with e | count <;> exact hOwed
  | findSchedules start limit conditional =>
      refine ⟨hOwed, fun reply => ?_⟩
      rcases reply with e | _ | ⟨row, rest⟩ <;> exact hOwed
  | findTasks start limit conditional =>
      refine ⟨hOwed, fun reply => ?_⟩
      rcases reply with e | _ | ⟨row, rest⟩
      · exact hOwed
      · exact hOwed
      · show (course.note (.findTasks start limit conditional) (.ok (row :: rest))).owed = none
        cases hTask : course.task <;> simp [Course.note, hTask, hOwed]
  | emit event =>
      cases event <;> first | exact hAct.elim | exact ⟨hOwed, fun _ => hOwed⟩
  | createLeaseId => exact ⟨hOwed, fun _ => hOwed⟩
  | _ => exact hAct.elim

theorem calm_inScope {α : Type} (scope : Scope) (program : Prog signature α)
    (h : program.Uses fun operation : Operation => operation.act.Calm) :
    (relabel scope program).Uses fun operation : Operation => operation.act.Calm := by
  induction program with
  | ret value => trivial
  | call operation next ih => exact ⟨h.1, fun reply => ih reply (h.2 reply)⟩

/-- A repair is calm. -/
theorem calm_repairExpiredSchedule {node : Node} {srcSchedule : ScheduledJobModel}
    {now : Date} :
    (repairExpiredSchedule node srcSchedule now).Uses
      fun operation : Operation => operation.act.Calm := by
  have hTasks : ∀ {schedule : ScheduledJobModel} {states : List TaskStateType} {limit : Nat},
      (getTasksForScheduledJob schedule states limit).Uses
        fun operation : Operation => operation.act.Calm :=
    Promise.uses_perform (by trivial) _
  have hRelease : ∀ {leaseId : LeaseIdType} {pk : PrimaryKeyType} {pasture : Bool}
      {reason : Option String}, (releaseScheduledJobLease leaseId pk pasture reason).Uses
        fun operation : Operation => operation.act.Calm := by
    intro leaseId pk pasture reason
    exact Promise.uses_bind (Promise.uses_perform (by trivial) _) fun count =>
      uses_rejectUnlessUpdated (by trivial) _ count
  have hRepair : ∀ schedule, (performRepair schedule).Uses
      fun operation : Operation => operation.act.Calm := by
    intro schedule
    unfold performRepair
    split
    · unfold repairAddTask
      split
      · exact Promise.uses_resolve _
      · split
        · refine Promise.uses_bind hTasks fun tasks => ?_
          split
          · exact Promise.uses_resolve _
          · exact Promise.uses_reject _
        · exact Promise.uses_bind hTasks fun _ => Promise.uses_reject _
    · split
      · exact Promise.uses_reject _
      · split
        · exact Promise.uses_reject _
        · split
          · exact Promise.uses_reject _
          · exact Promise.uses_bind (Promise.uses_perform (by trivial) _) fun _ =>
              Promise.uses_resolve _
  refine Promise.uses_bind (Promise.uses_perform (by trivial) _) fun leaseId => ?_
  refine Promise.uses_bind (Promise.uses_bind (Promise.uses_bind
    (Promise.uses_perform (by trivial) _) fun rows => Promise.uses_resolve _)
    fun src => ?_) fun schedule => ?_
  · cases src with
    | none => exact Promise.uses_resolve _
    | some src =>
        refine Promise.uses_bind (Promise.uses_perform (by trivial) _) fun count => ?_
        refine Promise.uses_bind (Promise.uses_perform (by trivial) _) fun jobs => ?_
        cases jobs with
        | nil => exact Promise.uses_reject _
        | cons job rest =>
            show Promise.Uses _ (if count > 0 then _ else _)
            split <;> exact Promise.uses_resolve _
  · cases schedule with
    | none => exact Promise.uses_resolve _
    | some schedule =>
        refine Promise.uses_handle (Promise.uses_bind (calm_inScope _ _ (hRepair schedule))
          fun exitBehavior => hRelease) fun e => ?_
        exact Promise.uses_bind hRelease fun _ => Promise.uses_perform (by trivial) _

theorem course_createScheduledJob {schedule : NewScheduledJob}
    (hCall : request.call = .createScheduledJob schedule) :
    (createScheduledJob request.node schedule request.now).Honors (courseProtocol request)
      (fun after _ => after.Concludes request) (fun after _ => after.Concludes request) {} := by
  have hStarts : request.call.finishes = false := by rw [hCall]; rfl
  have hWorked : ∀ {after : Course} {pasture : Bool} {error : Option JsError},
      after.owed = none → Worked request "" after pasture error :=
    fun hOwed => worked_of_starts hStarts hOwed
  have hClose : ∀ {after : Course} {leaseId : LeaseIdType} {sched : ScheduledJobDataModel}
      {result : LeaseExitState PrimaryKeyType}, after.owed = none →
      (closeLease sched leaseId request.now result).Honors (courseProtocol request)
        (fun after _ => after.Concludes request) (fun after _ => after.Concludes request)
        after :=
    fun hOwed => (course_closeLease (hWorked hOwed)).mono (fun _ _ hAfter => hAfter)
      fun _ _ hAfter => hAfter.1
  refine Promise.sat_bind.mpr (honors_leaseOwnerStrategy.mpr ⟨rfl, fun leaseId => ?_⟩)
  refine Promise.sat_bind.mpr (honors_createPrimaryKeyStrat.mpr ⟨rfl, fun schedPk => ?_⟩)
  refine Promise.sat_bind.mpr (honors_createPrimaryKeyStrat.mpr
    ⟨rfl, fun createdTaskPk => ?_⟩)
  refine Promise.sat_bind.mpr (Promise.sat_handle.mpr (Promise.sat_bind.mpr
    ((honors_createSchedule _).mpr ⟨rfl, fun _ => ?_, fun e => ?_⟩)))
  · refine (honors_inScope _ _).mpr (Promise.sat_handle.mpr ?_)
    refine Promise.sat_bind.mpr ((Promise.sat_ofExcept _).mpr ?_)
    cases request.node.taskCreationReg.get schedule.taskCreationStrategy with
    | error e => exact hClose rfl
    | ok strat =>
        refine Promise.sat_bind.mpr ((Promise.sat_ofExcept _).mpr ?_)
        cases strat.createFromNewSchedule request.now _ with
        | error e => exact hClose rfl
        | ok taskRunDate =>
            refine Promise.sat_bind.mpr ((honors_addTask _).mpr
              ⟨⟨rfl, fun h => ?_⟩, fun done => ?_, fun e => hClose rfl⟩)
            · rw [hStarts] at h
              cases h
            · exact Promise.sat_bind.mpr ((honors_emit _).mpr ⟨rfl, fun _ => hClose rfl⟩)
  · refine Promise.sat_bind.mpr (Promise.sat_handle.mpr
      ((course_leaseMethod "" rfl (fun h => by cases h) fun _ => rfl).mono ?_ ?_))
    · exact fun after _ hLater => (hWorked hLater.owed : Worked _ _ _ false none).concludes
    · rintro after e2 ⟨hLater, -⟩
      refine Promise.sat_bind.mpr (course_emit hLater.owed rfl ?_)
      exact (hWorked hLater.owed : Worked _ _ _ false none).concludes

theorem course_startTask {task : TaskModel} (hCall : request.call = .startTask task) :
    (startTask request.node task request.now).Honors (courseProtocol request)
      (fun after _ => after.Concludes request) (fun after _ => after.Concludes request)
      { task := some task } := by
  have hIdle : Course.Concludes request { task := some task } := ⟨rfl, fun _ h => by cases h⟩
  refine Promise.sat_handle.mpr (Promise.sat_bind.mpr
    ((course_runUpdateInLease hIdle fun leaseId sched strayed =>
      course_startTaskInLease hCall).mono (fun _ _ hAfter => hAfter) ?_))
  rintro after e ⟨hConcludes, -⟩
  split
  · exact course_emit hConcludes.owed rfl hConcludes
  · exact hConcludes

theorem course_taskFinished {execJobId : ExecutionJobId} {result : JobExecutionState}
    (hCall : request.call = .taskFinished execJobId result) :
    (taskFinished request.node execJobId result request.now).Honors (courseProtocol request)
      (fun after _ => after.Concludes request) (fun after _ => after.Concludes request) {} := by
  have hFinishes : request.call.finishes = true := by rw [hCall]; rfl
  have hNotice : ∀ task, (finishFoundTask request.node task result request.now).Honors
      (courseProtocol request)
      (fun after _ => after.Concludes request) (fun after _ => after.Concludes request)
      { task := some task } := by
    intro task
    -- the lookup alone leaves nothing owed
    have hIdle : Course.Concludes request { task := some task } :=
      ⟨rfl, fun _ h => by cases h⟩
    refine Promise.sat_handle.mpr (Promise.sat_bind.mpr
      ((course_runUpdateInLease hIdle fun leaseId sched strayed =>
        course_taskFinishedInLease hCall).mono (fun _ _ hAfter => hAfter) ?_))
    rintro after e ⟨hConcludes, hExplained⟩
    split
    · exact course_emit hConcludes.owed rfl hConcludes
    · rename_i given newState expected
      refine course_emit ⟨hConcludes.owed, fun hNot => ?_⟩ rfl hConcludes
      exact hExplained given newState expected rfl hFinishes hNot
    · exact hConcludes
  have hNothing : Course.Concludes request {} := ⟨rfl, fun _ h => by cases h⟩
  cases result with
  | running jobId => exact hNothing
  | _ =>
      refine Promise.sat_bind.mpr (Promise.sat_bind.mpr ((honors_findTasks _ _ _).mpr
        ⟨rfl, fun rows => ?_, fun e => ⟨rfl, fun _ h => by cases h⟩⟩))
      rcases rows with _ | ⟨row, _ | ⟨other, rest⟩⟩
      · exact hNothing
      · exact hNotice row
      · exact hNothing

theorem course_disableSchedule {schedule : ScheduledJobModel} {reason : Option String}
    (hCall : request.call = .disableSchedule schedule reason) :
    (disableSchedule request.node schedule reason request.now).Honors
      (courseProtocol request) (fun after _ => after.Concludes request)
      (fun after _ => after.Concludes request) {} := by
  have hStarts : request.call.finishes = false := by rw [hCall]; rfl
  have hWork : ∀ (leaseId : LeaseIdType) (sched : ScheduledJobDataModel) (strayed : Bool),
      WorksOn request "" { sched := some sched, strayed := strayed }
        (pure (.value { value := (), pasture := true, pastureReason := orNull reason }) :
          Js (LeaseExitState Unit)) :=
    fun leaseId sched strayed => worked_of_starts hStarts rfl
  have hIdle : Course.Concludes request {} := ⟨rfl, fun _ h => by cases h⟩
  exact Promise.sat_bind.mpr ((course_runUpdateInLease hIdle hWork).mono
    (fun _ _ hAfter => hAfter) fun _ _ hAfter => hAfter.1)

/-- **Every call keeps to its course**, whatever the replies it gets. -/
theorem Request.honors_course (request : Request) :
    request.program.Honors (courseProtocol request) (fun after _ => after.Concludes request)
      (fun after _ => after.Concludes request) (.start request.call) := by
  unfold Request.program
  split
  · rename_i schedule hCall
    rw [hCall]
    exact course_createScheduledJob hCall
  · rename_i task hCall
    rw [hCall]
    exact Promise.sat_bind.mpr (course_startTask hCall)
  · rename_i execJobId result hCall
    rw [hCall]
    exact Promise.sat_bind.mpr (course_taskFinished hCall)
  · rename_i schedule reason hCall
    rw [hCall]
    exact Promise.sat_bind.mpr (course_disableSchedule hCall)
  · rename_i srcSchedule hCall
    rw [hCall]
    exact course_of_calm (by rw [hCall]; rfl)
      (Promise.uses_bind calm_repairExpiredSchedule fun _ => Promise.uses_resolve _)

end Calls

end TernScheduler
