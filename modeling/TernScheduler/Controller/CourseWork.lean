import TernScheduler.Controller.Course

/-!
# The course of the work on a task

The course is followed through the work that a call does under a lease: a task is moved on,
the next one is added, and both are told of.

* `Worked` is how the work may leave the course, and `course_startTaskInLease` and
  `course_taskFinishedInLease` are the results.
-/

namespace TernScheduler

open Interleaving

section Work

variable {request : Request} {course : Course} {task : TaskModel}
  {sched : ScheduledJobDataModel}

/-- A call that has its task keeps what it reads of tasks. -/
theorem Course.next_findTasks {start limit : Nat} {conditional : Conditional TaskColumn}
    {row : TaskModel} {rest : List TaskModel} (hTask : course.task = some task) :
    course.next request (.findTasks start limit conditional) (Except.ok (row :: rest)) =
      { course with
        found := some (conditional, row)
        strayed := (if limit = duplicatePendingTaskLimit then misinforms request course
          else limit == 1 && request.call.finishes && course.asked != some row.state) ||
            course.strayed } := by
  simp [Course.next, Course.note, Course.strays, Act.failsStarted, hTask]

/-- A call that adds a task owes its event. -/
theorem Course.next_createTask {row : TaskModel} {done : Unit} :
    course.next request (.createTask row) (Except.ok done) =
      { course with
        added := true
        owed := some row
        strayed := misinforms request course || course.strayed } := by
  simp [Course.next, Course.note, Course.strays, Act.failsStarted]

theorem Course.next_createTask_error {row : TaskModel} {e : JsError} :
    course.next request (.createTask row) (Except.error e) =
      { course with
        added := true
        strayed := (informs request || misled request e) || course.strayed } := by
  simp [Course.next, Course.note, Course.strays, Act.failsStarted]

theorem Course.next_findTasks_error {start : Nat} {conditional : Conditional TaskColumn}
    {e : JsError} :
    course.next request (.findTasks start duplicatePendingTaskLimit conditional)
        (Except.error e) =
      { course with strayed := (informs request || misled request e) || course.strayed } := by
  simp [Course.next, Course.note, Course.strays, Act.failsStarted]

theorem Course.next_taskCreated {row : TaskModel} {done : Unit} :
    course.next request (.emit (.taskCreated row)) done = { course with owed := none } := by
  simp [Course.next, Course.note, Course.strays, Act.failsStarted]

/-- `markTaskState` moves the task of the call, or explains why it did not. -/
theorem course_markTaskState {old new : TaskStateType} {extra : TaskPatch}
    {resolved : Course → Unit → Prop} (hTask : course.task = some task)
    (hCourse : course.Concludes request)
    (hNew : request.call.finishes = true → new ∈ finishedStates)
    (hFailed : new = .failed → course.started = true)
    (hDone : ∀ strayed, (strayed = false → course.strayed = false ∧
        Course.silences request course = false ∧ new ≠ .failed) →
      resolved { course.moved (some new) with strayed := strayed } ()) :
    (markTaskState task.pk old new extra).Honors (courseProtocol request) resolved
      (fun after e => Worked request task.pk after false (some e)) course := by
  have hOwed := hCourse.owed
  -- A call that is misled, or reads another state than it asked for, has strayed.
  have hMissed : ∀ {after : Course} {e : JsError}, after.owed = course.owed →
      after.ended = course.ended → after.told = course.told →
      (after.strayed = false → course.strayed = false) →
      Explained request task.pk after e → Worked request task.pk after false (some e) := by
    intro after e hOwed hEnded hTold hStrayed hExplained
    refine ⟨⟨hOwed.trans hCourse.owed, fun hFinishes h hNot => ?_⟩, fun h => (by cases h),
      fun error hError => ?_⟩
    · rw [hTold]
      exact hCourse.told hFinishes (hEnded ▸ h) (hStrayed hNot)
    · obtain rfl := Option.some.inj hError
      exact hExplained
  have hMisled : ∀ {middle : Course} {e : JsError} {lapsed : Bool},
      (Course.misled request e || lapsed) = middle.strayed →
      Explained request task.pk middle e := by
    intro middle e lapsed hStrayed
    refine explained_of_misled fun h => ?_
    rw [← hStrayed, h, Bool.true_or]
  refine Promise.sat_bind.mpr ((honors_updateTask _ _ _).mpr
    ⟨⟨hOwed, ⟨task, hTask, rfl⟩, fun h => hFailed (Option.some.inj h)⟩,
      fun count => ?_, fun e => ?_⟩)
  · rcases count with _ | count
    · -- The row was in another state; the source reads it to say which.
      refine Promise.sat_bind.mpr ((honors_findTasks _ _ _).mpr
        ⟨hOwed, fun tasks => ?_, fun e => ?_⟩)
      · cases tasks with
        | nil => exact hMissed rfl rfl rfl id (explained_of_other rfl)
        | cons found rest =>
            show Worked request task.pk (Course.next request { course with asked := some new }
              (.findTasks 0 1 (tkPkEquals task.pk)) (Except.ok (found :: rest))) false _
            have hMiddle : ({ course with asked := some new } : Course).task = some task := hTask
            rw [Course.next_findTasks hMiddle]
            refine hMissed rfl rfl rfl (fun h => (Bool.or_eq_false_iff.mp h).2) ?_
            intro given newState expected hState hFinishes hNot
            cases hState
            have hAsked := (Bool.or_eq_false_iff.mp hNot).1
            simp [duplicatePendingTaskLimit, hFinishes] at hAsked
            exact ⟨found, rfl, hAsked.symm, hNew hFinishes⟩
      · refine hMissed rfl rfl rfl (fun h => (Bool.or_eq_false_iff.mp h).2) (hMisled rfl)
    · refine hDone _ fun h => ?_
      obtain ⟨hSilences, hRest⟩ := Bool.or_eq_false_iff.mp h
      obtain ⟨hState, hStrayed⟩ := Bool.or_eq_false_iff.mp hRest
      exact ⟨hStrayed, hSilences, fun hNew => by simp [Act.failsStarted, hNew] at hState⟩
  · exact hMissed rfl rfl rfl (fun h => (Bool.or_eq_false_iff.mp h).2) (hMisled rfl)

/-- The follow-up of a call tells of the task it adds, and that the task of the call
finished. -/
theorem course_addTaskDuplicateCheck {now : Date} {previous : TaskModel} {executeAt : JsDate}
    (hTask : course.task = some task) (hOwed : course.owed = none)
    (hEnds : request.call.finishes = true → course.added = false ∧ course.ended = true)
    (hTells : course.strayed = false → Course.misinforms request course = false →
      course.ended = true ∧ course.told = false ∧ previous.pk = task.pk)
    (hTold : request.call.finishes = true → Course.informs request = false →
      course.told = true) :
    (addTaskDuplicateCheck now sched previous executeAt).Honors (courseProtocol request)
      (fun after exit => Worked request task.pk after exit.pasture none ∧
        exit.pasture = false ∧ after.task = some task ∧
        (course.strayed = true → after.strayed = true))
      (fun after e => Worked request task.pk after false (some e)) course := by
  -- The event that the task finished, once the check has passed.
  have hEmit : ∀ {after : Course} {exit : LeaseExitStateValue TaskModel},
      after.task = some task → after.owed = none → exit.pasture = false →
      (after.strayed = false → course.strayed = false ∧
        Course.misinforms request course = false) →
      after.ended = course.ended → after.told = course.told →
      (emit (.taskFinished previous) >>= fun _ =>
        (pure exit : Js (LeaseExitStateValue TaskModel))).Honors (courseProtocol request)
        (fun after exit => Worked request task.pk after exit.pasture none ∧
          exit.pasture = false ∧ after.task = some task ∧
          (course.strayed = true → after.strayed = true))
        (fun after e => Worked request task.pk after false (some e)) after := by
    intro after exit hTask hOwed hExit hStrayed hEnded hTold
    refine Promise.sat_bind.mpr ((honors_emit _).mpr ⟨⟨hOwed, fun hNot => ?_⟩, fun _ => ?_⟩)
    · obtain ⟨hCourse, hWell⟩ := hStrayed hNot
      obtain ⟨hEnd, hFirst, hPk⟩ := hTells hCourse hWell
      exact ⟨hTold.trans hFirst, hEnded.trans hEnd, task, hTask, hPk⟩
    · refine ⟨⟨⟨hOwed, fun _ _ _ => rfl⟩, fun h => ?_, fun e h => by cases h⟩, hExit, hTask,
        fun h => ?_⟩
      · rw [hExit] at h
        cases h
      · show after.strayed = true
        cases hNot : after.strayed with
        | true => rfl
        | false =>
            rw [(hStrayed hNot).1] at h
            cases h
  -- A rejection by the store: a notice of a failed task strays.
  have hReject : ∀ {after : Course} {e : JsError}, after.owed = none →
      after.told = course.told →
      (after.strayed = false → Course.informs request = false ∧
        Course.misled request e = false) →
      Worked request task.pk after false (some e) := by
    intro after e hOwed hSame hStrayed
    refine ⟨⟨hOwed, fun hFinishes _ hNot => ?_⟩, fun h => (by cases h), fun error hError => ?_⟩
    · rw [hSame]
      exact hTold hFinishes (hStrayed hNot).1
    · obtain rfl := Option.some.inj hError
      refine explained_of_misled fun h => ?_
      cases hNot : after.strayed with
      | true => rfl
      | false =>
          rw [(hStrayed hNot).2] at h
          cases h
  refine Promise.sat_bind.mpr ((honors_findTasks _ _ _).mpr
    ⟨hOwed, fun queuedTasks => ?_, fun e => ?_⟩)
  · cases queuedTasks with
    | cons first rest =>
        show Promise.Sat _ _ _ (Course.next request course (.findTasks 0
          duplicatePendingTaskLimit _) (Except.ok (first :: rest))) _
        rw [Course.next_findTasks hTask, if_pos rfl]
        refine hEmit hTask hOwed rfl (fun h => ?_) rfl rfl
        obtain ⟨hWell, hStrayed⟩ := Bool.or_eq_false_iff.mp h
        exact ⟨hStrayed, hWell⟩
    | nil =>
        refine Promise.sat_bind.mpr (honors_createPrimaryKeyStrat.mpr
          ⟨hOwed, fun newTaskPk => ?_⟩)
        refine Promise.sat_bind.mpr ((honors_addTask _).mpr
          ⟨⟨hOwed, hEnds⟩, fun done => ?_, fun e => ?_⟩)
        · show Promise.Sat _ _ _ (Course.next request course (.createTask _)
            (Except.ok done)) _
          rw [Course.next_createTask]
          refine Promise.sat_bind.mpr ((honors_emit _).mpr ⟨rfl, fun done => ?_⟩)
          show Promise.Sat _ _ _ (Course.next request _ (.emit (.taskCreated _)) done) _
          rw [Course.next_taskCreated]
          refine hEmit hTask rfl rfl (fun h => ?_) rfl rfl
          obtain ⟨hWell, hStrayed⟩ := Bool.or_eq_false_iff.mp h
          exact ⟨hStrayed, hWell⟩
        · show Worked _ _ (Course.next request course (.createTask _) (Except.error e)) _ _
          rw [Course.next_createTask_error]
          refine hReject hOwed rfl fun h => ?_
          exact Bool.or_eq_false_iff.mp (Bool.or_eq_false_iff.mp h).1
  · show Worked _ _ (Course.next request course (.findTasks 0 _ _) (Except.error e)) _ _
    rw [Course.next_findTasks_error]
    refine hReject hOwed rfl fun h => ?_
    exact Bool.or_eq_false_iff.mp (Bool.or_eq_false_iff.mp h).1

/-- A call that does not tell that its task finished leaves nothing untold when it has
strayed. -/
theorem worked_of_strayed {after : Course} {own : PrimaryKeyType} {pasture : Bool}
    {error : Option JsError} (hOwed : after.owed = none)
    (hAsks : request.call.finishes = true → after.ended = true)
    (hStrayed : after.strayed = true) : Worked request own after pasture error := by
  refine ⟨⟨hOwed, fun _ _ hNot => ?_⟩, fun _ => hAsks, fun e _ _ _ _ _ _ hNot => ?_⟩
  · rw [hStrayed] at hNot
    cases hNot
  · rw [hStrayed] at hNot
    cases hNot

/-- Telling that the task of the call finished. -/
theorem course_tellFinished {resolved : Course → Unit → Prop}
    {rejected : Course → JsError → Prop} (hTask : course.task = some task)
    (hOwed : course.owed = none)
    (hTells : course.strayed = false → course.ended = true ∧ course.told = false)
    (hDone : resolved { course with told := true } ()) :
    (emit (.taskFinished task)).Honors (courseProtocol request) resolved rejected course := by
  refine (honors_emit _).mpr ⟨⟨hOwed, fun hNot => ?_⟩, fun _ => hDone⟩
  obtain ⟨hEnded, hFirst⟩ := hTells hNot
  exact ⟨hFirst, hEnded, task, hTask, rfl⟩

/-- `retryTask` tells that the task finished, when the strategies let it. -/
theorem course_retryTask {now : Date} {reason : String} (hTask : course.task = some task)
    (hOwed : course.owed = none)
    (hEnds : request.call.finishes = true → course.added = false ∧ course.ended = true)
    (hTells : course.strayed = false → course.ended = true ∧ course.told = false)
    (hInforms : request.call.finishes = true → Course.informs request = true)
    (hAnswer : course.strayed = false →
      silencing (request.node.failureAnswer now sched task reason) = false) :
    (retryTask request.node now sched task reason).Honors (courseProtocol request)
      (fun after exit => Worked request task.pk after exit.pasture none ∧
        after.task = some task ∧ (course.strayed = true → after.strayed = true))
      (fun after e => Worked request task.pk after false (some e)) course := by
  -- a strategy that fails or disables keeps the call silent, and the course has strayed
  have hSilent : ∀ {pasture : Bool} {error : Option JsError},
      silencing (request.node.failureAnswer now sched task reason) = true →
      Worked request task.pk course pasture error := by
    intro pasture error hSilencing
    refine worked_of_strayed hOwed (fun h => (hEnds h).2) ?_
    cases hNot : course.strayed with
    | true => rfl
    | false =>
        rw [hAnswer hNot] at hSilencing
        cases hSilencing
  -- a task to be added is left to the duplicate check
  have hAdd : ∀ executeAt, (addTaskDuplicateCheck now sched task executeAt >>= fun exit =>
      (pure exit.nullable : Js (LeaseExitStateValue (Option TaskModel)))).Honors
      (courseProtocol request)
      (fun after exit => Worked request task.pk after exit.pasture none ∧
        after.task = some task ∧ (course.strayed = true → after.strayed = true))
      (fun after e => Worked request task.pk after false (some e)) course := by
    intro executeAt
    refine Promise.sat_bind.mpr ((course_addTaskDuplicateCheck hTask hOwed hEnds
      (fun hNot _ => ⟨(hTells hNot).1, (hTells hNot).2, rfl⟩) ?_).mono ?_
        fun _ _ hAfter => hAfter)
    · intro hFinishes hNot
      rw [hInforms hFinishes] at hNot
      cases hNot
    · exact fun after exit hAfter => ⟨hAfter.1, hAfter.2.2.1, hAfter.2.2.2⟩
  -- with nothing to add the end of the task is told
  have hTell : ∀ {exit : LeaseExitStateValue (Option TaskModel)}, exit.pasture = false →
      (emit (.taskFinished task) >>= fun _ =>
        (pure exit : Js (LeaseExitStateValue (Option TaskModel)))).Honors
        (courseProtocol request)
        (fun after exit => Worked request task.pk after exit.pasture none ∧
          after.task = some task ∧ (course.strayed = true → after.strayed = true))
        (fun after e => Worked request task.pk after false (some e)) course := by
    intro exit hExit
    refine Promise.sat_bind.mpr (course_tellFinished hTask hOwed hTells ?_)
    refine ⟨⟨⟨hOwed, fun _ _ _ => rfl⟩, fun h => ?_, fun e h => by cases h⟩, hTask, id⟩
    rw [hExit] at h
    cases h
  refine Promise.sat_bind.mpr ((Promise.sat_ofExcept _).mpr ?_)
  cases hRetry : request.node.retryReg.get sched.retryStrategy with
  | error e => exact hSilent (by simp [Node.failureAnswer, hRetry, silencing])
  | ok retry =>
      refine Promise.sat_bind.mpr ((Promise.sat_ofExcept _).mpr ?_)
      cases hSeconds : retry sched.toScheduledJobModel task reason with
      | error e => exact hSilent (by simp [Node.failureAnswer, hRetry, hSeconds, silencing])
      | ok answer =>
          cases answer with
          | some seconds => exact hAdd _
          | none =>
              -- no retry is asked for: the failure ends the task as a completion does
              have hSame : request.node.failureAnswer now sched task reason =
                  request.node.finishAnswer now sched := by
                simp [Node.failureAnswer, hRetry, hSeconds]
              refine Promise.sat_bind.mpr ((Promise.sat_ofExcept _).mpr ?_)
              cases hCreation : request.node.taskCreationReg.get
                  sched.taskCreationStrategy with
              | error e =>
                  exact hSilent (by simp [hSame, Node.finishAnswer, hCreation, silencing])
              | ok strategy =>
                  cases strategy with
                  | start create next => exact hTell rfl
                  | new create => exact hTell rfl
                  | finish create next =>
                      refine Promise.sat_bind.mpr ((Promise.sat_ofExcept _).mpr ?_)
                      cases hNext : next now sched.toScheduledJobModel with
                      | error e =>
                          exact hSilent (by
                            simp [hSame, Node.finishAnswer, hCreation, hNext, Except.map,
                              silencing])
                      | ok action =>
                          cases action with
                          | queue runAt => exact hAdd runAt
                          | disable =>
                              refine ⟨hSilent ?_, hTask, id⟩
                              simp [hSame, Node.finishAnswer, hCreation, hNext, Except.map,
                                silencing]

/-- What `taskFinished` does under the lease keeps to its course. -/
theorem course_taskFinishedInLease {execJobId : ExecutionJobId} {result : JobExecutionState}
    {strayed : Bool} (hCall : request.call = .taskFinished execJobId result) :
    WorksOn request task.pk { task := some task, sched := some sched, strayed := strayed }
      (taskFinishedInLease request.node task result request.now sched) := by
  have hIdle : Course.Concludes request
      { task := some task, sched := some sched, strayed := strayed } :=
    ⟨rfl, fun _ h => by cases h⟩
  have hOther : ∀ {state : JobExecutionState}, Worked request task.pk
      { task := some task, sched := some sched, strayed := strayed } false
      (some (.invalidJobExecutionStatus state)) := by
    intro state
    refine ⟨hIdle, fun h => (by cases h), fun e hError => ?_⟩
    cases hError
    exact explained_of_other rfl
  cases result with
  | running jobId => exact hOther
  | didNotStart info => exact hOther
  | other state => exact hOther
  | failed jobId info =>
      refine Promise.sat_bind.mpr (course_markTaskState rfl hIdle (fun _ => by decide)
        (fun h => by cases h) fun strayed hStrayed => ?_)
      refine Promise.sat_bind.mpr ((course_retryTask rfl rfl (fun _ => ⟨rfl, rfl⟩)
        (fun _ => ⟨rfl, rfl⟩) (fun _ => by simp [Course.informs, hCall]) fun hNot => ?_).mono
          (fun after exit hAfter => hAfter.1) fun _ _ hAfter => hAfter)
      have hSilences := (hStrayed hNot).2.1
      simpa [Course.silences, hCall] using hSilences
  | completed jobId info =>
      refine Promise.sat_bind.mpr (course_markTaskState rfl hIdle (fun _ => by decide)
        (fun h => by cases h) fun strayed hStrayed => ?_)
      refine Promise.sat_bind.mpr (course_tellFinished rfl rfl (fun _ => ⟨rfl, rfl⟩) ?_)
      -- The end is told; what is left is to explain what the strategies throw.
      have hEnd : ∀ {pasture : Bool} {error : Option JsError},
          (∀ e, error = some e →
            misleading (request.node.finishAnswer request.now sched) = false →
              e.instanceOf .invalidTaskState = false) →
          Worked request task.pk
            { ({ task := some task, sched := some sched } : Course).moved (some .completed) with
              told := true, strayed := strayed } pasture error := by
        intro pasture error hThrows
        refine ⟨⟨rfl, fun _ _ _ => rfl⟩, fun _ _ => rfl, fun e hError => ?_⟩
        rintro given newState expected rfl hFinishes hNot
        have hSilences := (hStrayed hNot).2.1
        simp only [Course.silences, hCall] at hSilences
        cases hThrows _ hError hSilences
      refine Promise.sat_bind.mpr ((Promise.sat_ofExcept _).mpr ?_)
      cases hCreation : request.node.taskCreationReg.get sched.taskCreationStrategy with
      | error e =>
          refine hEnd fun error hError h => ?_
          obtain rfl := Option.some.inj hError
          simpa [Node.finishAnswer, hCreation, misleading] using h
      | ok strategy =>
          cases strategy with
          | start create next => exact hEnd fun e h => by cases h
          | new create => exact hEnd fun e h => by cases h
          | finish create next =>
              refine Promise.sat_bind.mpr ((Promise.sat_ofExcept _).mpr ?_)
              cases hNext : next request.now sched.toScheduledJobModel with
              | error e =>
                  refine hEnd fun error hError h => ?_
                  obtain rfl := Option.some.inj hError
                  simpa [Node.finishAnswer, hCreation, hNext, Except.map, misleading] using h
              | ok action =>
                  cases action with
                  | disable => exact hEnd fun e h => by cases h
                  | queue runAt =>
                      refine Promise.sat_bind.mpr ((course_addTaskDuplicateCheck rfl rfl
                        (fun _ => ⟨rfl, rfl⟩) (fun _ hWell => ?_) fun _ _ => rfl).mono ?_
                        fun _ _ hAfter => hAfter)
                      · simp [Course.misinforms, hCall] at hWell
                      · intro after exit hAfter
                        rw [hAfter.2.1] at hAfter
                        exact hAfter.1

theorem worked_of_starts {own : PrimaryKeyType} {pasture : Bool} {error : Option JsError}
    (hStarts : request.call.finishes = false) (hOwed : course.owed = none) :
    Worked request own course pasture error := by
  refine ⟨⟨hOwed, fun h => ?_⟩, fun _ h => ?_, fun e _ given newState expected _ h => ?_⟩ <;>
  · rw [hStarts] at h
    cases h

/-- A start that has told nothing yet. -/
structure Starting (task : TaskModel) (course : Course) : Prop where
  task : course.task = some task
  owed : course.owed = none
  told : course.told = false

/-- A move of a start, as `markTaskState` makes it. -/
theorem course_markStart {old new : TaskStateType} {extra : TaskPatch}
    {resolved : Course → Unit → Prop} (hStarts : request.call.finishes = false)
    (hStarting : Starting task course) (hFailed : new = .failed → course.started = true)
    (hDone : ∀ strayed, (strayed = false → new ≠ .failed) →
      resolved { course.moved (some new) with strayed := strayed } ()) :
    (markTaskState task.pk old new extra).Honors (courseProtocol request) resolved
      (fun after e => Worked request task.pk after false (some e)) course := by
  refine course_markTaskState hStarting.task
    (worked_of_starts hStarts hStarting.owed : Worked request task.pk course false none).concludes
    (fun h => ?_) hFailed fun strayed hStrayed => hDone strayed fun h => (hStrayed h).2.2
  rw [hStarts] at h
  cases h

/-- The job is started, or the start is marked as failed and the error is passed on. -/
theorem course_startLaunch (hStarts : request.call.finishes = false)
    (hStarting : Starting task course) :
    (Promise.handle
      (do
        let execStatus ← startJob task.pk sched.jobName sched.jobContext
        pure (some execStatus))
      fun e => do
        let failedAt ← currentTimeUTC
        markTaskStartFailed task failedAt (e.text request.node.zone)
        Promise.reject e).Honors (courseProtocol request)
      (fun after execStatus => Starting task after ∧
        ∀ state, execStatus = some state → after.launch = some state)
      (fun after e => Worked request task.pk after false (some e)) course := by
  refine Promise.sat_handle.mpr (Promise.sat_bind.mpr
    ((honors_startJob _ _ _).mpr ⟨hStarting.owed, fun state => ?_, fun e => ?_⟩))
  · exact ⟨⟨hStarting.task, hStarting.owed, hStarting.told⟩, fun other h => h⟩
  · refine Promise.sat_bind.mpr (honors_currentTimeUTC.mpr ⟨hStarting.owed, fun failedAt => ?_⟩)
    refine Promise.sat_bind.mpr (course_markStart hStarts
      ⟨hStarting.task, hStarting.owed, hStarting.told⟩ (fun h => by cases h) fun strayed _ => ?_)
    exact worked_of_starts hStarts hStarting.owed

/-- `launchTask` notes what the job framework answered. -/
theorem course_launchTask (hStarts : request.call.finishes = false)
    (hStarting : Starting task course) :
    (launchTask request.node sched task).Honors (courseProtocol request)
      (fun after execStatus => Starting task after ∧
        ∀ state, execStatus = some state → after.launch = some state)
      (fun after e => Worked request task.pk after false (some e)) course := by
  refine Promise.sat_bind.mpr (Promise.sat_bind.mpr ((Promise.sat_ofExcept _).mpr ?_))
  cases hDup : request.node.duplicateTaskReg.get sched.duplicateStrategy with
  | error e => exact worked_of_starts hStarts hStarting.owed
  | ok dup =>
      refine Promise.sat_bind.mpr ((honors_findTasks _ _ _).mpr
        ⟨hStarting.owed, fun found => ?_, fun e => worked_of_starts hStarts hStarting.owed⟩)
      -- the lookup of the duplicates changes nothing that the launch relies on
      have hFound : Starting task (Course.next request course (.findTasks 0
          dup.duplicateFindCount (taskOf sched.pk [.started])) (Except.ok found)) := by
        cases found with
        | nil => exact ⟨hStarting.task, hStarting.owed, hStarting.told⟩
        | cons first rest =>
            rw [Course.next_findTasks hStarting.task]
            exact ⟨hStarting.task, hStarting.owed, hStarting.told⟩
      refine (Promise.sat_ofExcept _).mpr ?_
      cases hSkip : dup.shouldSkip sched.toScheduledJobModel found task with
      | error e => exact worked_of_starts hStarts hFound.owed
      | ok shouldSkip =>
          cases shouldSkip with
          | true => exact ⟨hFound, fun state h => by cases h⟩
          | false => exact course_startLaunch hStarts hFound

/-- What the record of a launch leaves: a follow-up may tell that the task of the call
finished, when it did. -/
def Tellable (request : Request) (task : TaskModel) (course : Course)
    (exit : LeaseExitStateValue (Option TaskModel)) : Prop :=
  course.task = some task ∧ course.owed = none ∧
    ∀ given, exit.value = some given → course.strayed = false →
      Course.misinforms request course = false →
        course.ended = true ∧ course.told = false ∧ given.pk = task.pk

/-- `recordLaunch` leaves a task that ended, or one that is running. -/
theorem course_recordLaunch {startedTask : TaskModel} {now : Date}
    {execStatus : Option JobExecutionState} (hCall : request.call = .startTask startedTask)
    (hStarting : Starting task course)
    (hLaunch : ∀ state, execStatus = some state → course.launch = some state) :
    (recordLaunch request.node now sched task execStatus).Honors (courseProtocol request)
      (fun after exit => Tellable request task after exit)
      (fun after e => Worked request task.pk after false (some e)) course := by
  have hStarts : request.call.finishes = false := by rw [hCall]; rfl
  have hClock : ∀ {α : Type} {after : Course} {rest : Date → Js α}
      {resolved : Course → α → Prop} {rejected : Course → JsError → Prop},
      after.owed = none →
      (∀ date, (rest date).Honors (courseProtocol request) resolved rejected after) →
      (currentTimeUTC >>= rest).Honors (courseProtocol request) resolved rejected after :=
    fun hOwed hRest => Promise.sat_bind.mpr (honors_currentTimeUTC.mpr ⟨hOwed, hRest⟩)
  cases execStatus with
  | none =>
      refine hClock hStarting.owed fun skippedAt => ?_
      refine Promise.sat_bind.mpr (course_markStart hStarts hStarting (fun h => by cases h)
        fun strayed _ => ?_)
      refine ⟨hStarting.task, hStarting.owed, fun given h _ _ => ?_⟩
      obtain rfl := Option.some.inj h
      exact ⟨by simp [Course.moved, finishedStates], hStarting.told, rfl⟩
  | some state =>
      -- The first move of every state that was started.
      have hStarted : ∀ {strayed : Bool},
          Starting task { course.moved (some .started) with strayed := strayed } :=
        ⟨hStarting.task, hStarting.owed, hStarting.told⟩
      cases state with
      | other text => exact worked_of_starts hStarts hStarting.owed
      | didNotStart result =>
          refine hClock hStarting.owed fun failedAt => ?_
          refine Promise.sat_bind.mpr (course_markStart hStarts hStarting (fun h => by cases h)
            fun strayed _ => ?_)
          exact ⟨hStarting.task, hStarting.owed, fun given h => by cases h⟩
      | running jobId =>
          refine hClock hStarting.owed fun startedAt => ?_
          refine Promise.sat_bind.mpr (course_markStart hStarts hStarting (fun h => by cases h)
            fun strayed _ => ?_)
          refine Promise.sat_bind.mpr (course_emit hStarting.owed rfl ?_)
          refine ⟨hStarting.task, hStarting.owed, fun given _ _ hWell => ?_⟩
          have hRunning := hLaunch _ rfl
          simp [Course.misinforms, hCall, Course.moved, hRunning,
            JobExecutionState.isRunning] at hWell
      | completed jobId result =>
          refine hClock hStarting.owed fun startedAt => ?_
          refine Promise.sat_bind.mpr (course_markStart hStarts hStarting (fun h => by cases h)
            fun strayed _ => ?_)
          refine hClock hStarting.owed fun completedAt => ?_
          refine Promise.sat_bind.mpr (course_markStart hStarts hStarted (fun h => by cases h)
            fun strayed _ => ?_)
          refine ⟨hStarting.task, hStarting.owed, fun given h _ _ => ?_⟩
          obtain rfl := Option.some.inj h
          exact ⟨by simp [Course.moved, finishedStates], hStarting.told, rfl⟩
      | failed jobId result =>
          refine hClock hStarting.owed fun startedAt => ?_
          refine Promise.sat_bind.mpr (course_markStart hStarts hStarting (fun h => by cases h)
            fun first _ => ?_)
          refine hClock hStarting.owed fun failedAt => ?_
          -- The failure is expected of a queued task, and the call has strayed if it is
          -- found.
          refine Promise.sat_bind.mpr (course_markStart hStarts hStarted
            (fun _ => by simp [Course.moved]) fun strayed hStrayed => ?_)
          have hAstray : strayed = true := by
            cases strayed with
            | true => rfl
            | false => exact absurd rfl (hStrayed rfl)
          subst hAstray
          have hFailed : Starting task { ({ course.moved (some .started) with
              strayed := first } : Course).moved (some .failed) with strayed := true } :=
            ⟨hStarting.task, hStarting.owed, hStarting.told⟩
          refine (course_retryTask hFailed.task hFailed.owed (fun h => ?_)
            (fun h => ?_) (fun h => ?_) fun h => ?_).mono ?_ fun _ _ hAfter => hAfter
          · rw [hStarts] at h
            cases h
          · cases h
          · rw [hStarts] at h
            cases h
          · cases h
          · rintro after exit ⟨hWorked, hTask, hAfter⟩
            refine ⟨hTask, hWorked.concludes.owed, fun given _ hNot => ?_⟩
            rw [hAfter rfl] at hNot
            cases hNot

/-- `addFollowUp` tells of the task it adds. -/
theorem course_addFollowUp {now : Date}
    {currentTask : LeaseExitStateValue (Option TaskModel)}
    (hStarts : request.call.finishes = false)
    (hTellable : Tellable request task course currentTask) :
    (addFollowUp request.node now sched currentTask).Honors (courseProtocol request)
      (fun after _ => Worked request task.pk after false none)
      (fun after e => Worked request task.pk after false (some e)) course := by
  obtain ⟨hTask, hOwed, hTells⟩ := hTellable
  -- a call that starts a task owes no news of an end
  have hNone : ∀ {error : Option JsError}, Worked request task.pk course false error :=
    worked_of_starts hStarts hOwed
  unfold addFollowUp
  split
  · exact hNone
  · split
    · exact hNone
    · rename_i given hGiven
      refine Promise.sat_bind.mpr ((Promise.sat_ofExcept _).mpr ?_)
      cases hCreation : request.node.taskCreationReg.get sched.taskCreationStrategy with
      | error e => exact hNone
      | ok strategy =>
          cases strategy with
          | finish create next => exact hNone
          | new create => exact hNone
          | start create next =>
              refine Promise.sat_bind.mpr ((Promise.sat_ofExcept _).mpr ?_)
              cases hNext : next now sched.toScheduledJobModel with
              | error e => exact hNone
              | ok action =>
                  cases action with
                  | disable => exact hNone
                  | queue runAt =>
                      refine Promise.sat_bind.mpr ((course_addTaskDuplicateCheck hTask hOwed
                        (fun h => ?_) (hTells given hGiven) fun h => ?_).mono ?_
                          fun _ _ hAfter => hAfter)
                      · rw [hStarts] at h
                        cases h
                      · rw [hStarts] at h
                        cases h
                      · exact fun after exit hAfter =>
                          worked_of_starts hStarts hAfter.1.concludes.owed

/-- What `startTask` does under the lease keeps to its course. -/
theorem course_startTaskInLease {strayed : Bool} (hCall : request.call = .startTask task) :
    WorksOn request task.pk { task := some task, sched := some sched, strayed := strayed }
      (startTaskInLease request.node task request.now sched) := by
  have hStarts : request.call.finishes = false := by rw [hCall]; rfl
  refine Promise.sat_bind.mpr (course_markStart hStarts ⟨rfl, rfl, rfl⟩ (fun h => by cases h)
    fun strayed _ => ?_)
  refine Promise.sat_bind.mpr ((course_launchTask hStarts ⟨rfl, rfl, rfl⟩).mono ?_
    fun _ _ hAfter => hAfter)
  rintro launched execStatus ⟨hStarting, hLaunch⟩
  refine Promise.sat_bind.mpr ((course_recordLaunch hCall hStarting hLaunch).mono ?_
    fun _ _ hAfter => hAfter)
  intro recorded currentTask hTellable
  exact Promise.sat_bind.mpr ((course_addFollowUp hStarts hTellable).mono
    (fun after _ hAfter => hAfter) fun _ _ hAfter => hAfter)

end Work

end TernScheduler
