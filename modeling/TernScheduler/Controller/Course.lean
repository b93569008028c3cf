import TernScheduler.Controller.Conformance
import TernScheduler.Datastore.Pages

/-!
# What a call tells of its task

Completion notices change a task, add the next one and emit events in several
functions that call one another.  This module follows the events of a call: which
task it works on, whether it has ended that task, what it has told of it, and which
new task it still has to tell of.

* `Course` is what a call has done so far, and `MayCourse` what it may do next.
* `Course.strays` lists the turns after which the events of a call no longer tell
  the truth.
* `course_runUpdateInLease` is about leases: the course goes on through them with what
  is done under them.
-/

namespace TernScheduler

open Interleaving

/-! ## What the strategies answer -/

/-- The call reports that a task has finished. -/
def Call.finishes : Call → Bool
  | .taskFinished .. => true
  | _ => false

/-- `isJobExecutionStateRunning`. -/
def JobExecutionState.isRunning : JobExecutionState → Bool
  | .running _ => true
  | _ => false

/-- What the creation strategy of a job answers when a task of it finishes; nothing
when it is not of the kind that is asked then. -/
def Node.finishAnswer (node : Node) (now : Date) (sched : ScheduledJobDataModel) :
    Except JsError (Option TaskCreationAction) :=
  match node.taskCreationReg.get sched.taskCreationStrategy with
  | .error e => .error e
  | .ok (.finish _ createAfterTaskFinishes) =>
      (createAfterTaskFinishes now sched.toScheduledJobModel).map some
  | .ok _ => .ok none

/-- What the strategies of a job answer when a task of it fails. -/
def Node.failureAnswer (node : Node) (now : Date) (sched : ScheduledJobDataModel)
    (task : TaskModel) (reason : String) : Except JsError (Option TaskCreationAction) :=
  match node.retryReg.get sched.retryStrategy with
  | .error e => .error e
  | .ok retry =>
      match retry sched.toScheduledJobModel task reason with
      | .error e => .error e
      | .ok none => node.finishAnswer now sched
      | .ok (some seconds) => .ok (some (.queue (retryTime node.zone now seconds)))

/-- The strategies throw, or ask to disable the job: no event follows. -/
def silencing : Except JsError (Option TaskCreationAction) → Bool
  | .error _ | .ok (some .disable) => true
  | _ => false

/-- The strategies throw the error by which a refused update is known. -/
def misleading : Except JsError (Option TaskCreationAction) → Bool
  | .error e => e.instanceOf .invalidTaskState
  | .ok _ => false

/-! ## The course of a call -/

/-- What a call has done: the task it works on, the schedule row it last read, what
the job framework answered, the state it last asked for, the task it last read and by
which condition, whether it has started and ended its task, whether it added a task
and the one whose event it owes, and whether it told that its task finished.  A call
that strays is no longer followed. -/
structure Course where
  task : Option TaskModel := none
  sched : Option ScheduledJobDataModel := none
  launch : Option JobExecutionState := none
  asked : Option TaskStateType := none
  found : Option (Conditional TaskColumn × TaskModel) := none
  started : Bool := false
  ended : Bool := false
  added : Bool := false
  owed : Option TaskModel := none
  told : Bool := false
  strayed : Bool := false

namespace Course

/-- The course a call starts on. -/
def start : Call → Course
  | .startTask task => { task := some task }
  | _ => {}

/-- After a task update that was applied. -/
def moved (course : Course) (new : Option TaskStateType) : Course :=
  { course with
    asked := new
    started := course.started || decide (new = some .started)
    ended := course.ended || new.any (· ∈ finishedStates) }

/-- After one more operation, but for whether the call strayed. -/
def note (course : Course) : (act : Act) → act.Reply → Course
  | .findSchedules .., .ok (row :: _) => { course with sched := some row }
  | .findTasks _ _ conditional, .ok (row :: rest) =>
      match course.task with
      | none => { course with task := if rest.isEmpty then some row else none }
      | some _ => { course with found := some (conditional, row) }
  | .updateTask _ newValues _, .ok (_ + 1) => course.moved newValues.state
  | .updateTask _ newValues _, _ => { course with asked := newValues.state }
  | .startJob .., .ok state => { course with launch := some state }
  | .createTask row, .ok _ => { course with added := true, owed := some row }
  | .createTask _, .error _ => { course with added := true }
  | .emit (.taskCreated _), _ => { course with owed := none }
  | .emit (.taskFinished _), _ => { course with told := true }
  | _, _ => course

/-- The follow-up of the call would tell that a task finished which is still running,
or which it has told of already. -/
def misinforms (request : Request) (course : Course) : Bool :=
  match request.call with
  | .startTask _ => course.launch.any (·.isRunning)
  | .taskFinished _ (.completed ..) => true
  | _ => false

/-- Only the follow-up of the call tells that its task finished. -/
def informs (request : Request) : Bool :=
  match request.call with
  | .taskFinished _ (.failed ..) => true
  | _ => false

/-- A store call is rejected with the error by which a refused update is known. -/
def misled (request : Request) (e : JsError) : Bool :=
  request.call.finishes && e.instanceOf .invalidTaskState

/-- The strategies of the job keep the call from telling that its task finished, or
mislead it about that. -/
def silences (request : Request) (course : Course) : Bool :=
  match request.call, course.task, course.sched with
  | .taskFinished _ (.completed ..), _, some sched =>
      misleading (request.node.finishAnswer request.now sched)
  | .taskFinished _ (.failed _ info), some task, some sched =>
      silencing (request.node.failureAnswer request.now sched task (info.getD ""))
  | _, _, _ => false

/-- The operations after which the events of a call go wrong. -/
def strays (request : Request) (course : Course) : (act : Act) → act.Reply → Bool
  | .findTasks _ limit _, .ok (row :: _) =>
      -- A pending task was found, or the row of the refused update.
      if limit = duplicatePendingTaskLimit then misinforms request course
      else limit == 1 && request.call.finishes && course.asked != some row.state
  | .findTasks _ limit _, .error e =>
      (limit == duplicatePendingTaskLimit && informs request) || misled request e
  | .createTask _, .ok _ => misinforms request course
  | .createTask _, .error e => informs request || misled request e
  | .updateTask .., .ok (_ + 1) => silences request course
  | .updateTask .., .error e => misled request e
  | .findSchedules .., .error e => misled request e
  | .updateSchedule .., .error e => misled request e
  | _, _ => false

end Course

/-- The operation puts a task in the state of a start that failed after the task was
started, where the source expects it queued. -/
def Act.failsStarted : (act : Act) → act.Reply → Bool
  | .updateTask _ newValues _, .ok (_ + 1) => newValues.state = some .failed
  | _, _ => false

/-- The course after one more operation. -/
def Course.next (request : Request) (course : Course) (act : Act) (reply : act.Reply) :
    Course :=
  { course.note act reply with
    strayed := course.strays request act reply ||
      (act.failsStarted reply || course.strayed) }

/-- What a call may do.  A task that was added is told of at once; a notice adds a
task and asks for pasture only after it has ended its own; and the events tell the
truth unless the call strayed. -/
def MayCourse (request : Request) (course : Course) : Act → Prop
  | .createTask _ =>
      course.owed = none ∧
        (request.call.finishes = true → course.added = false ∧ course.ended = true)
  | .updateTask pk newValues _ =>
      course.owed = none ∧ (∃ task, course.task = some task ∧ pk = task.pk) ∧
        (newValues.state = some .failed → course.started = true)
  | .updateSchedule _ newValues _ =>
      course.owed = none ∧ (newValues.pasture = some true →
        request.call.finishes = true → course.ended = true)
  | .emit (.scheduledJobDisabled _) =>
      course.owed = none ∧ (request.call.finishes = true → course.ended = true)
  | .emit (.taskCreated row) => course.owed = some row
  | .emit (.taskFinished task) =>
      course.owed = none ∧ (course.strayed = false →
        course.told = false ∧ course.ended = true ∧
          ∃ own, course.task = some own ∧ task.pk = own.pk)
  | .emit (.taskFinishedNotUpdated task discoveredState _) =>
      course.owed = none ∧ (course.strayed = false →
        ∃ row, course.found = some (tkPkEquals task.pk, row) ∧
          row.state = discoveredState ∧ discoveredState ∈ finishedStates)
  | _ => course.owed = none

/-- The protocol of the events of a call. -/
def courseProtocol (request : Request) : Protocol signature Course where
  next course operation reply := course.next request operation.act reply
  may course operation := MayCourse request course operation.act

/-- What a call has told when it settles: every task it added, and the end of the task
it ended. -/
structure Course.Concludes (request : Request) (course : Course) : Prop where
  owed : course.owed = none
  told : request.call.finishes = true → course.ended = true → course.strayed = false →
    course.told = true

/-! ## Leases -/

/-- The course after operations on the schedule table. -/
def Later (course after : Course) : Prop :=
  ∃ sched lapsed, after = { course with sched := sched, strayed := lapsed || course.strayed }

/-- A call that rejects with the error of a refused update has read the row of its
task, in the state it asked for. -/
def Explained (request : Request) (own : PrimaryKeyType) (course : Course) (e : JsError) :
    Prop :=
  ∀ given newState expected, e = .invalidTaskState given newState expected →
    request.call.finishes = true → course.strayed = false →
      ∃ row, course.found = some (tkPkEquals own, row) ∧ row.state = newState ∧
        newState ∈ finishedStates

section Lease

variable {request : Request} {course after : Course} {leaseId : LeaseIdType}
  {pk own : PrimaryKeyType} {α : Type} {e : JsError}

theorem Later.refl : Later course course := ⟨course.sched, false, rfl⟩

theorem Later.trans {middle : Course} (hFirst : Later course middle)
    (hSecond : Later middle after) : Later course after := by
  obtain ⟨sched, lapsed, rfl⟩ := hFirst
  obtain ⟨sched', lapsed', rfl⟩ := hSecond
  exact ⟨sched', lapsed' || lapsed, by simp [Bool.or_assoc]⟩

theorem Later.owed (h : Later course after) : after.owed = course.owed := by
  obtain ⟨sched, lapsed, rfl⟩ := h
  rfl

theorem Later.strayed (h : Later course after) (hAfter : after.strayed = false) :
    course.strayed = false := by
  obtain ⟨sched, lapsed, rfl⟩ := h
  exact (Bool.or_eq_false_iff.mp hAfter).2

theorem Later.concludes (h : Later course after) (hCourse : course.Concludes request) :
    after.Concludes request := by
  have hStrayed := h.strayed
  obtain ⟨sched, lapsed, rfl⟩ := h
  exact ⟨hCourse.owed, fun hFinishes hEnded hNot =>
    hCourse.told hFinishes hEnded (hStrayed hNot)⟩

theorem Explained.later (hError : Explained request own course e) (h : Later course after) :
    Explained request own after e := by
  intro given newState expected hState hFinishes hNot
  have hFound := hError given newState expected hState hFinishes (h.strayed hNot)
  obtain ⟨sched, lapsed, rfl⟩ := h
  exact hFound

theorem explained_of_other (hOther : e.instanceOf .invalidTaskState = false) :
    Explained request own course e := by
  rintro given newState expected rfl
  cases hOther

theorem explained_of_misled (hStrayed : Course.misled request e = true →
    course.strayed = true) : Explained request own course e := by
  rintro given newState expected rfl hFinishes hNot
  rw [hStrayed (by simp [Course.misled, hFinishes, JsError.instanceOf, JsError.prototype])]
    at hNot
  cases hNot

/-- Reading a schedule row keeps the course. -/
theorem course_findSchedules (own : PrimaryKeyType)
    {conditional : Conditional ScheduledJobColumn}
    (hOwed : course.owed = none) :
    (findSchedules 0 1 conditional).Honors (courseProtocol request)
      (fun after rows => Later course after ∧
        ∀ row rest, rows = row :: rest → after.sched = some row)
      (fun after e => Later course after ∧ Explained request own after e) course := by
  refine (honors_findSchedules _ _ _).mpr ⟨hOwed, fun rows => ?_, fun e => ?_⟩
  · cases rows with
    | nil => exact ⟨⟨course.sched, false, rfl⟩, fun _ _ h => by cases h⟩
    | cons row rest =>
        refine ⟨⟨some row, false, rfl⟩, fun first others h => ?_⟩
        cases h
        rfl
  · refine ⟨⟨course.sched, Course.misled request e, rfl⟩, explained_of_misled fun h => ?_⟩
    show (Course.misled request e || _) = true
    rw [h, Bool.true_or]

/-- Writing a schedule row keeps the course. -/
theorem course_updateSchedule (own : PrimaryKeyType) {newValues : ScheduledJobPatch}
    {conditional : Conditional ScheduledJobColumn} (hOwed : course.owed = none)
    (hAsk : newValues.pasture = some true → request.call.finishes = true →
      course.ended = true) :
    (updateSchedule pk newValues conditional).Honors (courseProtocol request)
      (fun after _ => Later course after)
      (fun after e => Later course after ∧ Explained request own after e) course := by
  refine (honors_updateSchedule _ _ _).mpr ⟨⟨hOwed, hAsk⟩, fun count => ?_, fun e => ?_⟩
  · cases count <;> exact ⟨course.sched, false, rfl⟩
  · refine ⟨⟨course.sched, Course.misled request e, rfl⟩, explained_of_misled fun h => ?_⟩
    show (Course.misled request e || _) = true
    rw [h, Bool.true_or]

/-- The tail of the lease methods keeps the course. -/
theorem course_rejectUnlessUpdated (own : PrimaryKeyType)
    {leaseError : ScheduledJobDataModel → JsError}
    {count : Nat} (hOwed : course.owed = none)
    (hError : ∀ job, (leaseError job).instanceOf .invalidTaskState = false) :
    (rejectUnlessUpdated pk leaseError count).Honors (courseProtocol request)
      (fun after _ => Later course after)
      (fun after e => Later course after ∧ Explained request own after e) course := by
  unfold rejectUnlessUpdated
  split
  · exact .refl
  · refine Promise.sat_bind.mpr ((course_findSchedules own hOwed).mono ?_
      fun after e hAfter => hAfter)
    rintro after rows ⟨hLater, -⟩
    cases rows with
    | nil => exact ⟨hLater, explained_of_other rfl⟩
    | cons job rest => exact ⟨hLater, explained_of_other (hError job)⟩

/-- A method that writes the row of a job keeps the course. -/
theorem course_leaseMethod (own : PrimaryKeyType) {newValues : ScheduledJobPatch}
    {conditional : Conditional ScheduledJobColumn}
    {leaseError : ScheduledJobDataModel → JsError} (hOwed : course.owed = none)
    (hAsk : newValues.pasture = some true → request.call.finishes = true →
      course.ended = true)
    (hError : ∀ job, (leaseError job).instanceOf .invalidTaskState = false) :
    (updateSchedule pk newValues conditional >>=
      rejectUnlessUpdated pk leaseError).Honors (courseProtocol request)
      (fun after _ => Later course after)
      (fun after e => Later course after ∧ Explained request own after e) course := by
  refine Promise.sat_bind.mpr ((course_updateSchedule own hOwed hAsk).mono ?_
    fun after e hAfter => hAfter)
  intro middle count hMiddle
  refine (course_rejectUnlessUpdated own (hMiddle.owed.trans hOwed) hError).mono ?_ ?_
  · exact fun after _ hAfter => hMiddle.trans hAfter
  · exact fun after e hAfter => ⟨hMiddle.trans hAfter.1, hAfter.2⟩

/-- An event about the work on a lease keeps the course. -/
theorem course_emit {event : SchedulerEvent} {resolved : Course → Unit → Prop}
    {rejected : Course → JsError → Prop}
    (hMay : MayCourse request course (.emit event))
    (hSame : course.note (.emit event) () = course) (hDone : resolved course ()) :
    (emit event).Honors (courseProtocol request) resolved rejected course := by
  refine (honors_emit event).mpr ⟨hMay, fun _ => ?_⟩
  have hNext : course.next request (.emit event) () = course := by
    show ({ course.note (.emit event) () with strayed := course.strayed } : Course) = course
    rw [hSame]
  show resolved (course.next request (.emit event) ()) ()
  rw [hNext]
  exact hDone

/-- What the work under a lease leaves: its tasks are told of, its errors explained,
and a notice asks for pasture only when it ended its task. -/
structure Worked (request : Request) (own : PrimaryKeyType) (course : Course) (pasture : Bool)
    (error : Option JsError) : Prop where
  concludes : course.Concludes request
  asks : pasture = true → request.call.finishes = true → course.ended = true
  explained : ∀ e, error = some e → Explained request own course e

/-- `closeLease` keeps what the work left. -/
theorem course_closeLease {sched : ScheduledJobDataModel} {now : Date}
    {result : LeaseExitState α}
    (hWorked : Worked request own course result.pasture result.asError) :
    (closeLease sched leaseId now result).Honors (courseProtocol request)
      (fun after _ => after.Concludes request)
      (fun after e => after.Concludes request ∧ Explained request own after e) course := by
  have hOwed := hWorked.concludes.owed
  -- the event of a pasture is asked for before the row is written
  have hPastured : ∀ {resolved : Course → Unit → Prop}
      {rejected : Course → JsError → Prop}, resolved course () →
      (emitIfPastured sched result.pasture).Honors (courseProtocol request) resolved
        rejected course := by
    intro resolved rejected hDone
    unfold emitIfPastured
    split
    · rename_i hPasture
      exact course_emit ⟨hOwed, hWorked.asks hPasture⟩ rfl hDone
    · exact hDone
  -- no error is of the class that disables at once, so the row is marked or released
  have hEnd : (endLease sched leaseId now result).Honors (courseProtocol request)
      (fun after _ => Later course after)
      (fun after e => Later course after ∧ Explained request own after e) course := by
    unfold endLease
    split
    · split
      · rename_i error _ hInstance
        rw [JsError.not_instanceOf_invalidScheduleDefinition] at hInstance
        cases hInstance
      · refine Promise.sat_bind.mpr (hPastured (course_leaseMethod own hOwed ?_ fun _ => rfl))
        exact fun hAsk => hWorked.asks (Option.some.inj hAsk)
    · refine Promise.sat_bind.mpr (hPastured (course_leaseMethod own hOwed ?_ fun _ => rfl))
      exact fun hAsk => hWorked.asks (Option.some.inj hAsk)
  refine Promise.sat_bind.mpr (Promise.sat_handle.mpr (hEnd.mono ?_ ?_))
  · intro after _ hLater
    have hConcludes := hLater.concludes hWorked.concludes
    cases hError : result.asError with
    | none => exact hConcludes
    | some error => exact ⟨hConcludes, (hWorked.explained error hError).later hLater⟩
  · rintro after e ⟨hLater, hExplained⟩
    have hConcludes := hLater.concludes hWorked.concludes
    cases hError : result.asError with
    | none => exact ⟨hConcludes, hExplained⟩
    | some error =>
        refine Promise.sat_bind.mpr (course_emit (hLater.owed.trans hOwed) rfl ?_)
        exact ⟨hConcludes, (hWorked.explained error hError).later hLater⟩

/-- The work does what its lease needs: it may leave a job disabled, and reject. -/
def WorksOn (request : Request) (own : PrimaryKeyType) (course : Course)
    (work : Js (LeaseExitState α)) : Prop :=
  work.Honors (courseProtocol request)
    (fun after exit => Worked request own after exit.pasture exit.asError)
    (fun after e => Worked request own after false (some e)) course

/-- The work, and then the end of the lease. -/
theorem course_workAndClose {sched : ScheduledJobDataModel} {now : Date}
    {work : Js (LeaseExitState α)} (hWork : WorksOn request own course work) :
    (inScope (.callback leaseId) (settleLease work) >>= fun result =>
      closeLease sched leaseId now result).Honors (courseProtocol request)
      (fun after _ => after.Concludes request)
      (fun after e => after.Concludes request ∧ Explained request own after e) course := by
  refine Promise.sat_bind.mpr ((honors_inScope _ _).mpr
    (Promise.sat_handle.mpr (Promise.Sat.mono hWork ?_ ?_)))
  · exact fun after exit hAfter => course_closeLease hAfter
  · intro after e hAfter
    refine course_closeLease ⟨hAfter.concludes, fun h => (by cases h), fun error hError => ?_⟩
    refine hAfter.explained error ?_
    simp only [LeaseExitState.asError] at hError
    split at hError
    · exact hError
    · cases hError

/-- `runUpdateInLease` keeps to its course when its work does. -/
theorem course_runUpdateInLease {operation : ScheduleUpdateStateType}
    {taskPk : Option PrimaryKeyType} {now : Date}
    {withLease : ScheduledJobDataModel → LeaseIdType → Js (LeaseExitState α)}
    (hCourse : course.Concludes request)
    (hWork : ∀ leaseId sched strayed, WorksOn request own
      { course with sched := some sched, strayed := strayed } (withLease sched leaseId)) :
    (runUpdateInLease request.node operation pk taskPk now withLease).Honors
      (courseProtocol request) (fun after _ => after.Concludes request)
      (fun after e => after.Concludes request ∧ Explained request own after e) course := by
  refine Promise.sat_bind.mpr (honors_leaseOwnerStrategy.mpr ⟨hCourse.owed, fun leaseId => ?_⟩)
  have hOwed : ∀ after, Later course after → after.owed = none :=
    fun after hLater => hLater.owed.trans hCourse.owed
  have hAttempt : ∀ after, Later course after →
      (leaseAttempt request.node operation pk taskPk now leaseId).Honors
        (courseProtocol request) (fun after _ => Later course after)
        (fun after e => Later course after ∧ Explained request own after e) after := by
    intro middle hMiddle
    refine Promise.Sat.mono (course_leaseMethod own (hOwed middle hMiddle)
      (fun hAsk => by cases hAsk) fun _ => rfl) ?_ ?_
    · exact fun after _ hAfter => hMiddle.trans hAfter
    · exact fun after e hAfter => ⟨hMiddle.trans hAfter.1, hAfter.2⟩
  refine Promise.sat_bind.mpr ((honors_retries (fun after hAfter _ =>
    ⟨hOwed after hAfter, fun _ => hAfter⟩) hAttempt _ .refl).mono ?_ ?_)
  · intro leased _ hLeased
    refine Promise.sat_bind.mpr (Promise.sat_bind.mpr
      ((course_findSchedules own (hOwed leased hLeased)).mono ?_ ?_))
    · rintro after rows ⟨hAfter, hRow⟩
      have hLater := hLeased.trans hAfter
      cases rows with
      | nil => exact ⟨hLater.concludes hCourse, explained_of_other rfl⟩
      | cons sched rest =>
          have hSched := hRow sched rest rfl
          obtain ⟨read, lapsed, rfl⟩ := hLater
          obtain rfl : read = some sched := hSched
          exact course_workAndClose (hWork leaseId sched _)
    · rintro after e ⟨hAfter, hExplained⟩
      exact ⟨(hLeased.trans hAfter).concludes hCourse, hExplained⟩
  · exact fun after e hAfter => ⟨hAfter.1.concludes hCourse, hAfter.2⟩

end Lease

end TernScheduler
