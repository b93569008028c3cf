import TernScheduler.Controller.CourseCalls
import TernScheduler.Controller.TaskProgress

/-!
# Courses in a run

What the course of a call says of the log and of the tables, in every state of a run:
a call that ended its task wrote so, and the row stays as it was left.

* `courseOf` is the course of a call of the pool, and `may_course_of_step` its guard
  on a step.
* `sequenced_of_run` ties what a course says to the log.
-/

namespace TernScheduler

open Interleaving Database

/-! ## What an operation does to a course -/

/-- The task an operation changed, if it changed one. -/
def Act.changedTask : (act : Act) → act.Reply → Option PrimaryKeyType
  | .updateTask pk _ _, .ok (_ + 1) => some pk
  | _, _ => none

/-- The task an operation put in a finished state, if it did. -/
def Act.endedTask : (act : Act) → act.Reply → Option PrimaryKeyType
  | .updateTask pk newValues _, .ok (_ + 1) =>
      if newValues.state.any (· ∈ finishedStates) then some pk else none
  | _, _ => none

/-- The operation marks a task as started. -/
def Act.startsTask : (act : Act) → act.Reply → Bool
  | .updateTask _ newValues _, .ok (_ + 1) => newValues.state = some .started
  | _, _ => false

/-- The operation adds a task, or tries to. -/
def Act.addsTask : Act → Bool
  | .createTask _ => true
  | _ => false

/-- The task an operation added, if it did. -/
def Act.storedTask : (act : Act) → act.Reply → Option TaskModel
  | .createTask row, .ok _ => some row
  | _, _ => none

/-- The task an operation tells was created, if it does. -/
def Act.tellsCreated : Act → Option TaskModel
  | .emit (.taskCreated row) => some row
  | _ => none

/-- The task an operation tells has finished, if it does. -/
def Act.tellsFinished : Act → Option TaskModel
  | .emit (.taskFinished task) => some task
  | _ => none

/-- The first task an operation read, and by which condition. -/
def Act.readTask : (act : Act) → act.Reply → Option (Conditional TaskColumn × TaskModel)
  | .findTasks _ _ conditional, .ok (row :: _) => some (conditional, row)
  | _, _ => none

/-- An operation that ends a task changes it. -/
theorem Act.changed_of_ended {act : Act} {reply : act.Reply} {pk : PrimaryKeyType}
    (h : act.endedTask reply = some pk) : act.changedTask reply = some pk := by
  cases act with
  | updateTask taskPk newValues conditional =>
      rcases reply with e | _ | count
      · cases h
      · cases h
      · simp only [endedTask] at h
        split at h
        · exact h
        · cases h
  | _ => cases h

/-- What an operation adds to a course, field by field. -/
structure Course.Follows (course : Course) (act : Act) (reply : act.Reply) (after : Course) :
    Prop where
  task : ∀ task, course.task = some task → after.task = some task
  started : after.started = (course.started || act.startsTask reply)
  ended : after.ended = (course.ended || (act.endedTask reply).isSome)
  added : after.added = (course.added || act.addsTask)
  told : after.told = (course.told || act.tellsFinished.isSome)
  found : after.found = course.found ∨ after.found = act.readTask reply
  owed : act.storedTask reply = none → act.tellsCreated = none → after.owed = course.owed

/-- **Inversion of `Course.note`.** -/
theorem Course.note_follows (course : Course) (act : Act) (reply : act.Reply) :
    course.Follows act reply (course.note act reply) := by
  cases act with
  | updateTask pk newValues conditional =>
      rcases reply with e | _ | count
      · constructor <;> simp [note, Act.startsTask, Act.endedTask, Act.addsTask,
          Act.tellsFinished]
      · constructor <;> simp [note, Act.startsTask, Act.endedTask, Act.addsTask,
          Act.tellsFinished]
      · refine ⟨fun _ h => h, by simp [note, moved, Act.startsTask], ?_,
          by simp [note, moved, Act.addsTask], by simp [note, moved, Act.tellsFinished],
          Or.inl rfl, fun _ _ => rfl⟩
        simp only [note, moved, Act.endedTask]
        split <;> simp_all
  | findTasks start limit conditional =>
      rcases reply with e | _ | ⟨row, rest⟩
      · constructor <;> simp [note, Act.startsTask, Act.endedTask, Act.addsTask,
          Act.tellsFinished]
      · constructor <;> simp [note, Act.startsTask, Act.endedTask, Act.addsTask,
          Act.tellsFinished]
      · cases hTask : course.task <;> constructor <;> simp [note, hTask, Act.startsTask,
          Act.endedTask, Act.addsTask, Act.tellsFinished, Act.readTask]
  | findSchedules start limit conditional =>
      rcases reply with e | _ | ⟨row, rest⟩ <;> constructor <;>
        simp [note, Act.startsTask, Act.endedTask, Act.addsTask, Act.tellsFinished]
  | createTask row =>
      cases reply <;> constructor <;> simp [note, Act.startsTask, Act.endedTask, Act.addsTask,
        Act.tellsFinished, Act.storedTask]
  | startJob taskId jobName context =>
      cases reply <;> constructor <;> simp [note, Act.startsTask, Act.endedTask,
        Act.addsTask, Act.tellsFinished]
  | emit event =>
      cases event <;> constructor <;> simp [note, Act.startsTask, Act.endedTask,
        Act.addsTask, Act.tellsFinished, Act.tellsCreated]
  | _ =>
      constructor <;> simp [note, Act.startsTask, Act.endedTask, Act.addsTask,
        Act.tellsFinished]

theorem Course.next_follows (request : Request) (course : Course) (act : Act)
    (reply : act.Reply) : course.Follows act reply (course.next request act reply) :=
  ⟨(course.note_follows act reply).task, (course.note_follows act reply).started,
    (course.note_follows act reply).ended, (course.note_follows act reply).added,
    (course.note_follows act reply).told, (course.note_follows act reply).found,
    (course.note_follows act reply).owed⟩

/-! ## The courses of a pool -/

/-- The request and the course of a call. -/
def courseOf (pool : SchedulerPool) (pid : Nat) : Option (Request × Course) :=
  pool.stateOf courseProtocol (fun request => .start request.call) pid

/-- A step of the scheduler, seen from the courses. -/
abbrev CourseMoves (reading : BeforeDateReading) (pool : SchedulerPool)
    (event : Event signature Database Request) (pool' : SchedulerPool) : Prop :=
  pool.Moves (scheduler reading) courseProtocol (fun request => .start request.call) event
    pool'

variable {reading : BeforeDateReading}
  {A : RunCondition signature Database Request Settled}
  {first pool pool' : SchedulerPool} {event : Event signature Database Request}

/-- Every program of the scheduler keeps to its course, however it settles. -/
private theorem program_honors_course (request : Request) :
    ((scheduler reading).program request).Honors (courseProtocol request)
      (fun after _ => after.Concludes request) (.start request.call) := by
  refine Prog.Sat.mono request.honors_course fun after result hAfter => ?_
  cases result with
  | ok value => exact hAfter
  | error e => exact hAfter

theorem courses_of_run (hRun : Run (scheduler reading) A first pool)
    (hIdle : first.Idle) :
    pool.Honors courseProtocol (fun request => .start request.call)
      (fun request after _ => after.Concludes request) :=
  hRun.honors program_honors_course hIdle

theorem courseMoves_of_step (hRun : Run (scheduler reading) A first pool)
    (hIdle : first.Idle) (hStep : Step (scheduler reading) pool event pool') :
    CourseMoves reading pool event pool' :=
  hStep.moves (hRun.logOwned hIdle) (courses_of_run hRun hIdle)

theorem concludes_of_run (hRun : Run (scheduler reading) A first pool)
    (hIdle : first.Idle) {pid : Nat} {request : Request} {settled : Settled}
    (hSettled : pool.procs[pid]? = some ⟨request, some (.ret settled)⟩) :
    ∃ course, courseOf pool pid = some (request, course) ∧ course.Concludes request :=
  ⟨_, Pool.stateOf_eq_some hSettled, courses_of_run hRun hIdle pid request _ hSettled⟩

theorem courseOf_idle (hIdle : first.Idle) (pid : Nat) : courseOf first pid = none :=
  Pool.stateOf_idle hIdle pid

/-- The guard of the course of the call that performs a step. -/
theorem may_course_of_step (hRun : Run (scheduler reading) A first pool)
    (hIdle : first.Idle) {entry : SchedulerEntry}
    (hStep : Step (scheduler reading) pool (.ran entry) pool') :
    ∃ request course, courseOf pool entry.pid = some (request, course) ∧
      MayCourse request course entry.op.act := by
  cases courseMoves_of_step hRun hIdle hStep with
  | quiet _ _ _ hLog =>
      cases hStep
      exact absurd hLog (List.cons_ne_self _ _)
  | performed pid request course op reply _ hCourse hMay =>
      exact ⟨request, course, hCourse, hMay⟩

/-! ## What a course says of the log -/

/-- The induction over a run for a property of each course and the log. -/
theorem course_log_invariant {I : Nat → Request → Course → List SchedulerEntry → Prop}
    (hRun : Run (scheduler reading) A first pool) (hIdle : first.Idle)
    (hStart : ∀ pid request log, (∀ entry ∈ log, entry.pid ≠ pid) →
      I pid request (.start request.call) log)
    (hOwn : ∀ request course log, ∀ entry : SchedulerEntry, I entry.pid request course log →
      MayCourse request course entry.op.act →
      I entry.pid request (course.next request entry.op.act entry.reply) (entry :: log))
    (hOther : ∀ pid request course log, ∀ entry : SchedulerEntry, entry.pid ≠ pid →
      I pid request course log → I pid request course (entry :: log)) :
    ∀ pid request course, courseOf pool pid = some (request, course) →
      I pid request course pool.log :=
  hRun.log_invariant program_honors_course hIdle hStart hOwn hOther

/-- The operation asks for pasture: it writes the flag, or tells that it is set. -/
def Act.asksPasture : Act → Bool
  | .updateSchedule _ newValues _ => newValues.pasture = some true
  | .emit (.scheduledJobDisabled _) => true
  | _ => false

/-- The call of the given number ended a task. -/
def EndedTask (pid : Nat) (log : List SchedulerEntry) : Prop :=
  ∃ entry ∈ log, entry.pid = pid ∧ (entry.op.act.endedTask entry.reply).isSome = true

/-- The call of the given number tries to add a task. -/
def addsTaskBy (pid : Nat) (entry : SchedulerEntry) : Bool :=
  entry.pid = pid && entry.op.act.addsTask

/-- What the course of a call says of the log: a call that ended its task wrote so, and
a notice adds a task, once, and asks for pasture only after that. -/
structure Sequenced (pid : Nat) (request : Request) (course : Course)
    (log : List SchedulerEntry) : Prop where
  ended : course.ended = true → EndedTask pid log
  follows : request.call.finishes = true → ∀ later entry earlier,
    log = later ++ entry :: earlier → entry.pid = pid →
    entry.op.act.addsTask = true ∨ entry.op.act.asksPasture = true → EndedTask pid earlier
  adds : request.call.finishes = true →
    (log.filter (addsTaskBy pid)).length = if course.added then 1 else 0

/-- Under the guard of a notice that adds a task or asks for pasture, its task is
ended. -/
theorem MayCourse.ended_eq {request : Request} {course : Course} {act : Act}
    (hMay : MayCourse request course act) (hFinishes : request.call.finishes = true)
    (hAsks : act.addsTask = true ∨ act.asksPasture = true) : course.ended = true := by
  cases act with
  | createTask row => exact (hMay.2 hFinishes).2
  | updateSchedule pk newValues conditional =>
      rcases hAsks with hAdds | hAsks
      · cases hAdds
      · exact hMay.2 (of_decide_eq_true hAsks) hFinishes
  | emit event =>
      cases event with
      | scheduledJobDisabled schedule => exact hMay.2 hFinishes
      | _ => rcases hAsks with h | h <;> cases h
  | _ => rcases hAsks with h | h <;> cases h

theorem MayCourse.added_eq {request : Request} {course : Course} {act : Act}
    (hMay : MayCourse request course act) (hFinishes : request.call.finishes = true)
    (hAdds : act.addsTask = true) : course.added = false := by
  cases act with
  | createTask row => exact (hMay.2 hFinishes).1
  | _ => cases hAdds

theorem EndedTask.cons {pid : Nat} {log : List SchedulerEntry} (h : EndedTask pid log)
    (entry : SchedulerEntry) : EndedTask pid (entry :: log) := by
  obtain ⟨earlier, hEarlier, hOwn⟩ := h
  exact ⟨earlier, List.mem_cons_of_mem _ hEarlier, hOwn⟩

/-- Every call is sequenced. -/
theorem sequenced_of_run (hRun : Run (scheduler reading) A first pool) (hIdle : first.Idle) :
    ∀ pid request course, courseOf pool pid = some (request, course) →
      Sequenced pid request course pool.log := by
  refine course_log_invariant (I := fun pid request course log =>
    Sequenced pid request course log) hRun hIdle ?_ ?_ ?_
  · -- a call without an entry has done nothing
    intro pid request log hNone
    refine ⟨fun hEnded => ?_, fun _ later entry earlier hLog hPid _ => ?_, fun _ => ?_⟩
    · cases hCall : request.call <;> rw [hCall] at hEnded <;> cases hEnded
    · exact absurd hPid (hNone entry (by simp [hLog]))
    · have hEmpty : log.filter (addsTaskBy pid) = [] :=
        List.filter_eq_nil_iff.mpr fun entry hEntry => by simp [addsTaskBy, hNone entry hEntry]
      rw [hEmpty]
      cases request.call <;> rfl
  · -- an entry of the call itself: its course has noted it
    intro request course log entry hBefore hMay
    have hEnds : course.ended = true → EndedTask entry.pid log := hBefore.ended
    refine ⟨fun hEnded => ?_, fun hFinishes later other earlier hLog hPid hAsks => ?_,
      fun hFinishes => ?_⟩
    · rw [(course.next_follows request _ _).ended, Bool.or_eq_true] at hEnded
      rcases hEnded with hOld | hNow
      · exact (hEnds hOld).cons entry
      · exact ⟨entry, List.mem_cons_self, rfl, hNow⟩
    · cases later with
      | nil =>
          obtain ⟨rfl, rfl⟩ := List.cons.inj hLog
          exact hEnds (hMay.ended_eq hFinishes hAsks)
      | cons last later =>
          exact hBefore.follows hFinishes later other earlier (List.cons.inj hLog).2 hPid hAsks
    · rw [(course.next_follows request _ _).added, List.filter_cons]
      cases hAdds : entry.op.act.addsTask with
      | false => simp [addsTaskBy, hAdds, hBefore.adds hFinishes]
      | true =>
          have hNone := hBefore.adds hFinishes
          rw [hMay.added_eq hFinishes hAdds] at hNone
          simp [addsTaskBy, hAdds] at hNone ⊢
          simpa using hNone
  · -- an entry of another call is passed over
    intro pid request course log entry hPid hBefore
    refine ⟨fun hEnded => (hBefore.ended hEnded).cons entry,
      fun hFinishes later other earlier hLog hOther hAsks => ?_, fun hFinishes => ?_⟩
    · cases later with
      | nil =>
          obtain ⟨rfl, -⟩ := List.cons.inj hLog
          exact absurd hOther hPid
      | cons last later =>
          exact hBefore.follows hFinishes later other earlier (List.cons.inj hLog).2 hOther
            hAsks
    · rw [List.filter_cons_of_neg (by simp [addsTaskBy, hPid])]
      exact hBefore.adds hFinishes

/-! ## What a course says of the tables -/

theorem TaskStateType.rank_of_finished {state : TaskStateType} (h : state ∈ finishedStates)
    (other : TaskStateType) : other.rank ≤ state.rank := by
  have hTop : state.rank = 3 := by
    cases state <;> first | rfl | (revert h; decide)
  rw [hTop]
  cases other <;> decide

/-- A task in a finished state stays as it is. -/
theorem Moves.ended_kept (hMoves : Moves reading pool event pool') {pk : PrimaryKeyType}
    {row : TaskModel} (hRow : pool.shared.task pk = some row)
    (hState : row.state ∈ finishedStates) : pool'.shared.task pk = some row := by
  obtain ⟨row', hRow', -, rfl | hRank⟩ := hMoves.task_advances hRow
  · exact hRow'
  · have hLe := TaskStateType.rank_of_finished hState row'.state
    omega

/-- What a course says of the task table: a task that was started is past queued, one
that was ended is in a finished state, and so is one that was found so. -/
structure Course.Backed (reading : BeforeDateReading) (course : Course) (db : Database) :
    Prop where
  started : course.started = true → ∃ own row, course.task = some own ∧
    db.task own.pk = some row ∧ 2 ≤ row.state.rank
  ended : course.ended = true → ∃ own row, course.task = some own ∧
    db.task own.pk = some row ∧ row.state ∈ finishedStates
  found : ∀ conditional row, course.found = some (conditional, row) →
    row.state ∈ finishedStates →
    db.task row.pk = some row ∧ conditional.holds reading row.column = true

/-- What a course says of the tables stays true. -/
theorem Course.Backed.kept {course : Course} (hBacked : course.Backed reading pool.shared)
    (hMoves : Moves reading pool event pool') : course.Backed reading pool'.shared where
  started hStarted := by
    obtain ⟨own, row, hOwn, hRow, hRank⟩ := hBacked.started hStarted
    obtain ⟨row', hRow', -, rfl | hHigher⟩ := hMoves.task_advances hRow
    · exact ⟨own, row', hOwn, hRow', hRank⟩
    · exact ⟨own, row', hOwn, hRow', by omega⟩
  ended hEnded := by
    obtain ⟨own, row, hOwn, hRow, hState⟩ := hBacked.ended hEnded
    exact ⟨own, row, hOwn, hMoves.ended_kept hRow hState, hState⟩
  found conditional row hFound hState := by
    obtain ⟨hRow, hHolds⟩ := hBacked.found conditional row hFound hState
    exact ⟨hMoves.ended_kept hRow hState, hHolds⟩

/-- An update of the own task is seen in the row after it. -/
theorem MayCourse.row_of_updated {request : Request} {course : Course} {pk : PrimaryKeyType}
    {newValues : TaskPatch} {conditional : Conditional TaskColumn} {count : Nat}
    {db after : Database} {new : TaskStateType}
    (hMay : MayCourse request course (.updateTask pk newValues conditional))
    (hExec : Exec reading db (.updateTask pk newValues conditional) (.ok (count + 1)) after)
    (hNew : newValues.state = some new) :
    ∃ own row, course.task = some own ∧ pk = own.pk ∧ after.task own.pk = some row ∧
      row.state = new := by
  obtain ⟨-, ⟨own, hOwn, rfl⟩, -⟩ := hMay
  cases hExec.taskEffect with
  | kept hNone _ => exact absurd trivial hNone
  | updated _ _ _ _ row hRow _ hTasks =>
      refine ⟨own, newValues.apply row, hOwn, rfl, by rw [hTasks, if_pos rfl], ?_⟩
      simp [TaskPatch.apply, hNew]

/-- **Step lemma.**  An operation of the call keeps what its course says backed. -/
theorem Course.Backed.next {request : Request} {course : Course} {act : Act}
    {reply : act.Reply} {db after : Database} (hKept : course.Backed reading after)
    (hMay : MayCourse request course act) (hExec : Exec reading db act reply after) :
    (course.next request act reply).Backed reading after := by
  have hFollows := course.next_follows request act reply
  have hTask := hFollows.task
  refine ⟨fun hStarted => ?_, fun hEnded => ?_, fun conditional row hFound hState => ?_⟩
  · rw [hFollows.started, Bool.or_eq_true] at hStarted
    rcases hStarted with hOld | hNow
    · obtain ⟨own, row, hOwn, hRest⟩ := hKept.started hOld
      exact ⟨own, row, hTask own hOwn, hRest⟩
    · -- only an update that has written a row has started the task
      cases act <;> simp only [Act.startsTask, Bool.false_eq_true] at hNow
      rename_i pk newValues conditional
      rcases reply with e | _ | count
      · cases hNow
      · cases hNow
      · obtain ⟨own, row, hOwn, -, hRow, hState⟩ :=
          hMay.row_of_updated hExec (of_decide_eq_true hNow)
        exact ⟨own, row, hTask own hOwn, hRow, by rw [hState]; decide⟩
  · rw [hFollows.ended, Bool.or_eq_true] at hEnded
    rcases hEnded with hOld | hNow
    · obtain ⟨own, row, hOwn, hRest⟩ := hKept.ended hOld
      exact ⟨own, row, hTask own hOwn, hRest⟩
    · cases act <;> simp only [Act.endedTask, Option.isSome_none, Bool.false_eq_true] at hNow
      rename_i pk newValues conditional
      rcases reply with e | _ | count
      · cases hNow
      · cases hNow
      · by_cases hFinished : newValues.state.any (· ∈ finishedStates) = true
        · -- the state that was written is one of the finished ones
          obtain ⟨new, hNew, hIn⟩ := (Option.any_eq_true _ _).mp hFinished
          obtain ⟨own, row, hOwn, -, hRow, hState⟩ := hMay.row_of_updated hExec hNew
          exact ⟨own, row, hTask own hOwn, hRow, by rw [hState]; exact of_decide_eq_true hIn⟩
        · simp only [if_neg hFinished] at hNow
          cases hNow
  · rcases hFollows.found with hSame | hRead
    · exact hKept.found conditional row (hSame ▸ hFound) hState
    · rw [hRead] at hFound
      cases act <;> simp only [Act.readTask, reduceCtorEq] at hFound
      rename_i start limit condition
      rcases reply with e | _ | ⟨first, rest⟩
      · cases hFound
      · cases hFound
      · cases hFound
        obtain ⟨hRow, hHolds⟩ := hExec.mem_of_findTasks row List.mem_cons_self
        cases hExec.taskEffect with
        | kept _ hTasks => exact ⟨(hTasks row.pk).trans hRow, hHolds⟩

/-- What the courses say of the tables is true. -/
theorem backed_of_run (hRun : Run (scheduler reading) A first pool) (hIdle : first.Idle) :
    ∀ pid request course, courseOf pool pid = some (request, course) →
      course.Backed reading pool.shared := by
  refine hRun.invariant (I := fun pool => ∀ pid request course,
    courseOf pool pid = some (request, course) → course.Backed reading pool.shared) ?_ ?_
  · intro pid request course hCourse
    rw [courseOf_idle hIdle] at hCourse
    cases hCourse
  · intro pool event pool' hBefore hAll hStep _ pid request course hCourse
    have hMoves := moves_of_step hBefore hIdle hStep
    cases courseMoves_of_step hBefore hIdle hStep with
    | quiet _ _ _ _ _ hNew =>
        rcases hNew pid request course hCourse with hOld | ⟨-, rfl⟩
        · exact (hAll pid request course hOld).kept hMoves
        · cases hCall : request.call <;>
            exact ⟨fun h => (by cases h), fun h => (by cases h), fun _ _ h => (by cases h)⟩
    | performed actor actorRequest before op reply _ hActor hMay hExec _ hCourses =>
        rw [courseOf, hCourses] at hCourse
        split at hCourse
        · cases hCourse
          exact ((hAll actor request before hActor).kept hMoves).next hMay hExec
        · exact (hAll pid request course hCourse).kept hMoves

end TernScheduler
